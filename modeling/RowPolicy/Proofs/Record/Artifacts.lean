import RowPolicy.Proofs.Record.Definitions

/-!
# Artifacts read back

An artifact holds only texts and is read back as it is.
-/

namespace RowPolicy

/-! ### Bodies -/

namespace Json.Draft

variable {α : Type} {tag expected s : String} {decodeTag : Json → Decoded α} {fields : Fields}
  {a : α}

lemma splitTag_obj (drafts : List (String × Draft)) (hcheck : (recordOf drafts none).check
      [.of tag (scalar decodeTag)] = .ok ())
    (hlookup : (recordOf drafts none).required tag (scalar decodeTag) = .ok a)
    (hothers : (recordOf drafts none).others [tag] = ofFields fields) :
    splitTag tag expected decodeTag (.obj drafts none) = .ok (a, .obj fields) := by
  rw [splitTag]
  simp only [hcheck, hlookup, hothers, contents_ofFields, ok_bind]
  rfl

lemma splitTag_ofJson (hnames : (tag :: fields.map (·.1)).Nodup)
    (htag : decodeTag (.str s) = .ok a) :
    splitTag tag expected decodeTag (ofJson (.obj ((tag, .str s) :: fields))) =
      .ok (a, .obj fields) := by
  have hdrafts : ofFields ((tag, .str s) :: fields) = (tag, .str s) :: ofFields fields := by
    rw [ofFields, ofJson]
  have hother : ∀ f ∈ ofFields fields, f.1 ≠ tag ∧ ∃ j, f.2 = ofJson j := by
    intro f hf
    rw [ofFields_eq] at hf
    obtain ⟨g, hg, rfl⟩ := List.mem_map.mp hf
    refine ⟨?_, g.2, rfl⟩
    rintro rfl
    exact (List.nodup_cons.mp hnames).1 (List.mem_map.mpr ⟨g, hg, rfl⟩)
  have hnodup : (((tag, Draft.str s) :: ofFields fields).map (·.1)).Nodup := by
    rw [List.map_cons, ofFields_eq, List.map_map]
    exact hnames
  rw [ofJson, hdrafts]
  refine splitTag_obj _ ?_ ?_ ?_
  · rw [check_eq]
    refine bind_eq_ok.mpr ⟨(), scan_eq_ok hnodup (by simp) fun f hf => ?_, rfl⟩
    obtain rfl | hf := List.mem_cons.mp hf
    · simp [fieldOutcome, scalar_str, htag]
    · obtain ⟨hname, j, hj⟩ := hother f hf
      simp [fieldOutcome, List.lookup_cons, beq_eq_false_iff_ne.mpr hname, recordOf, hj]
  · simp [recordOf, scalar_str, htag]
  · change List.filter _ ((tag, Draft.str s) :: ofFields fields) = _
    rw [List.filter_cons_of_neg (by simp)]
    exact List.filter_eq_self.mpr fun f hf => by simp [(hother f hf).1]

end Json.Draft

namespace ArtifactBody

open Json

lemma isPlain_check (c : RenderedCheck) : c.toJson.IsPlain 1 :=
  isPlain_obj (by simp [isPlain_str])

lemma isPlain_condition (c : RenderedCondition) : c.toJson.IsPlain 1 :=
  isPlain_obj (by simp [isPlain_str])

lemma isPlain_toJson (b : ArtifactBody) : b.toJson.IsPlain 3 := by
  have hchecks : ∀ cs : List RenderedCheck, (Json.arr (cs.map RenderedCheck.toJson)).IsPlain 2 :=
    fun cs => isPlain_arr fun j hj => by
      obtain ⟨c, -, rfl⟩ := List.mem_map.mp hj
      exact isPlain_check c
  have hconditions : ∀ cs : List RenderedCondition,
      (Json.arr (cs.map RenderedCondition.toJson)).IsPlain 2 := fun cs => isPlain_arr fun j hj => by
    obtain ⟨c, -, rfl⟩ := List.mem_map.mp hj
    exact isPlain_condition c
  refine isPlain_obj ?_
  cases b <;> simp [toFields, isPlain_str, isPlain_texts, hchecks, hconditions]

lemma decode_check (c : RenderedCheck) : RenderedCheck.decode c.toJson = .ok c := rfl

lemma decode_condition (c : RenderedCondition) : RenderedCondition.decode c.toJson = .ok c := rfl

lemma asList_checks (cs : List RenderedCheck) :
    asList RenderedCheck.decode (.arr (cs.map RenderedCheck.toJson)) = .ok cs := by
  rw [asList_map fun c _ => decode_check c, List.map_id']

lemma asList_conditions (cs : List RenderedCondition) :
    asList RenderedCondition.decode (.arr (cs.map RenderedCondition.toJson)) = .ok cs := by
  rw [asList_map fun c _ => decode_condition c, List.map_id']

lemma decode_toJson (b : ArtifactBody) : decode (Draft.ofJson b.toJson) = .ok b := by
  cases b with
  | view createSql =>
    rw [decode, toJson, Draft.splitTag_ofJson (a := .view) (by simp [toFields]) rfl]
    rfl
  | accessor parameters checks querySql =>
    rw [decode, toJson, Draft.splitTag_ofJson (a := .accessor) (by simp [toFields]) rfl]
    simp [toFields, decodeAccessor, asRecord, List.lookup_cons, asList_checks]
  | createGuard columns conditions =>
    rw [decode, toJson, Draft.splitTag_ofJson (a := .guard) (by simp [toFields]) rfl]
    simp only [ok_bind, decodeGuard]
    rw [toFields, Draft.splitTag_ofJson (a := true) (by simp) rfl]
    simp [decodeCreateGuard, asRecord, List.lookup_cons, asList_conditions]
  | restrictGuard columns key filterSql =>
    rw [decode, toJson, Draft.splitTag_ofJson (a := .guard) (by simp [toFields]) rfl]
    simp only [ok_bind, decodeGuard]
    rw [toFields, Draft.splitTag_ofJson (a := false) (by simp) rfl]
    simp [decodeRestrictGuard, asRecord, List.lookup_cons]

end ArtifactBody

/-! ### Records -/

namespace ArtifactRecord

open Json

lemma isPlain_toJson (a : ArtifactRecord) : a.toJson.IsPlain 4 := by
  have hoperation : (operationJson a.operation).IsPlain 3 := by
    cases a.operation with
    | none => exact isPlain_null 3
    | some op => exact isPlain_str 3 op.text
  exact isPlain_obj (by simp [isPlain_str, hoperation, a.body.isPlain_toJson])

lemma decode_toJson {a : ArtifactRecord} (h : a.createdAt.IsRegular) :
    decode .text (Draft.ofJson a.toJson) = .ok a := by
  obtain ⟨identifier, owner, kind, target, operation, body, fingerprint, createdAt⟩ := a
  have hkind : Draft.named (ArtifactKind.decode .text) (.str kind.text) = .ok kind := by
    cases kind <;> rfl
  have hoperation : decodeOperation .text (Draft.ofJson (operationJson operation)) =
      .ok operation := by
    cases operation with
    | none => rw [operationJson, Draft.ofJson]; rfl
    | some op =>
      rw [operationJson, Draft.ofJson]
      cases op <;> rfl
  rw [toJson, Draft.ofJson, decode, Draft.asRecord]
  simp [decodeFields, Draft.recordOf, Draft.ofFields_eq, Draft.ofJson, List.lookup_cons,
    Draft.scalar_str, Stamped.decode_uuid, Stamped.decode_instant h, hkind, hoperation,
    ArtifactBody.decode_toJson]

lemma thorough_body : Draft.Thorough ArtifactBody.decode := by
  intro d b hb
  obtain ⟨⟨tag, rest⟩, htag, -⟩ := bind_eq_ok.mp hb
  have htext : ∀ {β : Type} (known : List (String × β)),
      Draft.Thorough (Draft.scalar (ArtifactBody.decodeTag known)) := fun known =>
    Draft.thorough_scalar fun j a ha => by
      obtain ⟨s, hs, -⟩ := bind_eq_ok.mp ha
      exact ⟨s, Draft.str_of_asText hs⟩
  unfold Draft.splitTag at htag
  cases d with
  | obj fields stop =>
    obtain ⟨_, hcheck, -⟩ := bind_eq_ok.mp htag
    refine Draft.isWhole_of_check (fun c hc => ?_) hcheck
    rw [List.mem_singleton.mp hc]
    exact (htext _).check _
  | arr items =>
    cases items with
    | nil => cases htag
    | cons first rest =>
      obtain ⟨a, hfirst, htag⟩ := bind_eq_ok.mp htag
      obtain ⟨js, hrest, -⟩ := bind_eq_ok.mp htag
      refine Draft.isWhole_arr.mpr (List.forall_mem_cons.mpr ⟨htext _ _ _ hfirst, fun d hd => ?_⟩)
      obtain ⟨j, hj⟩ := of_mapM_eq_ok hrest d hd
      exact Draft.content_eq_ok hj
  | _ =>
    obtain ⟨j, -, htag⟩ := bind_eq_ok.mp htag
    cases htag

lemma thorough_operation (origin : Origin) : Draft.Thorough (decodeOperation origin) := by
  intro d a ha
  have hnamed : Draft.Thorough (Draft.named (Operation.decode origin)) :=
    Draft.thorough_named fun j a ha => Draft.of_asNamed ha
  unfold decodeOperation at ha
  split at ha
  next => exact ⟨.null, by rw [Draft.toJson]⟩
  next =>
    obtain ⟨op, hop, -⟩ := map_eq_ok.mp ha
    exact hnamed _ _ hop

lemma thorough_text : Draft.Thorough (Draft.scalar asString) :=
  Draft.thorough_scalar fun _ _ ha => ⟨_, Draft.str_of_asText ha⟩

def checks (origin : Origin) : List (FieldCheck Draft) :=
  [.of "identifier" (Draft.scalar asString), .of "owner" (Draft.scalar Uuid.decode),
    .of "kind" (Draft.named (ArtifactKind.decode origin)), .of "target" (Draft.scalar asString),
    .of "operation" (decodeOperation origin), .of "body" ArtifactBody.decode,
    .of "fingerprint" (Draft.scalar asString), .of "created_at" (Draft.scalar Instant.decode)]

lemma thorough_checks (origin : Origin) : ∀ c ∈ checks origin, Draft.ThoroughCheck c := by
  have hkind : Draft.Thorough (Draft.named (ArtifactKind.decode origin)) :=
    Draft.thorough_named fun j a ha => Draft.of_asNamed ha
  simp only [checks, List.forall_mem_cons]
  exact ⟨thorough_text.check _, Stamped.thorough_id.check _, hkind.check _, thorough_text.check _,
    (thorough_operation origin).check _, thorough_body.check _, thorough_text.check _,
    Stamped.thorough_time.check _, by simp⟩

lemma check_of_decodeFields {origin : Origin} {r : Record Draft} {a : ArtifactRecord}
    (h : decodeFields origin r = .ok a) : r.check (checks origin) = .ok () := by
  obtain ⟨_, hcheck, -⟩ := bind_eq_ok.mp h
  exact hcheck

lemma lookup_checks {origin : Origin} {name : String} (h : name ∈ fieldNames) :
    (checks origin).lookup name ≠ none := by
  simp only [fieldNames, List.mem_cons, List.not_mem_nil, or_false] at h
  rcases h with rfl | rfl | rfl | rfl | rfl | rfl | rfl | rfl <;> simp [checks, List.lookup_cons]

lemma drop_of_behindItems {origin : Origin} {k : Nat} {items : List Draft}
    (h : Draft.behindItems origin k items = .ok ()) : items.drop k = [] := by
  unfold Draft.behindItems at h
  split at h
  next hnil => exact hnil
  all_goals cases h

lemma thorough_decode (origin : Origin) : Draft.Thorough (decode origin) := by
  intro d a ha
  unfold decode Draft.asRecord at ha
  cases d with
  | obj fields stop =>
    exact Draft.isWhole_of_check (thorough_checks origin) (check_of_decodeFields ha)
  | arr items =>
    obtain ⟨b, hb, ha⟩ := bind_eq_ok.mp ha
    obtain ⟨_, hbehind, -⟩ := bind_eq_ok.mp ha
    obtain ⟨_, hscan, -⟩ := bind_eq_ok.mp (check_of_decodeFields hb)
    have hzip := Draft.isWhole_of_scan (thorough_checks origin)
      (fun f hf hnone => absurd hnone (lookup_checks (List.of_mem_zip hf).1)) hscan
    have hlength : items.length ≤ fieldNames.length :=
      List.drop_eq_nil_iff.mp (drop_of_behindItems hbehind)
    refine Draft.isWhole_arr.mpr fun d hd => ?_
    rw [← List.map_snd_zip hlength] at hd
    obtain ⟨f, hf, rfl⟩ := List.mem_map.mp hd
    exact hzip f hf
  | _ =>
    obtain ⟨j, -, ha⟩ := bind_eq_ok.mp ha
    cases ha

lemma readRecord_toJson {a : ArtifactRecord} (h : a.createdAt.IsRegular) :
    Store.readRecord Store.decodeArtifact a.toJson.compact = .ok a := by
  have hplain := a.isPlain_toJson
  have hdecode := decode_toJson h
  rw [Store.readRecord, mapError_eq_ok, Store.decodeArtifact]
  rw [← hplain.reread] at hdecode
  refine (Draft.decodeText_compact (thorough_decode .text)).mpr ⟨hplain.sound, ?_, hdecode⟩
  exact hplain.depth.trans_lt (by decide)

end ArtifactRecord

end RowPolicy
