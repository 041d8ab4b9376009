import RowPolicy.Proofs.Json.Drafting

/-!
# Decoding of records

The fields of a record are decoded one by one. A record that is written with distinct names is
decoded field by field, and a decoder that accepts a draft has met no fault in it.
-/

namespace RowPolicy.Json

variable {α β : Type} {fields : List (String × β)} {seen : List String}

/-! ### Lists -/

lemma mapM_eq_ok {ε : Type} {xs : List α} {f : α → Except ε β} {g : α → β}
    (h : ∀ x ∈ xs, f x = .ok (g x)) : xs.mapM f = .ok (xs.map g) := by
  induction xs with
  | nil => rfl
  | cons x xs ih =>
    rw [List.forall_mem_cons] at h
    rw [List.mapM_cons, h.1, ih h.2]
    rfl

lemma of_mapM_eq_ok {ε : Type} {xs : List α} {f : α → Except ε β} {ys : List β}
    (h : xs.mapM f = .ok ys) : ∀ x ∈ xs, ∃ y, f x = .ok y := by
  induction xs generalizing ys with
  | nil => simp
  | cons x xs ih =>
    rw [List.mapM_cons] at h
    obtain ⟨y, hy, h⟩ := bind_eq_ok.mp h
    obtain ⟨ys', hys, -⟩ := bind_eq_ok.mp h
    exact List.forall_mem_cons.mpr ⟨⟨y, hy⟩, ih hys⟩

lemma rereads_eq (items : List Json) : rereads items = items.map reread := by
  induction items with
  | nil => rw [rereads, List.map_nil]
  | cons j items ih => rw [rereads, List.map_cons, ih]

lemma rereadFields_eq (fields : Fields) :
    rereadFields fields = fields.map fun f => (f.1, f.2.reread) := by
  induction fields with
  | nil => rw [rereadFields, List.map_nil]
  | cons f fields ih => rw [rereadFields, List.map_cons, ih]

@[simp] lemma reread_texts (ss : List String) : (texts ss).reread = texts ss := by
  rw [texts, reread, rereads_eq, List.map_map]
  exact congrArg _ (List.map_congr_left fun s _ => by rw [Function.comp, reread])

@[simp] lemma asList_map {γ : Type} {decode : Json → Decoded β} {f : γ → Json} {g : γ → β}
    {xs : List γ} (h : ∀ x ∈ xs, decode (f x) = .ok (g x)) :
    asList decode (.arr (xs.map f)) = .ok (xs.map g) := by
  rw [asList, List.mapM_map]
  exact mapM_eq_ok h

@[simp] lemma asStrings_texts (ss : List String) : asStrings (texts ss) = .ok ss := by
  have h : ∀ s ∈ ss, asString (.str s) = .ok (id s) := fun _ _ => rfl
  rw [asStrings, texts, asList_map h, List.map_id]

/-! ### Evaluation of records -/

section Evaluation

variable (r : Record β) (checks : List (FieldCheck β)) (skip : β → Decoded Unit)

@[simp] lemma check_eq :
    r.check checks = Record.scan checks r.skip [] r.fields >>= fun _ => r.stop := rfl

@[simp] lemma scan_nil (seen : List String) : Record.scan checks skip seen [] = .ok () := rfl

@[simp] lemma scan_cons (seen : List String) (name : String) (b : β)
    (rest : List (String × β)) :
    Record.scan checks skip seen ((name, b) :: rest) =
      match checks.lookup name with
      | none => skip b >>= fun _ => Record.scan checks skip seen rest
      | some check =>
        if seen.contains name then .error (.duplicateField name)
        else check b >>= fun _ => Record.scan checks skip (name :: seen) rest := rfl

@[simp] lemma required_eq (name : String) (decode : β → Decoded α) :
    r.required name decode =
      match r.fields.lookup name with
      | some b => decode b
      | none => .error (r.missing name) := rfl

@[simp] lemma optional_eq (name : String) (decode : β → Decoded α) (a : α) :
    r.optional name decode a =
      match r.fields.lookup name with
      | some b => decode b
      | none => .ok a := rfl

@[simp] lemma of_eq (name : String) (decode : β → Decoded α) :
    FieldCheck.of name decode = (name, fun b => (decode b).map fun _ => ()) := rfl

@[simp] lemma recordOf_eq (fields : Fields) :
    recordOf fields = ⟨fields, .missingField, fun _ => .ok (), .ok ()⟩ := rfl

@[simp] lemma ok_map (f : α → β) (a : α) : (.ok a : Decoded α).map f = .ok (f a) := rfl

@[simp] lemma ok_bind_decoded (a : α) (f : α → Decoded β) : (.ok a : Decoded α) >>= f = f a := rfl

@[simp] lemma pure_decoded (a : α) : (pure a : Decoded α) = .ok a := rfl

@[simp] lemma asString_str (s : String) : asString (.str s) = .ok s := rfl

end Evaluation

/-! ### Drafts of values -/

namespace Draft

lemma ofFields_eq (fields : Fields) : ofFields fields = fields.map fun f => (f.1, ofJson f.2) := by
  induction fields with
  | nil => rw [ofFields, List.map_nil]
  | cons f fields ih => rw [ofFields, List.map_cons, ih]

mutual

lemma toJson_ofJson (j : Json) : (ofJson j).toJson = .ok j := by
  match j with
  | .null | .bool b | .int i | .real x | .str s => rw [ofJson, toJson]
  | .arr items => rw [ofJson, toJson, itemsToJson_ofJsons items]; rfl
  | .obj fields => simp only [ofJson, toJson, fieldsToJson_ofFields fields]

lemma itemsToJson_ofJsons (items : List Json) : itemsToJson (ofJsons items) = .ok items := by
  match items with
  | [] => rw [ofJsons, itemsToJson]
  | j :: rest => rw [ofJsons, itemsToJson, toJson_ofJson j, itemsToJson_ofJsons rest]; rfl

lemma fieldsToJson_ofFields (fields : Fields) : fieldsToJson (ofFields fields) = .ok fields := by
  match fields with
  | [] => rw [ofFields, fieldsToJson]
  | (k, j) :: rest => rw [ofFields, fieldsToJson, toJson_ofJson j, fieldsToJson_ofFields rest]; rfl

end

@[simp] lemma content_ofJson (j : Json) : (ofJson j).content = .ok j := by
  rw [content, toJson_ofJson]
  rfl

lemma contents_ofFields (fields : Fields) : contents (ofFields fields) = .ok fields := by
  rw [contents, ofFields_eq, List.mapM_map]
  refine (mapM_eq_ok (g := id) fun f _ => ?_).trans (by rw [List.map_id])
  rw [Function.comp, content_ofJson]
  rfl

lemma content_eq_ok {d : Draft} {j : Json} (h : d.content = .ok j) : d.IsWhole :=
  ⟨j, mapError_eq_ok.mp h⟩

end Draft

/-! ### Checks of fields -/

def fieldOutcome (checks : List (FieldCheck β)) (skip : β → Decoded Unit) (f : String × β) :
    Decoded Unit :=
  match checks.lookup f.1 with
  | none => skip f.2
  | some check => check f.2

lemma scan_eq_ok {checks : List (FieldCheck β)} {skip : β → Decoded Unit}
    (hnodup : (fields.map (·.1)).Nodup) (hseen : ∀ f ∈ fields, f.1 ∉ seen)
    (h : ∀ f ∈ fields, fieldOutcome checks skip f = .ok ()) :
    Record.scan checks skip seen fields = .ok () := by
  induction fields generalizing seen with
  | nil => rfl
  | cons f fields ih =>
    obtain ⟨name, b⟩ := f
    rw [List.map_cons, List.nodup_cons] at hnodup
    rw [List.forall_mem_cons] at hseen h
    have hfirst := h.1
    unfold fieldOutcome at hfirst
    unfold Record.scan
    cases hlookup : checks.lookup name with
    | none =>
      simp only [hlookup] at hfirst
      rw [hfirst]
      exact ih hnodup.2 hseen.2 h.2
    | some check =>
      simp only [hlookup] at hfirst
      have hcontains : seen.contains name = false := by simpa using hseen.1
      simp only [hcontains, Bool.false_eq_true, if_false, hfirst]
      refine ih hnodup.2 (fun f hf hmem => ?_) h.2
      obtain heq | hmem := List.mem_cons.mp hmem
      · exact hnodup.1 (List.mem_map.mpr ⟨f, hf, heq⟩)
      · exact hseen.2 f hf hmem

lemma of_scan_eq_ok {checks : List (FieldCheck β)} {skip : β → Decoded Unit}
    (h : Record.scan checks skip seen fields = .ok ()) :
    ∀ f ∈ fields, fieldOutcome checks skip f = .ok () := by
  induction fields generalizing seen with
  | nil => simp
  | cons f fields ih =>
    obtain ⟨name, b⟩ := f
    unfold Record.scan at h
    rw [List.forall_mem_cons, fieldOutcome]
    cases hlookup : checks.lookup name with
    | none =>
      simp only [hlookup] at h
      obtain ⟨_, hskip, h⟩ := bind_eq_ok.mp h
      exact ⟨hskip, ih h⟩
    | some check =>
      simp only [hlookup] at h
      split at h
      next => cases h
      next =>
        obtain ⟨_, hcheck, h⟩ := bind_eq_ok.mp h
        exact ⟨hcheck, ih h⟩

lemma lookup_of_mem (hnodup : (fields.map (·.1)).Nodup) {name : String} {b : β}
    (h : (name, b) ∈ fields) : fields.lookup name = some b := by
  induction fields with
  | nil => cases h
  | cons f fields ih =>
    obtain ⟨name', b'⟩ := f
    rw [List.map_cons, List.nodup_cons] at hnodup
    rw [List.lookup_cons]
    obtain heq | hmem := List.mem_cons.mp h
    · cases heq
      simp
    · have hne : name ≠ name' := by
        rintro rfl
        exact hnodup.1 (List.mem_map.mpr ⟨_, hmem, rfl⟩)
      rw [beq_eq_false_iff_ne.mpr hne]
      exact ih hnodup.2 hmem

lemma mem_of_lookup {name : String} {b : β} (h : fields.lookup name = some b) :
    (name, b) ∈ fields := by
  obtain ⟨before, after, rfl, -⟩ := List.lookup_eq_some_iff.mp h
  simp

/-! ### Decoders that meet every fault -/

namespace Draft

/-- A check accepts only drafts without faults. -/
def ThoroughCheck (c : FieldCheck Draft) : Prop := ∀ d, c.2 d = .ok () → d.IsWhole

lemma Thorough.check {decode : Draft → Decoded α} (h : Thorough decode) (name : String) :
    ThoroughCheck (.of name decode) := by
  intro d hd
  obtain ⟨a, ha, -⟩ := map_eq_ok.mp hd
  exact h d a ha

lemma isWhole_of_scan {checks : List (FieldCheck Draft)} {skip : Draft → Decoded Unit}
    {fields : List (String × Draft)} (hchecks : ∀ c ∈ checks, ThoroughCheck c)
    (hskip : ∀ f ∈ fields, checks.lookup f.1 = none → skip f.2 = .ok () → f.2.IsWhole)
    (h : Record.scan checks skip seen fields = .ok ()) : ∀ f ∈ fields, f.2.IsWhole := by
  intro f hf
  have houtcome := of_scan_eq_ok h f hf
  unfold fieldOutcome at houtcome
  cases hlookup : checks.lookup f.1 with
  | none =>
    simp only [hlookup] at houtcome
    exact hskip f hf hlookup houtcome
  | some check =>
    simp only [hlookup] at houtcome
    exact hchecks _ (mem_of_lookup hlookup) f.2 houtcome

lemma isWhole_of_check {checks : List (FieldCheck Draft)} {fields : List (String × Draft)}
    {stop : Option JsonFault} (hchecks : ∀ c ∈ checks, ThoroughCheck c)
    (h : (recordOf fields stop).check checks = .ok ()) : (obj fields stop).IsWhole := by
  obtain ⟨_, hscan, hstop⟩ := bind_eq_ok.mp h
  refine isWhole_obj.mpr ⟨isWhole_of_scan hchecks (fun f _ _ hskip => ?_) hscan, ?_⟩
  · obtain ⟨j, hj, -⟩ := map_eq_ok.mp hskip
    exact content_eq_ok hj
  · cases stop with
    | none => rfl
    | some e => cases hstop

lemma isWhole_str (s : String) : (str s).IsWhole := ⟨.str s, by rw [toJson]⟩

lemma isWhole_of_head {d : Draft} {s : String} (h : lift d.head = .ok (.str s)) : d.IsWhole := by
  have hhead := mapError_eq_ok.mp h
  cases d <;> cases hhead
  · exact ⟨.str s, by rw [toJson]⟩
  · exact isWhole_str s

variable {decode : Json → Decoded α}

lemma thorough_scalar (h : ∀ j a, decode j = .ok a → ∃ s, j = .str s) :
    Thorough (scalar decode) := by
  intro d a ha
  obtain ⟨j, hj, ha⟩ := bind_eq_ok.mp ha
  obtain ⟨s, rfl⟩ := h j a ha
  exact isWhole_of_head hj

lemma thorough_named (h : ∀ j a, decode j = .ok a → (∃ s, j = .str s) ∨ ∃ fields, j = .obj fields) :
    Thorough (named decode) := by
  intro d a ha
  cases d with
  | obj fields stop =>
    obtain ⟨j, hj, -⟩ := bind_eq_ok.mp ha
    exact content_eq_ok hj
  | fault e =>
    obtain ⟨j, hj, -⟩ := bind_eq_ok.mp ha
    cases hj
  | arr items =>
    obtain ⟨s, hs⟩ | ⟨fields, hfields⟩ := h (.arr []) a ha
    · cases hs
    · cases hfields
  | str s => exact isWhole_str s
  | null => exact ⟨.null, by rw [toJson]⟩
  | bool b => exact ⟨.bool b, by rw [toJson]⟩
  | number j => exact ⟨j, by rw [toJson]⟩

lemma str_of_asText {expected : String} {j : Json} {s : String}
    (h : asText expected j = .ok s) : j = .str s := by
  cases j <;> cases h
  rfl

lemma of_asNamed {origin : Origin} {known : List (String × α)} {j : Json} {a : α}
    (h : asNamed origin known j = .ok a) : (∃ s, j = .str s) ∨ ∃ fields, j = .obj fields := by
  obtain ⟨v, hv, -⟩ := bind_eq_ok.mp h
  cases j with
  | str s => exact .inl ⟨s, rfl⟩
  | obj fields => exact .inr ⟨fields, rfl⟩
  | _ => cases origin <;> cases hv

end Draft

end RowPolicy.Json
