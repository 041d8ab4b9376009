import RowPolicy.Proofs.Admin.Progress
import RowPolicy.Proofs.Admin.Run

/-!
# Bodies of artifacts and their fingerprints

The registry keeps the body of an artifact as JSON, and the fingerprint of an artifact is the digest
of that text. Two bodies that differ have different texts, since the text of a body is decoded as
the body. So an artifact that looks unchanged is unchanged, up to collisions of the digest.
-/

namespace RowPolicy

open Store

namespace ArtifactBody

open Json

lemma decodeText_serialized (b : ArtifactBody) : Draft.decodeText decode b.serialized = .ok b := by
  have hplain := b.isPlain_toJson
  have hdecode := b.decode_toJson
  rw [← hplain.reread] at hdecode
  refine (Draft.decodeText_compact ArtifactRecord.thorough_body).mpr ⟨hplain.sound, ?_, hdecode⟩
  exact hplain.depth.trans_lt (by decide)

lemma serialized_injective : Function.Injective serialized := by
  intro b b' h
  have hdecode := b.decodeText_serialized
  rw [h, b'.decodeText_serialized] at hdecode
  exact (Except.ok.inj hdecode).symm

lemma fingerprint_injective {b b' : ArtifactBody}
    (hsha : Set.InjOn Sha256.ofText {b.serialized, b'.serialized})
    (h : b.fingerprint = b'.fingerprint) : b = b' :=
  serialized_injective (hsha (by simp) (by simp) h)

end ArtifactBody

namespace Store.Contains

variable {db : Database} {c : Contents}

lemma artifact_of_mem {a : ArtifactRecord} (h : Contains db c) (ha : a ∈ c.artifacts) :
    Store.artifact db a.identifier = .ok (some a) := by
  obtain ⟨t, htable, hschema, hread⟩ := h.artifacts.holds.exists_read artifactTable rfl
    decodeArtifact ["record", "identifier"] (by decide) fun _ _ => recordText_artifact
  obtain ⟨as, hperm, hfirst, -⟩ := hread _ (fun b => decide (b.identifier = a.identifier)) _
    (fun _ _ => hasTexts_identifier a.identifier) (.refl _)
  rw [Store.artifact, htable, ok_bind, rowsWith, hasTexts_of_schema hschema]
  refine hfirst.trans ?_
  cases as with
  | nil => simpa [ha] using hperm.mem_iff (a := a)
  | cons b rest =>
    obtain ⟨hb, hkey⟩ := List.mem_filter.mp (hperm.mem_iff.mp List.mem_cons_self)
    obtain rfl : b = a := h.artifacts.eq_of_key hb ha (of_decide_eq_true hkey)
    rw [readHead, h.readRecord_artifact hb]
    rfl

lemma saveArtifact_artifact {a : ArtifactRecord} (h : Contains db c)
    (ha : a.createdAt.IsRegular) :
    ∃ db', Store.saveArtifact db a = .ok db' ∧
      Store.artifact db' a.identifier = .ok (some a) := by
  obtain ⟨db', hsave⟩ := h.saveArtifact_isOk a
  obtain ⟨hc', -⟩ := h.saveArtifact ha hsave
  exact ⟨db', hsave, hc'.artifact_of_mem List.mem_cons_self⟩

end Store.Contains

/-- The text of a body tells all of it. It is decoded as the body, bodies with the same text are
equal, and so are those with the same fingerprint if their texts do not collide. An artifact that is
put into the registry is found there with its body and its fingerprint. -/
theorem ArtifactBody.text_determines (b : ArtifactBody) :
    Json.Draft.decodeText decode b.serialized = .ok b ∧
    (∀ b', b.serialized = b'.serialized ↔ b = b') ∧
    (∀ b', Set.InjOn Sha256.ofText {b.serialized, b'.serialized} →
      (b.fingerprint = b'.fingerprint ↔ b = b')) ∧
    ∀ (db : Database) (c : Contents) (owner : Uuid) (now : Instant) (x : Rendered),
      Contains db c → now.IsRegular → x.body = b →
      ∃ db', Store.saveArtifact db (.ofRendered owner now x) = .ok db' ∧
        ∃ a, Store.artifact db' x.identifier = .ok (some a) ∧ a.body = b ∧
          a.fingerprint = b.fingerprint := by
  refine ⟨b.decodeText_serialized, fun b' => serialized_injective.eq_iff, fun b' hsha => ?_, ?_⟩
  · exact ⟨fingerprint_injective hsha, congrArg fingerprint⟩
  · rintro db c owner now x hc hnow rfl
    obtain ⟨db', hsave, hfound⟩ := hc.saveArtifact_artifact (a := .ofRendered owner now x) hnow
    exact ⟨db', hsave, _, hfound, rfl, rfl⟩

/-- Two guards that differ in a control character, one of which is stored. -/
theorem ArtifactBody.text_determines_guards :
    let b : ArtifactBody := .createGuard ["a\"b", "é\\"] [⟨"a\"b", "line\nbreak", "SELECT '\x01'"⟩]
    let b' : ArtifactBody := .createGuard ["a\"b", "é\\"] [⟨"a\"b", "line\nbreak", "SELECT '\x02'"⟩]
    let x : Rendered := ⟨"tg_create_t", .writeGuard, "t", some .create, b⟩
    Json.Draft.decodeText decode b.serialized = .ok b ∧
    Set.InjOn Sha256.ofText {b.serialized, b'.serialized} ∧ b.fingerprint ≠ b'.fingerprint ∧
    Contains ({} : Database).managed {} ∧ (⟨0, 0⟩ : Instant).IsRegular ∧
    ∃ db', Store.saveArtifact ({} : Database).managed (.ofRendered (Uuid.nth 0) ⟨0, 0⟩ x) =
        .ok db' ∧
      ∃ a, Store.artifact db' "tg_create_t" = .ok (some a) ∧ a.body = b ∧
        a.fingerprint = b.fingerprint := by
  intro b b' x
  have hdigests : Sha256.ofText b.serialized ≠ Sha256.ofText b'.serialized := by
    decide +kernel
  have hsha : Set.InjOn Sha256.ofText {b.serialized, b'.serialized} := by
    rintro s (rfl | rfl) s' (rfl | rfl) h
    · rfl
    · exact absurd h hdigests
    · exact absurd h.symm hdigests
    · rfl
  have hc : Contains ({} : Database).managed {} := Admin.contains_managed
    ⟨by decide, by simp, by simp, by simp, by decide⟩
  have hnow : (⟨0, 0⟩ : Instant).IsRegular := by decide
  obtain ⟨hdecode, -, hfingerprint, hstored⟩ := text_determines b
  refine ⟨hdecode, hsha, fun h => ?_, hc, hnow, hstored _ _ _ _ x hc hnow rfl⟩
  exact hdigests (congrArg (fun b : ArtifactBody => b.fingerprint) ((hfingerprint b' hsha).mp h))

end RowPolicy
