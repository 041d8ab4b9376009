import RowPolicy.Json.DraftRecord
import RowPolicy.Proofs.Json.Lexing
import RowPolicy.Proofs.Outcome

/-!
# Drafts of printed values

The machine builds the draft of a value from the value's tokens, with its numbers as they are read,
unless the value is too deep. A text that does not end in a complete value has a fault in its draft,
so a decoder that reads its draft in full refuses it.
-/

namespace RowPolicy.Json

/-! ### What is read -/

/-- The number that a numeral is read as. -/
def Numeral.json (n : Numeral) : Json :=
  match n.value with
  | .ok j => j
  | .error _ => .null

mutual

/-- A value with its numbers as they are read. -/
def reread : Json → Json
  | .int i => (Numeral.ofInt i).json
  | .real x => if x.isFinite then x.numeral.json else .null
  | .arr items => .arr (rereads items)
  | .obj fields => .obj (rereadFields fields)
  | .null => .null
  | .bool b => .bool b
  | .str s => .str s

def rereads : List Json → List Json
  | [] => []
  | j :: rest => reread j :: rereads rest

def rereadFields : List (String × Json) → List (String × Json)
  | [] => []
  | (k, j) :: rest => (k, reread j) :: rereadFields rest

end

mutual

/-- The number of containers around the deepest part of a value. -/
def depth : Json → Nat
  | .arr items => itemsDepth items + 1
  | .obj fields => fieldsDepth fields + 1
  | _ => 0

def itemsDepth : List Json → Nat
  | [] => 0
  | j :: rest => max (depth j) (itemsDepth rest)

def fieldsDepth : List (String × Json) → Nat
  | [] => 0
  | (_, j) :: rest => max (depth j) (fieldsDepth rest)

end

namespace Draft

lemma ofJson_value {n : Numeral} {j : Json} (h : n.value = .ok j) : ofJson j = .number j := by
  unfold Numeral.value at h
  split at h
  next => cases h; rw [ofJson]
  next =>
    obtain ⟨x, -, rfl⟩ := map_eq_ok.mp h
    rw [ofJson]

/-! ### The machine -/

/-- The next token starts a value on the stack. -/
def Progress.Awaits (p : Progress) (stack : List Frame) : Prop :=
  ∀ t, t ≠ .closeArr → p.step t = startValue stack t

lemma awaits_value (stack : List Frame) : (Progress.reading stack .value).Awaits stack :=
  fun _ _ => rfl

lemma awaits_firstItem (stack : List Frame) :
    (Progress.reading stack .firstItem).Awaits (.item [] :: stack) := by
  intro t ht
  cases t <;> first | rfl | exact absurd rfl ht

lemma awaits_nextItem (stack : List Frame) (done : List Draft) :
    (Progress.reading stack (.nextItem done)).Awaits (.item done :: stack) := by
  intro t ht
  cases t <;> first | rfl | exact absurd rfl ht

/-- The machine goes on as expected exactly if there is room, and fails otherwise. -/
structure Ends (room : Prop) (p expected : Progress) : Prop where
  ok : room → p = expected
  failed : ¬ room → ∃ root, p = .failed root

lemma foldl_failed (ts : List Token) (root : Draft) :
    ts.foldl Progress.step (.failed root) = .failed root := by
  induction ts with
  | nil => rfl
  | cons t ts ih => exact ih

namespace Ends

variable {room room' : Prop} {p q r : Progress} {ts : List Token}

lemma of_eq (h : p = q) : Ends True p q := ⟨fun _ => h, fun h => absurd trivial h⟩

lemma trans (h : Ends room p q) (h' : room → Ends room' (ts.foldl Progress.step q) r) :
    Ends (room ∧ room') (ts.foldl Progress.step p) r where
  ok hroom := by rw [h.ok hroom.1, (h' hroom.1).ok hroom.2]
  failed hroom := by
    by_cases hfirst : room
    · rw [h.ok hfirst]
      exact (h' hfirst).failed fun hsecond => hroom ⟨hfirst, hsecond⟩
    · obtain ⟨root, hroot⟩ := h.failed hfirst
      exact ⟨root, by rw [hroot, foldl_failed]⟩

lemma congr (h : Ends room p q) (hiff : room' ↔ room) : Ends room' p q :=
  ⟨fun hroom => h.ok (hiff.mp hroom), fun hroom => h.failed fun h' => hroom (hiff.mpr h')⟩

end Ends

lemma ends_enter (stack : List Frame) (context : Context) :
    Ends (stack.length + 1 < depthLimit) (enter stack context) (.reading stack context) where
  ok hroom := by rw [enter, if_neg (Nat.not_le.mpr hroom)]
  failed hroom := ⟨_, by rw [enter, if_pos (Nat.le_of_not_lt hroom)]⟩

lemma startValue_token {n : Numeral} (h : n.token.isSound = true) (stack : List Frame) :
    startValue stack n.token = supply (ofJson n.json) stack ∧ n.token ≠ .closeArr := by
  unfold Numeral.token at h ⊢
  unfold Numeral.json
  cases hvalue : n.value with
  | ok j =>
    rw [ofJson_value hvalue]
    exact ⟨rfl, by simp⟩
  | error e =>
    rw [hvalue] at h
    cases h

end Draft

open Draft

mutual

/-- The tokens of a value supply it, unless it is too deep for the stack. -/
lemma ends_tokens (j : Json) (hsound : j.tokens.all Token.isSound = true) {p : Progress}
    {stack : List Frame} (hp : p.Awaits stack) (hstack : stack.length < depthLimit) :
    Ends (stack.length + j.depth < depthLimit) (j.tokens.foldl Progress.step p)
      (supply (ofJson j.reread) stack) := by
  have hscalar : ∀ {q : Progress} {n : Nat}, n = 0 → q = supply (ofJson j.reread) stack →
      Ends (stack.length + n < depthLimit) q (supply (ofJson j.reread) stack) :=
    fun hn hq => (Ends.of_eq hq).congr (by simp [hn, hstack])
  match j with
  | .null => exact hscalar rfl (hp _ nofun)
  | .bool b => exact hscalar rfl (hp _ nofun)
  | .str s => exact hscalar rfl (hp _ nofun)
  | .int i =>
    rw [tokens, List.all_cons, Bool.and_eq_true] at hsound
    obtain ⟨hvalue, hclose⟩ := startValue_token hsound.1 stack
    exact hscalar rfl ((hp _ hclose).trans (by rw [hvalue, reread]))
  | .real x =>
    rw [tokens, List.all_cons, Bool.and_eq_true] at hsound
    -- A number that is not finite is written as null.
    by_cases hfinite : x.isFinite = true
    · rw [if_pos hfinite] at hsound
      obtain ⟨hvalue, hclose⟩ := startValue_token hsound.1 stack
      refine hscalar rfl ?_
      rw [tokens, if_pos hfinite, reread, if_pos hfinite]
      exact (hp _ hclose).trans hvalue
    · refine hscalar rfl ?_
      rw [tokens, if_neg hfinite, reread, if_neg hfinite]
      exact hp _ nofun
  | .arr items =>
    rw [tokens, List.all_cons, Bool.and_eq_true, List.all_append, Bool.and_eq_true] at hsound
    -- The bracket takes one place of the stack.
    have hopen : Ends (stack.length + 1 < depthLimit) (p.step .openArr)
        (.reading stack .firstItem) := by
      rw [hp .openArr nofun]
      exact ends_enter stack .firstItem
    rw [tokens, List.foldl_cons, reread, ofJson]
    refine (hopen.trans fun hroom => ends_items items hsound.2.1 hroom).congr ?_
    rw [depth]
    omega
  | .obj fields =>
    rw [tokens, List.all_cons, Bool.and_eq_true, List.all_append, Bool.and_eq_true] at hsound
    have hopen : Ends (stack.length + 1 < depthLimit) (p.step .openObj)
        (.reading stack .firstKey) := by
      rw [hp .openObj nofun]
      exact ends_enter stack .firstKey
    rw [tokens, List.foldl_cons, reread, ofJson]
    refine (hopen.trans fun hroom => ends_fields fields hsound.2.1 hroom).congr ?_
    rw [depth]
    omega

lemma ends_items (items : List Json) (hsound : (itemsTokens items).all Token.isSound = true)
    {stack : List Frame} (hstack : stack.length + 1 < depthLimit) :
    Ends (stack.length + 1 + itemsDepth items < depthLimit)
      ((itemsTokens items ++ [Token.closeArr]).foldl Progress.step (.reading stack .firstItem))
      (supply (.arr (ofJsons (rereads items))) stack) := by
  match items with
  | [] => exact (Ends.of_eq rfl).congr (by simp [itemsDepth, hstack])
  | j :: rest =>
    rw [itemsTokens, List.all_append, Bool.and_eq_true] at hsound
    rw [itemsTokens, List.append_assoc, List.foldl_append]
    refine ((ends_tokens j hsound.1 (awaits_firstItem stack) hstack).trans fun _ =>
      ends_moreItems rest hsound.2 hstack [ofJson j.reread]).congr ?_
    rw [itemsDepth, List.length_cons]
    omega

lemma ends_moreItems (items : List Json)
    (hsound : (moreItemsTokens items).all Token.isSound = true)
    {stack : List Frame} (hstack : stack.length + 1 < depthLimit) (done : List Draft) :
    Ends (stack.length + 1 + itemsDepth items < depthLimit)
      ((moreItemsTokens items ++ [Token.closeArr]).foldl Progress.step
        (.reading stack (.afterItem done)))
      (supply (.arr (done.reverse ++ ofJsons (rereads items))) stack) := by
  match items with
  | [] =>
    rw [rereads, ofJsons, List.append_nil]
    exact (Ends.of_eq rfl).congr (by simp [itemsDepth, hstack])
  | j :: rest =>
    rw [moreItemsTokens, List.all_cons, Bool.and_eq_true, List.all_append, Bool.and_eq_true]
      at hsound
    rw [moreItemsTokens, List.cons_append, List.append_assoc, List.foldl_cons, List.foldl_append]
    have hrest := ends_moreItems rest hsound.2.2 hstack (ofJson j.reread :: done)
    rw [List.reverse_cons, List.append_assoc, List.singleton_append] at hrest
    refine ((ends_tokens j hsound.2.1 (awaits_nextItem stack done) hstack).trans fun _ =>
      hrest).congr ?_
    rw [itemsDepth, List.length_cons]
    omega

lemma ends_fields (fields : List (String × Json))
    (hsound : (fieldsTokens fields).all Token.isSound = true)
    {stack : List Frame} (hstack : stack.length + 1 < depthLimit) :
    Ends (stack.length + 1 + fieldsDepth fields < depthLimit)
      ((fieldsTokens fields ++ [Token.closeObj]).foldl Progress.step (.reading stack .firstKey))
      (supply (.obj (ofFields (rereadFields fields)) none) stack) := by
  match fields with
  | [] => exact (Ends.of_eq rfl).congr (by simp [fieldsDepth, hstack])
  | (k, j) :: rest =>
    rw [fieldsTokens, List.all_cons, List.all_cons, Bool.and_eq_true, Bool.and_eq_true,
      List.all_append, Bool.and_eq_true] at hsound
    rw [fieldsTokens, List.cons_append, List.cons_append, List.append_assoc, List.foldl_cons,
      List.foldl_cons, List.foldl_append]
    refine ((ends_tokens j hsound.2.2.1 (awaits_value (.field [] k :: stack)) hstack).trans
      fun _ => ends_moreFields rest hsound.2.2.2 hstack [(k, ofJson j.reread)]).congr ?_
    rw [fieldsDepth, List.length_cons]
    omega

lemma ends_moreFields (fields : List (String × Json))
    (hsound : (moreFieldsTokens fields).all Token.isSound = true)
    {stack : List Frame} (hstack : stack.length + 1 < depthLimit)
    (done : List (String × Draft)) :
    Ends (stack.length + 1 + fieldsDepth fields < depthLimit)
      ((moreFieldsTokens fields ++ [Token.closeObj]).foldl Progress.step
        (.reading stack (.afterField done)))
      (supply (.obj (done.reverse ++ ofFields (rereadFields fields)) none) stack) := by
  match fields with
  | [] =>
    rw [rereadFields, ofFields, List.append_nil]
    exact (Ends.of_eq rfl).congr (by simp [fieldsDepth, hstack])
  | (k, j) :: rest =>
    rw [moreFieldsTokens, List.all_cons, List.all_cons, List.all_cons, Bool.and_eq_true,
      Bool.and_eq_true, Bool.and_eq_true, List.all_append, Bool.and_eq_true] at hsound
    rw [moreFieldsTokens, List.cons_append, List.cons_append, List.cons_append,
      List.append_assoc, List.foldl_cons, List.foldl_cons, List.foldl_cons, List.foldl_append]
    have hrest := ends_moreFields rest hsound.2.2.2.2 hstack ((k, ofJson j.reread) :: done)
    rw [List.reverse_cons, List.append_assoc, List.singleton_append] at hrest
    refine ((ends_tokens j hsound.2.2.2.1 (awaits_value (.field done k :: stack)) hstack).trans
      fun _ => hrest).congr ?_
    rw [fieldsDepth, List.length_cons]
    omega

end

/-! ### Faults -/

namespace Draft

/-- No fault is in a draft. -/
def IsWhole (d : Draft) : Prop := ∃ j, d.toJson = .ok j

lemma not_isWhole_fault (e : JsonFault) : ¬ (fault e).IsWhole := by
  rintro ⟨j, h⟩
  rw [toJson] at h
  cases h

lemma itemsToJson_isOk {items : List Draft} :
    (∃ js, itemsToJson items = .ok js) ↔ ∀ d ∈ items, d.IsWhole := by
  induction items with
  | nil => simp [itemsToJson]
  | cons d items ih =>
    rw [List.forall_mem_cons, ← ih]
    simp only [itemsToJson, bind_eq_ok, pure_eq_ok, IsWhole]
    constructor
    · rintro ⟨_, j, hj, js, hjs, -⟩
      exact ⟨⟨j, hj⟩, js, hjs⟩
    · rintro ⟨⟨j, hj⟩, js, hjs⟩
      exact ⟨_, j, hj, js, hjs, rfl⟩

lemma fieldsToJson_isOk {fields : List (String × Draft)} :
    (∃ js, fieldsToJson fields = .ok js) ↔ ∀ f ∈ fields, f.2.IsWhole := by
  induction fields with
  | nil => simp [fieldsToJson]
  | cons f fields ih =>
    obtain ⟨k, d⟩ := f
    rw [List.forall_mem_cons, ← ih]
    simp only [fieldsToJson, bind_eq_ok, pure_eq_ok, IsWhole]
    constructor
    · rintro ⟨_, j, hj, js, hjs, -⟩
      exact ⟨⟨j, hj⟩, js, hjs⟩
    · rintro ⟨⟨j, hj⟩, js, hjs⟩
      exact ⟨_, j, hj, js, hjs, rfl⟩

lemma isWhole_arr {items : List Draft} : (arr items).IsWhole ↔ ∀ d ∈ items, d.IsWhole := by
  rw [← itemsToJson_isOk]
  simp [IsWhole, toJson, map_eq_ok]

lemma isWhole_obj {fields : List (String × Draft)} {stop : Option JsonFault} :
    (obj fields stop).IsWhole ↔ (∀ f ∈ fields, f.2.IsWhole) ∧ stop = none := by
  rw [← fieldsToJson_isOk, IsWhole]
  simp only [toJson]
  cases hfields : fieldsToJson fields <;> cases stop <;> simp

lemma not_isWhole_unwind {last : Draft} (h : ¬ last.IsWhole) (stack : List Frame) :
    ¬ (unwind last stack).IsWhole := by
  induction stack generalizing last with
  | nil => exact h
  | cons frame stack ih =>
    cases frame with
    | item done => exact ih fun hwhole => h (isWhole_arr.1 hwhole _ (by simp))
    | field done key =>
      exact ih fun hwhole => h ((isWhole_obj.1 hwhole).1 (key, last) (by simp))

namespace Progress

/-- A failed reading leaves a fault. -/
def FaultKept : Progress → Prop
  | .failed root => ¬ root.IsWhole
  | _ => True

/-- The text is already refused. -/
def IsRefused : Progress → Prop
  | .failed _ => True
  | .trailing _ => True
  | _ => False

end Progress

lemma faultKept_supply (value : Draft) (stack : List Frame) : (supply value stack).FaultKept := by
  cases stack with
  | nil => trivial
  | cons frame stack => cases frame <;> trivial

lemma faultKept_enter (stack : List Frame) (context : Context) :
    (enter stack context).FaultKept := by
  unfold enter
  split
  · exact not_isWhole_unwind (not_isWhole_fault _) stack
  · trivial

lemma faultKept_startValue (stack : List Frame) (t : Token) :
    (startValue stack t).FaultKept := by
  have hfault : ∀ e, (Progress.failed (unwind (.fault e) stack)).FaultKept :=
    fun e => not_isWhole_unwind (not_isWhole_fault e) stack
  cases t <;>
    first
    | exact faultKept_supply _ _
    | exact faultKept_enter _ _
    | exact hfault _

lemma faultKept_stopItems (stack : List Frame) (done : List Draft) (e : JsonFault) :
    (stopItems stack done e).FaultKept :=
  not_isWhole_unwind (fun h => not_isWhole_fault e (isWhole_arr.1 h _ (by simp))) stack

lemma faultKept_stopFields (stack : List Frame) (done : List (String × Draft)) (e : JsonFault) :
    (stopFields stack done e).FaultKept :=
  not_isWhole_unwind (fun h => by simpa using (isWhole_obj.1 h).2) stack

lemma faultKept_field (stack : List Frame) (done : List (String × Draft)) (key : String)
    (e : JsonFault) :
    (Progress.failed (unwind (.obj ((key, .fault e) :: done).reverse none) stack)).FaultKept :=
  not_isWhole_unwind
    (fun h => not_isWhole_fault e ((isWhole_obj.1 h).1 (key, .fault e) (by simp))) stack

lemma faultKept_startKey (stack : List Frame) (done : List (String × Draft)) (t : Token) :
    (startKey stack done t).FaultKept := by
  unfold startKey
  split
  · trivial
  · exact faultKept_stopFields _ _ _
  · exact faultKept_stopFields _ _ _

lemma Progress.FaultKept.step {p : Progress} (h : p.FaultKept) (t : Token) :
    (p.step t).FaultKept := by
  fun_cases Progress.step p t <;>
    first
    | exact faultKept_startValue _ _
    | exact faultKept_supply _ _
    | exact faultKept_stopItems _ _ _
    | exact faultKept_startKey _ _ _
    | exact faultKept_stopFields _ _ _
    | exact faultKept_field _ _ _ _
    | exact h

lemma Progress.FaultKept.finish {p : Progress} (h : p.FaultKept) : p.finish.FaultKept := by
  cases p with
  | reading stack context =>
    cases context with
    | value => exact not_isWhole_unwind (not_isWhole_fault _) stack
    | firstItem => exact faultKept_stopItems _ _ _
    | nextItem done => exact faultKept_stopItems _ _ _
    | afterItem done => exact faultKept_stopItems _ _ _
    | firstKey => exact faultKept_stopFields _ _ _
    | nextKey done => exact faultKept_stopFields _ _ _
    | colon done key => exact faultKept_field _ _ _ _
    | afterField done => exact faultKept_stopFields _ _ _
  | complete root => exact h
  | trailing root => exact h
  | failed root => exact h

/-- A reading that fails leaves a fault in the draft. -/
lemma faultKept_run (ts : List Token) : (run ts).FaultKept := by
  suffices h : ∀ p : Progress, p.FaultKept → (ts.foldl Progress.step p).FaultKept from
    (h (.reading [] .value) trivial).finish
  induction ts with
  | nil => exact fun _ h => h
  | cons t ts ih => exact fun p h => ih _ (h.step t)

lemma isRefused_step (p : Progress) {t : Token} (h : p.IsRefused ∨ t.isSound = false) :
    (p.step t).IsRefused := by
  cases p with
  | complete root => trivial
  | trailing root => trivial
  | failed root => trivial
  | reading stack context =>
    obtain h | h := h
    · cases h
    · cases t with
      | malformed atKey e => cases context <;> cases atKey <;> trivial
      | _ => cases h

lemma isRefused_run {ts : List Token} (h : ts.all Token.isSound = false) :
    (run ts).IsRefused := by
  suffices hfold : ∀ p : Progress, p.IsRefused ∨ ts.all Token.isSound = false →
      (ts.foldl Progress.step p).IsRefused by
    have hrefused := hfold (.reading [] .value) (.inr h)
    unfold run
    cases hp : ts.foldl Progress.step (.reading [] .value) with
    | reading stack context => rw [hp] at hrefused; cases hrefused
    | complete root => rw [hp] at hrefused; cases hrefused
    | trailing root => trivial
    | failed root => trivial
  clear h
  induction ts with
  | nil => exact fun p h => h.resolve_right nofun
  | cons t ts ih =>
    intro p h
    rw [List.all_cons, Bool.and_eq_false_iff] at h
    refine ih _ ?_
    obtain h | h | h := h
    · exact .inl (isRefused_step p (.inl h))
    · exact .inl (isRefused_step p (.inr h))
    · exact .inr h

/-! ### Decoding of texts -/

variable {α : Type}

/-- A decoder accepts only drafts without faults. -/
def Thorough (decode : Draft → Decoded α) : Prop := ∀ d a, decode d = .ok a → d.IsWhole

lemma run_of_decodeText {decode : Draft → Decoded α} (hdecode : Thorough decode) {text : String}
    {a : α} (h : decodeText decode text = .ok a) :
    ∃ root, run (lex text) = .complete root ∧ decode root = .ok a := by
  have hfault := faultKept_run (lex text)
  unfold decodeText draft at h
  obtain ⟨b, hb, hrest⟩ := bind_eq_ok.mp h
  cases hrun : run (lex text) with
  | complete root =>
    rw [hrun] at hb hrest
    cases hrest
    exact ⟨root, rfl, hb⟩
  | trailing root =>
    rw [hrun] at hrest
    cases hrest
  | failed root =>
    rw [hrun] at hb hfault
    exact absurd (hdecode _ _ hb) hfault
  | reading stack context =>
    rw [hrun] at hb
    exact absurd (hdecode _ _ hb) (not_isWhole_fault _)

/-- The text of an object is decoded as what is read of the object, if each of its numbers can be
read and it is not too deep, and is refused otherwise. -/
lemma decodeText_compact {decode : Draft → Decoded α} (hdecode : Thorough decode)
    {fields : List (String × Json)} {a : α} :
    decodeText decode (Json.obj fields).compact = .ok a ↔
      (Json.obj fields).tokens.all Token.isSound = true ∧
      (Json.obj fields).depth < depthLimit ∧
      decode (ofJson (Json.obj fields).reread) = .ok a := by
  have hends := fun hsound => ends_tokens (Json.obj fields) hsound (awaits_value []) (by decide)
  simp only [List.length_nil, Nat.zero_add] at hends
  constructor
  · intro h
    obtain ⟨root, hrun, hroot⟩ := run_of_decodeText hdecode h
    -- A number that cannot be read spoils the text, too many brackets the stack.
    cases hsound : (Json.obj fields).tokens.all Token.isSound with
    | false =>
      have hrefused := isRefused_run (lex_compact_broken hsound)
      rw [hrun] at hrefused
      cases hrefused
    | true =>
      rw [lex_compact hsound, run] at hrun
      by_cases hroom : (Json.obj fields).depth < depthLimit
      · rw [(hends hsound).ok hroom] at hrun
        cases hrun
        exact ⟨rfl, hroom, hroot⟩
      · obtain ⟨failure, hfailure⟩ := (hends hsound).failed hroom
        rw [hfailure] at hrun
        cases hrun
  · rintro ⟨hsound, hroom, h⟩
    have hrun : run (lex (Json.obj fields).compact)
        = .complete (ofJson (Json.obj fields).reread) := by
      rw [lex_compact hsound, run, (hends hsound).ok hroom]
      rfl
    rw [decodeText, draft, hrun]
    exact bind_eq_ok.mpr ⟨a, h, rfl⟩

end Draft

end RowPolicy.Json
