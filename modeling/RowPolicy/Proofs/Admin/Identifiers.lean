import RowPolicy.Proofs.Access.Fetch
import RowPolicy.Proofs.Admin.Install

/-!
# Identifiers of artifacts

The identifier of an artifact determines its kind, its target and its operation. The names of views
are compared without regard to case, and determine the target up to case.
-/

namespace RowPolicy

lemma Text.sameName_iff {a b : String} :
    sameName a b = true ↔ a.toList.map Char.toLower = b.toList.map Char.toLower := by
  rw [sameName, beq_iff_eq, foldCase, foldCase, String.ofList_inj]

/-- The operation that an artifact of a kind is for. -/
def ArtifactKind.Fits : ArtifactKind → Option Operation → Prop
  | .claimView, op => op = none
  | .readView, op => op = some .read
  | .readAccessor, op => op = some .read
  | .writeGuard, op => ∃ write : Operation, op = some write ∧ write.isWrite = true

namespace Naming

def identifierOf (n : Naming) (target : String) : ArtifactKind → Option Operation → String
  | .claimView, _ => n.claimView target
  | .readView, _ => n.readView target
  | .readAccessor, _ => n.accessor target
  | .writeGuard, op => n.guard target (op.getD .create)

/-- The part of an identifier that tells the kind. -/
def tag : ArtifactKind → List Char
  | .claimView => ['c', 'l', 'a', 'i', 'm', '_']
  | .readView => ['r', 'e', 'a', 'd', '_']
  | .readAccessor => ['f', 'e', 't', 'c', 'h', '_']
  | .writeGuard => ['g', 'u', 'a', 'r', 'd', '_']

/-- The part of an identifier that tells the operation. -/
def ending : ArtifactKind → Option Operation → List Char
  | .writeGuard, op => '_' :: (op.getD .create).text.toList
  | _, _ => []

lemma toList_identifierOf (n : Naming) (target : String) (kind : ArtifactKind)
    (op : Option Operation) :
    (n.identifierOf target kind op).toList =
      n.stem.toList ++ (tag kind ++ (target.toList ++ ending kind op)) := by
  cases kind <;> simp [identifierOf, claimView, readView, accessor, guard, tag, ending]

lemma tag_injective {f : Char → Char} (hf : ∀ c ∈ ['c', 'r', 'f', 'g'], f c = c)
    {k k' : ArtifactKind} {cs cs' : List Char}
    (h : (tag k).map f ++ cs = (tag k').map f ++ cs') : k = k' := by
  have hhead := congrArg List.head? h
  cases k <;> cases k' <;> first | rfl | simp [tag, hf] at hhead

/-- The names of operations end differently or are equally long. -/
lemma ending_cancel {kind : ArtifactKind} {op op' : Option Operation} {cs cs' : List Char}
    (h : cs ++ ending kind op = cs' ++ ending kind op') :
    cs = cs' ∧ (kind = .writeGuard → op.getD .create = op'.getD .create) := by
  cases kind with
  | writeGuard =>
    have hlength : ∀ a b : Operation, a.text.toList.getLast? = b.text.toList.getLast? →
        a.text.toList.length = b.text.toList.length := by
      intro a b
      cases a <;> cases b <;> decide
    have hlast : ∀ (cs : List Char) (a : Operation),
        (cs ++ '_' :: a.text.toList).getLast? = a.text.toList.getLast? := by
      intro cs a
      cases a <;> simp [Operation.text]
    have hends := congrArg List.getLast? h
    rw [ending, ending, hlast, hlast] at hends
    obtain ⟨hcs, hending⟩ := List.append_inj' h (by simp [ending, hlength _ _ hends])
    exact ⟨hcs, fun _ => Operation.text_injective (String.toList_inj.mp (List.cons.inj hending).2)⟩
  | claimView | readView | readAccessor => exact ⟨by simpa [ending] using h, nofun⟩

lemma ending_injective {kind : ArtifactKind} {op op' : Option Operation} {cs cs' : List Char}
    (hop : kind.Fits op) (hop' : kind.Fits op')
    (h : cs ++ ending kind op = cs' ++ ending kind op') : cs = cs' ∧ op = op' := by
  obtain ⟨hcs, hguard⟩ := ending_cancel h
  refine ⟨hcs, ?_⟩
  cases kind with
  | writeGuard =>
    obtain ⟨write, rfl, -⟩ := hop
    obtain ⟨write', rfl, -⟩ := hop'
    exact congrArg some (hguard rfl)
  | _ =>
    cases hop
    cases hop'
    rfl

/-- Identifiers that are equal are those of the same kind, target and operation. -/
lemma identifierOf_injective {n : Naming} {target target' : String} {kind kind' : ArtifactKind}
    {op op' : Option Operation} (hop : kind.Fits op) (hop' : kind'.Fits op')
    (h : n.identifierOf target kind op = n.identifierOf target' kind' op') :
    kind = kind' ∧ target = target' ∧ op = op' := by
  have hlist := congrArg String.toList h
  rw [toList_identifierOf, toList_identifierOf, List.append_cancel_left_eq] at hlist
  obtain rfl := tag_injective (f := id) (fun _ _ => rfl) (by simpa only [List.map_id] using hlist)
  rw [List.append_cancel_left_eq] at hlist
  obtain ⟨htarget, hops⟩ := ending_injective hop hop' hlist
  exact ⟨rfl, String.toList_inj.mp htarget, hops⟩

/-- Views with the same name up to case are of the same kind and their targets are the same up to
case. -/
lemma sameName_views {n : Naming} {target target' : String} {kind kind' : ArtifactKind}
    {op op' : Option Operation} (hkind : kind.isView = true) (hkind' : kind'.isView = true)
    (h : Text.sameName (n.identifierOf target kind op) (n.identifierOf target' kind' op') = true) :
    kind = kind' ∧ Text.sameName target target' = true := by
  rw [Text.sameName_iff, toList_identifierOf, toList_identifierOf] at h
  simp only [List.map_append, List.append_cancel_left_eq] at h
  have hlower : ∀ c ∈ ['c', 'r', 'f', 'g'], Char.toLower c = c := by
    intro c hc
    simp only [List.mem_cons, List.not_mem_nil, or_false] at hc
    rcases hc with rfl | rfl | rfl | rfl <;> rfl
  obtain rfl := tag_injective hlower h
  have hending : ∀ op, ending kind op = [] := by
    intro op
    cases kind <;> first | rfl | cases hkind
  rw [List.append_cancel_left_eq, hending, hending, List.map_nil, List.append_nil,
    List.append_nil] at h
  exact ⟨rfl, Text.sameName_iff.mpr h⟩

end Naming

/-! ### Rendered artifacts -/

/-- An artifact is named after what it is for, and its text creates it if it is a view. -/
structure Rendered.IsNamed (n : Naming) (x : Rendered) : Prop where
  identifier : x.identifier = n.identifierOf x.target x.kind x.operation
  fits : x.kind.Fits x.operation
  isView : x.kind.isView = true → ∃ sql, x.body = .view sql
  created : ∀ sql, x.body = .view sql →
    x.kind.isView = true ∧ Database.CreatesView x.identifier sql

namespace Naming

lemma createsView_select (identifier more : String) : Database.CreatesView identifier
    ("CREATE VIEW " ++ (Sql.quoteName identifier ++ (" AS SELECT " ++ more))) := by
  have hsplit : " AS SELECT ".toList = " AS ".toList ++ "SELECT ".toList := by decide
  refine ⟨"SELECT ".toList ++ more.toList, ?_⟩
  simp only [String.toList_append, hsplit, List.append_assoc]

lemma createsView_claim (n : Naming) (c : Claim) :
    Database.CreatesView (n.claimView c.name) (n.claimViewSql c) := by
  unfold claimViewSql
  simp only [String.append_assoc]
  apply createsView_select

lemma createsView_read (n : Naming) (v : ReadView) :
    Database.CreatesView (n.readView v.table) (n.readViewSql v) := by
  unfold readViewSql
  simp only [String.append_assoc]
  apply createsView_select

lemma renderClaim_isNamed (n : Naming) (c : Claim) : (n.renderClaim c).IsNamed n where
  identifier := rfl
  fits := rfl
  isView _ := ⟨_, rfl⟩
  created sql hsql := by
    cases hsql
    exact ⟨rfl, n.createsView_claim c⟩

lemma readView_isNamed (n : Naming) (v : ReadView) :
    Rendered.IsNamed n
      ⟨n.readView v.table, .readView, v.table, some .read, .view (n.readViewSql v)⟩ where
  identifier := rfl
  fits := rfl
  isView _ := ⟨_, rfl⟩
  created sql hsql := by
    cases hsql
    exact ⟨rfl, n.createsView_read v⟩

lemma accessor_isNamed (n : Naming) (a : Accessor) :
    Rendered.IsNamed n
      ⟨n.accessor a.table, .readAccessor, a.table, some .read, n.renderAccessor a⟩ where
  identifier := rfl
  fits := rfl
  isView h := nomatch h
  created sql hsql := by cases hsql

lemma guard_isNamed (n : Naming) (g : Guard) (h : g.operation.isWrite = true) :
    Rendered.IsNamed n
      ⟨n.guard g.table g.operation, .writeGuard, g.table, some g.operation, n.renderGuard g⟩ where
  identifier := rfl
  fits := ⟨g.operation, rfl, h⟩
  isView h := nomatch h
  created sql hsql := by cases g <;> cases hsql

lemma mem_renderRule {n : Naming} {r : Rule} {t : TableShape} {plan : CompiledRule} {x : Rendered}
    (hplan : r.plan? t = some plan) (hx : x ∈ n.renderRule plan) :
    x.target = t.name ∧ x.operation = some r.operation ∧ x.IsNamed n := by
  unfold Rule.plan? at hplan
  cases hop : r.operation with
  | read =>
    rw [hop] at hplan
    cases hplan
    rw [renderRule.eq_def, List.mem_cons] at hx
    obtain rfl | hx := hx
    · exact ⟨rfl, rfl, n.readView_isNamed _⟩
    · cases haccessor : r.accessor t with
      | error f =>
        rw [haccessor] at hx
        cases hx
      | ok a =>
        rw [haccessor, List.mem_singleton] at hx
        subst hx
        exact ⟨(Rule.accessor_eq_ok haccessor).1, rfl, n.accessor_isNamed a⟩
  | create =>
    rw [hop] at hplan
    cases hplan
    rw [renderRule, List.mem_singleton] at hx
    subst hx
    exact ⟨rfl, rfl, n.guard_isNamed _ rfl⟩
  | update | delete =>
    rw [hop] at hplan
    obtain ⟨key, -, rfl⟩ := Option.map_eq_some_iff.mp hplan
    rw [renderRule, List.mem_singleton] at hx
    subst hx
    exact ⟨rfl, rfl, n.guard_isNamed _ rfl⟩

end Naming

end RowPolicy
