import CTyping.Tree.Program

/-!
# Induction over trees

Expressions hold lists of expressions, and statements hold optional statements, lists of statements
and lists of arms, so the recursors that come with these types speak of lists and options too. The
principles here speak of one kind of tree only: what is known of the parts of a list is known of
each of its members.

* `CTyping.Expr.induction`: a property of expressions, one case for each form.
* `CTyping.Stmt.induction`: a property of statements, one case for each form. The statements of a
  block are members of its list; blocks and arms need no property of their own.
* `CTyping.Expr.Everywhere`: a property of every node of an expression.
-/

namespace CTyping

/-! ### Members of lists and options -/

section Members

variable {α : Type} {f : α → α}

theorem forall_mem_pair {P : α → Prop} {a b : α} (ha : P a) (hb : P b) : ∀ c ∈ [a, b], P c :=
  List.forall_mem_cons.mpr ⟨ha, List.forall_mem_singleton.mpr hb⟩

/-- A list whose members are changed to themselves stays as it is. -/
theorem list_map_eq_self {as : List α} (h : ∀ a ∈ as, f a = a) : as.map f = as :=
  (List.map_congr_left h).trans (List.map_id as)

theorem option_map_eq_self {o : Option α} (h : ∀ a ∈ o, f a = a) : o.map f = o := by
  cases o with
  | none => rfl
  | some a => exact congrArg some (h a rfl)

/-- What a function makes of a value it makes of one that may be missing. -/
theorem forall_mem_option_map {P Q : α → Prop} (hPQ : ∀ a, P a → Q (f a)) {o : Option α}
    (h : ∀ a ∈ o, P a) : ∀ b ∈ o.map f, Q b := by
  intro b hb
  obtain ⟨a, ha, rfl⟩ := Option.map_eq_some_iff.mp hb
  exact hPQ a (h a ha)

end Members

/-! ### Expressions -/

/-- **Induction on expressions.** The arguments of a call have the property one by one. -/
@[elab_as_elim, induction_eliminator]
theorem Expr.induction {motive : Expr → Prop}
    (intLit : ∀ i v t, motive (.intLit i v t))
    (strLit : ∀ i s, motive (.strLit i s))
    (var : ∀ i n t, motive (.var i n t))
    (unary : ∀ i op e, motive e → motive (.unary i op e))
    (step : ∀ i op e, motive e → motive (.step i op e))
    (addressOf : ∀ i e, motive e → motive (.addressOf i e))
    (deref : ∀ i e, motive e → motive (.deref i e))
    (binary : ∀ i op l r, motive l → motive r → motive (.binary i op l r))
    (assign : ∀ i op l r, motive l → motive r → motive (.assign i op l r))
    (cond : ∀ i c a b, motive c → motive a → motive b → motive (.cond i c a b))
    (call : ∀ i f as, motive f → (∀ a ∈ as, motive a) → motive (.call i f as))
    (index : ∀ i b x, motive b → motive x → motive (.index i b x))
    (member : ∀ i b n, motive b → motive (.member i b n))
    (arrow : ∀ i b n, motive b → motive (.arrow i b n))
    (cast : ∀ i t e m, motive e → motive (.cast i t e m))
    (sizeofType : ∀ i t, motive (.sizeofType i t))
    (sizeofExpr : ∀ i e, motive e → motive (.sizeofExpr i e)) (e : Expr) : motive e := by
  refine @Expr.rec motive (fun as => ∀ a ∈ as, motive a) intLit strLit var unary step addressOf
    deref binary assign cond call index member arrow cast sizeofType sizeofExpr ?_ ?_ e
  · intro a ha
    exact absurd ha List.not_mem_nil
  · intro a as iha ihas x hx
    rcases List.mem_cons.mp hx with rfl | hx
    · exact iha
    · exact ihas x hx

namespace Expr

/-- Induction on expressions that does not look at the form: operands before the node. -/
@[elab_as_elim]
theorem inductionOnChildren {motive : Expr → Prop}
    (node : ∀ e, (∀ c ∈ e.children, motive c) → motive e) (e : Expr) : motive e := by
  induction e with
  | intLit i v t => exact node _ (List.forall_mem_nil _)
  | strLit i s => exact node _ (List.forall_mem_nil _)
  | var i n t => exact node _ (List.forall_mem_nil _)
  | unary i op e ih => exact node _ (List.forall_mem_singleton.mpr ih)
  | step i op e ih => exact node _ (List.forall_mem_singleton.mpr ih)
  | addressOf i e ih => exact node _ (List.forall_mem_singleton.mpr ih)
  | deref i e ih => exact node _ (List.forall_mem_singleton.mpr ih)
  | binary i op l r ihl ihr => exact node _ (by simpa [children] using ⟨ihl, ihr⟩)
  | assign i op l r ihl ihr => exact node _ (by simpa [children] using ⟨ihl, ihr⟩)
  | cond i c a b ihc iha ihb => exact node _ (by simpa [children] using ⟨ihc, iha, ihb⟩)
  | call i f as ihf ihas => exact node _ (List.forall_mem_cons.mpr ⟨ihf, ihas⟩)
  | index i b x ihb ihx => exact node _ (by simpa [children] using ⟨ihb, ihx⟩)
  | member i b n ih => exact node _ (List.forall_mem_singleton.mpr ih)
  | arrow i b n ih => exact node _ (List.forall_mem_singleton.mpr ih)
  | cast i t e m ih => exact node _ (List.forall_mem_singleton.mpr ih)
  | sizeofType i t => exact node _ (List.forall_mem_nil _)
  | sizeofExpr i e ih => exact node _ (List.forall_mem_singleton.mpr ih)

/-- A property that holds at a node of an expression and at every node below it. -/
inductive Everywhere (P : Expr → Prop) : Expr → Prop
  | node (e : Expr) (here : P e) (below : ∀ c ∈ e.children, Everywhere P c) : Everywhere P e

/-- What holds everywhere holds at a node and everywhere in its operands. -/
theorem everywhere_iff {P : Expr → Prop} {e : Expr} :
    Everywhere P e ↔ P e ∧ ∀ c ∈ e.children, Everywhere P c := by
  constructor
  · rintro ⟨_, here, below⟩
    exact ⟨here, below⟩
  · rintro ⟨here, below⟩
    exact .node e here below

/-- What holds everywhere holds at the node itself. -/
theorem Everywhere.here {P : Expr → Prop} {e : Expr} (h : Everywhere P e) : P e :=
  (everywhere_iff.mp h).1

end Expr

/-! ### Statements -/

/-- **Induction on statements.** Those of a block, and those in the arms of a `switch`, have the
property one by one. -/
@[elab_as_elim, induction_eliminator]
theorem Stmt.induction {motive : Stmt → Prop}
    (block : ∀ s b, (∀ x ∈ b.stmts, motive x) → motive (.block s b))
    (expr : ∀ s e, motive (.expr s e))
    (ifThen : ∀ s c t, motive t → motive (.ifElse s c t none))
    (ifElse : ∀ s c t e, motive t → motive e → motive (.ifElse s c t (some e)))
    (whileLoop : ∀ s c b, motive b → motive (.whileLoop s c b))
    (doWhile : ∀ s b c, motive b → motive (.doWhile s b c))
    (forLoop : ∀ s i c n b, motive b → motive (.forLoop s i c n b))
    (switch : ∀ s e cs, (∀ c ∈ cs, ∀ x ∈ c.body.stmts, motive x) → motive (.switch s e cs))
    (returns : ∀ s e, motive (.returns s e))
    (breaks : ∀ s, motive (.breaks s))
    (continues : ∀ s, motive (.continues s))
    (goto : ∀ s l, motive (.goto s l))
    (label : ∀ s n b, motive b → motive (.label s n b))
    (empty : ∀ s, motive (.empty s)) (s : Stmt) : motive s := by
  refine @Stmt.rec motive (fun b => ∀ x ∈ b.stmts, motive x)
    (fun c => ∀ x ∈ c.body.stmts, motive x) (fun o => ∀ x ∈ o, motive x)
    (fun cs => ∀ c ∈ cs, ∀ x ∈ c.body.stmts, motive x) (fun ss => ∀ x ∈ ss, motive x)
    block expr ?_ whileLoop doWhile forLoop switch returns breaks continues goto label empty
    (fun _ _ h => h) (fun _ _ h => h) ?_ ?_ ?_ ?_ ?_ ?_ s
  · intro s c t no iht ihno
    cases no with
    | none => exact ifThen s c t iht
    | some e => exact ifElse s c t e iht (ihno e rfl)
  · intro x hx
    cases hx
  · intro e ihe x hx
    cases hx
    exact ihe
  · intro c hc
    exact absurd hc List.not_mem_nil
  · intro c cs ihc ihcs x hx
    rcases List.mem_cons.mp hx with rfl | hx
    · exact ihc
    · exact ihcs x hx
  · intro x hx
    exact absurd hx List.not_mem_nil
  · intro a as iha ihas x hx
    rcases List.mem_cons.mp hx with rfl | hx
    · exact iha
    · exact ihas x hx

end CTyping
