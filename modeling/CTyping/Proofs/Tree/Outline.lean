import CTyping.Proofs.Tree.Alike
import CTyping.Proofs.Tree.Parts

/-!
# Programs of one outline

Two programs have the same outline if they differ in nothing but places, storage, flags, the names
of variables, parameters and labels, and the contents of literals: they are alike with respect to
`CTyping.Agreement.outline`. What the checker asks of an expression is the same for all expressions
of an outline (`CTyping.Expr.Alike.type_eq`, `CTyping.Expr.Alike.isAssignable_eq`).

The places of two such programs need not be unrelated, and the agreement leaves open how they are
related. Used with a program and itself, it says something about the places of one program: every
program is alike to itself if places are asked to be among those of its nodes
(`CTyping.Program.alike_self`).
-/

namespace CTyping

/-- Agreement in all that a type can depend on. Of places it asks what it is given. -/
def Agreement.outline (span : Span → Span → Prop) : Agreement where
  span := span
  type := Eq
  slot := Eq
  name _ _ := True
  value _ _ := True
  string _ _ := True
  flag _ _ := True
  storage _ _ := True

/-! ### Expressions of one outline -/

section Expressions

variable {Q : Span → Span → Prop} {e e' : Expr}

/-- Filling in one type keeps nodes alike. -/
theorem Info.Alike.fill {i j : Info} (h : i.Alike (.outline Q) j) {t u : Ty} (ht : t = u) :
    (i.typed t).Alike (.outline Q) (j.typed u) :=
  ⟨h.span, congrArg some ht⟩

/-- What nodes of one outline carry is alike. -/
theorem Expr.Alike.info (h : e.Alike (.outline Q) e') : e.info.Alike (.outline Q) e'.info := by
  cases h <;> assumption

/-- Nodes of one outline stand at alike places. -/
theorem Expr.Alike.span (h : e.Alike (.outline Q) e') : Q e.span e'.span := h.info.span

/-- Nodes of one outline have the same type. -/
theorem Expr.Alike.type_eq (h : e.Alike (.outline Q) e') : e.type = e'.type := by
  have hslot : e.ty? = e'.ty? := h.info.slot
  rw [type, type, hslot]

/-- Whether an expression is an lvalue can be told from its outline. -/
theorem Expr.Alike.isLvalue_eq (h : e.Alike (.outline Q) e') : e.isLvalue = e'.isLvalue := by
  cases h <;> rfl

theorem Expr.Alike.isAssignable_eq (h : e.Alike (.outline Q) e') :
    e.isAssignable = e'.isAssignable := by
  rw [isAssignable, isAssignable, h.isLvalue_eq, h.type_eq]

/-- A conversion stands at the place of what it converts. -/
theorem Expr.Alike.convert (h : e.Alike (.outline Q) e') (t : Ty) :
    (e.convert t).Alike (.outline Q) (e'.convert t) :=
  .cast ⟨h.span, rfl⟩ rfl h

end Expressions

/-! ### Places -/

/-- The place of a statement. -/
def Stmt.span : Stmt → Span
  | .block s _ => s
  | .expr s _ => s
  | .ifElse s _ _ _ => s
  | .whileLoop s _ _ => s
  | .doWhile s _ _ => s
  | .forLoop s _ _ _ _ => s
  | .switch s _ _ => s
  | .returns s _ => s
  | .breaks s => s
  | .continues s => s
  | .goto s _ => s
  | .label s _ _ => s
  | .empty s => s

namespace Node

/-- The place of a node. Programs, blocks and arms have none of their own. -/
def span? : Node → Option Span
  | program _ => none
  | function f => some f.span
  | param p => some p.span
  | var v => some v.span
  | block _ => none
  | stmt s => some s.span
  | arm _ => none
  | expr e => some e.span

/-- A node with places of some kind only, also in its parts. -/
def PlacedIn (P : Span → Prop) (n : Node) : Prop :=
  ∀ ⦃address m⦄, n.at? address = some m → ∀ s ∈ m.span?, P s

variable {P : Span → Prop} {n : Node}

/-- The place of a node itself is one of those in it. -/
theorem PlacedIn.here (h : n.PlacedIn P) {s : Span} (hs : n.span? = some s) : P s :=
  @h [] n rfl s hs

/-- The places in a part are places in the node. -/
theorem PlacedIn.part (h : n.PlacedIn P) {m : Node} (hm : m ∈ n.parts) : m.PlacedIn P := by
  obtain ⟨k, hk⟩ := List.mem_iff_getElem?.mp hm
  intro address x hx
  have hn : n.at? (k :: address) = some x := by
    rw [at?, hk]
    exact hx
  exact h hn

end Node

/-! ### A program and itself -/

section Self

variable {P : Span → Prop}

/-- An expression has its own outline, with each place left where it is. -/
theorem Expr.alike_self {e : Expr} (h : (Node.expr e).PlacedIn P) :
    e.Alike (.outline fun s _ => P s) e := by
  induction e using inductionOnChildren with
  | node e ih =>
    have hi : e.info.Alike (.outline fun s _ => P s) e.info := ⟨h.here rfl, rfl⟩
    have hc : ∀ c ∈ e.children, c.Alike (.outline fun s _ => P s) c :=
      fun c hc => ih c hc (h.part (List.mem_map_of_mem hc))
    cases e with
    | intLit i v t => exact .intLit hi trivial rfl
    | strLit i s => exact .strLit hi trivial
    | var i n t => exact .var hi trivial rfl
    | unary i op e => exact .unary hi (hc e List.mem_cons_self)
    | step i op e => exact .step hi (hc e List.mem_cons_self)
    | addressOf i e => exact .addressOf hi (hc e List.mem_cons_self)
    | deref i e => exact .deref hi (hc e List.mem_cons_self)
    | binary i op l r =>
      obtain ⟨hl, hr⟩ := List.forall_mem_cons.mp hc
      exact .binary hi hl (hr r List.mem_cons_self)
    | assign i op l r =>
      obtain ⟨hl, hr⟩ := List.forall_mem_cons.mp hc
      exact .assign hi hl (hr r List.mem_cons_self)
    | cond i c a b =>
      obtain ⟨hc, hab⟩ := List.forall_mem_cons.mp hc
      obtain ⟨ha, hb⟩ := List.forall_mem_cons.mp hab
      exact .cond hi hc ha (hb b List.mem_cons_self)
    | call i f as =>
      obtain ⟨hf, has⟩ := List.forall_mem_cons.mp hc
      exact .call hi hf (List.forall₂_same.mpr has)
    | index i b x =>
      obtain ⟨hb, hx⟩ := List.forall_mem_cons.mp hc
      exact .index hi hb (hx x List.mem_cons_self)
    | member i b n => exact .member hi (hc b List.mem_cons_self)
    | arrow i b n => exact .arrow hi (hc b List.mem_cons_self)
    | cast i t e m => exact .cast hi rfl (hc e List.mem_cons_self)
    | sizeofType i t => exact .sizeofType hi rfl
    | sizeofExpr i e => exact .sizeofExpr hi (hc e List.mem_cons_self)

theorem Expr.alike_self_option {o : Option Expr}
    (h : ∀ m ∈ o.toList.map Node.expr, m.PlacedIn P) :
    Option.Rel (Expr.Alike (.outline fun s _ => P s)) o o := by
  cases o with
  | none => exact .none
  | some e => exact .some (Expr.alike_self (h _ List.mem_cons_self))

/-- A variable has its own outline. -/
theorem Variable.alike_self {v : Variable} (h : (Node.var v).PlacedIn P) :
    v.Alike (.outline fun s _ => P s) v where
  name := trivial
  type := rfl
  initializer := Expr.alike_self_option fun _ hm => h.part hm
  isPrivate := trivial
  isToplevel := trivial
  storage := trivial
  span := h.here rfl

/-- A block has its own outline if its statements have theirs. -/
theorem Block.alike_self_of {b : Block} (h : (Node.block b).PlacedIn P)
    (ih : ∀ s ∈ b.stmts, (Node.stmt s).PlacedIn P → s.Alike (.outline fun s _ => P s) s) :
    b.Alike (.outline fun s _ => P s) b := by
  obtain ⟨vars, stmts⟩ := b
  refine .mk (List.forall₂_same.mpr fun v hv => ?_) (List.forall₂_same.mpr fun s hs => ih s hs ?_)
  · exact Variable.alike_self (h.part (List.mem_append_left _ (List.mem_map_of_mem hv)))
  · exact h.part (List.mem_append_right _ (List.mem_map_of_mem hs))

/-- A statement has its own outline. -/
theorem Stmt.alike_self {s : Stmt} (h : (Node.stmt s).PlacedIn P) :
    s.Alike (.outline fun s _ => P s) s := by
  induction s with
  | block s b ih => exact .block (h.here rfl) (Block.alike_self_of (h.part List.mem_cons_self) ih)
  | expr s e => exact .expr (h.here rfl) (Expr.alike_self (h.part List.mem_cons_self))
  | ifThen s c t iht =>
    exact .ifThen (h.here rfl) (Expr.alike_self (h.part List.mem_cons_self))
      (iht (h.part (List.mem_cons_of_mem _ List.mem_cons_self)))
  | ifElse s c t u iht ihu =>
    exact .ifElse (h.here rfl) (Expr.alike_self (h.part List.mem_cons_self))
      (iht (h.part (List.mem_cons_of_mem _ List.mem_cons_self)))
      (ihu (h.part (List.mem_cons_of_mem _ (List.mem_cons_of_mem _ List.mem_cons_self))))
  | whileLoop s c b ih =>
    exact .whileLoop (h.here rfl) (Expr.alike_self (h.part List.mem_cons_self))
      (ih (h.part (List.mem_cons_of_mem _ List.mem_cons_self)))
  | doWhile s b c ih =>
    exact .doWhile (h.here rfl) (ih (h.part (List.mem_cons_of_mem _ List.mem_cons_self)))
      (Expr.alike_self (h.part List.mem_cons_self))
  | forLoop s i c n b ih =>
    have hparts : ∀ m ∈ (Stmt.forLoop s i c n b).parts, m.PlacedIn P := fun m hm => h.part hm
    rw [Stmt.parts, List.forall_mem_append, List.forall_mem_append, List.forall_mem_append]
      at hparts
    obtain ⟨hi, hc, hn, hb⟩ := hparts
    exact .forLoop (h.here rfl) (Expr.alike_self_option hi) (Expr.alike_self_option hc)
      (Expr.alike_self_option hn) (ih (hb _ List.mem_cons_self))
  | switch s e cs ih =>
    refine .switch (h.here rfl) (Expr.alike_self (h.part List.mem_cons_self)) ?_
    refine List.forall₂_same.mpr fun c hc => ?_
    have harm : (Node.arm c).PlacedIn P :=
      h.part (List.mem_cons_of_mem _ (List.mem_map_of_mem hc))
    obtain ⟨values, body⟩ := c
    refine .mk (List.forall₂_same.mpr fun v hv => ?_) (Block.alike_self_of ?_ (ih _ hc))
    · exact Expr.alike_self (harm.part (List.mem_append_left _ (List.mem_map_of_mem hv)))
    · exact harm.part (List.mem_append_right _ List.mem_cons_self)
  | returns s r => exact .returns (h.here rfl) (Expr.alike_self_option fun _ hm => h.part hm)
  | breaks s => exact .breaks (h.here rfl)
  | continues s => exact .continues (h.here rfl)
  | goto s l => exact .goto (h.here rfl) trivial
  | label s n b ih => exact .label (h.here rfl) trivial (ih (h.part List.mem_cons_self))
  | empty s => exact .empty (h.here rfl)

/-- A function has its own outline. -/
theorem Function.alike_self {f : Function} (h : (Node.function f).PlacedIn P) :
    f.Alike (.outline fun s _ => P s) f where
  name := rfl
  isPrivate := trivial
  result := rfl
  params := by
    refine List.forall₂_same.mpr fun p hp => ⟨trivial, rfl, ?_⟩
    exact (h.part (List.mem_append_left _ (List.mem_map_of_mem hp))).here rfl
  variadic := rfl
  body := by
    have hbody : (Node.block f.body).PlacedIn P :=
      h.part (List.mem_append_right _ List.mem_cons_self)
    exact Block.alike_self_of hbody fun s _ hs => Stmt.alike_self hs
  span := h.here rfl

/-- **A program is alike to itself, and its places are those of its nodes.** -/
theorem Program.alike_self {p : Program} (h : (Node.program p).PlacedIn P) :
    p.Alike (.outline fun s _ => P s) p where
  records := by
    refine List.forall₂_same.mpr fun r _ => ⟨rfl, rfl, rfl, List.forall₂_same.mpr fun m _ => ?_⟩
    exact ⟨rfl, rfl⟩
  globals := by
    refine List.forall₂_same.mpr fun v hv => Variable.alike_self (h.part ?_)
    exact List.mem_append_left _ (List.mem_map_of_mem hv)
  functions := by
    refine List.forall₂_same.mpr fun f hf => Function.alike_self (h.part ?_)
    exact List.mem_append_right _ (List.mem_map_of_mem hf)

end Self

end CTyping
