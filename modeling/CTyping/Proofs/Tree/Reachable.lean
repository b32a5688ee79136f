import CTyping.Proofs.Tree.Nodes

/-!
# Where expressions stand in a program

Which expressions a program has, said place by place and not by a walk: `CTyping.Expr.Operand` has a
rule for each operand of each form, `CTyping.Stmt.Holds` a rule for each place in a statement at
which an expression stands, and `CTyping.Program.Reaches` puts them together. The walk lists these
expressions and no others (`CTyping.Program.mem_expressions_iff`).
-/

namespace CTyping

/-! ### Operands -/

namespace Expr

/-- The operands of a node, one rule for each place. -/
inductive Operand : Expr → Expr → Prop
  | unary {i : Info} {op : UnaryOp} {e : Expr} : Operand e (.unary i op e)
  | step {i : Info} {op : StepOp} {e : Expr} : Operand e (.step i op e)
  | addressOf {i : Info} {e : Expr} : Operand e (.addressOf i e)
  | deref {i : Info} {e : Expr} : Operand e (.deref i e)
  | left {i : Info} {op : BinaryOp} {l r : Expr} : Operand l (.binary i op l r)
  | right {i : Info} {op : BinaryOp} {l r : Expr} : Operand r (.binary i op l r)
  | lhs {i : Info} {op : AssignOp} {l r : Expr} : Operand l (.assign i op l r)
  | rhs {i : Info} {op : AssignOp} {l r : Expr} : Operand r (.assign i op l r)
  | test {i : Info} {c a b : Expr} : Operand c (.cond i c a b)
  | yes {i : Info} {c a b : Expr} : Operand a (.cond i c a b)
  | no {i : Info} {c a b : Expr} : Operand b (.cond i c a b)
  | callee {i : Info} {f : Expr} {as : List Expr} : Operand f (.call i f as)
  | argument {i : Info} {f a : Expr} {as : List Expr} (ha : a ∈ as) : Operand a (.call i f as)
  | indexed {i : Info} {b x : Expr} : Operand b (.index i b x)
  | index {i : Info} {b x : Expr} : Operand x (.index i b x)
  | member {i : Info} {b : Expr} {n : String} : Operand b (.member i b n)
  | arrow {i : Info} {b : Expr} {n : String} : Operand b (.arrow i b n)
  | cast {i : Info} {t : Ty} {e : Expr} {m : Bool} : Operand e (.cast i t e m)
  | sizeofExpr {i : Info} {e : Expr} : Operand e (.sizeofExpr i e)

/-- The nodes of an expression: itself, and the nodes of its operands. -/
inductive Within (x : Expr) : Expr → Prop
  | here : Within x x
  | operand {c e : Expr} (hc : c.Operand e) (hx : Within x c) : Within x e

/-- The operands are listed, and nothing else is. -/
theorem mem_children_iff {c e : Expr} : c ∈ e.children ↔ c.Operand e := by
  constructor
  · intro h
    cases e with
    | call i f as =>
      rcases List.mem_cons.mp h with rfl | h
      · exact .callee
      · exact .argument h
    | cond i a b d =>
      simp only [children, List.mem_cons, List.not_mem_nil, or_false] at h
      rcases h with rfl | rfl | rfl
      · exact .test
      · exact .yes
      · exact .no
    | binary i op l r =>
      rcases List.mem_cons.mp h with rfl | h
      · exact .left
      · exact List.mem_singleton.mp h ▸ .right
    | assign i op l r =>
      rcases List.mem_cons.mp h with rfl | h
      · exact .lhs
      · exact List.mem_singleton.mp h ▸ .rhs
    | index i b x =>
      rcases List.mem_cons.mp h with rfl | h
      · exact .indexed
      · exact List.mem_singleton.mp h ▸ .index
    | unary | step | addressOf | deref | member | arrow | cast | sizeofExpr =>
      obtain rfl := List.mem_singleton.mp h
      constructor
    | intLit | strLit | var | sizeofType => exact absurd h List.not_mem_nil
  · intro h
    cases h with
    | unary | step | addressOf | deref | member | arrow | cast | sizeofExpr =>
      exact List.mem_singleton_self _
    | left | lhs | test | callee | indexed => exact List.mem_cons_self
    | argument ha => exact List.mem_cons_of_mem _ ha
    | right | rhs | yes | index => exact List.mem_cons_of_mem _ List.mem_cons_self
    | no => exact List.mem_cons_of_mem _ (List.mem_cons_of_mem _ List.mem_cons_self)

/-- What holds everywhere in an expression holds of its nodes. -/
theorem everywhere_iff_within {P : Expr → Prop} {e : Expr} :
    e.Everywhere P ↔ ∀ x, x.Within e → P x := by
  constructor
  · intro h x hx
    induction hx with
    | here => exact h.here
    | operand hc hx ih => exact ih ((everywhere_iff.mp h).2 _ (mem_children_iff.mpr hc))
  · intro h
    induction e using inductionOnChildren with
    | node e ih =>
      refine .node e (h e .here) fun c hc => ih c hc fun x hx => ?_
      exact h x (.operand (mem_children_iff.mp hc) hx)

end Expr

/-! ### Places in statements -/

mutual

/-- The expressions that stand in a statement by themselves, one rule for each place. -/
inductive Stmt.Holds (e : Expr) : Stmt → Prop
  | block {s : Span} {b : Block} (h : Block.Holds e b) : Stmt.Holds e (.block s b)
  | expr {s : Span} : Stmt.Holds e (.expr s e)
  | ifTest {s : Span} {t : Stmt} {no : Option Stmt} : Stmt.Holds e (.ifElse s e t no)
  | ifYes {s : Span} {c : Expr} {t : Stmt} {no : Option Stmt} (h : Stmt.Holds e t) :
      Stmt.Holds e (.ifElse s c t no)
  | ifNo {s : Span} {c : Expr} {t u : Stmt} (h : Stmt.Holds e u) :
      Stmt.Holds e (.ifElse s c t (some u))
  | whileTest {s : Span} {b : Stmt} : Stmt.Holds e (.whileLoop s e b)
  | whileBody {s : Span} {c : Expr} {b : Stmt} (h : Stmt.Holds e b) :
      Stmt.Holds e (.whileLoop s c b)
  | doBody {s : Span} {b : Stmt} {c : Expr} (h : Stmt.Holds e b) : Stmt.Holds e (.doWhile s b c)
  | doTest {s : Span} {b : Stmt} : Stmt.Holds e (.doWhile s b e)
  | forStart {s : Span} {c n : Option Expr} {b : Stmt} : Stmt.Holds e (.forLoop s (some e) c n b)
  | forTest {s : Span} {i n : Option Expr} {b : Stmt} : Stmt.Holds e (.forLoop s i (some e) n b)
  | forNext {s : Span} {i c : Option Expr} {b : Stmt} : Stmt.Holds e (.forLoop s i c (some e) b)
  | forBody {s : Span} {i c n : Option Expr} {b : Stmt} (h : Stmt.Holds e b) :
      Stmt.Holds e (.forLoop s i c n b)
  | switchValue {s : Span} {cs : List Case} : Stmt.Holds e (.switch s e cs)
  | caseValue {s : Span} {v : Expr} {c : Case} {cs : List Case} (hc : c ∈ cs)
      (he : e ∈ c.values) : Stmt.Holds e (.switch s v cs)
  | caseBody {s : Span} {v : Expr} {c : Case} {cs : List Case} (hc : c ∈ cs)
      (h : Block.Holds e c.body) : Stmt.Holds e (.switch s v cs)
  | returns {s : Span} : Stmt.Holds e (.returns s (some e))
  | label {s : Span} {n : String} {b : Stmt} (h : Stmt.Holds e b) : Stmt.Holds e (.label s n b)

/-- The expressions that stand in a block by themselves. -/
inductive Block.Holds (e : Expr) : Block → Prop
  | initializer {b : Block} {v : Variable} (hv : v ∈ b.vars) (he : v.initializer = some e) :
      Block.Holds e b
  | stmt {b : Block} {s : Stmt} (hs : s ∈ b.stmts) (h : Stmt.Holds e s) : Block.Holds e b

end

/-- The nodes of a program: those of the initializers of its variables, and those of the expressions
in the bodies of its functions. -/
inductive Program.Reaches (p : Program) (x : Expr) : Prop
  | global {v : Variable} {e : Expr} (hv : v ∈ p.globals) (he : v.initializer = some e)
      (hx : x.Within e)
  | body {f : Function} {e : Expr} (hf : f ∈ p.functions) (he : f.body.Holds e) (hx : x.Within e)

/-! ### Listing the nodes -/

variable {P : Expr → Prop}

/-- What a block demands of nodes is what holds of all that it holds, given this for its
statements. -/
theorem Block.meets_nodes_iff_of {b : Block}
    (h : ∀ s ∈ b.stmts, s.Meets (.nodes P) ↔ ∀ e, s.Holds e → e.Everywhere P) :
    b.Meets (.nodes P) ↔ ∀ e, b.Holds e → e.Everywhere P := by
  rw [Block.meets_iff]
  constructor
  · rintro ⟨hvars, hstmts⟩ e he
    cases he with
    | initializer hv he => exact hvars _ hv e he
    | stmt hs he => exact (h _ hs).mp (hstmts _ hs) e he
  · intro hb
    refine ⟨fun v hv e he => hb e (.initializer hv he), fun s hs => (h s hs).mpr fun e he => ?_⟩
    exact hb e (.stmt hs he)

/-- What is demanded of all nodes of a statement is demanded of the expressions at its places. -/
theorem Stmt.meets_nodes_iff {s : Stmt} :
    s.Meets (.nodes P) ↔ ∀ e, s.Holds e → e.Everywhere P := by
  induction s with
  -- each form holds what its constructors of `CTyping.Stmt.Holds` say, and demands as much
  | block s b ih =>
    refine (Block.meets_nodes_iff_of ih).trans ⟨fun h e he => ?_, fun h e he => h e (.block he)⟩
    cases he with
    | block he => exact h e he
  | expr s e =>
    refine ⟨fun h e' he => ?_, fun h => h e .expr⟩
    cases he with
    | expr => exact h
  | ifThen s c t iht =>
    rw [Stmt.Meets, iht]
    constructor
    · rintro ⟨hc, ht⟩ e he
      cases he with
      | ifTest => exact hc
      | ifYes he => exact ht e he
    · intro h
      exact ⟨h c .ifTest, fun e he => h e (.ifYes he)⟩
  | ifElse s c t u iht ihu =>
    rw [Stmt.Meets, iht, ihu]
    constructor
    · rintro ⟨hc, ht, hu⟩ e he
      cases he with
      | ifTest => exact hc
      | ifYes he => exact ht e he
      | ifNo he => exact hu e he
    · intro h
      exact ⟨h c .ifTest, fun e he => h e (.ifYes he), fun e he => h e (.ifNo he)⟩
  | whileLoop s c b ih =>
    rw [Stmt.Meets, ih]
    constructor
    · rintro ⟨hc, hb⟩ e he
      cases he with
      | whileTest => exact hc
      | whileBody he => exact hb e he
    · intro h
      exact ⟨h c .whileTest, fun e he => h e (.whileBody he)⟩
  | doWhile s b c ih =>
    rw [Stmt.Meets, ih]
    constructor
    · rintro ⟨hb, hc⟩ e he
      cases he with
      | doBody he => exact hb e he
      | doTest => exact hc
    · intro h
      exact ⟨fun e he => h e (.doBody he), h c .doTest⟩
  | forLoop s i c n b ih =>
    rw [Stmt.Meets, ih]
    constructor
    · rintro ⟨hi, hc, hn, hb⟩ e he
      cases he with
      | forStart => exact hi e rfl
      | forTest => exact hc e rfl
      | forNext => exact hn e rfl
      | forBody he => exact hb e he
    · intro h
      refine ⟨?_, ?_, ?_, fun e he => h e (.forBody he)⟩
      · rintro e ⟨⟩
        exact h e .forStart
      · rintro e ⟨⟩
        exact h e .forTest
      · rintro e ⟨⟩
        exact h e .forNext
  | switch s v cs ih =>
    have hbody : ∀ c ∈ cs, c.body.Meets (.nodes P) ↔ ∀ e, c.body.Holds e → e.Everywhere P :=
      fun c hc => Block.meets_nodes_iff_of (ih c hc)
    rw [Stmt.Meets, Stmt.meetCases_iff]
    constructor
    · rintro ⟨hv, hcs⟩ e he
      cases he with
      | switchValue => exact hv
      | caseValue hc he => exact (Case.meets_iff.mp (hcs _ hc)).1 e he
      | caseBody hc he => exact (hbody _ hc).mp (Case.meets_iff.mp (hcs _ hc)).2 e he
    · intro h
      refine ⟨h v .switchValue, fun c hc => Case.meets_iff.mpr ⟨?_, ?_⟩⟩
      · exact fun e he => h e (.caseValue hc he)
      · exact (hbody c hc).mpr fun e he => h e (.caseBody hc he)
  | returns s r =>
    refine ⟨fun h e he => ?_, fun h => ?_⟩
    · cases he with
      | returns => exact h e rfl
    · rintro e ⟨⟩
      exact h e .returns
  | label s n b ih =>
    rw [Stmt.Meets, ih]
    refine ⟨fun h e he => ?_, fun h e he => h e (.label he)⟩
    cases he with
    | label he => exact h e he
  | breaks | continues | goto | empty =>
    refine ⟨fun _ e he => ?_, fun _ => trivial⟩
    cases he

/-- What holds of all nodes that are listed holds of all nodes of the program. -/
theorem Program.forall_mem_expressions_iff_reaches {p : Program} :
    (∀ e ∈ p.expressions, P e) ↔ ∀ x, p.Reaches x → P x := by
  rw [forall_mem_expressions_iff]
  have hbody : ∀ f : Function, f.body.Meets (.nodes P) ↔ ∀ e, f.body.Holds e → e.Everywhere P :=
    fun f => Block.meets_nodes_iff_of fun s _ => s.meets_nodes_iff
  constructor
  · rintro ⟨hglobals, hbodies⟩ x hx
    cases hx with
    | global hv he hx => exact Expr.everywhere_iff_within.mp (hglobals _ hv _ he) x hx
    | body hf he hx => exact Expr.everywhere_iff_within.mp ((hbody _).mp (hbodies _ hf) _ he) x hx
  · intro h
    refine ⟨fun v hv e he => ?_, fun f hf => (hbody f).mpr fun e he => ?_⟩
    · exact Expr.everywhere_iff_within.mpr fun x hx => h x (.global hv he hx)
    · exact Expr.everywhere_iff_within.mpr fun x hx => h x (.body hf he hx)

/-- **The walk lists the nodes of a program and nothing else.** -/
theorem Program.mem_expressions_iff {p : Program} {x : Expr} :
    x ∈ p.expressions ↔ p.Reaches x := by
  constructor
  · exact forall_mem_expressions_iff_reaches.mpr (fun _ h => h) x
  · exact forall_mem_expressions_iff_reaches.mp (fun _ h => h) x

end CTyping
