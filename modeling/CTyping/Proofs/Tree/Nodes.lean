import CTyping.Proofs.Tree.Demands
import CTyping.Tree.Walk

/-!
# The nodes of a program

`CTyping.Program.expressions` lists every node of a program, but it does so with a stack. What holds
of all nodes that it lists is what holds at every node of every expression of the program
(`CTyping.Program.forall_mem_expressions_iff`), and that can be shown part by part.
-/

namespace CTyping

variable {P : Expr → Prop}

/-! ### Walking -/

/-- The walk lists the nodes of the expressions on its stack. -/
theorem Expr.forall_mem_walk_iff (stack : List Expr) :
    (∀ x ∈ walk stack, P x) ↔ ∀ e ∈ stack, e.Everywhere P := by
  fun_induction walk stack with
  | case1 => simp
  | case2 e rest ih =>
    -- `e` is listed, and its operands go onto the stack
    rw [List.forall_mem_cons, ih, List.forall_mem_append, List.forall_mem_cons, everywhere_iff,
      and_assoc]
    simp only [List.mem_reverse]

/-! ### What is listed of a statement -/

section Collect

variable {α : Type} {f : Variable → List α} {g : Expr → List α}

theorem Stmt.collectList_eq (ss : List Stmt) :
    Stmt.collectList f g ss = ss.flatMap (Stmt.collect f g) := by
  induction ss with
  | nil => simp [collectList]
  | cons s ss ih => simp [collectList, ih]

theorem Stmt.collectCases_eq (cs : List Case) :
    Stmt.collectCases f g cs = cs.flatMap (Case.collect f g) := by
  induction cs with
  | nil => simp [collectCases]
  | cons c cs ih => simp [collectCases, ih]

theorem Block.collect_eq (b : Block) :
    b.collect f g = b.vars.flatMap f ++ b.stmts.flatMap (Stmt.collect f g) := by
  cases b
  rw [Block.collect, Stmt.collectList_eq]

theorem Case.collect_eq (c : Case) :
    c.collect f g = c.values.flatMap g ++ c.body.collect f g := by
  cases c
  rw [Case.collect]

/-- The demand that something hold of all that is listed of a part. -/
def Demands.listed (f : Variable → List α) (g : Expr → List α) (Q : α → Prop) : Demands where
  var v := ∀ a ∈ f v, Q a
  expr e := ∀ a ∈ g e, Q a
  test e := ∀ a ∈ g e, Q a
  returned o := ∀ e ∈ o, ∀ a ∈ g e, Q a

variable {Q : α → Prop}

/-- What is listed of a block has a property if and only if all its parts demand it, given this for
its statements. -/
theorem Block.forall_mem_collect_iff_of {b : Block}
    (h : ∀ s ∈ b.stmts, (∀ a ∈ s.collect f g, Q a) ↔ s.Meets (.listed f g Q)) :
    (∀ a ∈ b.collect f g, Q a) ↔ b.Meets (.listed f g Q) := by
  rw [Block.meets_iff, Block.collect_eq, List.forall_mem_append, List.forall_mem_flatMap,
    List.forall_mem_flatMap]
  exact and_congr Iff.rfl (forall₂_congr h)

/-- What holds of all that is listed of a statement holds of what is listed of its parts. -/
theorem Stmt.forall_mem_collect_iff (s : Stmt) :
    (∀ a ∈ s.collect f g, Q a) ↔ s.Meets (.listed f g Q) := by
  induction s with
  | block s b ih => exact Block.forall_mem_collect_iff_of ih
  | switch s e cs ih =>
    have hcs : (∀ a ∈ Stmt.collectCases f g cs, Q a) ↔ Stmt.MeetCases (.listed f g Q) cs := by
      rw [Stmt.collectCases_eq, Stmt.meetCases_iff, List.forall_mem_flatMap]
      refine forall₂_congr fun c hc => ?_
      rw [Case.collect_eq, Case.meets_iff, List.forall_mem_append, List.forall_mem_flatMap,
        Block.forall_mem_collect_iff_of (ih c hc)]
      rfl
    rw [Stmt.collect, Stmt.Meets, List.forall_mem_append, hcs]
    rfl
  | doWhile s b c ih =>
    -- the condition is listed before the body although it comes after it
    rw [Stmt.collect, Stmt.Meets, and_comm, ← ih, List.forall_mem_append]
    rfl
  | forLoop s i c n b ih =>
    rw [Stmt.collect, Stmt.Meets, ← ih]
    simp only [List.forall_mem_append, List.forall_mem_flatMap, Option.mem_toList, and_assoc]
    rfl
  | returns s r =>
    rw [Stmt.collect, List.forall_mem_flatMap]
    simp only [Option.mem_toList]
    rfl
  | ifThen s c t ih | whileLoop s c b ih =>
    rw [Stmt.collect, Stmt.Meets, ← ih, List.forall_mem_append]
    rfl
  | ifElse s c t e iht ihe =>
    rw [Stmt.collect, Stmt.Meets, ← iht, ← ihe, List.forall_mem_append, List.forall_mem_append,
      and_assoc]
    rfl
  | expr s e => rfl
  | label s n b ih => exact ih
  | breaks | continues | goto | empty => exact iff_of_true (List.forall_mem_nil _) trivial

/-- What is listed of a block has a property if and only if all its parts demand it. -/
theorem Block.forall_mem_collect_iff (b : Block) :
    (∀ a ∈ b.collect f g, Q a) ↔ b.Meets (.listed f g Q) :=
  Block.forall_mem_collect_iff_of fun s _ => s.forall_mem_collect_iff

end Collect

/-! ### Expressions of a program -/

/-- The demand that something hold at every node. -/
def Demands.nodes (P : Expr → Prop) : Demands where
  var v := ∀ e ∈ v.initializer, e.Everywhere P
  expr := Expr.Everywhere P
  test := Expr.Everywhere P
  returned e := ∀ x ∈ e, x.Everywhere P

/-- The expressions of a statement that are not operands of others. -/
abbrev Stmt.roots (s : Stmt) : List Expr := s.collect (·.initializer.toList) fun e => [e]

/-- That all expressions that are listed have a property at every node is what the demand on nodes
says. -/
theorem Demands.listed_eq_nodes :
    Demands.listed (·.initializer.toList) (fun e => [e]) (Expr.Everywhere P) = .nodes P := by
  simp [Demands.listed, Demands.nodes]

/-- **What holds of all nodes of a program holds everywhere in its expressions.** -/
theorem Program.forall_mem_expressions_iff {p : Program} :
    (∀ e ∈ p.expressions, P e) ↔
      (∀ v ∈ p.globals, (Demands.nodes P).var v) ∧ ∀ f ∈ p.functions, f.body.Meets (.nodes P) := by
  rw [expressions, Expr.forall_mem_walk_iff]
  simp only [List.mem_reverse]
  rw [roots, List.forall_mem_append, List.forall_mem_flatMap, List.forall_mem_flatMap]
  refine and_congr (forall₂_congr fun v _ => ?_) (forall₂_congr fun f _ => ?_)
  · simp [Demands.nodes]
  · rw [Block.forall_mem_collect_iff, Demands.listed_eq_nodes]

end CTyping
