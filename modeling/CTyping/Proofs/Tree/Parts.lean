import CTyping.Proofs.Tree.Induction

/-!
# The parts of a program

A program with its functions, variables, statements and expressions is one tree, whose nodes are
`CTyping.Node` and whose edges are `CTyping.Node.parts`. Declarations of structs and unions are left
out, since they hold neither expressions nor places.

A node is reached from another by going down from part to part: `CTyping.Node.Within` says that it
can be reached, and `CTyping.Node.at?` which one is reached along an address, the list of the
positions at which the parts stand.
-/

namespace CTyping

/-- What a program is made of. -/
inductive Node where
  | program (program : Program)
  | function (function : Function)
  | param (param : Param)
  | var (var : Variable)
  | block (block : Block)
  | stmt (stmt : Stmt)
  /-- An arm of a `switch`. -/
  | arm (arm : Case)
  | expr (expr : Expr)

/-- What stands in a statement. A condition stands before what it governs, also where the program
writes it last. -/
def Stmt.parts : Stmt → List Node
  | .block _ b => [.block b]
  | .expr _ e => [.expr e]
  | .ifElse _ c t e => .expr c :: .stmt t :: e.toList.map .stmt
  | .whileLoop _ c b => [.expr c, .stmt b]
  | .doWhile _ b c => [.expr c, .stmt b]
  | .forLoop _ i c n b =>
    i.toList.map .expr ++ (c.toList.map .expr ++ (n.toList.map .expr ++ [.stmt b]))
  | .switch _ e cs => .expr e :: cs.map .arm
  | .returns _ e => e.toList.map .expr
  | .breaks _ => []
  | .continues _ => []
  | .goto _ _ => []
  | .label _ _ b => [.stmt b]
  | .empty _ => []

namespace Node

/-- The parts of a node, the first one first. -/
def parts : Node → List Node
  | program p => p.globals.map var ++ p.functions.map function
  | function f => f.params.map param ++ [block f.body]
  | param _ => []
  | var v => v.initializer.toList.map expr
  | block b => b.vars.map var ++ b.stmts.map stmt
  | stmt s => s.parts
  | arm c => c.values.map expr ++ [block c.body]
  | expr e => e.children.map expr

/-! ### Induction -/

section Induction

variable {motive : Node → Prop} (node : ∀ n, (∀ m ∈ n.parts, motive m) → motive n)

include node

theorem induction_expr (e : Expr) : motive (expr e) := by
  induction e using Expr.inductionOnChildren with
  | node e ih => exact node _ (List.forall_mem_map.mpr ih)

theorem induction_option (o : Option Expr) : ∀ m ∈ o.toList.map expr, motive m :=
  List.forall_mem_map.mpr fun e _ => induction_expr node e

theorem induction_var (v : Variable) : motive (var v) :=
  node _ (induction_option node v.initializer)

theorem induction_block {b : Block} (h : ∀ s ∈ b.stmts, motive (stmt s)) : motive (block b) := by
  refine node _ (List.forall_mem_append.mpr ⟨?_, List.forall_mem_map.mpr h⟩)
  exact List.forall_mem_map.mpr fun v _ => induction_var node v

theorem induction_stmt (s : Stmt) : motive (stmt s) := by
  have hexpr := induction_expr node
  induction s with
  | block s b ih => exact node _ (List.forall_mem_singleton.mpr (induction_block node ih))
  | expr s e => exact node _ (List.forall_mem_singleton.mpr (hexpr e))
  | ifThen s c t iht => exact node _ (forall_mem_pair (hexpr c) iht)
  | ifElse s c t u iht ihu =>
    exact node _ (List.forall_mem_cons.mpr ⟨hexpr c, forall_mem_pair iht ihu⟩)
  | whileLoop s c b ih => exact node _ (forall_mem_pair (hexpr c) ih)
  | doWhile s b c ih => exact node _ (forall_mem_pair (hexpr c) ih)
  | forLoop s i c n b ih =>
    refine node _ ?_
    rw [parts, Stmt.parts, List.forall_mem_append, List.forall_mem_append, List.forall_mem_append,
      List.forall_mem_singleton]
    exact ⟨induction_option node i, induction_option node c, induction_option node n, ih⟩
  | switch s e cs ih =>
    have harm : ∀ c ∈ cs, motive (arm c) := by
      refine fun c hc => node _ (List.forall_mem_append.mpr ⟨?_, ?_⟩)
      · exact List.forall_mem_map.mpr fun v _ => hexpr v
      · exact List.forall_mem_singleton.mpr (induction_block node (ih c hc))
    exact node _ (List.forall_mem_cons.mpr ⟨hexpr e, List.forall_mem_map.mpr harm⟩)
  | returns s e => exact node _ (induction_option node e)
  | label s n b ih => exact node _ (List.forall_mem_singleton.mpr ih)
  | breaks | continues | goto | empty => exact node _ (List.forall_mem_nil _)

/-- **Induction on the nodes of a program**: parts before the whole. -/
@[elab_as_elim]
theorem induction (n : Node) : motive n := by
  -- blocks and functions come first, since other nodes have them as parts
  have hblock : ∀ b, motive (block b) :=
    fun b => induction_block node fun s _ => induction_stmt node s
  have hfunction : ∀ f, motive (function f) := by
    refine fun f => node _ (List.forall_mem_append.mpr ⟨?_, ?_⟩)
    · exact List.forall_mem_map.mpr fun p _ => node _ (List.forall_mem_nil _)
    · exact List.forall_mem_singleton.mpr (hblock f.body)
  cases n with
  | program p =>
    refine node _ (List.forall_mem_append.mpr ⟨?_, ?_⟩)
    · exact List.forall_mem_map.mpr fun v _ => induction_var node v
    · exact List.forall_mem_map.mpr fun f _ => hfunction f
  | function f => exact hfunction f
  | param p => exact node _ (List.forall_mem_nil _)
  | var v => exact induction_var node v
  | block b => exact hblock b
  | stmt s => exact induction_stmt node s
  | arm c =>
    refine node _ (List.forall_mem_append.mpr ⟨?_, List.forall_mem_singleton.mpr (hblock _)⟩)
    exact List.forall_mem_map.mpr fun e _ => induction_expr node e
  | expr e => exact induction_expr node e

end Induction

/-! ### Addresses -/

/-- The node at an address. -/
def at? : Node → List Nat → Option Node
  | n, [] => some n
  | n, k :: address => n.parts[k]?.bind (at? · address)

end Node

end CTyping
