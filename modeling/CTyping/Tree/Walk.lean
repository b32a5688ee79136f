import CTyping.Tree.Program

/-!
# All expressions of a program

`CTyping.Expr.walk` goes over expressions with a stack of those still to be visited: the top one
is listed and its operands go on the stack in its place, the last of them on top. Each step lists
one node, so the walk ends when the nodes on the stack (`CTyping.Expr.nodesList`) are used up.
-/

namespace CTyping

namespace Expr

mutual

/-- The number of nodes of an expression. -/
def nodes : Expr → Nat
  | intLit _ _ _ => 1
  | strLit _ _ => 1
  | var _ _ _ => 1
  | unary _ _ e => nodes e + 1
  | step _ _ e => nodes e + 1
  | addressOf _ e => nodes e + 1
  | deref _ e => nodes e + 1
  | binary _ _ l r => nodes l + nodes r + 1
  | assign _ _ l r => nodes l + nodes r + 1
  | cond _ c t e => nodes c + nodes t + nodes e + 1
  | call _ f as => nodes f + nodesList as + 1
  | index _ b x => nodes b + nodes x + 1
  | member _ b _ => nodes b + 1
  | arrow _ b _ => nodes b + 1
  | cast _ _ e _ => nodes e + 1
  | sizeofType _ _ => 1
  | sizeofExpr _ e => nodes e + 1

/-- The number of nodes of the expressions of a list. -/
def nodesList : List Expr → Nat
  | [] => 0
  | e :: es => nodes e + nodesList es

end

/-- The nodes of two lists together are those of the one and of the other. -/
theorem nodesList_append (as bs : List Expr) :
    nodesList (as ++ bs) = nodesList as + nodesList bs := by
  induction as with
  | nil => simp [nodesList]
  | cons a as ih => simp only [List.cons_append, nodesList, ih]; omega

/-- The number of nodes does not depend on the order of a list. -/
theorem nodesList_reverse (es : List Expr) : nodesList es.reverse = nodesList es := by
  induction es with
  | nil => rfl
  | cons e es ih => simp only [List.reverse_cons, nodesList_append, nodesList, ih]; omega

/-- A node is one more than its operands. -/
theorem nodes_eq (e : Expr) : nodes e = nodesList e.children + 1 := by
  cases e <;> simp only [nodes, nodesList, children] <;> omega

/-- Lists the expressions on a stack with all their operands, the top of the stack first. -/
def walk : List Expr → List Expr
  | [] => []
  | e :: rest => e :: walk (e.children.reverse ++ rest)
termination_by stack => nodesList stack
decreasing_by
  simp only [nodesList, nodesList_append, nodesList_reverse, nodes_eq e]
  omega

end Expr

namespace Program

/-- Every expression of a program, the last one first and each before its operands. -/
def expressions (p : Program) : List Expr := Expr.walk p.roots.reverse

/-- Whether every expression of a program has its type. -/
def isFullyTyped (p : Program) : Bool := p.expressions.all (·.ty?.isSome)

end Program

end CTyping
