import CTyping.Checker.Trace
import CTyping.Tree.Expr
import CTyping.Ty.Conversion
import CTyping.Ty.Declarations

/-!
# Typing rules

One rule for each kind of expression, applied when the operands have their types. A rule gives the
type of the node, `void` where it finds a problem, and the operands that had to be converted.

Where two types have to agree, three things may happen: they are equal and nothing is done; one is
compatible with the other (`CTyping.Ty.compatible`) and its expression is converted; or there is a
problem. Assignments are more generous: they convert whatever can be cast
(`CTyping.Ty.castable`), with a warning where the types are not compatible.
-/

namespace CTyping.Check

open Traced (note report reportUnless)

/-! ### Demands on operands -/

/-- Converts an expression, and notes it. -/
def convert (target : Ty) (e : Expr) : Traced Expr := do
  note (.converted e.type target)
  return e.convert target

/-- Whether an expression is an integer; a problem if it is not. -/
def integer (e : Expr) : Traced Bool := do
  if e.type.isInteger then return true
  report e.span (.notInteger e.type)
  return false

/-- Whether an expression is a scalar; a problem if it is not. -/
def scalar (e : Expr) : Traced Bool := do
  if e.type.isScalar then return true
  report e.span (.notScalar e.type)
  return false

/-- Asks of an expression, where there is one, that it be a scalar. -/
def scalar? : Option Expr → Traced Unit
  | none => return
  | some e => do
    let _ ← scalar e

/-- Whether two expressions are integers. Both are looked at in any case. -/
def integers (l r : Expr) : Traced Bool := do
  let a ← integer l
  let b ← integer r
  return a && b

/-- Whether two expressions are scalars. Both are looked at in any case. -/
def scalars (l r : Expr) : Traced Bool := do
  let a ← scalar l
  let b ← scalar r
  return a && b

/-! ### Operators with one operand -/

/-- The type of an operator applied to one operand. -/
def unary (m : DataModel) (op : UnaryOp) (operand : Expr) : Traced Ty := do
  match op with
  | .logicalNot => if ← scalar operand then return m.int else return .void
  | _ => if ← integer operand then return operand.type else return .void

/-- The type of a variable stepped up or down. -/
def step (operand : Expr) : Traced Ty := do
  if ← scalar operand then return operand.type else return .void

/-- The type of an address. It is a pointer to the operand's type even if the operand has no
address. -/
def addressOf (span : Span) (operand : Expr) : Traced Ty := do
  reportUnless operand.isAssignable span .notAddressable
  return .ptr operand.type

/-- The type of what an expression points to. -/
def deref (span : Span) (operand : Expr) : Traced Ty := do
  match operand.type.base? with
  | some base => return base
  | none =>
    report span (.notDereferable operand.type)
    return .void

/-! ### Operators with two operands -/

/-- Brings two operands to one type, the right one to that of the left one if possible. -/
def unify (span : Span) (l r : Expr) : Traced (Option (Expr × Expr)) := do
  if l.type = r.type then return some (l, r)
  if r.type.compatible l.type then return some (l, ← convert l.type r)
  if l.type.compatible r.type then return some (← convert r.type l, r)
  report span (.incompatible l.type r.type)
  return none

/-- Operators on two integers of one type, which is also that of the result. -/
def arithmetic (span : Span) (l r : Expr) : Traced (Expr × Expr × Ty) := do
  if ← integers l r then
    match ← unify span l r with
    | some (l, r) => return (l, r, l.type)
    | none => return (l, r, .void)
  else return (l, r, .void)

/-- Sums and differences: a pointer and an integer give the pointer's type; otherwise they are
arithmetic. An array counts as neither. -/
def additive (span : Span) (l r : Expr) : Traced (Expr × Expr × Ty) := do
  if l.type.isPointer then
    return (l, r, if ← integer r then l.type else .void)
  if r.type.isPointer then
    return (l, r, if ← integer l then r.type else .void)
  arithmetic span l r

/-- Shifts: two integers, each of its own type, give the type of the left one. -/
def shift (l r : Expr) : Traced (Expr × Expr × Ty) := do
  return (l, r, if ← integers l r then l.type else .void)

/-- Comparisons and logical operators: two scalars of one type give a truth value. -/
def comparison (m : DataModel) (span : Span) (l r : Expr) : Traced (Expr × Expr × Ty) := do
  if ← scalars l r then
    match ← unify span l r with
    | some (l, r) => return (l, r, m.int)
    | none => return (l, r, .void)
  else return (l, r, .void)

/-- The operands and the type of an operator applied to two operands. -/
def binary (m : DataModel) (span : Span) (op : BinaryOp) (l r : Expr) :
    Traced (Expr × Expr × Ty) :=
  match op.operatorClass with
  | .additive => additive span l r
  | .multiplicative => arithmetic span l r
  | .shift => shift l r
  | .comparison => comparison m span l r

/-! ### Assignments -/

/-- Brings a value to the type of the place that it is assigned to, if that can be done. -/
def store (span : Span) (target : Ty) (value : Expr) : Traced (Option Expr) := do
  if value.type = target then return some value
  unless value.type.castable target do
    report span (.incompatible target value.type)
    return none
  reportUnless (value.type.compatible target) span (.lossyConversion value.type target)
  return some (← convert target value)

/-- The value and the type of an assignment. A pointer may be moved by an integer, which stays as
it is. -/
def assign (span : Span) (op : AssignOp) (lhs rhs : Expr) : Traced (Expr × Ty) := do
  unless lhs.isAssignable do
    report span .notAssignable
    return (rhs, .void)
  if lhs.type.isAggregate then
    report span .assignedType
    return (rhs, .void)
  if op.movesPointer && lhs.type.isPointer then
    return (rhs, if ← integer rhs then lhs.type else .void)
  match ← store span lhs.type rhs with
  | some rhs => return (rhs, lhs.type)
  | none => return (rhs, .void)

/-! ### Choices, calls and members -/

/-- The branches and the type of a conditional expression. If either branch could be converted, it
is the first. -/
def cond (span : Span) (test yes no : Expr) : Traced (Expr × Expr × Ty) := do
  let _ ← scalar test
  if yes.type = no.type then return (yes, no, yes.type)
  if yes.type.compatible no.type then return (← convert no.type yes, no, no.type)
  if no.type.compatible yes.type then return (yes, ← convert yes.type no, yes.type)
  report span (.incompatible no.type yes.type)
  return (yes, no, .void)

/-- The parameters that the arguments of a call are converted to, and the type of the call. A call
that does not fit converts nothing. -/
def call (span : Span) (callee : Expr) (count : Nat) : Traced (List Ty × Ty) := do
  match callee.type.prototype? with
  | none =>
    report span .notCallable
    return ([], .void)
  | some p =>
    if p.acceptsCount count then return (p.params, p.result)
    report span (.argumentCount count)
    return ([], .void)

/-- An argument, converted to the type of its parameter. -/
def argument (param : Ty) (arg : Expr) : Traced Expr := do
  if arg.type.isRecord then
    report arg.span (.argumentType arg.type)
    return arg
  if arg.type = param then return arg
  if arg.type.compatible param then return ← convert param arg
  report arg.span (.incompatible arg.type param)
  return arg

/-- What indexing an expression gives. -/
def element (span : Span) (base : Expr) : Traced (Option Ty) := do
  match base.type.base? with
  | some t => return some t
  | none =>
    report span (.notIndexable base.type)
    return none

/-- The type of an indexed expression, of which it is known what it gives. -/
def index (element : Option Ty) (index : Expr) : Traced Ty := do
  match element with
  | none => return .void
  | some t => if ← integer index then return t else return .void

/-- The type of a member of a record type. -/
def member (d : Declarations) (span : Span) (t : Ty) (name : String) : Traced Ty := do
  unless t.isRecord do
    report span (.notRecord t)
    return .void
  match d.memberType? t name with
  | some m => return m
  | none =>
    report span (.noMember t name)
    return .void

/-- The type of a member reached through a pointer. An array is no pointer here. -/
def arrow (d : Declarations) (span : Span) (t : Ty) (name : String) : Traced Ty := do
  match t with
  | .ptr base => member d span base name
  | _ =>
    report span (.notDereferable t)
    return .void

/-- The type of a cast. A conversion that the checker made itself is never doubtful. -/
def cast (span : Span) (target : Ty) (operand : Expr) (implicit : Bool) : Traced Ty := do
  unless operand.type.castable target do
    report span (.incompatible operand.type target)
    return .void
  reportUnless (implicit || operand.type.compatible target) span (.lossyCast operand.type target)
  return target

end CTyping.Check
