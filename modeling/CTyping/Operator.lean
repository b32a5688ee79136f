/-!
# Operators

The operators of the language, each with the name it has in a document and the text it has in a
program. A binary operator belongs to a `CTyping.OperatorClass`, and the class alone decides
how the operator is typed.
-/

namespace CTyping

/-- The binary operators. -/
inductive BinaryOp where
  | add
  | sub
  | mul
  | div
  | mod
  | bitAnd
  | bitOr
  | bitXor
  | leftShift
  | rightShift
  | logicalAnd
  | logicalOr
  | equal
  | notEqual
  | less
  | greater
  | lessEqual
  | greaterEqual
deriving DecidableEq, Repr, Inhabited

/-- The ways in which binary operators are typed. -/
inductive OperatorClass where
  /-- Of `+ -`: two integers brought to one type, or a pointer and an offset. -/
  | additive
  /-- Of `* / % & | ^`: two integers brought to one type. -/
  | multiplicative
  /-- Of `<< >>`: two integers, each of its own type. -/
  | shift
  /-- Of `== != < > <= >= && ||`: two scalars brought to one type. -/
  | comparison
deriving DecidableEq, Repr, Inhabited

/-- The name of a class. -/
def OperatorClass.text : OperatorClass → String
  | .additive => "Additive"
  | .multiplicative => "Multiplicative"
  | .shift => "Shift"
  | .comparison => "Comparison"

namespace BinaryOp

/-- Every binary operator. -/
def all : List BinaryOp :=
  [.add, .sub, .mul, .div, .mod, .bitAnd, .bitOr, .bitXor, .leftShift, .rightShift, .logicalAnd,
    .logicalOr, .equal, .notEqual, .less, .greater, .lessEqual, .greaterEqual]

/-- The class that decides which operands an operator takes, and what becomes of them. -/
def operatorClass : BinaryOp → OperatorClass
  | .add | .sub => .additive
  | .mul | .div | .mod | .bitAnd | .bitOr | .bitXor => .multiplicative
  | .leftShift | .rightShift => .shift
  | .logicalAnd | .logicalOr | .equal | .notEqual | .less | .greater | .lessEqual
  | .greaterEqual => .comparison

/-- The name of an operator in a document. -/
def name : BinaryOp → String
  | .add => "add"
  | .sub => "sub"
  | .mul => "mul"
  | .div => "div"
  | .mod => "mod"
  | .bitAnd => "bit_and"
  | .bitOr => "bit_or"
  | .bitXor => "bit_xor"
  | .leftShift => "left_shift"
  | .rightShift => "right_shift"
  | .logicalAnd => "logical_and"
  | .logicalOr => "logical_or"
  | .equal => "equal"
  | .notEqual => "not_equal"
  | .less => "less"
  | .greater => "greater"
  | .lessEqual => "less_equal"
  | .greaterEqual => "greater_equal"

/-- The operator with a given name in a document. -/
def ofName? (s : String) : Option BinaryOp := all.find? (·.name == s)

/-- An operator as it is written in a program. -/
def text : BinaryOp → String
  | .add => "+"
  | .sub => "-"
  | .mul => "*"
  | .div => "/"
  | .mod => "%"
  | .bitAnd => "&"
  | .bitOr => "|"
  | .bitXor => "^"
  | .leftShift => "<<"
  | .rightShift => ">>"
  | .logicalAnd => "&&"
  | .logicalOr => "||"
  | .equal => "=="
  | .notEqual => "!="
  | .less => "<"
  | .greater => ">"
  | .lessEqual => "<="
  | .greaterEqual => ">="

end BinaryOp

/-- The assignment operators. -/
inductive AssignOp where
  | assign
  | add
  | sub
  | mul
  | div
  | mod
  | bitAnd
  | bitOr
  | bitXor
  | leftShift
  | rightShift
deriving DecidableEq, Repr, Inhabited

namespace AssignOp

/-- Every assignment operator. -/
def all : List AssignOp :=
  [.assign, .add, .sub, .mul, .div, .mod, .bitAnd, .bitOr, .bitXor, .leftShift, .rightShift]

/-- The operation that a compound assignment performs. -/
def binary? : AssignOp → Option BinaryOp
  | .assign => none
  | .add => some .add
  | .sub => some .sub
  | .mul => some .mul
  | .div => some .div
  | .mod => some .mod
  | .bitAnd => some .bitAnd
  | .bitOr => some .bitOr
  | .bitXor => some .bitXor
  | .leftShift => some .leftShift
  | .rightShift => some .rightShift

/-- The name of an operator in a document. -/
def name (op : AssignOp) : String :=
  match op.binary? with
  | none => "assign"
  | some b => b.name ++ "_assign"

/-- The assignment operator with a given name in a document. -/
def ofName? (s : String) : Option AssignOp := all.find? (·.name == s)

/-- An operator as it is written in a program. -/
def text (op : AssignOp) : String :=
  match op.binary? with
  | none => "="
  | some b => b.text ++ "="

/-- Whether the operator moves a pointer: `+=` and `-=` do. -/
def movesPointer : AssignOp → Bool
  | .add => true
  | .sub => true
  | _ => false

end AssignOp

/-- The unary operators that have an operand of their own kind. -/
inductive UnaryOp where
  | plus
  | minus
  | bitNot
  | logicalNot
deriving DecidableEq, Repr, Inhabited

namespace UnaryOp

/-- Every unary operator. -/
def all : List UnaryOp := [.plus, .minus, .bitNot, .logicalNot]

/-- The name of an operator in a document. -/
def name : UnaryOp → String
  | .plus => "plus"
  | .minus => "minus"
  | .bitNot => "bit_not"
  | .logicalNot => "logical_not"

/-- The unary operator with a given name in a document. -/
def ofName? (s : String) : Option UnaryOp := all.find? (·.name == s)

/-- An operator as it is written in a program. -/
def text : UnaryOp → String
  | .plus => "+"
  | .minus => "-"
  | .bitNot => "~"
  | .logicalNot => "!"

end UnaryOp

/-- The operators that step a variable up or down. -/
inductive StepOp where
  | preIncrement
  | postIncrement
  | preDecrement
  | postDecrement
deriving DecidableEq, Repr, Inhabited

namespace StepOp

/-- Every stepping operator. -/
def all : List StepOp := [.preIncrement, .postIncrement, .preDecrement, .postDecrement]

/-- The name of an operator in a document. -/
def name : StepOp → String
  | .preIncrement => "pre_increment"
  | .postIncrement => "post_increment"
  | .preDecrement => "pre_decrement"
  | .postDecrement => "post_decrement"

/-- The step operator with a given name in a document. -/
def ofName? (s : String) : Option StepOp := all.find? (·.name == s)

/-- An operator as it is written in a program, before or after its operand alike. -/
def text : StepOp → String
  | .preIncrement => "++"
  | .postIncrement => "++"
  | .preDecrement => "--"
  | .postDecrement => "--"

end StepOp

end CTyping
