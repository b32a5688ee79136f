import CTyping.Diagnostic
import CTyping.Ty.Basic

/-!
# What the checker finds

The faults and the doubtful conversions that the checker reports, each by its cause. The wording is
in `CTyping.Problem.message` alone; two causes may share one.
-/

namespace CTyping

/-- What the checker reports about a program. -/
inductive Problem where
  /-- A function cannot give an array as its result. -/
  | returnsArray (function : String)
  | returnsStruct (function : String)
  | returnsUnion (function : String)
  /-- A parameter of a type that is not passed as a whole. -/
  | parameterType (type : Ty)
  /-- An initialized variable of a type that is not assigned as a whole. -/
  | variableType (type : Ty)
  | valueFromVoid
  | missingValue
  | returnType (type : Ty)
  /-- An assignment to what is no place. -/
  | notAssignable
  /-- An assignment to a place whose type is not assigned as a whole. -/
  | assignedType
  | incompatible (first second : Ty)
  | notInteger (type : Ty)
  | notScalar (type : Ty)
  | notCallable
  | argumentCount (count : Nat)
  /-- A record as an argument. -/
  | argumentType (type : Ty)
  | notIndexable (type : Ty)
  | notRecord (type : Ty)
  | noMember (type : Ty) (name : String)
  | notDereferable (type : Ty)
  | notAddressable
  /-- A conversion made for an assignment that may lose something. -/
  | lossyConversion (source target : Ty)
  /-- A written cast that may lose something. -/
  | lossyCast (source target : Ty)
deriving DecidableEq

namespace Problem

/-- Conversions that may lose something are doubtful, everything else is wrong. -/
def severity : Problem → Severity
  | lossyConversion _ _ => .warning
  | lossyCast _ _ => .warning
  | _ => .error

/-- What is said about a problem. -/
def message : Problem → String
  | returnsArray f => "returns an array: " ++ f
  | returnsStruct f => "returns a struct: " ++ f
  | returnsUnion f => "returns a union: " ++ f
  | parameterType t => "invalid parameter type: " ++ t.text
  | variableType t => "invalid LHS type: " ++ t.text
  | valueFromVoid => "returning value from void function"
  | missingValue => "missing return value"
  | returnType t => "returning incompatible value: " ++ t.text
  | notAssignable => "invalid lhs expression"
  | assignedType => "invalid lhs type"
  | incompatible a b => "incompatible type: " ++ a.text ++ " and " ++ b.text
  | notInteger t => "non-integer argument for unary op: " ++ t.text
  | notScalar t => "non-integer argument for unary op: " ++ t.text
  | notCallable => "calling object is not a function"
  | argumentCount n => "wrong number of arguments: " ++ toString n
  | argumentType t => "invalid argument type: " ++ t.text
  | notIndexable t => "is not indexable: " ++ t.text
  | notRecord t => "is not struct/union: " ++ t.text
  | noMember t name => t.text ++ " does not have member " ++ name
  | notDereferable t => "dereferencing non-pointer expression: " ++ t.text
  | notAddressable => "invalid LHS expression for &"
  | lossyConversion s t => "implicit cast from " ++ s.text ++ " to " ++ t.text
  | lossyCast s t => "incompatible cast from " ++ s.text ++ " to " ++ t.text

/-- A problem at a place, as a diagnostic. -/
def diagnostic (p : Problem) (s : Span) : Diagnostic := .place p.severity p.message s

end Problem

end CTyping
