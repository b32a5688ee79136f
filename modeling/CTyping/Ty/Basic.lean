/-!
# Types of the language

The types are those of C without floating point: `void`, the integer types, pointers, arrays,
functions, and references to declared structs and unions. An integer type carries its width, which
is fixed by a data model (`CTyping.DataModel`) and not by the type's name.

Two types are equal when they are built alike, names and widths included
(`CTyping.Ty.same_iff` makes this decidable). The text of a type
(`CTyping.Ty.text`) shows neither widths nor declaration ids.
-/

namespace CTyping

/-- The integer types by rank. -/
inductive IntKind where
  | char
  | short
  | int
  | long
deriving DecidableEq, Repr, Inhabited

/-- The keyword of an integer rank. -/
def IntKind.text : IntKind → String
  | .char => "char"
  | .short => "short"
  | .int => "int"
  | .long => "long"

/-- An integer type: rank, signedness and width in bytes. -/
structure IntTy where
  kind : IntKind
  signed : Bool
  size : UInt8
deriving DecidableEq, Repr, Inhabited

/-- An integer type as it is shown; the width is not. -/
def IntTy.text (i : IntTy) : String :=
  if i.signed then i.kind.text else "unsigned " ++ i.kind.text

/-- A reference to a declared struct or union: its id, and the name to show for it. -/
structure RecordRef where
  id : UInt32
  name : String
deriving DecidableEq, Repr, Inhabited

/-- The types of the language. -/
inductive Ty where
  | void
  | int (type : IntTy)
  | ptr (base : Ty)
  /-- An array; one without a length is a parameter or a declaration and has no storage. -/
  | array (element : Ty) (length : Option UInt64)
  /-- A function; a variadic one takes further arguments after those of `params`. -/
  | func (result : Ty) (params : List Ty) (variadic : Bool)
  | struct (ref : RecordRef)
  | union (ref : RecordRef)
deriving Inhabited

namespace Ty

/-! ### Equality -/

mutual

/-- Whether two types are built alike. -/
def same : Ty → Ty → Bool
  | .void, .void => true
  | .int i, .int j => i == j
  | .ptr a, .ptr b => same a b
  | .array a m, .array b n => same a b && m == n
  | .func r ps v, .func s qs w => same r s && sameList ps qs && v == w
  | .struct r, .struct s => r == s
  | .union r, .union s => r == s
  | _, _ => false

/-- Whether two lists of types are built alike, element by element. -/
def sameList : List Ty → List Ty → Bool
  | [], [] => true
  | a :: as, b :: bs => same a b && sameList as bs
  | _, _ => false

end

mutual

/-- Types for which the comparison holds are equal. -/
theorem eq_of_same : ∀ {a b : Ty}, same a b = true → a = b
  | .void, b, h => by
    cases b with
    | void => rfl
    | _ => cases h
  | .int i, b, h => by
    cases b with
    | int j => rw [beq_iff_eq.mp h]
    | _ => cases h
  | .ptr a, b, h => by
    cases b with
    | ptr b => rw [eq_of_same (show same a b = true from h)]
    | _ => cases h
  | .array a m, b, h => by
    cases b with
    | array b n =>
      simp only [same, Bool.and_eq_true, beq_iff_eq] at h
      rw [eq_of_same h.1, h.2]
    | _ => cases h
  | .func r ps v, b, h => by
    cases b with
    | func s qs w =>
      simp only [same, Bool.and_eq_true, beq_iff_eq] at h
      rw [eq_of_same h.1.1, eq_of_sameList h.1.2, h.2]
    | _ => cases h
  | .struct r, b, h => by
    cases b with
    | struct s => rw [beq_iff_eq.mp h]
    | _ => cases h
  | .union r, b, h => by
    cases b with
    | union s => rw [beq_iff_eq.mp h]
    | _ => cases h

theorem eq_of_sameList : ∀ {as bs : List Ty}, sameList as bs = true → as = bs
  | [], bs, h => by
    cases bs with
    | nil => rfl
    | cons b bs => cases h
  | a :: as, bs, h => by
    cases bs with
    | nil => cases h
    | cons b bs =>
      simp only [sameList, Bool.and_eq_true] at h
      rw [eq_of_same h.1, eq_of_sameList h.2]

end

mutual

/-- The comparison holds of a type and itself. -/
theorem same_self : ∀ a : Ty, same a a = true
  | .void => rfl
  | .int i => by simp [same]
  | .ptr a => by rw [same, same_self a]
  | .array a m => by simp [same, same_self a]
  | .func r ps v => by simp [same, same_self r, sameList_self ps]
  | .struct r => by simp [same]
  | .union r => by simp [same]

theorem sameList_self : ∀ as : List Ty, sameList as as = true
  | [] => rfl
  | a :: as => by simp [sameList, same_self a, sameList_self as]

end

/-- The comparison decides equality. -/
theorem same_iff {a b : Ty} : same a b = true ↔ a = b :=
  ⟨eq_of_same, fun h => h ▸ same_self a⟩

instance : DecidableEq Ty := fun _ _ => decidable_of_iff _ same_iff

/-! ### Kinds of types -/

/-- Only `void` itself, no pointer to it. -/
def isVoid : Ty → Bool
  | .void => true
  | _ => false

/-- Integers of any kind, sign and width. -/
def isInteger : Ty → Bool
  | .int _ => true
  | _ => false

/-- Pointers, to whatever they point. -/
def isPointer : Ty → Bool
  | .ptr _ => true
  | _ => false

/-- Arrays, with or without a length. -/
def isArray : Ty → Bool
  | .array _ _ => true
  | _ => false

/-- An array with storage of its own. -/
def isAllocatedArray : Ty → Bool
  | .array _ (some _) => true
  | _ => false

/-- Functions themselves; a pointer to a function is none. -/
def isFunction : Ty → Bool
  | .func _ _ _ => true
  | _ => false

/-- References to structs. -/
def isStruct : Ty → Bool
  | .struct _ => true
  | _ => false

/-- References to unions. -/
def isUnion : Ty → Bool
  | .union _ => true
  | _ => false

/-- A struct or a union: a type with named members. -/
def isRecord (t : Ty) : Bool := t.isStruct || t.isUnion

/-- An integer or a pointer: a value that a branch can test. -/
def isScalar (t : Ty) : Bool := t.isInteger || t.isPointer

/-- A type whose values are neither assigned nor passed as a whole. -/
def isAggregate (t : Ty) : Bool := t.isRecord || t.isAllocatedArray

/-- What a pointer points to, or an array holds. -/
def base? : Ty → Option Ty
  | .ptr base => some base
  | .array element _ => some element
  | _ => none

/-- A pointer or an array: a type that can be dereferenced and indexed. -/
def isDereferable (t : Ty) : Bool := t.base?.isSome

/-- The declaration that a struct or union type refers to. -/
def record? : Ty → Option RecordRef
  | .struct ref => some ref
  | .union ref => some ref
  | _ => none

/-- The integer type that a type is. -/
def integer? : Ty → Option IntTy
  | .int type => some type
  | _ => none

/-- What a caller sees of a function: its result, its parameters, and whether more arguments may
follow. -/
structure Prototype where
  result : Ty
  params : List Ty
  variadic : Bool

/-- Whether a call with `n` arguments fits. -/
def Prototype.acceptsCount (p : Prototype) (n : Nat) : Bool :=
  if p.variadic then decide (p.params.length ≤ n) else decide (n = p.params.length)

/-- What can be called is a function or a pointer to one. -/
def prototype? : Ty → Option Prototype
  | .func result params variadic => some ⟨result, params, variadic⟩
  | .ptr (.func result params variadic) => some ⟨result, params, variadic⟩
  | _ => none

/-- Functions and pointers to functions can be called. -/
def isCallable (t : Ty) : Bool := t.prototype?.isSome

/-! ### Text -/

/-- The parameters of a function as they are shown, `...` for further arguments. -/
def paramsText (params : List String) (variadic : Bool) : String :=
  ", ".intercalate (if variadic then params ++ ["..."] else params)

mutual

/-- A type as it is shown. -/
def text : Ty → String
  | .void => "void"
  | .int type => type.text
  | .ptr base => base.text ++ "*"
  | .array element (some n) => element.text ++ "[" ++ toString n.toNat ++ "]"
  | .array element none => element.text ++ "[]"
  | .func result params variadic =>
    result.text ++ "(" ++ paramsText (textList params) variadic ++ ")"
  | .struct ref => "struct " ++ ref.name
  | .union ref => "union " ++ ref.name

/-- The texts of the types of a list. -/
def textList : List Ty → List String
  | [] => []
  | t :: ts => t.text :: textList ts

end

end Ty

end CTyping
