import CTyping.Ty.Basic

/-!
# Conversions between types

Two relations on types. `CTyping.Ty.compatible` holds of the conversions that the checker
makes by itself wherever one type is given and another one wanted; `CTyping.Ty.castable` holds
of those that a written cast or an assignment may ask for. The second is the wider one.

An array stands for a pointer to its first element. Its elements are stepped over by their own
width, so compatibility of arrays asks that the element types agree in width too
(`CTyping.Ty.sameWidth`).
-/

namespace CTyping.Ty

/-- Whether two compatible element types agree in width. Nothing is asked of pointers, functions
and records, which are compatible only when they agree already. -/
def sameWidth : Ty → Ty → Bool
  | .int i, .int j => i.size == j.size
  | .array a m, .array b n => m == n && sameWidth a b
  | .array _ _, _ => false
  | _, .array _ _ => false
  | _, _ => true

/-- Whether a value of the first type is converted to the second without being asked for.
Integers go to integers no narrower; pointers go to pointers when what they point to does, `void`
going both ways; arrays decay. -/
def compatible : Ty → Ty → Bool
  | .void, b => b.isVoid
  | .int i, .int j => decide (i.size ≤ j.size)
  | .ptr a, .ptr b => a.isVoid || b.isVoid || compatible a b
  | .array a _, .ptr b => b.isVoid || (compatible a b && sameWidth a b)
  | .array a _, .array b _ => b.isVoid || (compatible a b && sameWidth a b)
  | a@(.func _ _ _), b => decide (a = b)
  | a@(.struct _), b => decide (a = b)
  | a@(.union _), b => decide (a = b)
  | _, _ => false

/-- Whether a value of the first type can be cast to the second. Everything can be cast to `void`,
scalars to scalars, arrays to what can be dereferenced; functions and records stay as they are. -/
def castable (a b : Ty) : Bool :=
  b.isVoid ||
    match a with
    | .void => false
    | .int _ => b.isScalar
    | .ptr _ => b.isScalar
    | .array _ _ => b.isDereferable
    | .func _ _ _ => decide (a = b)
    | .struct _ => decide (a = b)
    | .union _ => decide (a = b)

end CTyping.Ty
