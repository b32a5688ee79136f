import CTyping.Ty.Basic

/-!
# Data models

A data model fixes the width of each integer type. Documents carry widths too, but those are only
what their writer thought of the target: `CTyping.DataModel.normalize` replaces them, at any
depth of a type, by the widths of the model.
-/

namespace CTyping

/-- The targets, named by the types that are 32 or 64 bits wide. -/
inductive DataModel where
  /-- All of `int`, `long` and pointers have 32 bits. -/
  | ilp32
  /-- Only `int` has 32 bits, `long` and pointers have 64. -/
  | lp64
deriving DecidableEq, Repr

namespace DataModel

instance : Inhabited DataModel := ⟨lp64⟩

/-- The name of a data model in log lines. -/
def text : DataModel → String
  | .ilp32 => "Ilp32"
  | .lp64 => "Lp64"

/-- The width of an integer rank in bytes. -/
def width : DataModel → IntKind → UInt8
  | _, .char => 1
  | _, .short => 2
  | _, .int => 4
  | .ilp32, .long => 4
  | .lp64, .long => 8

/-- The integer type of a rank and a signedness. -/
def integer (m : DataModel) (kind : IntKind) (signed : Bool) : Ty :=
  .int ⟨kind, signed, m.width kind⟩

/-- The type of the characters of a string, `char`. -/
def char (m : DataModel) : Ty := m.integer .char true

/-- The type of truth values, `int`. -/
def int (m : DataModel) : Ty := m.integer .int true

/-- The type of sizes, `unsigned long`. -/
def size (m : DataModel) : Ty := m.integer .long false

/-- An integer type with the width of the model. -/
def resize (m : DataModel) (i : IntTy) : IntTy := { i with size := m.width i.kind }

mutual

/-- A type with the widths of the model throughout. Declared records are referred to and not
entered. -/
def normalize (m : DataModel) : Ty → Ty
  | .void => .void
  | .int i => .int (m.resize i)
  | .ptr base => .ptr (normalize m base)
  | .array element length => .array (normalize m element) length
  | .func result params variadic => .func (normalize m result) (normalizeList m params) variadic
  | .struct ref => .struct ref
  | .union ref => .union ref

/-- The types of a list with the widths of the model throughout. -/
def normalizeList (m : DataModel) : List Ty → List Ty
  | [] => []
  | t :: ts => normalize m t :: normalizeList m ts

end

end DataModel

end CTyping
