import CTyping.Json.Basic

/-!
# Decoding JSON

A `CTyping.Decoder` makes something of a JSON value, or refuses it. Values may be nested only so
deep: a decoder is given the number of levels of arrays and objects that are left, and each array or
object that it enters uses one up. What it does not look at is not counted.

* **Records** (`CTyping.Json.fields?`) are written as objects, or as arrays of their fields in
  order. A field that is unknown is passed over, one that is given twice is refused, and one that is
  missing may have a default (`CTyping.Fields.optional`).
* **Variants** (`CTyping.Json.variant?`) are written as objects with one field, whose name tells the
  variant. A variant with nothing more to it may be written as its name alone.
* **Recursive types** are decoded by `CTyping.Decoder.fix`. An inner value is always reached with
  fewer levels left than the outer one, so the levels bound the recursion too.
-/

namespace CTyping

/-- What a value can be decoded as, given the number of levels that are left. -/
abbrev Decoder (α : Type) := Nat → Json → Option α

namespace Decoder

variable {α : Type}

/-! ### Simple values -/

/-- Strings, as they are. -/
def string : Decoder String
  | _, .str s => s
  | _, _ => none

/-- Truth values. -/
def bool : Decoder Bool
  | _, .bool b => some b
  | _, _ => none

/-- Numbers without a fraction and without an exponent. -/
def int : Decoder Int
  | _, .num n => n.toInt?
  | _, _ => none

/-- An integer from `0` up to a bound that it does not reach. -/
def natBelow (bound : Nat) : Decoder Nat := fun d j =>
  (int d j).bind fun i => if 0 ≤ i ∧ i < bound then some i.toNat else none

/-- Integers that fit into eight bits, without sign. -/
def uint8 : Decoder UInt8 := fun d j => (natBelow UInt8.size d j).map UInt8.ofNat

/-- Integers that fit into 32 bits, without sign. -/
def uint32 : Decoder UInt32 := fun d j => (natBelow UInt32.size d j).map UInt32.ofNat

/-- Integers that fit into 64 bits, without sign. -/
def uint64 : Decoder UInt64 := fun d j => (natBelow UInt64.size d j).map UInt64.ofNat

/-- Integers that fit into 64 bits, with sign. -/
def int64 : Decoder Int64 := fun d j =>
  (int d j).bind fun i =>
    if Int64.minValue.toInt ≤ i ∧ i ≤ Int64.maxValue.toInt then some (Int64.ofInt i) else none

/-! ### Composed values -/

/-- A value that may be `null`. -/
def nullable (r : Decoder α) : Decoder (Option α)
  | _, .null => some none
  | d, j => (r d j).map some

/-- An array of values of one kind. -/
def list (r : Decoder α) : Decoder (List α)
  | d + 1, .arr items => items.mapM (r d)
  | _, _ => none

/-- A decoder for a recursive type, made from the decoder of a value in terms of those of the values
in it. -/
def fix (f : Decoder α → Decoder α) : Decoder α := fun d => level (d + 1) d
where
  /-- The decoder that enters at most so many values in one another. -/
  level : Nat → Decoder α
    | 0 => fun _ _ => none
    | n + 1 => f (level n)

end Decoder

/-- The fields of a record that are given, with the number of levels left for them. -/
structure Fields where
  entries : List (String × Json)
  levels : Nat

namespace Json

/-- The fields of a record with given field names. -/
def fields? (names : List String) : Decoder Fields
  | d + 1, .obj fields => do
    let fields ← fields.mapM fun f => f.1.map (·, f.2)
    let known := fields.filter (names.contains ·.1)
    if (known.map (·.1)).Nodup then some ⟨known, d⟩ else none
  | d + 1, .arr items =>
    if items.length ≤ names.length then some ⟨names.zip items, d⟩ else none
  | _, _ => none

end Json

namespace Fields

variable {α : Type}

/-- The value of the field of a given name. -/
def find? (fs : Fields) (name : String) : Option Json := fs.entries.lookup name

/-- A field that has to be there. -/
def required (fs : Fields) (name : String) (r : Decoder α) : Option α :=
  (fs.find? name).bind (r fs.levels)

/-- A field that has a default where it is missing. -/
def optional (fs : Fields) (name : String) (default : α) (r : Decoder α) : Option α :=
  match fs.find? name with
  | none => some default
  | some j => r fs.levels j

end Fields

/-- A variant with what belongs to it, and the number of levels left for that. -/
structure Variant where
  tag : String
  payload : Option (Nat × Json)

/-- The variant that a value writes. -/
def Json.variant? : Decoder Variant
  | _, .str tag => tag.map (⟨·, none⟩)
  | d + 1, .obj [(tag, payload)] => tag.map (⟨·, some (d, payload)⟩)
  | _, _ => none

namespace Variant

variable {α : Type}

/-- A variant to which nothing belongs. -/
def unit (v : Variant) (a : α) : Option α :=
  match v.payload with
  | none => some a
  | some (_, .null) => some a
  | some _ => none

/-- A variant to which one value belongs. -/
def holds (v : Variant) (r : Decoder α) : Option α := v.payload.bind fun p => r p.1 p.2

/-- A variant to which a record belongs. -/
def fields? (v : Variant) (names : List String) : Option Fields := v.holds (Json.fields? names)

end Variant

/-- A value that is one of several names. -/
def Decoder.named {α : Type} (ofName? : String → Option α) : Decoder α := fun d j => do
  let v ← j.variant? d
  v.unit (← ofName? v.tag)

end CTyping
