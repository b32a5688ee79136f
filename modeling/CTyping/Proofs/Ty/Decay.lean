import CTyping.Ty.Conversion

/-!
# What an array decays to

An array that is converted to a pointer, or taken for another array, is from then on stepped through
by what the new type holds. So the two element types should *occupy the same storage*
(`CTyping.Ty.SameStorage`), and then they have the same size, whatever the sizes of pointers and of
records are (`CTyping.Ty.bytes`).

Compatibility and `CTyping.Ty.sameWidth` together give this with one exception. Where the arrays of
the new type end in `void`, compatibility takes anything for the element, and `sameWidth` compares
nothing but integers and arrays, so that neither looks at it: rows of `int` pass for rows of `void`.
This happens exactly if the new type ends in `void` below its arrays (`CTyping.Ty.innermost`) and
the old one does not.
-/

namespace CTyping.Ty

/-! ### Storage -/

/-- Types whose values are stored in the same way, as far as their size goes. -/
inductive SameStorage : Ty → Ty → Prop
  | void : SameStorage .void .void
  | int {i j : IntTy} (size : i.size = j.size) : SameStorage (.int i) (.int j)
  /-- All pointers have one size. -/
  | ptr (a b : Ty) : SameStorage (.ptr a) (.ptr b)
  | array {a b : Ty} (length : Option UInt64) (element : SameStorage a b) :
    SameStorage (.array a length) (.array b length)
  | func (result : Ty) (params : List Ty) (variadic : Bool) :
    SameStorage (.func result params variadic) (.func result params variadic)
  | struct (ref : RecordRef) : SameStorage (.struct ref) (.struct ref)
  | union (ref : RecordRef) : SameStorage (.union ref) (.union ref)

/-- The sizes that types do not show: that of pointers, and those of `void`, of functions and of
records. -/
structure Sizes where
  pointer : Nat
  other : Ty → Nat

/-- The size of a type. An array without a length has no storage. -/
def bytes (s : Sizes) : Ty → Nat
  | .int i => i.size.toNat
  | .ptr _ => s.pointer
  | .array a (some n) => n.toNat * a.bytes s
  | .array _ none => 0
  | t => s.other t

/-- Types with the same storage take the same number of bytes, whatever is assumed of pointers and
records. -/
theorem SameStorage.bytes_eq {a b : Ty} (h : a.SameStorage b) (s : Sizes) :
    a.bytes s = b.bytes s := by
  induction h with
  | int size => rw [bytes, bytes, size]
  | array length element ih =>
    cases length with
    | none => rfl
    | some n => rw [bytes, bytes, ih]
  | _ => rfl

/-! ### Below the arrays -/

/-- What the arrays of a type hold in the end. -/
def innermost : Ty → Ty
  | .array a _ => a.innermost
  | t => t

/-- No type but `void` counts as `void`. -/
theorem eq_void_of_isVoid {t : Ty} (h : t.isVoid = true) : t = .void := by
  cases t with
  | void => rfl
  | _ => exact absurd h Bool.false_ne_true

/-- What is stored like `void` is `void`. -/
theorem sameStorage_void_iff {a : Ty} : a.SameStorage .void ↔ a = .void := by
  constructor
  · rintro ⟨⟩
    rfl
  · rintro rfl
    exact .void

/-- Arrays of one length have the same storage if and only if their elements do. -/
theorem sameStorage_array_iff {a b : Ty} {n : Option UInt64} :
    (Ty.array a n).SameStorage (.array b n) ↔ a.SameStorage b := by
  constructor
  · rintro ⟨⟩
    assumption
  · exact .array n

/-- An array goes with nothing but an array of its length. -/
theorem of_sameWidth_array {a t : Ty} {n : Option UInt64} (h : (Ty.array a n).sameWidth t = true) :
    ∃ b, t = .array b n ∧ a.sameWidth b = true := by
  cases t with
  | array b k =>
    rw [sameWidth, Bool.and_eq_true, beq_iff_eq] at h
    obtain ⟨rfl, h⟩ := h
    exact ⟨b, rfl, h⟩
  | _ => exact absurd h Bool.false_ne_true

/-- What goes with `void` is no array. -/
theorem innermost_of_sameWidth_void {a : Ty} (h : a.sameWidth .void = true) : a.innermost = a := by
  cases a with
  | array a n => exact absurd h Bool.false_ne_true
  | _ => rfl

/-- **Compatible types of one width occupy the same storage**, unless the second ends in `void` and
the first does not. -/
theorem sameStorage_iff_of_compatible : ∀ {a b : Ty}, a.compatible b = true →
    a.sameWidth b = true → (a.SameStorage b ↔ (b.innermost = .void → a.innermost = .void))
  | .void, b, hc, _ => by
    cases b with
    | void => exact ⟨fun _ h => h, fun _ => .void⟩
    | _ => exact absurd hc Bool.false_ne_true
  | .int i, b, hc, hw => by
    cases b with
    | int j => exact ⟨fun _ => nofun, fun _ => .int (beq_iff_eq.mp hw)⟩
    | _ => exact absurd hc Bool.false_ne_true
  | .ptr a, b, hc, _ => by
    cases b with
    | ptr b => exact ⟨fun _ => nofun, fun _ => .ptr a b⟩
    | _ => exact absurd hc Bool.false_ne_true
  | .array a n, b, hc, hw => by
    obtain ⟨b, rfl, hwidth⟩ := of_sameWidth_array hw
    rw [sameStorage_array_iff, innermost, innermost]
    rw [compatible, Bool.or_eq_true, Bool.and_eq_true] at hc
    rcases hc with hv | ⟨hc, -⟩
    · -- here the elements are not compared, and all that is known of `a` is that it is no array
      obtain rfl := eq_void_of_isVoid hv
      rw [sameStorage_void_iff, innermost_of_sameWidth_void hwidth]
      exact ⟨fun h _ => h, fun h => h rfl⟩
    · exact sameStorage_iff_of_compatible hc hwidth
  | .func r ps v, b, hc, _ => by
    obtain rfl : .func r ps v = b := of_decide_eq_true hc
    exact ⟨fun _ h => h, fun _ => .func r ps v⟩
  | .struct r, b, hc, _ => by
    obtain rfl : .struct r = b := of_decide_eq_true hc
    exact ⟨fun _ h => h, fun _ => .struct r⟩
  | .union r, b, hc, _ => by
    obtain rfl : .union r = b := of_decide_eq_true hc
    exact ⟨fun _ h => h, fun _ => .union r⟩

/-! ### Decay -/

/-- An array goes to a pointer as to an array: its elements are compared. -/
theorem of_array_compatible {e t : Ty} {m n : Option UInt64}
    (h : (Ty.array e m).compatible (.ptr t) = true ∨
      (Ty.array e m).compatible (.array t n) = true) (hv : t ≠ .void) :
    e.compatible t = true ∧ e.sameWidth t = true := by
  have hvoid : t.isVoid = false := Bool.eq_false_iff.mpr fun ht => hv (eq_void_of_isVoid ht)
  simpa only [compatible, hvoid, Bool.false_or, Bool.and_eq_true, or_self] using h

/-- **An array decays to what steps over its elements.** Where an array goes to a pointer or to
another array, and not to one of `void`, its elements occupy the same storage as what the new type
holds, and have the same size; except that the new type may end in `void` below further arrays where
the elements do not, and then they never occupy the same storage. -/
theorem array_decay_keeps_storage {e t : Ty} {m n : Option UInt64}
    (h : (Ty.array e m).compatible (.ptr t) = true ∨
      (Ty.array e m).compatible (.array t n) = true) (hv : t ≠ .void) :
    (e.SameStorage t ↔ (t.innermost = .void → e.innermost = .void)) ∧
      ((t.innermost = .void → e.innermost = .void) → ∀ s : Sizes, e.bytes s = t.bytes s) := by
  obtain ⟨hc, hw⟩ := of_array_compatible h hv
  have hiff := sameStorage_iff_of_compatible hc hw
  exact ⟨hiff, fun hends s => (hiff.mpr hends).bytes_eq s⟩

/-- Rows of `int` decay to a pointer to rows of `unsigned int`, which are as long. -/
theorem array_decay_keeps_storage_rows :
    let row : Bool → Ty := fun signed => .array (.int ⟨.int, signed, 4⟩) (some 3)
    (Ty.array (row true) (some 2)).compatible (.ptr (row false)) = true ∧
      (row true).SameStorage (row false) ∧
      ∀ s : Sizes, (row true).bytes s = (row false).bytes s := by
  intro row
  have h : (Ty.array (row true) (some 2)).compatible (.ptr (row false)) = true := by decide
  obtain ⟨hiff, hbytes⟩ := array_decay_keeps_storage (n := none) (Or.inl h) nofun
  exact ⟨h, hiff.mpr nofun, hbytes nofun⟩

/-- Rows of `int` decay to a pointer to rows of `void` as well, though the rows are not stored alike
and need not have the same size. -/
theorem array_decay_to_rows_of_void :
    let row : Ty := .array (.int ⟨.int, true, 4⟩) (some 3)
    let hole : Ty := .array .void (some 3)
    (Ty.array row (some 2)).compatible (.ptr hole) = true ∧ hole ≠ .void ∧
      ¬row.SameStorage hole ∧ ∃ s : Sizes, row.bytes s ≠ hole.bytes s := by
  refine ⟨by decide, nofun, ?_, ⟨8, fun _ => 1⟩, by decide⟩
  rw [sameStorage_array_iff, sameStorage_void_iff]
  exact nofun

end CTyping.Ty
