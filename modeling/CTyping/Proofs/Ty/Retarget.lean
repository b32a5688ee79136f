import CTyping.Proofs.Ty.Layout
import CTyping.Ty.Conversion

/-!
# From one data model to another

What the widths of a data model decide is which conversions are made without being asked for.
Whether two types are the same, and whether one can be cast to the other, they do not decide: a
width follows from the kind of the integer, so that types are the same under one model if they are
under the other.

One data model *coarsens* another (`CTyping.DataModel.Coarsens`) if no kind becomes wider than a
kind that was at least as wide. Then it keeps every conversion
(`CTyping.DataModel.Coarsens.compatible`), and this has to be shown of two questions at once:
pointers ask for an integer that is not narrower, arrays for one of the same width.
-/

namespace CTyping

namespace DataModel

/-- A data model that may give two kinds of integers one width where the first did not, and
otherwise keeps their order. -/
def Coarsens (m m' : DataModel) : Prop := ∀ k k', m.width k ≤ m.width k' → m'.width k ≤ m'.width k'

/-- From 64 bits to 32 bits `long` gets the width of `int`, and nothing else changes. -/
theorem coarsens_lp64_ilp32 : Coarsens .lp64 .ilp32 := by
  intro k k'
  cases k <;> cases k' <;> decide

variable {m m' : DataModel}

/-- Kinds of one width keep one width. -/
theorem Coarsens.width_eq (h : m.Coarsens m') {k k' : IntKind} (hk : m.width k = m.width k') :
    m'.width k = m'.width k' :=
  UInt8.le_antisymm (h k k' (hk ▸ UInt8.le_refl _)) (h k' k (hk ▸ UInt8.le_refl _))

/-! ### What does not depend on widths -/

/-- Types that are the same under one data model are the same under any. -/
theorem normalize_eq_of_normalize_eq (m' : DataModel) {a b : Ty}
    (h : m.normalize a = m.normalize b) : m'.normalize a = m'.normalize b := by
  rw [← m'.normalize_after m a, h, m'.normalize_after m b]

/-- Whether two types get to be equal does not depend on the data model that is filled in. -/
theorem normalize_eq_iff (m m' : DataModel) (a b : Ty) :
    m.normalize a = m.normalize b ↔ m'.normalize a = m'.normalize b :=
  ⟨normalize_eq_of_normalize_eq m', normalize_eq_of_normalize_eq m⟩

@[simp] theorem isVoid_normalize (m : DataModel) (t : Ty) : (m.normalize t).isVoid = t.isVoid := by
  cases t <;> rfl

@[simp] theorem isScalar_normalize (m : DataModel) (t : Ty) :
    (m.normalize t).isScalar = t.isScalar := by
  cases t <;> rfl

@[simp] theorem isDereferable_normalize (m : DataModel) (t : Ty) :
    (m.normalize t).isDereferable = t.isDereferable := by
  cases t <;> rfl

/-- **What can be cast does not depend on the data model.** -/
theorem castable_normalize (m m' : DataModel) (a b : Ty) :
    (m.normalize a).castable (m.normalize b) = (m'.normalize a).castable (m'.normalize b) := by
  -- functions and records are compared, all else is asked for its kind
  have he : decide (m.normalize a = m.normalize b) = decide (m'.normalize a = m'.normalize b) :=
    decide_eq_decide.mpr (normalize_eq_iff m m' a b)
  cases a with
  | void => simp only [normalize, Ty.castable, isVoid_normalize]
  | int | ptr => simp only [normalize, Ty.castable, isVoid_normalize, isScalar_normalize]
  | array => simp only [normalize, Ty.castable, isVoid_normalize, isDereferable_normalize]
  | func | struct | union =>
    simp only [normalize] at he
    simp only [normalize, Ty.castable, isVoid_normalize, he]

/-! ### What does -/

/-- Elements that agreed in width still do. -/
theorem Coarsens.sameWidth (h : m.Coarsens m') : ∀ {a b : Ty},
    (m.normalize a).sameWidth (m.normalize b) = true →
      (m'.normalize a).sameWidth (m'.normalize b) = true
  | .int i, b, hw => by
    cases b with
    | int j => exact beq_iff_eq.mpr (h.width_eq (beq_iff_eq.mp hw))
    | _ => exact hw
  | .array a n, b, hw => by
    cases b with
    | array b n' =>
      simp only [normalize, Ty.sameWidth, Bool.and_eq_true] at hw ⊢
      exact ⟨hw.1, h.sameWidth hw.2⟩
    | _ => exact hw
  -- all other types are compared without a look at widths
  | .void, b, hw | .ptr _, b, hw | .func _ _ _, b, hw | .struct _, b, hw | .union _, b, hw => by
    cases b <;> exact hw

/-- **A coarser data model keeps the conversions that are made without being asked for.** -/
theorem Coarsens.compatible (h : m.Coarsens m') : ∀ {a b : Ty},
    (m.normalize a).compatible (m.normalize b) = true →
      (m'.normalize a).compatible (m'.normalize b) = true
  | .void, b, hc => by
    simp only [normalize, Ty.compatible, isVoid_normalize] at hc ⊢
    exact hc
  | .int i, b, hc => by
    cases b with
    | int j => exact decide_eq_true (h i.kind j.kind (of_decide_eq_true hc))
    | _ => exact hc
  | .ptr a, b, hc => by
    cases b with
    | ptr b =>
      simp only [normalize, Ty.compatible, isVoid_normalize, Bool.or_eq_true] at hc ⊢
      exact hc.imp_right h.compatible
    | _ => exact hc
  | .array a n, b, hc => by
    cases b with
    | ptr b | array b =>
      -- the elements are compared for order and for width
      simp only [normalize, Ty.compatible, isVoid_normalize, Bool.or_eq_true, Bool.and_eq_true]
        at hc ⊢
      exact hc.imp_right fun hb => ⟨h.compatible hb.1, h.sameWidth hb.2⟩
    | _ => exact hc
  | .func r ps v, b, hc =>
    decide_eq_true (normalize_eq_of_normalize_eq m' (a := .func r ps v) (of_decide_eq_true hc))
  | .struct r, b, hc =>
    decide_eq_true (normalize_eq_of_normalize_eq m' (a := .struct r) (of_decide_eq_true hc))
  | .union r, b, hc =>
    decide_eq_true (normalize_eq_of_normalize_eq m' (a := .union r) (of_decide_eq_true hc))

end DataModel

/-! ### Two targets -/

/-- The conversions that are made under a data model without being asked for: between types that
differ there, and of which the first is compatible with the second. -/
def DataModel.Converts (m : DataModel) (a b : Ty) : Prop :=
  m.normalize a ≠ m.normalize b ∧ (m.normalize a).compatible (m.normalize b) = true

instance (m : DataModel) (a b : Ty) : Decidable (m.Converts a b) :=
  inferInstanceAs (Decidable (_ ∧ _))

/-- **Going from 64 to 32 bits loses no conversion.** Two types, laid out for the one and for the
other data model: if they are compatible with 64 bits they are with 32; they are the same, and can
be cast, with 64 bits if and only if they are and can with 32. So what is converted with 64 bits
without being asked for is converted with 32. -/
theorem retargeting_keeps_conversions (a b : Ty) :
    ((DataModel.lp64.normalize a).compatible (DataModel.lp64.normalize b) = true →
        (DataModel.ilp32.normalize a).compatible (DataModel.ilp32.normalize b) = true) ∧
      (DataModel.lp64.normalize a = DataModel.lp64.normalize b ↔
        DataModel.ilp32.normalize a = DataModel.ilp32.normalize b) ∧
      ((DataModel.lp64.normalize a).castable (DataModel.lp64.normalize b) =
        (DataModel.ilp32.normalize a).castable (DataModel.ilp32.normalize b)) ∧
      (DataModel.lp64.Converts a b → DataModel.ilp32.Converts a b) := by
  have hkept := DataModel.coarsens_lp64_ilp32.compatible (a := a) (b := b)
  have hsame := DataModel.normalize_eq_iff .lp64 .ilp32 a b
  exact ⟨hkept, hsame, DataModel.castable_normalize .lp64 .ilp32 a b,
    fun hc => ⟨fun he => hc.1 (hsame.mpr he), hkept hc.2⟩⟩

/-- Rows of `long` go to a pointer to rows of `unsigned long` with 64 and with 32 bits, and with 32
bits to a pointer to rows of `int` besides. -/
theorem retargeting_keeps_conversions_rows :
    let row : IntKind → Bool → Ty := fun kind signed => .array (.int ⟨kind, signed, 0⟩) (some 3)
    let rows : Ty := .array (row .long true) (some 2)
    DataModel.lp64.Converts rows (.ptr (row .long false)) ∧
      DataModel.ilp32.Converts rows (.ptr (row .long false)) ∧
      ¬DataModel.lp64.Converts rows (.ptr (row .int true)) ∧
      DataModel.ilp32.Converts rows (.ptr (row .int true)) := by
  intro row rows
  have h : DataModel.lp64.Converts rows (.ptr (row .long false)) := by decide
  obtain ⟨-, -, -, hkept⟩ := retargeting_keeps_conversions rows (.ptr (row .long false))
  exact ⟨h, hkept h, by decide, by decide⟩

end CTyping
