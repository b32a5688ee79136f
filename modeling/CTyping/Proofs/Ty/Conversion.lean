import CTyping.Ty.Conversion

/-!
# Facts about conversions

What the rules of the checker need to know of the two relations on types, and the *common type* of
two types (`CTyping.Ty.join`), to which operands of either type are brought.
-/

namespace CTyping.Ty

/-! ### Kinds of types -/

/-- No integer is a pointer. -/
theorem not_isPointer_of_isInteger {t : Ty} (h : t.isInteger = true) : ¬t.isPointer = true := by
  cases t with
  | int i => exact Bool.false_ne_true
  | _ => exact absurd h Bool.false_ne_true

/-- A pointer is neither an array nor a function. -/
theorem kind_of_isPointer {t : Ty} (h : t.isPointer = true) :
    t.isArray = false ∧ t.isFunction = false := by
  cases t with
  | ptr base => exact ⟨rfl, rfl⟩
  | _ => exact absurd h Bool.false_ne_true

/-- A pointer can be assigned to: it is no aggregate. -/
theorem isAggregate_of_isPointer {t : Ty} (h : t.isPointer = true) : t.isAggregate = false := by
  cases t with
  | ptr base => rfl
  | _ => exact absurd h Bool.false_ne_true

/-- A type that is no array is assigned as a whole unless it is a record. -/
theorem isAggregate_eq_isRecord {t : Ty} (h : t.isArray = false) :
    t.isAggregate = t.isRecord := by
  cases t with
  | array element length => exact absurd h.symm Bool.false_ne_true
  | _ => simp [isAggregate, isAllocatedArray]

/-- A call that fits gives an argument for each parameter. -/
theorem Prototype.length_le_of_acceptsCount {p : Prototype} {n : Nat}
    (h : p.acceptsCount n = true) : p.params.length ≤ n := by
  unfold acceptsCount at h
  split at h
  · exact of_decide_eq_true h
  · exact Nat.le_of_eq (of_decide_eq_true h).symm

/-! ### Conversions -/

/-- **What is converted without being asked for can be asked for.** -/
theorem castable_of_compatible {a b : Ty} (h : a.compatible b = true) : a.castable b = true := by
  cases a with
  | void => exact Bool.or_eq_true_iff.mpr (Or.inl h)
  | int i =>
    -- only to integers, which are scalars
    cases b with
    | int j => rfl
    | _ => cases h
  | ptr a =>
    cases b with
    | ptr b => rfl
    | _ => cases h
  | array a n =>
    -- only to what can be dereferenced as well
    cases b with
    | ptr b => rfl
    | array b m => rfl
    | _ => cases h
  | func r ps v | struct r | union r =>
    -- of these both ask for equality
    exact Bool.or_eq_true_iff.mpr (Or.inr h)

/-- Every type has the width of itself. -/
theorem sameWidth_self : ∀ t : Ty, t.sameWidth t = true
  | .array a n => by simp [sameWidth, sameWidth_self a]
  | .int i => by simp [sameWidth]
  | .void => rfl
  | .ptr _ => rfl
  | .func _ _ _ => rfl
  | .struct _ => rfl
  | .union _ => rfl

/-- Every type is compatible with itself. -/
theorem compatible_self : ∀ t : Ty, t.compatible t = true
  | .array a n => by simp [compatible, compatible_self a, sameWidth_self a]
  | .ptr a => by simp [compatible, compatible_self a]
  | .int i => by simp [compatible]
  | .void => rfl
  | .func _ _ _ => by simp [compatible]
  | .struct _ => by simp [compatible]
  | .union _ => by simp [compatible]

/-- Every type can be cast to itself. -/
theorem castable_self (t : Ty) : t.castable t = true :=
  castable_of_compatible (compatible_self t)

/-- A value that is taken for another type can be cast to it. -/
theorem castable_of_eq_or_compatible {a b : Ty} (h : a = b ∨ a.compatible b = true) :
    a.castable b = true := by
  rcases h with rfl | h
  · exact castable_self a
  · exact castable_of_compatible h

/-- Nothing but a record is converted to a record. -/
theorem isRecord_of_compatible {a b : Ty} (h : a.compatible b = true) (hb : b.isRecord = true) :
    a.isRecord = true := by
  cases a with
  | func r ps v =>
    obtain rfl : .func r ps v = b := of_decide_eq_true h
    exact hb
  | struct r => rfl
  | union r => rfl
  | void | int _ | ptr _ | array _ _ =>
    -- none of these is converted to a struct or a union
    cases b with
    | struct s => cases h
    | union s => cases h
    | _ => cases hb

/-- What is taken for another type is no record unless the other is. -/
theorem isRecord_of_eq_or_compatible {a b : Ty} (h : a = b ∨ a.compatible b = true)
    (ha : a.isRecord = false) : b.isRecord = false := by
  rcases h with rfl | h
  · exact ha
  · refine Bool.eq_false_iff.mpr fun hb => ?_
    rw [isRecord_of_compatible h hb] at ha
    cases ha

/-- Of two integer types one is converted to the other. -/
theorem compatible_total_of_isInteger {a b : Ty} (ha : a.isInteger = true)
    (hb : b.isInteger = true) : a.compatible b = true ∨ b.compatible a = true := by
  cases a with
  | int i =>
    cases b with
    | int j => simpa [compatible] using UInt8.le_total i.size j.size
    | _ => exact absurd hb Bool.false_ne_true
  | _ => exact absurd ha Bool.false_ne_true

/-! ### The common type -/

/-- The type to which two operands are brought: that of the left one if the right one has it or is
converted to it, else that of the right one if the left one is converted to it. -/
def join (l r : Ty) : Option Ty :=
  if l = r ∨ r.compatible l = true then some l
  else if l.compatible r = true then some r
  else none

@[simp] theorem join_self (t : Ty) : join t t = some t := by simp [join]

/-- Two types are joined to one of them, never to a third. -/
theorem eq_or_eq_of_join {l r t : Ty} (h : join l r = some t) : t = l ∨ t = r := by
  unfold join at h
  split at h
  · exact Or.inl (Option.some.inj h).symm
  · split at h
    · exact Or.inr (Option.some.inj h).symm
    · cases h

/-- What holds of two types holds of their common type. -/
theorem of_join {P : Ty → Prop} {l r t : Ty} (h : join l r = some t) (hl : P l) (hr : P r) :
    P t := by
  rcases eq_or_eq_of_join h with rfl | rfl
  · exact hl
  · exact hr

/-- Either operand has the common type or is converted to it. -/
theorem eq_or_compatible_of_join {l r t : Ty} (h : join l r = some t) :
    (l = t ∨ l.compatible t = true) ∧ (r = t ∨ r.compatible t = true) := by
  unfold join at h
  split at h
  · rename_i hr
    obtain rfl := Option.some.inj h
    exact ⟨Or.inl rfl, hr.imp Eq.symm id⟩
  · split at h
    · rename_i hl
      obtain rfl := Option.some.inj h
      exact ⟨Or.inr hl, Or.inl rfl⟩
    · cases h

/-- There is a common type when the types are equal or convert in some direction. -/
theorem isSome_join {l r : Ty} :
    (join l r).isSome = true ↔ l = r ∨ l.compatible r = true ∨ r.compatible l = true := by
  unfold join
  split
  · rename_i h
    exact ⟨fun _ => h.imp id Or.inr, fun _ => rfl⟩
  · rename_i h
    split
    · rename_i hl
      exact ⟨fun _ => Or.inr (Or.inl hl), fun _ => rfl⟩
    · rename_i hl
      constructor
      · intro hn
        cases hn
      · rintro (he | hc | hc)
        · exact absurd (Or.inl he) h
        · exact absurd hc hl
        · exact absurd (Or.inr hc) h

end CTyping.Ty
