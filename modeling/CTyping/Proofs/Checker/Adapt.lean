import CTyping.Checker.Program
import CTyping.Proofs.Checker.Trace
import CTyping.Proofs.Tree.Induction
import CTyping.Proofs.Ty.Conversion

/-!
# What rules do to operands

A rule either accepts its operands or refuses them. One that accepts makes no error known, and
brings its operands to the types that it wants: an operand that has the type already stays as it is,
any other is converted (`CTyping.Check.adapt`). In either case the type is one to which the operand
can be cast (`CTyping.Expr.Brought`). A rule that refuses (`CTyping.Traced.Refuses`) leaves its
operands alone and finds an error, which it would find again.
-/

namespace CTyping

/-! ### Bringing an operand to a type -/

namespace Expr

/-- An expression brought to a type, by a conversion unless it has the type. -/
def adapt (t : Ty) (e : Expr) : Expr := if e.type = t then e else e.convert t

/-- Everything that can be assigned to is an lvalue, and neither an array nor a function. -/
theorem isAssignable_iff {e : Expr} :
    e.isAssignable = true ↔
      e.isLvalue = true ∧ e.type.isArray = false ∧ e.type.isFunction = false := by
  simp [isAssignable, and_assoc]

/-- An operand that has the type already is left as it is. -/
theorem adapt_of_eq {t : Ty} {e : Expr} (h : e.type = t) : e.adapt t = e := if_pos h

/-- An operand of another type is wrapped in a conversion. -/
theorem adapt_of_ne {t : Ty} {e : Expr} (h : e.type ≠ t) : e.adapt t = e.convert t := if_neg h

@[simp] theorem type_adapt (t : Ty) (e : Expr) : (e.adapt t).type = t := by
  by_cases h : e.type = t
  · rw [adapt_of_eq h, h]
  · rw [adapt_of_ne h, type_convert]

end Expr

namespace Check

open Traced (note report reportUnless)

/-- Brings an expression to a type, and notes the conversion if there is one. -/
def adapt (t : Ty) (e : Expr) : Traced Expr := if e.type = t then pure e else convert t e

theorem adapt_of_eq {t : Ty} {e : Expr} (h : e.type = t) : adapt t e = pure e := if_pos h

theorem adapt_of_ne {t : Ty} {e : Expr} (h : e.type ≠ t) : adapt t e = convert t e := if_neg h

@[simp] theorem value_adapt (t : Ty) (e : Expr) : (adapt t e).value = e.adapt t := by
  by_cases h : e.type = t
  · rw [adapt_of_eq h, Expr.adapt_of_eq h, Traced.value_pure]
  · rw [adapt_of_ne h, Expr.adapt_of_ne h]
    rfl

@[simp] theorem clean_adapt (t : Ty) (e : Expr) : (adapt t e).clean = true := by
  by_cases h : e.type = t
  · rw [adapt_of_eq h, Traced.clean_pure]
  · rw [adapt_of_ne h]
    rfl

/-- A conversion is made once. -/
@[simp] theorem settled_adapt (t : Ty) (e : Expr) : (adapt t e).settled = pure (e.adapt t) := by
  by_cases h : e.type = t
  · rw [adapt_of_eq h, Expr.adapt_of_eq h, Traced.settled_pure]
  · rw [adapt_of_ne h, Expr.adapt_of_ne h]
    rfl

@[simp] theorem adapt_adapt (t : Ty) (e : Expr) : adapt t (e.adapt t) = pure (e.adapt t) :=
  adapt_of_eq (Expr.type_adapt t e)

end Check

/-! ### Refusals -/

/-- A refusal: a result, with an error that would be found again. -/
structure Traced.Refuses {α : Type} (x : Traced α) (a : α) : Prop where
  value : x.value = a
  clean : x.clean = false
  settled : x.settled = x

namespace Traced

variable {α β : Type}

/-- What refuses is not clean. -/
theorem Refuses.not_clean {x : Traced α} {a : α} (h : x.Refuses a) : ¬x.clean = true := by
  rw [h.clean]
  exact Bool.false_ne_true

/-- What goes on from a refusal, and would go on so again, is a refusal. -/
theorem Refuses.bind {x : Traced α} {a : α} (h : x.Refuses a) {f : α → Traced β}
    (hf : (f a).settled = f a) : (x >>= f).Refuses (f a).value where
  value := by rw [value_bind, h.value]
  clean := by rw [clean_bind, h.clean, Bool.false_and]
  settled := by
    have hx : (x >>= f) = x >>= fun _ => f a := bind_congr_value (by rw [h.value])
    rw [hx, settled_bind, h.settled, hf]

/-- Reporting an error refuses. -/
theorem refuses_report {s : Span} {p : Problem} (h : p.severity = .error) :
    (report s p).Refuses () where
  value := rfl
  clean := by rw [clean_report, h]; rfl
  settled := settled_report fun a b hp => by rw [hp] at h; cases h

/-- Reporting an error and giving a result is a refusal. -/
theorem refuses_report_pure {s : Span} {p : Problem} (h : p.severity = .error) (a : α) :
    (report s p >>= fun _ => pure a).Refuses a :=
  (refuses_report h).bind rfl

end Traced

/-! ### Operands after a rule -/

/-- What a rule makes of an operand: it brings it to a type to which it can be converted, often its
own. -/
def Expr.Brought (e e' : Expr) : Prop := ∃ t, e.type.castable t = true ∧ e' = e.adapt t

namespace Expr.Brought

/-- Leaving an operand as it is counts as bringing it to its own type. -/
theorem refl (e : Expr) : e.Brought e := ⟨e.type, Ty.castable_self _, (adapt_of_eq rfl).symm⟩

/-- An operand is brought to any type that its own can be cast to. -/
theorem adapt {e : Expr} {t : Ty} (h : e.type.castable t = true) : e.Brought (e.adapt t) :=
  ⟨t, h, rfl⟩

/-- Both operands are brought to the type that theirs are joined to. -/
theorem join {l r : Expr} {u : Ty} (h : Ty.join l.type r.type = some u) :
    l.Brought (l.adapt u) ∧ r.Brought (r.adapt u) := by
  obtain ⟨hl, hr⟩ := Ty.eq_or_compatible_of_join h
  exact ⟨adapt (Ty.castable_of_eq_or_compatible hl), adapt (Ty.castable_of_eq_or_compatible hr)⟩

/-- What holds everywhere in an operand, and of conversions that are needed and can be made, holds
everywhere in what a rule makes of it. -/
theorem everywhere {P : Expr → Prop}
    (hP : ∀ (e : Expr) (t : Ty), e.type ≠ t → e.type.castable t = true → P (e.convert t))
    {e e' : Expr} (h : e.Brought e') (he : e.Everywhere P) : e'.Everywhere P := by
  obtain ⟨t, hc, rfl⟩ := h
  by_cases ht : e.type = t
  · rw [adapt_of_eq ht]
    exact he
  · rw [adapt_of_ne ht]
    exact .node _ (hP e t ht hc) (List.forall_mem_singleton.mpr he)

end Expr.Brought

end CTyping
