import CTyping.Proofs.Checker.Adapt

/-!
# What the rules for operators do

For each rule there are two kinds of statements. The equations say what the rule does when the types
of its operands are right. The statement that ends in `_cases` lists all that the rule can do, with
what is known of the types in each case; where there are many cases the list has a name
(`CTyping.Check.BinaryOutcome`). Nothing after this module looks into a rule.
-/

namespace CTyping.Check

open Traced (note report reportUnless)

/-! ### Demands on operands -/

/-- A demand is met without a word, or refuses. -/
theorem demand_cases (b : Bool) (s : Span) {p : Problem} (hp : p.severity = .error) :
    (b = true ∧
        (if b then pure true else do report s p; return false) = (pure true : Traced Bool)) ∨
      (b = false ∧
        Traced.Refuses (if b then pure true else do report s p; return false) false) := by
  cases b with
  | true => exact Or.inl ⟨rfl, rfl⟩
  | false => exact Or.inr ⟨rfl, Traced.refuses_report_pure hp false⟩

/-- An integer is asked for: it is there, or the check refuses. -/
theorem integer_cases (e : Expr) :
    (e.type.isInteger = true ∧ integer e = pure true) ∨
      (e.type.isInteger = false ∧ (integer e).Refuses false) :=
  demand_cases _ _ rfl

/-- A scalar is asked for: it is there, or the check refuses. -/
theorem scalar_cases (e : Expr) :
    (e.type.isScalar = true ∧ scalar e = pure true) ∨
      (e.type.isScalar = false ∧ (scalar e).Refuses false) :=
  demand_cases _ _ rfl

theorem integer_of {e : Expr} (h : e.type.isInteger = true) : integer e = pure true := if_pos h

theorem scalar_of {e : Expr} (h : e.type.isScalar = true) : scalar e = pure true := if_pos h

@[simp] theorem clean_scalar (e : Expr) : (scalar e).clean = e.type.isScalar := by
  rcases scalar_cases e with ⟨h, he⟩ | ⟨h, he⟩
  · rw [he, h, Traced.clean_pure]
  · rw [he.clean, h]

@[simp] theorem settled_scalar (e : Expr) : (scalar e).settled = scalar e := by
  rcases scalar_cases e with ⟨-, he⟩ | ⟨-, he⟩
  · rw [he, Traced.settled_pure]
  · exact he.settled

/-- Two demands that are both made: they are met, or one of them refuses. -/
theorem both_cases {x y : Traced Bool} {p q : Bool}
    (hx : (p = true ∧ x = pure true) ∨ (p = false ∧ x.Refuses false))
    (hy : (q = true ∧ y = pure true) ∨ (q = false ∧ y.Refuses false)) :
    (p = true ∧ q = true ∧ (do return (← x) && (← y)) = (pure true : Traced Bool)) ∨
      (¬(p = true ∧ q = true) ∧ Traced.Refuses (do return (← x) && (← y)) false) := by
  rcases hx with ⟨hp, rfl⟩ | ⟨hp, hx⟩
  · rcases hy with ⟨hq, rfl⟩ | ⟨hq, hy⟩
    · exact Or.inl ⟨hp, hq, rfl⟩
    · refine Or.inr ⟨by simp [hq], ?_⟩
      rw [pure_bind]
      exact hy.bind rfl
  · -- the second demand is made even so, and may find an error of its own
    have hys : (do return false && (← y) : Traced Bool).settled = do return false && (← y) := by
      rcases hy with ⟨-, rfl⟩ | ⟨-, hy⟩
      · rfl
      · exact (hy.bind rfl).settled
    exact Or.inr ⟨by simp [hp], hx.bind hys⟩

/-- Two integers are asked for: both are there, or the check refuses. -/
theorem integers_cases (l r : Expr) :
    (l.type.isInteger = true ∧ r.type.isInteger = true ∧ integers l r = pure true) ∨
      (¬(l.type.isInteger = true ∧ r.type.isInteger = true) ∧ (integers l r).Refuses false) :=
  both_cases (integer_cases l) (integer_cases r)

/-- Two scalars are asked for: both are there, or the check refuses. -/
theorem scalars_cases (l r : Expr) :
    (l.type.isScalar = true ∧ r.type.isScalar = true ∧ scalars l r = pure true) ∨
      (¬(l.type.isScalar = true ∧ r.type.isScalar = true) ∧ (scalars l r).Refuses false) :=
  both_cases (scalar_cases l) (scalar_cases r)

/-! ### Operators with one operand -/

/-- What an operator asks of its one operand. -/
def UnaryFits (op : UnaryOp) (t : Ty) : Prop :=
  match op with
  | .logicalNot => t.isScalar = true
  | _ => t.isInteger = true

/-- What an operator makes of the type of its one operand. -/
def unaryResult (m : DataModel) (op : UnaryOp) (t : Ty) : Ty :=
  match op with
  | .logicalNot => m.int
  | _ => t

/-- A rule that asks for one thing gives its type or, if it is refused, `void`. -/
theorem asked_cases {x : Traced Bool} {p : Bool} (t : Ty)
    (hx : (p = true ∧ x = pure true) ∨ (p = false ∧ x.Refuses false)) :
    (p = true ∧ (do if ← x then return t else return .void) = (pure t : Traced Ty)) ∨
      (p = false ∧ Traced.Refuses (do if ← x then return t else return .void) .void) := by
  rcases hx with ⟨hp, rfl⟩ | ⟨hp, hx⟩
  · exact Or.inl ⟨hp, rfl⟩
  · exact Or.inr ⟨hp, hx.bind rfl⟩

/-- A unary operator that fits its operand gives its result and reports nothing. -/
theorem unary_of {m : DataModel} {op : UnaryOp} {e : Expr} (h : UnaryFits op e.type) :
    unary m op e = pure (unaryResult m op e.type) := by
  cases op with
  | logicalNot =>
    rw [unary, scalar_of h]
    rfl
  | _ =>
    rw [unary, integer_of h]
    · rfl
    · simp

/-- A unary operator fits its operand, or it is refused. -/
theorem unary_cases (m : DataModel) (op : UnaryOp) (e : Expr) :
    (UnaryFits op e.type ∧ unary m op e = pure (unaryResult m op e.type)) ∨
      (¬UnaryFits op e.type ∧ (unary m op e).Refuses .void) := by
  cases op with
  | logicalNot =>
    exact (asked_cases m.int (scalar_cases e)).imp_right (And.imp_left (by simp [UnaryFits]))
  | _ =>
    exact (asked_cases e.type (integer_cases e)).imp_right (And.imp_left (by simp [UnaryFits]))

theorem step_of {e : Expr} (h : e.type.isScalar = true) : step e = pure e.type := by
  rw [step, scalar_of h]
  rfl

/-- A step needs a scalar, and leaves its type. -/
theorem step_cases (e : Expr) :
    (e.type.isScalar = true ∧ step e = pure e.type) ∨
      (e.type.isScalar = false ∧ (step e).Refuses .void) :=
  asked_cases e.type (scalar_cases e)

theorem addressOf_of {s : Span} {e : Expr} (h : e.isAssignable = true) :
    addressOf s e = pure (.ptr e.type) := by
  rw [addressOf, h]
  rfl

/-- An address can be taken of what can be assigned to, and of nothing else. -/
theorem addressOf_cases (s : Span) (e : Expr) :
    (e.isAssignable = true ∧ addressOf s e = pure (.ptr e.type)) ∨
      (e.isAssignable = false ∧ (addressOf s e).Refuses (.ptr e.type)) := by
  cases h : e.isAssignable with
  | true => exact Or.inl ⟨rfl, addressOf_of h⟩
  | false =>
    refine Or.inr ⟨rfl, ?_⟩
    rw [addressOf, h]
    exact Traced.refuses_report_pure rfl _

theorem deref_of {s : Span} {e : Expr} {t : Ty} (h : e.type.base? = some t) :
    deref s e = pure t := by
  rw [deref, h]

/-- Pointers and arrays can be dereferenced, and nothing else. -/
theorem deref_cases (s : Span) (e : Expr) :
    (∃ t, e.type.base? = some t ∧ deref s e = pure t) ∨
      (e.type.base? = none ∧ (deref s e).Refuses .void) := by
  cases h : e.type.base? with
  | some t => exact Or.inl ⟨t, rfl, deref_of h⟩
  | none =>
    refine Or.inr ⟨rfl, ?_⟩
    rw [deref, h]
    exact Traced.refuses_report_pure rfl _

/-! ### Operators with two operands -/

/-- Two operands brought to a type, beside the type of their node. -/
def bring (u : Ty) (l r : Expr) (t : Ty) : Traced (Expr × Expr × Ty) := do
  return (← adapt u l, ← adapt u r, t)

@[simp] theorem value_bring (u : Ty) (l r : Expr) (t : Ty) :
    (bring u l r t).value = (l.adapt u, r.adapt u, t) := by
  simp [bring]

@[simp] theorem clean_bring (u : Ty) (l r : Expr) (t : Ty) : (bring u l r t).clean = true := by
  simp [bring]

@[simp] theorem settled_bring (u : Ty) (l r : Expr) (t : Ty) :
    (bring u l r t).settled = pure (l.adapt u, r.adapt u, t) := by
  simp [bring, Traced.settled_bind]

@[simp] theorem bring_adapt (u : Ty) (l r : Expr) (t : Ty) :
    bring u (l.adapt u) (r.adapt u) t = pure (l.adapt u, r.adapt u, t) := by
  simp [bring]

/-- Operands whose types are joined are both brought to the one that results. -/
theorem unify_of_join {s : Span} {l r : Expr} {u : Ty} (h : Ty.join l.type r.type = some u) :
    unify s l r = do return some (← adapt u l, ← adapt u r) := by
  unfold Ty.join at h
  by_cases he : l.type = r.type
  · rw [if_pos (Or.inl he)] at h
    obtain rfl := Option.some.inj h
    rw [unify, if_pos he, adapt_of_eq rfl, adapt_of_eq he.symm]
    rfl
  · by_cases hr : r.type.compatible l.type = true
    · -- the right operand is converted, also if the left one could be
      rw [if_pos (Or.inr hr)] at h
      obtain rfl := Option.some.inj h
      rw [unify, if_neg he, if_pos hr, adapt_of_eq rfl, adapt_of_ne (Ne.symm he)]
      rfl
    · rw [if_neg (not_or.mpr ⟨he, hr⟩)] at h
      by_cases hl : l.type.compatible r.type = true
      · rw [if_pos hl] at h
        obtain rfl := Option.some.inj h
        rw [unify, if_neg he, if_neg hr, if_pos hl, adapt_of_eq rfl, adapt_of_ne he]
        rfl
      · rw [if_neg hl] at h
        cases h

/-- Operands whose types are not joined are refused. -/
theorem unify_of_not_join {s : Span} {l r : Expr} (h : Ty.join l.type r.type = none) :
    (unify s l r).Refuses none := by
  have hn : ¬(Ty.join l.type r.type).isSome = true := by simp [h]
  rw [Ty.isSome_join, not_or, not_or] at hn
  obtain ⟨he, hl, hr⟩ := hn
  rw [unify, if_neg he, if_neg hr, if_neg hl]
  exact Traced.refuses_report_pure rfl none

/-- Arithmetic brings two integers to their common type, which they always have. -/
theorem arithmetic_of {s : Span} {l r : Expr} {u : Ty} (hl : l.type.isInteger = true)
    (hr : r.type.isInteger = true) (hu : Ty.join l.type r.type = some u) :
    arithmetic s l r = bring u l r u := by
  have hi : integers l r = pure true := by
    rw [integers, integer_of hl, integer_of hr]
    rfl
  rw [arithmetic, hi, pure_bind, if_pos rfl, unify_of_join hu, bring]
  simp only [bind_assoc, pure_bind]
  -- the rule reads its type off the left operand once that is converted: it is `u`
  refine Traced.ext ?_ ?_
  · simp
  · simp

/-- Integers that are joined are brought to one type, which is that of the result; all else is
refused. -/
theorem arithmetic_cases (s : Span) (l r : Expr) :
    (∃ u, l.type.isInteger = true ∧ r.type.isInteger = true ∧ Ty.join l.type r.type = some u ∧
        arithmetic s l r = bring u l r u) ∨
      (arithmetic s l r).Refuses (l, r, .void) := by
  rcases integers_cases l r with ⟨hl, hr, -⟩ | ⟨-, h⟩
  · -- of two integers one converts to the other, so only the first demand can fail
    have hj : (Ty.join l.type r.type).isSome = true :=
      Ty.isSome_join.mpr (Or.inr (Ty.compatible_total_of_isInteger hl hr))
    obtain ⟨u, hu⟩ := Option.isSome_iff_exists.mp hj
    exact Or.inl ⟨u, hl, hr, hu, arithmetic_of hl hr hu⟩
  · exact Or.inr (h.bind rfl)

theorem comparison_of {m : DataModel} {s : Span} {l r : Expr} {u : Ty}
    (hl : l.type.isScalar = true) (hr : r.type.isScalar = true)
    (hu : Ty.join l.type r.type = some u) : comparison m s l r = bring u l r m.int := by
  have hs : scalars l r = pure true := by
    rw [scalars, scalar_of hl, scalar_of hr]
    rfl
  rw [comparison, hs, pure_bind, if_pos rfl, unify_of_join hu, bring]
  simp only [bind_assoc, pure_bind]

/-- Scalars that are joined are brought to one type, and compared as such; all else is refused. -/
theorem comparison_cases (m : DataModel) (s : Span) (l r : Expr) :
    (∃ u, l.type.isScalar = true ∧ r.type.isScalar = true ∧ Ty.join l.type r.type = some u ∧
        comparison m s l r = bring u l r m.int) ∨
      (comparison m s l r).Refuses (l, r, .void) := by
  rcases scalars_cases l r with ⟨hl, hr, hs⟩ | ⟨-, h⟩
  · cases hu : Ty.join l.type r.type with
    | some u => exact Or.inl ⟨u, hl, hr, rfl, comparison_of hl hr hu⟩
    | none =>
      refine Or.inr ?_
      rw [comparison, hs, pure_bind, if_pos rfl]
      exact (unify_of_not_join hu).bind rfl
  · exact Or.inr (h.bind rfl)

theorem shift_of {l r : Expr} (hl : l.type.isInteger = true) (hr : r.type.isInteger = true) :
    shift l r = pure (l, r, l.type) := by
  rw [shift, integers, integer_of hl, integer_of hr]
  rfl

/-- Integers are shifted as they are; all else is refused. -/
theorem shift_cases (l r : Expr) :
    (l.type.isInteger = true ∧ r.type.isInteger = true ∧ shift l r = pure (l, r, l.type)) ∨
      (shift l r).Refuses (l, r, .void) := by
  rcases integers_cases l r with ⟨hl, hr, -⟩ | ⟨-, h⟩
  · exact Or.inl ⟨hl, hr, shift_of hl hr⟩
  · exact Or.inr (h.bind rfl)

/-- An integer is added to a pointer as it is. -/
theorem additive_of_left {s : Span} {l r : Expr} (hl : l.type.isPointer = true)
    (hr : r.type.isInteger = true) : additive s l r = pure (l, r, l.type) := by
  rw [additive, if_pos hl, integer_of hr]
  rfl

/-- A pointer is added to an integer as it is. -/
theorem additive_of_right {s : Span} {l r : Expr} (hl : l.type.isInteger = true)
    (hr : r.type.isPointer = true) : additive s l r = pure (l, r, r.type) := by
  rw [additive, if_neg (Ty.not_isPointer_of_isInteger hl), if_pos hr, integer_of hl]
  rfl

/-- Two integers are added as in any other arithmetic. -/
theorem additive_of_arithmetic {s : Span} {l r : Expr} (hl : l.type.isInteger = true)
    (hr : r.type.isInteger = true) : additive s l r = arithmetic s l r := by
  rw [additive, if_neg (Ty.not_isPointer_of_isInteger hl),
    if_neg (Ty.not_isPointer_of_isInteger hr)]

/-- All that the rule for two operands can do. -/
inductive BinaryOutcome (m : DataModel) (op : BinaryOp) (l r : Expr) :
    Traced (Expr × Expr × Ty) → Prop
  /-- Two integers are brought to their common type. -/
  | arithmetic {u : Ty}
      (hop : op.operatorClass = .additive ∨ op.operatorClass = .multiplicative)
      (hl : l.type.isInteger = true) (hr : r.type.isInteger = true)
      (hu : Ty.join l.type r.type = some u) : BinaryOutcome m op l r (bring u l r u)
  /-- An integer is added to a pointer on its left. -/
  | pointerLeft (hop : op.operatorClass = .additive) (hl : l.type.isPointer = true)
      (hr : r.type.isInteger = true) : BinaryOutcome m op l r (pure (l, r, l.type))
  /-- An integer is added to a pointer on its right. -/
  | pointerRight (hop : op.operatorClass = .additive) (hl : l.type.isInteger = true)
      (hr : r.type.isPointer = true) : BinaryOutcome m op l r (pure (l, r, r.type))
  | shift (hop : op.operatorClass = .shift) (hl : l.type.isInteger = true)
      (hr : r.type.isInteger = true) : BinaryOutcome m op l r (pure (l, r, l.type))
  /-- Two scalars are brought to their common type. -/
  | comparison {u : Ty} (hop : op.operatorClass = .comparison) (hl : l.type.isScalar = true)
      (hr : r.type.isScalar = true) (hu : Ty.join l.type r.type = some u) :
      BinaryOutcome m op l r (bring u l r m.int)
  | refused {x : Traced (Expr × Expr × Ty)} (h : x.Refuses (l, r, .void)) :
      BinaryOutcome m op l r x

/-- Arithmetic has one of the outcomes of its class. -/
theorem arithmetic_outcome (m : DataModel) {op : BinaryOp} (s : Span) (l r : Expr)
    (hop : op.operatorClass = .additive ∨ op.operatorClass = .multiplicative) :
    BinaryOutcome m op l r (arithmetic s l r) := by
  rcases arithmetic_cases s l r with ⟨u, hl, hr, hu, he⟩ | h
  · rw [he]
    exact .arithmetic hop hl hr hu
  · exact .refused h

/-- Addition and subtraction have one of the outcomes of their class. -/
theorem additive_outcome (m : DataModel) {op : BinaryOp} (s : Span) (l r : Expr)
    (hop : op.operatorClass = .additive) : BinaryOutcome m op l r (additive s l r) := by
  by_cases hl : l.type.isPointer = true
  · rcases integer_cases r with ⟨hr, -⟩ | ⟨-, h⟩
    · rw [additive_of_left hl hr]
      exact .pointerLeft hop hl hr
    · rw [additive, if_pos hl]
      exact .refused (h.bind rfl)
  · by_cases hr : r.type.isPointer = true
    · rcases integer_cases l with ⟨hl, -⟩ | ⟨-, h⟩
      · rw [additive_of_right hl hr]
        exact .pointerRight hop hl hr
      · rw [additive, if_neg hl, if_pos hr]
        exact .refused (h.bind rfl)
    · rw [additive, if_neg hl, if_neg hr]
      exact arithmetic_outcome m s l r (Or.inl hop)

/-- **A binary operator** has one of the outcomes of its class, whichever it is. -/
theorem binary_outcome (m : DataModel) (s : Span) (op : BinaryOp) (l r : Expr) :
    BinaryOutcome m op l r (binary m s op l r) := by
  cases hop : op.operatorClass with
  | additive =>
    rw [binary, hop]
    exact additive_outcome m s l r hop
  | multiplicative =>
    rw [binary, hop]
    exact arithmetic_outcome m s l r (Or.inr hop)
  | shift =>
    rw [binary, hop]
    rcases shift_cases l r with ⟨hl, hr, he⟩ | h
    · rw [he]
      exact .shift hop hl hr
    · exact .refused h
  | comparison =>
    rw [binary, hop]
    rcases comparison_cases m s l r with ⟨u, hl, hr, hu, he⟩ | h
    · rw [he]
      exact .comparison hop hl hr hu
    · exact .refused h

section Equations

variable {m : DataModel} {s : Span} {op : BinaryOp} {l r : Expr}

/-- Integers under an operator of arithmetic are brought to the type that they are joined to. -/
theorem binary_of_arithmetic {u : Ty}
    (hop : op.operatorClass = .additive ∨ op.operatorClass = .multiplicative)
    (hl : l.type.isInteger = true) (hr : r.type.isInteger = true)
    (hu : Ty.join l.type r.type = some u) : binary m s op l r = bring u l r u := by
  rcases hop with hop | hop
  · rw [binary, hop, ← arithmetic_of hl hr hu]
    exact additive_of_arithmetic hl hr
  · rw [binary, hop]
    exact arithmetic_of hl hr hu

theorem binary_of_pointerLeft (hop : op.operatorClass = .additive) (hl : l.type.isPointer = true)
    (hr : r.type.isInteger = true) : binary m s op l r = pure (l, r, l.type) := by
  rw [binary, hop]
  exact additive_of_left hl hr

theorem binary_of_pointerRight (hop : op.operatorClass = .additive)
    (hl : l.type.isInteger = true) (hr : r.type.isPointer = true) :
    binary m s op l r = pure (l, r, r.type) := by
  rw [binary, hop]
  exact additive_of_right hl hr

theorem binary_of_shift (hop : op.operatorClass = .shift) (hl : l.type.isInteger = true)
    (hr : r.type.isInteger = true) : binary m s op l r = pure (l, r, l.type) := by
  rw [binary, hop]
  exact shift_of hl hr

/-- Scalars under a comparison are brought to the type that they are joined to. -/
theorem binary_of_comparison {u : Ty} (hop : op.operatorClass = .comparison)
    (hl : l.type.isScalar = true) (hr : r.type.isScalar = true)
    (hu : Ty.join l.type r.type = some u) : binary m s op l r = bring u l r m.int := by
  rw [binary, hop]
  exact comparison_of hl hr hu

end Equations

end CTyping.Check
