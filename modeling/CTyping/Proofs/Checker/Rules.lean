import CTyping.Proofs.Checker.Operators

/-!
# What the other rules do

Assignments, choices, calls, members, casts and returns, rule by rule as for operators: equations
for operands whose types are right, and the list of all that a rule can do.
-/

namespace CTyping.Check

open Traced (note report reportUnless)

/-! ### Assignments -/

/-- A value brought to the type of the place it is assigned to, with a warning unless the two types
agree or are compatible. -/
def put (s : Span) (t : Ty) (e : Expr) : Traced Expr := do
  reportUnless (e.type = t || e.type.compatible t) s (.lossyConversion e.type t)
  adapt t e

@[simp] theorem value_put (s : Span) (t : Ty) (e : Expr) : (put s t e).value = e.adapt t := by
  simp [put]

@[simp] theorem clean_put (s : Span) (t : Ty) (e : Expr) : (put s t e).clean = true := by
  simp [put, Problem.severity]

/-- Neither the conversion nor the warning comes a second time. -/
@[simp] theorem settled_put (s : Span) (t : Ty) (e : Expr) :
    (put s t e).settled = pure (e.adapt t) := by
  rw [put, Traced.settled_bind]
  cases e.type = t || e.type.compatible t with
  | true => exact settled_adapt t e
  | false => exact settled_adapt t e

@[simp] theorem put_adapt (s : Span) (t : Ty) (e : Expr) :
    put s t (e.adapt t) = pure (e.adapt t) := by
  simp [put, reportUnless]

/-- What can be cast is stored, with a warning if the conversion is doubtful. -/
theorem store_of {s : Span} {t : Ty} {e : Expr} (h : e.type.castable t = true) :
    store s t e = some <$> put s t e := by
  by_cases he : e.type = t
  · rw [store, if_pos he, put, adapt_of_eq he, decide_eq_true he]
    rfl
  · rw [store, if_neg he, if_pos h, put, adapt_of_ne he, decide_eq_false he, Bool.false_or,
      map_eq_pure_bind, bind_assoc]

/-- A value is stored where it can be cast, and refused elsewhere. -/
theorem store_cases (s : Span) (t : Ty) (e : Expr) :
    (e.type.castable t = true ∧ store s t e = some <$> put s t e) ∨
      (e.type.castable t = false ∧ (store s t e).Refuses none) := by
  cases h : e.type.castable t with
  | true => exact Or.inl ⟨rfl, store_of h⟩
  | false =>
    -- every type can be cast to itself, so the types differ
    have he : e.type ≠ t := by
      rintro rfl
      rw [Ty.castable_self] at h
      cases h
    refine Or.inr ⟨rfl, ?_⟩
    rw [store, if_neg he, if_neg (by simp [h])]
    exact Traced.refuses_report_pure rfl none

/-- All that the rule for assignments can do. -/
inductive AssignOutcome (s : Span) (op : AssignOp) (l r : Expr) : Traced (Expr × Ty) → Prop
  /-- A pointer is moved by an integer, which stays as it is. -/
  | moved (hl : l.isAssignable = true) (hm : op.movesPointer = true)
      (hp : l.type.isPointer = true) (hr : r.type.isInteger = true) :
      AssignOutcome s op l r (pure (r, l.type))
  /-- A value is brought to the type of the place. -/
  | stored (hl : l.isAssignable = true) (ha : l.type.isAggregate = false)
      (hm : ¬(op.movesPointer = true ∧ l.type.isPointer = true))
      (hr : r.type.castable l.type = true) :
      AssignOutcome s op l r ((fun r => (r, l.type)) <$> put s l.type r)
  | refused {x : Traced (Expr × Ty)} (h : x.Refuses (r, .void)) : AssignOutcome s op l r x

section Equations

variable {s : Span} {op : AssignOp} {l r : Expr}

/-- An integer that moves a pointer stays as it is. -/
theorem assign_of_moved (hl : l.isAssignable = true) (hm : op.movesPointer = true)
    (hp : l.type.isPointer = true) (hr : r.type.isInteger = true) :
    assign s op l r = pure (r, l.type) := by
  have ha : ¬l.type.isAggregate = true := by simp [Ty.isAggregate_of_isPointer hp]
  rw [assign, if_pos hl, if_neg ha, if_pos (by simp [hm, hp]), integer_of hr]
  rfl

/-- All else that is assigned is stored in the type of the left side. -/
theorem assign_of_stored (hl : l.isAssignable = true) (ha : l.type.isAggregate = false)
    (hm : ¬(op.movesPointer = true ∧ l.type.isPointer = true))
    (hr : r.type.castable l.type = true) :
    assign s op l r = (fun r => (r, l.type)) <$> put s l.type r := by
  rw [assign, if_pos hl, if_neg (by simp [ha]), if_neg (by simpa using hm), store_of hr]
  simp only [map_eq_pure_bind, bind_assoc, pure_bind]

end Equations

/-- **An assignment** is refused, moves a pointer, or stores its right side. -/
theorem assign_outcome (s : Span) (op : AssignOp) (l r : Expr) :
    AssignOutcome s op l r (assign s op l r) := by
  by_cases hl : l.isAssignable = true
  · cases ha : l.type.isAggregate with
    | true =>
      rw [assign, if_pos hl, if_pos ha]
      exact .refused (Traced.refuses_report_pure rfl _)
    | false =>
      by_cases hm : op.movesPointer = true ∧ l.type.isPointer = true
      · rcases integer_cases r with ⟨hr, -⟩ | ⟨-, h⟩
        · rw [assign_of_moved hl hm.1 hm.2 hr]
          exact .moved hl hm.1 hm.2 hr
        · rw [assign, if_pos hl, if_neg (by simp [ha]), if_pos (by simpa using hm)]
          exact .refused (h.bind rfl)
      · rcases store_cases s l.type r with ⟨hr, -⟩ | ⟨-, h⟩
        · rw [assign_of_stored hl ha hm hr]
          exact .stored hl ha hm hr
        · rw [assign, if_pos hl, if_neg (by simp [ha]), if_neg (by simpa using hm)]
          exact .refused (h.bind rfl)
  · rw [assign, if_neg hl]
    exact .refused (Traced.refuses_report_pure rfl _)

/-- Assigns an initializer, once it is resolved, to its variable. -/
def initial (v : Variable) (e : Expr) : Traced Variable := do
  if v.type.isAggregate then
    report v.span (.variableType v.type)
    return { v with initializer := some e }
  let stored ← store v.span v.type e
  return { v with initializer := some (stored.getD e) }

/-- An initializer is stored in the type of its variable. -/
theorem initial_of {v : Variable} {e : Expr} (ha : v.type.isAggregate = false)
    (hc : e.type.castable v.type = true) :
    initial v e = (fun e => { v with initializer := some e }) <$> put v.span v.type e := by
  rw [initial, if_neg (by simp [ha]), store_of hc]
  simp only [map_eq_pure_bind, bind_assoc, pure_bind, Option.getD_some]

/-- An initializer is stored, or it is refused and the variable stays as it is. -/
theorem initial_cases (v : Variable) (e : Expr) :
    (v.type.isAggregate = false ∧ e.type.castable v.type = true ∧
        initial v e =
          (fun e => { v with initializer := some e }) <$> put v.span v.type e) ∨
      (¬(v.type.isAggregate = false ∧ e.type.castable v.type = true) ∧
        (initial v e).Refuses { v with initializer := some e }) := by
  cases ha : v.type.isAggregate with
  | true =>
    rw [initial, if_pos ha]
    exact Or.inr ⟨by simp, Traced.refuses_report_pure rfl _⟩
  | false =>
    rcases store_cases v.span v.type e with ⟨hc, -⟩ | ⟨hc, hx⟩
    · exact Or.inl ⟨rfl, hc, initial_of ha hc⟩
    · rw [initial, if_neg (by simp [ha])]
      exact Or.inr ⟨by simp [hc], hx.bind rfl⟩

/-! ### Choices, calls and members -/

/-- The branches are brought to the common type even if the condition is refused. -/
theorem cond_of {s : Span} {c a b : Expr} {u : Ty} (h : Ty.join b.type a.type = some u) :
    cond s c a b = scalar c >>= fun _ => bring u a b u := by
  unfold Ty.join at h
  rw [cond]
  congr 1
  funext _
  -- the rule asks in the order of `CTyping.Ty.join`, with the sides exchanged
  by_cases he : a.type = b.type
  · rw [if_pos (Or.inl he.symm)] at h
    obtain rfl := Option.some.inj h
    rw [if_pos he, bring, adapt_of_eq he, adapt_of_eq rfl, he]
    rfl
  · by_cases ha : a.type.compatible b.type = true
    · rw [if_pos (Or.inr ha)] at h
      obtain rfl := Option.some.inj h
      rw [if_neg he, if_pos ha, bring, adapt_of_ne he, adapt_of_eq rfl]
      rfl
    · rw [if_neg (not_or.mpr ⟨Ne.symm he, ha⟩)] at h
      by_cases hb : b.type.compatible a.type = true
      · rw [if_pos hb] at h
        obtain rfl := Option.some.inj h
        rw [if_neg he, if_neg ha, if_pos hb, bring, adapt_of_eq rfl, adapt_of_ne (Ne.symm he)]
        rfl
      · rw [if_neg hb] at h
        cases h

/-- The branches of a conditional are brought to one type, or are refused. -/
theorem cond_cases (s : Span) (c a b : Expr) :
    (∃ u, Ty.join b.type a.type = some u ∧ cond s c a b = scalar c >>= fun _ => bring u a b u) ∨
      (Ty.join b.type a.type = none ∧ (cond s c a b).Refuses (a, b, .void)) := by
  cases h : Ty.join b.type a.type with
  | some u => exact Or.inl ⟨u, rfl, cond_of h⟩
  | none =>
    refine Or.inr ⟨rfl, ?_⟩
    have hn : ¬(Ty.join b.type a.type).isSome = true := by simp [h]
    rw [Ty.isSome_join, not_or, not_or] at hn
    obtain ⟨he, hb, ha⟩ := hn
    -- there may be two errors, and the one about the condition comes first
    have hr : Traced.Refuses (do report s (.incompatible b.type a.type); return (a, b, Ty.void))
        (a, b, Ty.void) := Traced.refuses_report_pure rfl _
    rw [cond, if_neg (Ne.symm he), if_neg ha, if_neg hb]
    rcases scalar_cases c with ⟨-, hc⟩ | ⟨-, hc⟩
    · rw [hc, pure_bind]
      exact hr
    · exact hc.bind hr.settled

/-- A call with a number of arguments that is taken gives the result of the function. -/
theorem call_of {s : Span} {f : Expr} {n : Nat} {p : Ty.Prototype}
    (hp : f.type.prototype? = some p) (hn : p.acceptsCount n = true) :
    call s f n = pure (p.params, p.result) := by
  rw [call, hp]
  exact if_pos hn

/-- A call is one of something that can be called, with a number of arguments that it takes, or it
is refused. -/
theorem call_cases (s : Span) (f : Expr) (n : Nat) :
    (∃ p, f.type.prototype? = some p ∧ p.acceptsCount n = true ∧
        call s f n = pure (p.params, p.result)) ∨
      (call s f n).Refuses ([], .void) := by
  cases hp : f.type.prototype? with
  | none =>
    rw [call, hp]
    exact Or.inr (Traced.refuses_report_pure rfl _)
  | some p =>
    by_cases hn : p.acceptsCount n = true
    · exact Or.inl ⟨p, rfl, hn, call_of hp hn⟩
    · refine Or.inr ?_
      have hc : call s f n = (do report s (.argumentCount n); return ([], Ty.void)) := by
        rw [call, hp]
        exact if_neg hn
      rw [hc]
      exact Traced.refuses_report_pure rfl _

/-- An argument that is compatible with its parameter is brought to the type of the parameter. -/
theorem argument_of {p : Ty} {e : Expr} (hr : e.type.isRecord = false)
    (h : e.type = p ∨ e.type.compatible p = true) : argument p e = adapt p e := by
  by_cases he : e.type = p
  · rw [argument, if_neg (by simp [hr]), if_pos he, adapt_of_eq he]
  · rw [argument, if_neg (by simp [hr]), if_neg he, if_pos (h.resolve_left he), adapt_of_ne he]

/-- An argument is compatible with its parameter and no record, or it is refused. -/
theorem argument_cases (p : Ty) (e : Expr) :
    (e.type.isRecord = false ∧ (e.type = p ∨ e.type.compatible p = true) ∧
        argument p e = adapt p e) ∨
      (argument p e).Refuses e := by
  cases hr : e.type.isRecord with
  | true =>
    rw [argument, if_pos hr]
    exact Or.inr (Traced.refuses_report_pure rfl e)
  | false =>
    by_cases h : e.type = p ∨ e.type.compatible p = true
    · exact Or.inl ⟨rfl, h, argument_of hr h⟩
    · rw [not_or] at h
      rw [argument, if_neg (by simp [hr]), if_neg h.1, if_neg h.2]
      exact Or.inr (Traced.refuses_report_pure rfl e)

theorem element_of {s : Span} {b : Expr} {t : Ty} (h : b.type.base? = some t) :
    element s b = pure (some t) := by
  rw [element, h]

/-- Pointers and arrays have elements; all else is refused. -/
theorem element_cases (s : Span) (b : Expr) :
    (∃ t, b.type.base? = some t ∧ element s b = pure (some t)) ∨
      (b.type.base? = none ∧ (element s b).Refuses none) := by
  cases h : b.type.base? with
  | some t => exact Or.inl ⟨t, rfl, element_of h⟩
  | none =>
    refine Or.inr ⟨rfl, ?_⟩
    rw [element, h]
    exact Traced.refuses_report_pure rfl _

theorem index_of {t : Ty} {x : Expr} (h : x.type.isInteger = true) :
    index (some t) x = pure t := by
  rw [index, integer_of h]
  rfl

/-- An index is an integer, or it is refused. -/
theorem index_cases (t : Ty) (x : Expr) :
    (x.type.isInteger = true ∧ index (some t) x = pure t) ∨
      (x.type.isInteger = false ∧ (index (some t) x).Refuses .void) :=
  asked_cases t (integer_cases x)

theorem member_of {d : Declarations} {s : Span} {t m : Ty} {n : String}
    (hr : t.isRecord = true) (hm : d.memberType? t n = some m) : member d s t n = pure m := by
  rw [member, if_pos hr, hm]

/-- A member is one of a record that has it, or it is refused. -/
theorem member_cases (d : Declarations) (s : Span) (t : Ty) (n : String) :
    (∃ m, t.isRecord = true ∧ d.memberType? t n = some m ∧ member d s t n = pure m) ∨
      ((t.isRecord = false ∨ d.memberType? t n = none) ∧ (member d s t n).Refuses .void) := by
  cases hr : t.isRecord with
  | false =>
    refine Or.inr ⟨Or.inl rfl, ?_⟩
    rw [member, if_neg (by simp [hr])]
    exact Traced.refuses_report_pure rfl _
  | true =>
    cases hm : d.memberType? t n with
    | some m => exact Or.inl ⟨m, rfl, rfl, member_of hr hm⟩
    | none =>
      refine Or.inr ⟨Or.inr rfl, ?_⟩
      rw [member, if_pos hr, hm]
      exact Traced.refuses_report_pure rfl _

/-- Behind an arrow stands a member of the record that is pointed to, or it is refused. -/
theorem arrow_cases (d : Declarations) (s : Span) (t : Ty) (n : String) :
    (∃ b m, t = .ptr b ∧ b.isRecord = true ∧ d.memberType? b n = some m ∧
        arrow d s t n = pure m) ∨
      ((∀ b, t = .ptr b → b.isRecord = false ∨ d.memberType? b n = none) ∧
        (arrow d s t n).Refuses .void) := by
  cases t with
  | ptr b =>
    -- behind a pointer it is the rule for members
    rcases member_cases d s b n with ⟨m, hr, hm, he⟩ | ⟨hn, h⟩
    · exact Or.inl ⟨b, m, rfl, hr, hm, he⟩
    · refine Or.inr ⟨?_, h⟩
      rintro _ ⟨⟩
      exact hn
  | _ =>
    refine Or.inr ⟨?_, Traced.refuses_report_pure rfl _⟩
    rintro _ ⟨⟩

/-- A cast has the type that it names, with a warning if it is doubtful and not one of the
checker. -/
theorem cast_of {s : Span} {t : Ty} {e : Expr} {m : Bool} (h : e.type.castable t = true) :
    cast s t e m =
      reportUnless (m || e.type.compatible t) s (.lossyCast e.type t) >>=
        fun _ => pure t := by
  rw [cast, if_pos h]

/-- What can be cast is cast; all else is refused. -/
theorem cast_cases (s : Span) (t : Ty) (e : Expr) (m : Bool) :
    (e.type.castable t = true ∧
        cast s t e m =
          reportUnless (m || e.type.compatible t) s (.lossyCast e.type t) >>= fun _ => pure t) ∨
      (e.type.castable t = false ∧ (cast s t e m).Refuses .void) := by
  cases h : e.type.castable t with
  | true => exact Or.inl ⟨rfl, cast_of h⟩
  | false =>
    refine Or.inr ⟨rfl, ?_⟩
    rw [cast, if_neg (by simp [h])]
    exact Traced.refuses_report_pure rfl _

/-- A conversion that the checker made is not remarked on. -/
theorem cast_implicit {s : Span} {t : Ty} {e : Expr} (h : e.type.castable t = true) :
    cast s t e true = pure t := by
  rw [cast, if_pos h]
  rfl

/-! ### Returns -/

/-- Nothing can be returned only where nothing is to be. -/
theorem returned_none_cases (s : Span) (result : Ty) :
    (result.isVoid = true ∧ returned s result none = pure none) ∨
      (result.isVoid = false ∧ (returned s result none).Refuses none) := by
  cases h : result.isVoid with
  | true =>
    refine Or.inl ⟨rfl, ?_⟩
    rw [returned, h]
    rfl
  | false =>
    refine Or.inr ⟨rfl, ?_⟩
    rw [returned, h]
    exact Traced.refuses_report_pure rfl none

@[simp] theorem value_returned_none (s : Span) (result : Ty) :
    (returned s result none).value = none := by
  rcases returned_none_cases s result with ⟨-, h⟩ | ⟨-, h⟩
  · rw [h, Traced.value_pure]
  · exact h.value

/-- What is returned is brought to the result of the function. -/
theorem returned_some_of {s : Span} {result : Ty} {e : Expr} (hv : result.isVoid = false)
    (h : e.type = result ∨ e.type.compatible result = true) :
    returned s result (some e) = some <$> adapt result e := by
  by_cases he : e.type = result
  · rw [returned, if_neg (by simp [hv]), if_pos he, adapt_of_eq he, map_pure]
  · rw [returned, if_neg (by simp [hv]), if_neg he, if_pos (h.resolve_left he), adapt_of_ne he,
      map_eq_pure_bind]

/-- What is returned is compatible with the result of the function, which is not `void`, or it is
refused. -/
theorem returned_some_cases (s : Span) (result : Ty) (e : Expr) :
    (result.isVoid = false ∧ (e.type = result ∨ e.type.compatible result = true) ∧
        returned s result (some e) = some <$> adapt result e) ∨
      (¬(result.isVoid = false ∧ (e.type = result ∨ e.type.compatible result = true)) ∧
        (returned s result (some e)).Refuses (some e)) := by
  cases hv : result.isVoid with
  | true =>
    rw [returned, if_pos hv]
    exact Or.inr ⟨by simp, Traced.refuses_report_pure rfl _⟩
  | false =>
    by_cases h : e.type = result ∨ e.type.compatible result = true
    · exact Or.inl ⟨rfl, h, returned_some_of hv h⟩
    · obtain ⟨he, hc⟩ := not_or.mp h
      rw [returned, if_neg (by simp [hv]), if_neg he, if_neg hc]
      exact Or.inr ⟨by simp [h], Traced.refuses_report_pure rfl _⟩

end CTyping.Check
