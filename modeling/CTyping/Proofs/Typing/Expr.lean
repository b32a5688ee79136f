import CTyping.Proofs.Checker.Rules
import CTyping.Proofs.Tree.Induction
import CTyping.Proofs.Typing.Judgment

/-!
# The checker decides the types of expressions

An expression has a type exactly when it is resolved without an error and the slot of what is left
holds that type (`CTyping.hasType_iff`). One direction goes by induction on the expression: the rule
of its form was not refused, so the types of the operands are right. The other goes by induction on
the typing. The rules of the checker read the types of operands that have been resolved, the rules
of the type system those of operands as they are written, and by induction these are the same types.
-/

namespace CTyping

namespace Expr

variable {d : Declarations}

/-! ### What resolving leaves alone -/

/-- Whether an expression can stand on the left of an assignment does not change in a check. -/
theorem isLvalue_resolve (d : Declarations) (e : Expr) :
    (e.resolve d).value.isLvalue = e.isLvalue := by
  cases e <;> rfl

/-- After a check the slot holds the type of the node. -/
theorem ty?_resolve (d : Declarations) (e : Expr) :
    (e.resolve d).value.ty? = some (e.resolve d).value.type := by
  cases e <;> rfl

/-- What can be assigned to is an lvalue that is no array and no function. -/
theorem isAssignable_resolve_iff {e : Expr} :
    (e.resolve d).value.isAssignable = true ↔ e.isLvalue = true ∧
      (e.resolve d).value.type.isArray = false ∧ (e.resolve d).value.type.isFunction = false := by
  rw [isAssignable_iff, isLvalue_resolve]

/-! ### Soundness -/

/-- Arguments that are resolved and handed over without an error fit. -/
theorem argsFit_of_clean {as : List Expr}
    (has : ∀ a ∈ as, (a.resolve d).clean = true → HasType d a (a.resolve d).value.type)
    {ps : List Ty} (h : (resolveArgs d ps as).clean = true) : ArgsFit d ps as := by
  induction as generalizing ps with
  | nil => exact .nil
  | cons a as ih =>
    have iha := has a List.mem_cons_self
    have ihas := @ih fun x hx => has x (List.mem_cons_of_mem a hx)
    cases ps with
    | nil =>
      simp only [resolveArgs, Traced.clean_bind, Bool.and_eq_true] at h
      obtain ⟨ha, hrest, -⟩ := h
      exact .extra (iha ha) (ihas hrest)
    | cons p ps =>
      simp only [resolveArgs, Traced.clean_bind, Bool.and_eq_true] at h
      obtain ⟨ha, hp, hrest, -⟩ := h
      rcases Check.argument_cases p (a.resolve d).value with ⟨hr, ht, -⟩ | hn
      · exact .param (iha ha) hr ht (ihas hrest)
      · exact absurd hp hn.not_clean

/-- **An expression resolved without an error has the type that is put into its slot.** -/
theorem hasType_of_clean {e : Expr} (h : (e.resolve d).clean = true) :
    HasType d e (e.resolve d).value.type := by
  -- each form is resolved operands first, then the rule: none of these steps made an error known
  induction e with
  | intLit i v t => exact .intLit
  | strLit i s => exact .strLit
  | var i n t => exact .var
  | unary i op e ih =>
    simp only [resolve, Traced.clean_bind, Bool.and_eq_true] at h
    obtain ⟨he, hc, -⟩ := h
    change HasType d _ (Check.unary d.model op (e.resolve d).value).value
    rcases Check.unary_cases d.model op (e.resolve d).value with ⟨hf, hu⟩ | ⟨-, hu⟩
    · rw [hu]
      cases op with
      | logicalNot => exact .not (ih he) hf
      | _ => exact .arith (by simp) (ih he) hf
    · exact absurd hc hu.not_clean
  | step i op e ih =>
    simp only [resolve, Traced.clean_bind, Bool.and_eq_true] at h
    obtain ⟨he, hc, -⟩ := h
    change HasType d _ (Check.step (e.resolve d).value).value
    rcases Check.step_cases (e.resolve d).value with ⟨ht, hs⟩ | ⟨-, hs⟩
    · rw [hs]
      exact .step (ih he) ht
    · exact absurd hc hs.not_clean
  | addressOf i e ih =>
    simp only [resolve, Traced.clean_bind, Bool.and_eq_true] at h
    obtain ⟨he, hc, -⟩ := h
    change HasType d _ (Check.addressOf i.span (e.resolve d).value).value
    rcases Check.addressOf_cases i.span (e.resolve d).value with ⟨ha, hs⟩ | ⟨-, hs⟩
    · rw [hs]
      obtain ⟨hl, harr, hfun⟩ := isAssignable_resolve_iff.mp ha
      exact .addressOf (ih he) hl harr hfun
    · exact absurd hc hs.not_clean
  | deref i e ih =>
    simp only [resolve, Traced.clean_bind, Bool.and_eq_true] at h
    obtain ⟨he, hc, -⟩ := h
    change HasType d _ (Check.deref i.span (e.resolve d).value).value
    rcases Check.deref_cases i.span (e.resolve d).value with ⟨t, ht, hs⟩ | ⟨-, hs⟩
    · rw [hs]
      exact .deref (ih he) ht
    · exact absurd hc hs.not_clean
  | binary i op l r ihl ihr =>
    simp only [resolve, Traced.clean_bind, Bool.and_eq_true] at h
    obtain ⟨hl, hr, hc, -⟩ := h
    have ihl := ihl hl
    have ihr := ihr hr
    change HasType d _
      (Check.binary d.model i.span op (l.resolve d).value (r.resolve d).value).value.2.2
    have hb := Check.binary_outcome d.model i.span op (l.resolve d).value (r.resolve d).value
    generalize Check.binary d.model i.span op (l.resolve d).value (r.resolve d).value = x at hb hc
    cases hb with
    | arithmetic hop hl hr hu => exact .arithmetic hop ihl ihr hl hr (by simpa using hu)
    | pointerLeft hop hl hr => exact .pointerLeft hop ihl ihr hl hr
    | pointerRight hop hl hr => exact .pointerRight hop ihl ihr hl hr
    | shift hop hl hr => exact .shift hop ihl ihr hl hr
    | comparison hop hl hr hu =>
      rw [Check.value_bring]
      exact .comparison hop ihl ihr hl hr (Ty.isSome_join.mp (by simp [hu]))
    | refused hx => exact absurd hc hx.not_clean
  | assign i op l r ihl ihr =>
    simp only [resolve, Traced.clean_bind, Bool.and_eq_true] at h
    obtain ⟨hl, hr, hc, -⟩ := h
    have ihl := ihl hl
    have ihr := ihr hr
    change HasType d _ (Check.assign i.span op (l.resolve d).value (r.resolve d).value).value.2
    have ha := Check.assign_outcome i.span op (l.resolve d).value (r.resolve d).value
    generalize Check.assign i.span op (l.resolve d).value (r.resolve d).value = x at ha hc
    cases ha with
    | moved hl hm hp hr =>
      obtain ⟨hl, -, -⟩ := isAssignable_resolve_iff.mp hl
      exact .move hm ihl ihr hl hp hr
    | stored hl ha hm hr =>
      -- arrays are not assignable, so the only aggregates left are records
      obtain ⟨hl, harr, hfun⟩ := isAssignable_resolve_iff.mp hl
      rw [Ty.isAggregate_eq_isRecord harr] at ha
      exact .assign hm ihl ihr hl harr hfun ha hr
    | refused hx => exact absurd hc hx.not_clean
  | cond i c a b ihc iha ihb =>
    simp only [resolve, Traced.clean_bind, Bool.and_eq_true] at h
    obtain ⟨hcc, ha, hb, hc, -⟩ := h
    change HasType d _
      (Check.cond i.span (c.resolve d).value (a.resolve d).value (b.resolve d).value).value.2.2
    rcases Check.cond_cases i.span (c.resolve d).value (a.resolve d).value (b.resolve d).value with
      ⟨u, hu, hx⟩ | ⟨-, hx⟩
    · rw [hx] at hc ⊢
      have hs : (c.resolve d).value.type.isScalar = true := by simpa using hc
      exact .cond (ihc hcc) hs (iha ha) (ihb hb) (by simpa using hu)
    · exact absurd hc hx.not_clean
  | call i f as ihf ihas =>
    simp only [resolve, Traced.clean_bind, Bool.and_eq_true] at h
    obtain ⟨hf, hc, has, -⟩ := h
    change HasType d _ (Check.call i.span (f.resolve d).value as.length).value.2
    rcases Check.call_cases i.span (f.resolve d).value as.length with ⟨p, hp, hn, hx⟩ | hx
    · rw [hx] at has ⊢
      exact .call (ihf hf) hp hn (argsFit_of_clean ihas has)
    · exact absurd hc hx.not_clean
  | index i b x ihb ihx =>
    simp only [resolve, Traced.clean_bind, Bool.and_eq_true] at h
    obtain ⟨hb, he, hx, hc, -⟩ := h
    change HasType d _ (Check.index (Check.element i.span (b.resolve d).value).value
      (x.resolve d).value).value
    rcases Check.element_cases i.span (b.resolve d).value with ⟨t, ht, hy⟩ | ⟨-, hy⟩
    · rw [hy, Traced.value_pure] at hc ⊢
      rcases Check.index_cases t (x.resolve d).value with ⟨hi, hz⟩ | ⟨-, hz⟩
      · rw [hz]
        exact .index (ihb hb) ht (ihx hx) hi
      · exact absurd hc hz.not_clean
    · exact absurd he hy.not_clean
  | member i b n ih =>
    simp only [resolve, Traced.clean_bind, Bool.and_eq_true] at h
    obtain ⟨hb, hc, -⟩ := h
    change HasType d _ (Check.member d i.span (b.resolve d).value.type n).value
    rcases Check.member_cases d i.span (b.resolve d).value.type n with ⟨m, hr, hm, hx⟩ | ⟨-, hx⟩
    · rw [hx]
      exact .member (ih hb) hr hm
    · exact absurd hc hx.not_clean
  | arrow i b n ih =>
    simp only [resolve, Traced.clean_bind, Bool.and_eq_true] at h
    obtain ⟨hb, hc, -⟩ := h
    change HasType d _ (Check.arrow d i.span (b.resolve d).value.type n).value
    rcases Check.arrow_cases d i.span (b.resolve d).value.type n with
      ⟨t, m, ht, hr, hm, hx⟩ | ⟨-, hx⟩
    · rw [hx]
      exact .arrow (ht ▸ ih hb) hr hm
    · exact absurd hc hx.not_clean
  | cast i t e m ih =>
    simp only [resolve, Traced.clean_bind, Bool.and_eq_true] at h
    obtain ⟨he, hc, -⟩ := h
    change HasType d _ (Check.cast i.span t (e.resolve d).value m).value
    rcases Check.cast_cases i.span t (e.resolve d).value m with ⟨hs, hx⟩ | ⟨-, hx⟩
    · rw [hx]
      exact .cast (ih he) hs
    · exact absurd hc hx.not_clean
  | sizeofType i t => exact .sizeofType
  | sizeofExpr i e ih =>
    simp only [resolve, Traced.clean_bind, Bool.and_eq_true] at h
    exact .sizeofExpr (ih h.1)

end Expr

/-! ### Completeness -/

section Forms

variable {d : Declarations} {i : Info}

/-- A unary operator that fits its operand is accepted, and has the type of its result. -/
theorem resolves_unary {op : UnaryOp} {e : Expr} (he : (e.resolve d).clean = true)
    (h : Check.UnaryFits op (e.resolve d).value.type) :
    ((Expr.unary i op e).resolve d).clean = true ∧
      ((Expr.unary i op e).resolve d).value.type =
        Check.unaryResult d.model op (e.resolve d).value.type := by
  have hx := Check.unary_of h (m := d.model)
  refine ⟨by simp [Expr.resolve, he, hx], ?_⟩
  change (Check.unary d.model op (e.resolve d).value).value = _
  rw [hx, Traced.value_pure]

/-- A binary operator whose check finds nothing is accepted, and has the type that the check
gives. -/
theorem resolves_binary {op : BinaryOp} {l r : Expr} {x : Traced (Expr × Expr × Ty)}
    (hl : (l.resolve d).clean = true) (hr : (r.resolve d).clean = true)
    (hx : Check.binary d.model i.span op (l.resolve d).value (r.resolve d).value = x)
    (hc : x.clean = true) :
    ((Expr.binary i op l r).resolve d).clean = true ∧
      ((Expr.binary i op l r).resolve d).value.type = x.value.2.2 := by
  subst hx
  exact ⟨by simp [Expr.resolve, hl, hr, hc], rfl⟩

/-- An assignment whose check finds nothing is accepted, and has the type that the check gives. -/
theorem resolves_assign {op : AssignOp} {l r : Expr} {x : Traced (Expr × Ty)}
    (hl : (l.resolve d).clean = true) (hr : (r.resolve d).clean = true)
    (hx : Check.assign i.span op (l.resolve d).value (r.resolve d).value = x)
    (hc : x.clean = true) :
    ((Expr.assign i op l r).resolve d).clean = true ∧
      ((Expr.assign i op l r).resolve d).value.type = x.value.2 := by
  subst hx
  exact ⟨by simp [Expr.resolve, hl, hr, hc], rfl⟩

end Forms

mutual

/-- **An expression that has a type is resolved without an error, and gets that type.** -/
theorem HasType.resolves {d : Declarations} : ∀ {e : Expr} {t : Ty}, HasType d e t →
    (e.resolve d).clean = true ∧ (e.resolve d).value.type = t
  | _, _, .intLit => ⟨rfl, rfl⟩
  | _, _, .strLit => ⟨rfl, rfl⟩
  | _, _, .var => ⟨rfl, rfl⟩
  | .unary i op e, _, .arith hop he ht => by
    obtain ⟨hc, rfl⟩ := he.resolves
    cases op with
    | logicalNot => exact absurd rfl hop
    | _ => exact resolves_unary hc ht
  | .unary i _ e, _, .not he ht => by
    obtain ⟨hc, rfl⟩ := he.resolves
    exact resolves_unary hc ht
  | .step i op e, _, .step he ht => by
    obtain ⟨hc, rfl⟩ := he.resolves
    have hx := Check.step_of ht
    refine ⟨by simp [Expr.resolve, hc, hx], ?_⟩
    change (Check.step (e.resolve d).value).value = _
    rw [hx, Traced.value_pure]
  | .addressOf i e, _, .addressOf he hl ha hf => by
    obtain ⟨hc, rfl⟩ := he.resolves
    have hx := Check.addressOf_of (Expr.isAssignable_resolve_iff.mpr ⟨hl, ha, hf⟩) (s := i.span)
    refine ⟨by simp [Expr.resolve, hc, hx], ?_⟩
    change (Check.addressOf i.span (e.resolve d).value).value = _
    rw [hx, Traced.value_pure]
  | .deref i e, _, .deref he hb => by
    obtain ⟨hc, rfl⟩ := he.resolves
    have hx := Check.deref_of hb (s := i.span)
    refine ⟨by simp [Expr.resolve, hc, hx], ?_⟩
    change (Check.deref i.span (e.resolve d).value).value = _
    rw [hx, Traced.value_pure]
  -- an operator of a class is accepted by the rule that `CTyping.Check.binary` has for it
  | .binary i op l r, _, .arithmetic hop hl hr hs ht hu => by
    obtain ⟨hcl, rfl⟩ := hl.resolves
    obtain ⟨hcr, rfl⟩ := hr.resolves
    have hx := Check.binary_of_arithmetic hop hs ht hu (m := d.model) (s := i.span)
    simpa using resolves_binary hcl hcr hx (Check.clean_bring ..)
  | .binary i op l r, _, .pointerLeft hop hl hr hs ht => by
    obtain ⟨hcl, rfl⟩ := hl.resolves
    obtain ⟨hcr, rfl⟩ := hr.resolves
    exact resolves_binary hcl hcr (Check.binary_of_pointerLeft hop hs ht) rfl
  | .binary i op l r, _, .pointerRight hop hl hr hs ht => by
    obtain ⟨hcl, rfl⟩ := hl.resolves
    obtain ⟨hcr, rfl⟩ := hr.resolves
    exact resolves_binary hcl hcr (Check.binary_of_pointerRight hop hs ht) rfl
  | .binary i op l r, _, .shift hop hl hr hs ht => by
    obtain ⟨hcl, rfl⟩ := hl.resolves
    obtain ⟨hcr, rfl⟩ := hr.resolves
    exact resolves_binary hcl hcr (Check.binary_of_shift hop hs ht) rfl
  | .binary i op l r, _, .comparison hop hl hr hs ht hst => by
    obtain ⟨hcl, rfl⟩ := hl.resolves
    obtain ⟨hcr, rfl⟩ := hr.resolves
    -- which of the two types the operands are brought to does not matter here
    obtain ⟨u, hu⟩ := Option.isSome_iff_exists.mp (Ty.isSome_join.mpr hst)
    have hx := Check.binary_of_comparison hop hs ht hu (m := d.model) (s := i.span)
    simpa using resolves_binary hcl hcr hx (Check.clean_bring ..)
  | .assign i op l r, _, .move hop hl hr hlv ht hs => by
    obtain ⟨hcl, rfl⟩ := hl.resolves
    obtain ⟨hcr, rfl⟩ := hr.resolves
    have hassign := Expr.isAssignable_resolve_iff.mpr ⟨hlv, Ty.kind_of_isPointer ht⟩
    exact resolves_assign hcl hcr (Check.assign_of_moved hassign hop ht hs) rfl
  | .assign i op l r, _, .assign hop hl hr hlv ha hf hc hs => by
    obtain ⟨hcl, rfl⟩ := hl.resolves
    obtain ⟨hcr, rfl⟩ := hr.resolves
    have hassign := Expr.isAssignable_resolve_iff.mpr ⟨hlv, ha, hf⟩
    rw [← Ty.isAggregate_eq_isRecord ha] at hc
    exact resolves_assign hcl hcr (Check.assign_of_stored hassign hc hop hs) (by simp)
  | .cond i c a b, t, .cond hc hr ha hb hu => by
    obtain ⟨hcc, rfl⟩ := hc.resolves
    obtain ⟨hca, rfl⟩ := ha.resolves
    obtain ⟨hcb, rfl⟩ := hb.resolves
    have hx := Check.cond_of hu (s := i.span) (c := (c.resolve d).value)
    refine ⟨by simp [Expr.resolve, hcc, hca, hcb, hx, hr], ?_⟩
    change (Check.cond i.span (c.resolve d).value _ _).value.2.2 = t
    rw [hx, Traced.value_bind, Check.value_bring]
  | .call i f as, _, .call hf hp hn has => by
    obtain ⟨hcf, rfl⟩ := hf.resolves
    have hx := Check.call_of hp hn (s := i.span)
    refine ⟨by simp [Expr.resolve, hcf, hx, has.resolves], ?_⟩
    change (Check.call i.span (f.resolve d).value as.length).value.2 = _
    rw [hx, Traced.value_pure]
  | .index i b x, t, .index hb hs hx ht => by
    obtain ⟨hcb, rfl⟩ := hb.resolves
    obtain ⟨hcx, rfl⟩ := hx.resolves
    have hy := Check.element_of hs (s := i.span)
    have hz := Check.index_of ht (t := t)
    refine ⟨by simp [Expr.resolve, hcb, hcx, hy, hz], ?_⟩
    change (Check.index (Check.element i.span (b.resolve d).value).value _).value = t
    rw [hy, Traced.value_pure, hz, Traced.value_pure]
  | .member i b n, _, .member hb ht hu => by
    obtain ⟨hcb, rfl⟩ := hb.resolves
    have hx := Check.member_of ht hu (s := i.span)
    refine ⟨by simp [Expr.resolve, hcb, hx], ?_⟩
    change (Check.member d i.span (b.resolve d).value.type n).value = _
    rw [hx, Traced.value_pure]
  | .arrow i b n, _, .arrow hb ht hu => by
    obtain ⟨hcb, hb⟩ := hb.resolves
    have hx := Check.member_of ht hu (s := i.span)
    refine ⟨by simp [Expr.resolve, hcb, hb, Check.arrow, hx], ?_⟩
    change (Check.arrow d i.span (b.resolve d).value.type n).value = _
    rw [hb, Check.arrow, hx, Traced.value_pure]
  -- a doubtful cast is warned about, which does not reject it
  | .cast i t e m, _, .cast he hs => by
    obtain ⟨hc, rfl⟩ := he.resolves
    have hx := Check.cast_of hs (s := i.span) (m := m)
    refine ⟨by simp [Expr.resolve, hc, hx, Problem.severity], ?_⟩
    change (Check.cast i.span t (e.resolve d).value m).value = _
    rw [hx, Traced.value_bind, Traced.value_pure]
  | _, _, .sizeofType => ⟨rfl, rfl⟩
  | .sizeofExpr i e, _, .sizeofExpr he => ⟨by simp [Expr.resolve, he.resolves.1], rfl⟩

/-- Arguments that fit are resolved and handed over without an error. -/
theorem ArgsFit.resolves {d : Declarations} : ∀ {ps : List Ty} {as : List Expr}, ArgsFit d ps as →
    (Expr.resolveArgs d ps as).clean = true
  | _, _, .nil => by simp [Expr.resolveArgs]
  | _, _, .extra he hes => by simp [Expr.resolveArgs, he.resolves.1, hes.resolves]
  | _, _, .param he hr ht hes => by
    obtain ⟨hc, rfl⟩ := he.resolves
    simp [Expr.resolveArgs, hc, Check.argument_of hr ht, hes.resolves]

end

/-- **The checker decides the types of expressions.** -/
theorem hasType_iff {d : Declarations} {e : Expr} {t : Ty} :
    HasType d e t ↔ (e.resolve d).clean = true ∧ (e.resolve d).value.type = t := by
  constructor
  · exact HasType.resolves
  · rintro ⟨h, rfl⟩
    exact Expr.hasType_of_clean h

/-- An expression has at most one type. -/
theorem HasType.unique {d : Declarations} {e : Expr} {s t : Ty} (hs : HasType d e s)
    (ht : HasType d e t) : s = t := by
  rw [hasType_iff] at hs ht
  exact hs.2.symm.trans ht.2

end CTyping
