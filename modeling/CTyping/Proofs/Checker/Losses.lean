import CTyping.Proofs.Checker.Again
import CTyping.Proofs.Tree.Nodes
import Mathlib.Algebra.Order.Group.Multiset

/-!
# Doubtful conversions are accounted for

A conversion is doubtful if its operand is not compatible with its target. Whether there are any can
be asked of two things that a check makes: of the trace, which warns about them
(`CTyping.Traced.lossy`), and of the tree, in which they stand (`CTyping.Expr.lossyIn`). They are
the same, and as many (`CTyping.Expr.converted_resolve`): a rule that stores a value warns about the
conversion that it makes exactly if that is doubtful, and no other rule makes doubtful ones.

Beside this, a check that is given no conversions makes only such as are needed and can be made, at
most one of each operand (`CTyping.Expr.ConvertsWell`).
-/

namespace CTyping

/-! ### Warnings in a trace -/

/-- Source and target of the doubtful conversion that an event is about. -/
def Event.lossy? : Event → Option (Ty × Ty)
  | .found (.lossyConversion s t) _ => some (s, t)
  | _ => none

/-- A warning about a doubtful conversion does not last: it is not given again. -/
theorem Event.lossy?_of_lasting {e : Event} (h : e.lasting = true) : e.lossy? = none := by
  cases e with
  | entered f => rfl
  | converted s t => rfl
  | found p s =>
    cases p with
    | lossyConversion a b => cases h
    | _ => rfl

namespace Traced

variable {α β : Type}

/-- The doubtful conversions that a check warns about. -/
def lossy (x : Traced α) : Multiset (Ty × Ty) := ↑(x.events.filterMap Event.lossy?)

@[simp] theorem lossy_pure (a : α) : (pure a : Traced α).lossy = 0 := rfl

@[simp] theorem lossy_bind (x : Traced α) (f : α → Traced β) :
    (x >>= f).lossy = x.lossy + (f x.value).lossy := by
  rw [lossy, events_bind, List.filterMap_append, ← Multiset.coe_add]
  rfl

@[simp] theorem lossy_map (f : α → β) (x : Traced α) : (f <$> x).lossy = x.lossy := by
  rw [map_eq_pure_bind, lossy_bind, lossy_pure, add_zero]

@[simp] theorem lossy_mapM (f : α → Traced β) (as : List α) :
    (as.mapM f).lossy = (as.map fun a => (f a).lossy).sum := by
  induction as with
  | nil => simp
  | cons a as ih => simp [ih]

/-- What would happen again is no warning about a conversion. -/
theorem lossy_of_settled {x : Traced α} (h : x.settled = x) : x.lossy = 0 := by
  have hnone : x.events.filterMap Event.lossy? = [] := by
    refine List.filterMap_eq_nil_iff.mpr fun e he => Event.lossy?_of_lasting ?_
    rw [← h] at he
    exact (List.mem_filter.mp he).2
  rw [lossy, hnone]
  rfl

end Traced

/-! ### Doubtful conversions in a tree -/

namespace Expr

/-- A node that is no conversion. -/
abbrev Plain (e : Expr) : Prop := e.isConversion = false

/-- Source and target of a conversion that is doubtful. -/
def lossy? : Expr → Option (Ty × Ty)
  | cast _ t e true => if e.type.compatible t then none else some (e.type, t)
  | _ => none

/-- The doubtful conversions in expressions. -/
def lossyIn (es : List Expr) : Multiset (Ty × Ty) := ↑((walk es).filterMap lossy?)

/-- What is no conversion is no doubtful one. -/
theorem lossy?_of_plain {e : Expr} (h : e.Plain) : e.lossy? = none := by
  cases e with
  | cast i t e m =>
    obtain rfl : m = false := h
    rfl
  | _ => rfl

/-- A walk through two lists goes through the one and then through the other. -/
theorem walk_append (as bs : List Expr) : walk (as ++ bs) = walk as ++ walk bs := by
  fun_induction walk as with
  | case1 => rfl
  | case2 e rest ih => rw [List.cons_append, walk, ← List.append_assoc, ih, List.cons_append]

@[simp] theorem lossyIn_nil : lossyIn [] = 0 := by
  rw [lossyIn, walk]
  rfl

/-- The doubtful conversions in two lists are those in the one and those in the other. -/
theorem lossyIn_append (as bs : List Expr) : lossyIn (as ++ bs) = lossyIn as + lossyIn bs := by
  rw [lossyIn, walk_append, List.filterMap_append, ← Multiset.coe_add]
  rfl

/-- The doubtful conversions in a list are those in its first tree and those in the rest. -/
theorem lossyIn_cons (e : Expr) (es : List Expr) :
    lossyIn (e :: es) = lossyIn [e] + lossyIn es :=
  lossyIn_append [e] es

/-- The order of trees does not matter for the doubtful conversions in them. -/
theorem lossyIn_reverse (es : List Expr) : lossyIn es.reverse = lossyIn es := by
  induction es with
  | nil => rfl
  | cons e es ih => rw [List.reverse_cons, lossyIn_append, ih, lossyIn_cons e es, add_comm]

/-- The doubtful conversions in what belongs to each of a list are summed up. -/
theorem lossyIn_flatMap {α : Type} (f : α → List Expr) (as : List α) :
    lossyIn (as.flatMap f) = (as.map fun a => lossyIn (f a)).sum := by
  induction as with
  | nil => simp
  | cons a as ih => rw [List.flatMap_cons, lossyIn_append, ih, List.map_cons, List.sum_cons]

/-- The doubtful conversions in a node: itself, if it is one, and those in its operands. -/
theorem lossyIn_singleton (e : Expr) :
    lossyIn [e] = (e.lossy?.toList : Multiset (Ty × Ty)) + lossyIn e.children := by
  have hwalk : lossyIn [e] =
      ((e :: walk (e.children.reverse ++ [])).filterMap lossy? : List (Ty × Ty)) := by
    rw [lossyIn, walk]
  rw [hwalk, List.append_nil, ← lossyIn_reverse e.children, lossyIn, Multiset.coe_add]
  cases h : e.lossy? with
  | none => rw [List.filterMap_cons_none h]; rfl
  | some w => rw [List.filterMap_cons_some h]; rfl

/-! ### Conversions as a check makes them -/

/-- The operands of a node but for the value that an assignment stores. -/
def unstored : Expr → List Expr
  | assign _ _ l _ => [l]
  | e => e.children

/-- A node is well converted if it is a conversion that is needed, of an operand that is none, and
can be made, or no conversion at all; and if no doubtful conversions are among its operands but for
the value that it stores. -/
structure ConvertsWell (n : Expr) : Prop where
  conversion : ∀ i t e, n = cast i t e true →
    e.type ≠ t ∧ e.isConversion = false ∧ e.type.castable t = true
  unstored : ∀ c ∈ n.unstored, c.lossy? = none

/-- An expression that is well converted everywhere and holds the given doubtful conversions. -/
structure Converted (w : Multiset (Ty × Ty)) (e : Expr) : Prop where
  everywhere : e.Everywhere ConvertsWell
  lossy : lossyIn [e] = w

/-- A node that is no conversion is as well converted as its operands. -/
theorem Converted.node {n : Expr} {w : Multiset (Ty × Ty)} (hn : n.Plain)
    (hu : ∀ c ∈ n.unstored, c.lossy? = none) (hc : ∀ c ∈ n.children, c.Everywhere ConvertsWell)
    (hw : lossyIn n.children = w) : n.Converted w where
  everywhere := by
    refine .node n ⟨?_, hu⟩ hc
    rintro i t e rfl
    cases hn
  lossy := by
    rw [lossyIn_singleton, lossy?_of_plain hn, hw]
    exact zero_add w

/-- The doubtful conversions of a tree are added to those in the trees after it. -/
theorem Converted.lossyIn_cons {e : Expr} {es : List Expr} {w w' : Multiset (Ty × Ty)}
    (he : e.Converted w) (hes : lossyIn es = w') : lossyIn (e :: es) = w + w' := by
  rw [Expr.lossyIn_cons, he.lossy, hes]

/-- What a rule makes of an operand that is no conversion: there may be one more doubtful conversion
than in the operand, and that is what the rule makes of it. -/
theorem Brought.converted {e e' : Expr} (h : e.Brought e') (he : e.Plain)
    {w : Multiset (Ty × Ty)} (hw : e.Converted w) :
    e'.Converted (e'.lossy?.toList + w) := by
  obtain ⟨t, hc, rfl⟩ := h
  by_cases ht : e.type = t
  · rw [adapt_of_eq ht, lossy?_of_plain he]
    exact ⟨hw.everywhere, hw.lossy.trans (zero_add w).symm⟩
  · rw [adapt_of_ne ht]
    refine ⟨.node _ ⟨?_, ?_⟩ (List.forall_mem_singleton.mpr hw.everywhere), ?_⟩
    · rintro i u a ⟨⟩
      exact ⟨ht, he, hc⟩
    · exact List.forall_mem_singleton.mpr (lossy?_of_plain he)
    · rw [lossyIn_singleton]
      exact congrArg _ hw.lossy

/-- A tree that is brought to a type by no doubtful conversion holds those that it held. -/
theorem Brought.converted_of_lossy? {e e' : Expr} (h : e.Brought e') (he : e.Plain)
    {w : Multiset (Ty × Ty)} (hw : e.Converted w) (hn : e'.lossy? = none) : e'.Converted w := by
  have hc := h.converted he hw
  rw [hn] at hc
  exact ⟨hc.everywhere, hc.lossy.trans (zero_add w)⟩

/-- An operand that is brought to a type with which its own agrees or is compatible is not
doubtful. -/
theorem lossy?_adapt {e : Expr} {t : Ty} (he : e.Plain)
    (h : e.type = t ∨ e.type.compatible t = true) : (e.adapt t).lossy? = none := by
  by_cases ht : e.type = t
  · rw [adapt_of_eq ht, lossy?_of_plain he]
  · rw [adapt_of_ne ht]
    exact if_pos (h.resolve_left ht)

end Expr

/-! ### What rules warn about -/

namespace Check

variable {l r e : Expr}

@[simp] theorem lossy_adapt (t : Ty) (e : Expr) : (adapt t e).lossy = 0 := by
  by_cases h : e.type = t
  · rw [adapt_of_eq h, Traced.lossy_pure]
  · rw [adapt_of_ne h]
    rfl

@[simp] theorem lossy_bring (u : Ty) (l r : Expr) (t : Ty) : (bring u l r t).lossy = 0 := by
  simp [bring]

/-- A value that is stored is warned about if the conversion that is made is doubtful. -/
theorem lossy_put (s : Span) (t : Ty) (he : e.Plain) :
    (put s t e).lossy = ((e.adapt t).lossy?.toList : Multiset (Ty × Ty)) := by
  rw [put, Traced.lossy_bind, lossy_adapt, add_zero]
  by_cases h : e.type = t ∨ e.type.compatible t = true
  · have hw : (decide (e.type = t) || e.type.compatible t) = true := by simpa using h
    rw [hw, Expr.lossy?_adapt he h]
    rfl
  · obtain ⟨ht, hc⟩ := not_or.mp h
    have hw : (decide (e.type = t) || e.type.compatible t) = false := by simp [ht, hc]
    -- the conversion is made, and it is the doubtful one that is warned about
    have hl : (e.adapt t).lossy? = some (e.type, t) := by
      rw [Expr.adapt_of_ne ht]
      exact if_neg hc
    rw [hw, hl]
    rfl

/-- Two operands that are brought to their common type are not doubtful. -/
theorem lossy?_join {u : Ty} (hl : l.Plain) (hr : r.Plain)
    (hu : Ty.join l.type r.type = some u) :
    (l.adapt u).lossy? = none ∧ (r.adapt u).lossy? = none := by
  obtain ⟨hlu, hru⟩ := Ty.eq_or_compatible_of_join hu
  exact ⟨Expr.lossy?_adapt hl hlu, Expr.lossy?_adapt hr hru⟩

/-- A binary operator makes no doubtful conversion, and warns about none. -/
theorem lossy_binary (m : DataModel) (s : Span) (op : BinaryOp) (hl : l.Plain)
    (hr : r.Plain) :
    (binary m s op l r).value.1.lossy? = none ∧ (binary m s op l r).value.2.1.lossy? = none ∧
      (binary m s op l r).lossy = 0 := by
  have hl' := Expr.lossy?_of_plain hl
  have hr' := Expr.lossy?_of_plain hr
  have hx := binary_outcome m s op l r
  generalize binary m s op l r = x at hx ⊢
  cases hx with
  | arithmetic _ _ _ hu | comparison _ _ _ hu =>
    obtain ⟨hlu, hru⟩ := lossy?_join hl hr hu
    rw [value_bring]
    exact ⟨hlu, hru, lossy_bring ..⟩
  | pointerLeft | pointerRight | shift => exact ⟨hl', hr', rfl⟩
  | refused h =>
    rw [h.value]
    exact ⟨hl', hr', Traced.lossy_of_settled h.settled⟩

/-- An assignment warns about the conversion of the value that it stores, if that is doubtful. -/
theorem lossy_assign (s : Span) (op : AssignOp) (l : Expr) (hr : r.Plain) :
    (assign s op l r).lossy =
      ((assign s op l r).value.1.lossy?.toList : Multiset (Ty × Ty)) := by
  have hx := assign_outcome s op l r
  generalize assign s op l r = x at hx ⊢
  cases hx with
  | moved =>
    rw [Traced.value_pure, Expr.lossy?_of_plain hr]
    rfl
  | stored =>
    rw [Traced.lossy_map, lossy_put s l.type hr, Traced.value_map, value_put]
  | refused h =>
    rw [h.value, Expr.lossy?_of_plain hr, Traced.lossy_of_settled h.settled]
    rfl

/-- A conditional makes no doubtful conversion, and warns about none. -/
theorem lossy_cond (s : Span) (c : Expr) (hl : l.Plain)
    (hr : r.Plain) :
    (cond s c l r).value.1.lossy? = none ∧ (cond s c l r).value.2.1.lossy? = none ∧
      (cond s c l r).lossy = 0 := by
  rcases cond_cases s c l r with ⟨u, hu, hx⟩ | ⟨-, hx⟩
  · obtain ⟨hru, hlu⟩ := lossy?_join hr hl hu
    rw [hx, Traced.value_bind, value_bring, Traced.lossy_bind, lossy_bring, add_zero]
    exact ⟨hlu, hru, Traced.lossy_of_settled (settled_scalar c)⟩
  · rw [hx.value]
    exact ⟨Expr.lossy?_of_plain hl, Expr.lossy?_of_plain hr,
      Traced.lossy_of_settled hx.settled⟩

/-- An argument is brought to its parameter by no doubtful conversion. -/
theorem lossy_argument (p : Ty) (he : e.Plain) :
    (argument p e).value.lossy? = none ∧ (argument p e).lossy = 0 := by
  rcases argument_cases p e with ⟨-, ht, hx⟩ | hx
  · rw [hx, value_adapt]
    exact ⟨Expr.lossy?_adapt he ht, lossy_adapt p e⟩
  · rw [hx.value]
    exact ⟨Expr.lossy?_of_plain he, Traced.lossy_of_settled hx.settled⟩

end Check

/-! ### Resolving expressions -/

namespace Expr

variable {d : Declarations}

/-- A node stays a conversion, and becomes none. -/
theorem isConversion_resolve (d : Declarations) (e : Expr) :
    (e.resolve d).value.isConversion = e.isConversion := by
  cases e <;> rfl

/-- No expression is a conversion once it is resolved, so a rule makes at most one of it. -/
theorem plain_resolve (d : Declarations) {e : Expr} (h : e.Everywhere Plain) :
    (e.resolve d).value.Plain :=
  (isConversion_resolve d e).trans h.here

/-- The arguments of a call one by one. -/
theorem converted_resolveArgs {as : List Expr} (hplain : ∀ a ∈ as, a.Everywhere Plain)
    (has : ∀ a ∈ as, (a.resolve d).value.Converted (a.resolve d).lossy) (ps : List Ty) :
    (∀ a ∈ (resolveArgs d ps as).value, a.Everywhere ConvertsWell ∧ a.lossy? = none) ∧
      lossyIn (resolveArgs d ps as).value = (resolveArgs d ps as).lossy := by
  induction as generalizing ps with
  | nil => cases ps <;> exact ⟨List.forall_mem_nil _, lossyIn_nil⟩
  | cons a as ih =>
    obtain ⟨ha, has⟩ := List.forall_mem_cons.mp has
    obtain ⟨hpa, hplain⟩ := List.forall_mem_cons.mp hplain
    have hpa := plain_resolve d hpa
    cases ps with
    -- more arguments than parameters are left as they are
    | nil =>
      obtain ⟨hall, hw⟩ := ih hplain has []
      refine ⟨List.forall_mem_cons.mpr ⟨⟨ha.everywhere, lossy?_of_plain hpa⟩, hall⟩, ?_⟩
      simp only [resolveArgs, Traced.value_bind, Traced.value_pure, Traced.lossy_bind,
        Traced.lossy_pure, add_zero]
      exact ha.lossyIn_cons hw
    | cons p ps =>
      obtain ⟨hall, hw⟩ := ih hplain has ps
      obtain ⟨hnone, hwarn⟩ := Check.lossy_argument p hpa
      have ha := (Check.argument_again p (a.resolve d).value).1.converted_of_lossy? hpa ha hnone
      refine ⟨List.forall_mem_cons.mpr ⟨⟨ha.everywhere, hnone⟩, hall⟩, ?_⟩
      simp only [resolveArgs, Traced.value_bind, Traced.value_pure, Traced.lossy_bind,
        Traced.lossy_pure, add_zero]
      rw [hwarn, zero_add]
      exact ha.lossyIn_cons hw

/-- **Resolving an expression without conversions makes those that are needed, and warns about those
that are doubtful.** -/
theorem converted_resolve (d : Declarations) {e : Expr}
    (h : e.Everywhere Plain) :
    (e.resolve d).value.Converted (e.resolve d).lossy := by
  induction e with
  | intLit i v t | strLit i s | var i n t | sizeofType i t =>
    exact .node rfl (List.forall_mem_nil _) (List.forall_mem_nil _) lossyIn_nil
  | binary i op l r ihl ihr =>
    obtain ⟨-, below⟩ := everywhere_iff.mp h
    have hl := below l (by simp [children])
    have hr := below r (by simp [children])
    obtain ⟨hbl, hbr, -⟩ :=
      Check.binary_again d.model i.span op (l.resolve d).value (r.resolve d).value
    obtain ⟨hnl, hnr, hwarn⟩ :=
      Check.lossy_binary d.model i.span op (plain_resolve d hl) (plain_resolve d hr)
    have hcl := hbl.converted_of_lossy? (plain_resolve d hl) (ihl hl) hnl
    have hcr := hbr.converted_of_lossy? (plain_resolve d hr) (ihr hr) hnr
    refine .node rfl (forall_mem_pair hnl hnr) (forall_mem_pair hcl.everywhere hcr.everywhere) ?_
    refine (hcl.lossyIn_cons hcr.lossy).trans ?_
    simp [resolve, hwarn]
  | assign i op l r ihl ihr =>
    obtain ⟨-, below⟩ := everywhere_iff.mp h
    have hl := below l (by simp [children])
    have hr := below r (by simp [children])
    have hcl := ihl hl
    obtain ⟨hbr, -⟩ := Check.assign_again i.span op (l.resolve d).value (r.resolve d).value
    have hcr := hbr.converted (plain_resolve d hr) (ihr hr)
    rw [← Check.lossy_assign i.span op _ (plain_resolve d hr)] at hcr
    refine .node rfl (List.forall_mem_singleton.mpr (lossy?_of_plain (plain_resolve d hl)))
      (forall_mem_pair hcl.everywhere hcr.everywhere) ?_
    -- the rule warns after both operands are resolved
    refine (hcl.lossyIn_cons hcr.lossy).trans ?_
    simp [resolve, add_comm]
  | cond i c a b ihc iha ihb =>
    obtain ⟨-, below⟩ := everywhere_iff.mp h
    have hc := below c (by simp [children])
    have ha := below a (by simp [children])
    have hb := below b (by simp [children])
    have hcc := ihc hc
    obtain ⟨hba, hbb, -⟩ :=
      Check.cond_again i.span (c.resolve d).value (a.resolve d).value (b.resolve d).value
    obtain ⟨hna, hnb, hwarn⟩ :=
      Check.lossy_cond i.span (c.resolve d).value (plain_resolve d ha) (plain_resolve d hb)
    have hca := hba.converted_of_lossy? (plain_resolve d ha) (iha ha) hna
    have hcb := hbb.converted_of_lossy? (plain_resolve d hb) (ihb hb) hnb
    refine .node rfl (List.forall_mem_cons.mpr ⟨lossy?_of_plain (plain_resolve d hc), ?_⟩)
      (List.forall_mem_cons.mpr ⟨hcc.everywhere, ?_⟩) ?_
    · exact forall_mem_pair hna hnb
    · exact forall_mem_pair hca.everywhere hcb.everywhere
    · refine (hcc.lossyIn_cons (hca.lossyIn_cons hcb.lossy)).trans ?_
      simp [resolve, hwarn]
  | call i f as ihf ihas =>
    obtain ⟨-, below⟩ := everywhere_iff.mp h
    have hf := below f List.mem_cons_self
    have has : ∀ a ∈ as, a.Everywhere Plain :=
      fun a ha => below a (List.mem_cons_of_mem f ha)
    have hcf := ihf hf
    obtain ⟨hall, hw⟩ := converted_resolveArgs has (fun a ha => ihas a ha (has a ha))
      (Check.call i.span (f.resolve d).value as.length).value.1
    have hwarn : (Check.call i.span (f.resolve d).value as.length).lossy = 0 :=
      Traced.lossy_of_settled (Check.settled_call ..)
    refine .node rfl (List.forall_mem_cons.mpr ⟨lossy?_of_plain (plain_resolve d hf), ?_⟩)
      (List.forall_mem_cons.mpr ⟨hcf.everywhere, ?_⟩) ?_
    · exact fun a ha => (hall a ha).2
    · exact fun a ha => (hall a ha).1
    · refine (hcf.lossyIn_cons hw).trans ?_
      simp [resolve, hwarn]
  | index i b x ihb ihx =>
    obtain ⟨-, below⟩ := everywhere_iff.mp h
    have hb := below b (by simp [children])
    have hx := below x (by simp [children])
    have hcb := ihb hb
    have hcx := ihx hx
    refine .node rfl (forall_mem_pair (lossy?_of_plain (plain_resolve d hb))
      (lossy?_of_plain (plain_resolve d hx))) (forall_mem_pair hcb.everywhere hcx.everywhere) ?_
    refine (hcb.lossyIn_cons hcx.lossy).trans ?_
    simp [resolve, Traced.lossy_of_settled, Check.settled_element, Check.settled_index]
  | unary i op e ih | step i op e ih | addressOf i e ih | deref i e ih | member i e n ih
  | arrow i e n ih | cast i t e m ih | sizeofExpr i e ih =>
    -- one operand, which stays as it is
    obtain ⟨here, below⟩ := everywhere_iff.mp h
    have he := below e List.mem_cons_self
    have hc := ih he
    refine .node ((isConversion_resolve d _).trans here)
      (List.forall_mem_singleton.mpr (lossy?_of_plain (plain_resolve d he)))
      (List.forall_mem_singleton.mpr hc.everywhere) (hc.lossy.trans ?_)
    simp [resolve, Traced.lossy_of_settled, Check.settled_unary, Check.settled_step,
      Check.settled_addressOf, Check.settled_deref, Check.settled_member, Check.settled_arrow,
      Check.settled_cast]

end Expr

end CTyping
