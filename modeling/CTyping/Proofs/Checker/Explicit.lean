import CTyping.Proofs.Checker.Statements
import CTyping.Proofs.Journal
import CTyping.Proofs.Typing.Program

/-!
# What a clean check leaves

After a check without errors nothing is left to be converted: wherever two types have to agree they
are equal, because a conversion stands in the tree where they were not. `CTyping.Expr.Explicit` says
so of one node, by its form, reading the types of its operands off their slots;
`CTyping.Program.Explicit` says it of a whole program.
-/

namespace CTyping

/-! ### Nodes and programs without hidden conversions -/

/-- What a binary operator, by its class, has for the types of its operands and of its node. -/
def OperatorClass.Explicit (m : DataModel) (l r t : Ty) : OperatorClass → Prop
  | .additive =>
    (l.isInteger = true ∧ r = l ∧ t = l) ∨ (l.isPointer = true ∧ r.isInteger = true ∧ t = l) ∨
      (l.isInteger = true ∧ r.isPointer = true ∧ t = r)
  | .multiplicative => l.isInteger = true ∧ r = l ∧ t = l
  | .shift => l.isInteger = true ∧ r.isInteger = true ∧ t = l
  | .comparison => l.isScalar = true ∧ r = l ∧ t = m.int

namespace Expr

/-- What holds at a node that needs no further conversion: the slot holds the type that the form
asks for, and so do the slots of the operands. -/
def Explicit (d : Declarations) : Expr → Prop
  | intLit i _ t => i.ty = some t
  | strLit i _ => i.ty = some (.ptr d.model.char)
  | var i _ t => i.ty = some t
  | unary i op e => Check.UnaryFits op e.type ∧ i.ty = some (Check.unaryResult d.model op e.type)
  | step i _ e => e.type.isScalar = true ∧ i.ty = some e.type
  | addressOf i e =>
    e.isLvalue = true ∧ e.type.isArray = false ∧ e.type.isFunction = false ∧
      i.ty = some (.ptr e.type)
  | deref i e => ∃ t, e.type.base? = some t ∧ i.ty = some t
  | binary i op l r =>
    ∃ t, op.operatorClass.Explicit d.model l.type r.type t ∧ i.ty = some t
  | assign i op l r =>
    l.isLvalue = true ∧ l.type.isArray = false ∧ l.type.isFunction = false ∧
      l.type.isRecord = false ∧ i.ty = some l.type ∧
      if op.movesPointer = true ∧ l.type.isPointer = true then r.type.isInteger = true
      else r.type = l.type
  | cond i c a b => c.type.isScalar = true ∧ i.ty = some a.type ∧ i.ty = some b.type
  | call i f as =>
    ∃ p, f.type.prototype? = some p ∧ p.acceptsCount as.length = true ∧
      (as.take p.params.length).map type = p.params ∧ (∀ t ∈ p.params, t.isRecord = false) ∧
      i.ty = some p.result
  | index i b x => ∃ t, b.type.base? = some t ∧ x.type.isInteger = true ∧ i.ty = some t
  | member i b n =>
    ∃ t, b.type.isRecord = true ∧ d.memberType? b.type n = some t ∧ i.ty = some t
  | arrow i b n =>
    ∃ s t, b.type = .ptr s ∧ s.isRecord = true ∧ d.memberType? s n = some t ∧ i.ty = some t
  | cast i t e _ => e.type.castable t = true ∧ i.ty = some t
  | sizeofType i _ => i.ty = some d.model.size
  | sizeofExpr i _ => i.ty = some d.model.size

end Expr

/-- An initializer has the type of its variable, which can be assigned. -/
def Variable.Explicit (d : Declarations) (v : Variable) : Prop :=
  ∀ e ∈ v.initializer, e.Everywhere (Expr.Explicit d) ∧ e.type = v.type ∧
    v.type.isAggregate = false

/-- Nothing is left to be converted in a function with a given result: conditions are scalars, and
what is returned has the type of the result. -/
def Demands.explicit (d : Declarations) (result : Ty) : Demands where
  var := Variable.Explicit d
  expr e := e.Everywhere (Expr.Explicit d)
  test e := e.Everywhere (Expr.Explicit d) ∧ e.type.isScalar = true
  returned
    | none => result.isVoid = true
    | some e => result.isVoid = false ∧ e.Everywhere (Expr.Explicit d) ∧ e.type = result

/-- **A program without hidden conversions.** -/
structure Program.Explicit (d : Declarations) (p : Program) : Prop where
  globals : ∀ v ∈ p.globals, v.Explicit d
  signatures : ∀ f ∈ p.functions, f.Sound
  bodies : ∀ f ∈ p.functions, f.body.Meets (.explicit d f.result)

/-! ### Expressions -/

namespace Expr

variable {d : Declarations}

/-- A conversion that can be made leaves nothing to be converted. -/
theorem Brought.explicit {e e' : Expr} (h : e.Brought e') (he : e.Everywhere (Explicit d)) :
    e'.Everywhere (Explicit d) :=
  h.everywhere (fun _ _ _ hc => ⟨hc, rfl⟩) he

/-- The arguments of a call that is accepted: each of them is explicit, and those for which there is
a parameter have its type. -/
theorem explicit_args {as : List Expr}
    (has : ∀ a ∈ as, (a.resolve d).clean = true → (a.resolve d).value.Everywhere (Explicit d))
    {ps : List Ty} (hps : ps.length ≤ as.length) (h : (resolveArgs d ps as).clean = true) :
    (∀ a ∈ (resolveArgs d ps as).value, a.Everywhere (Explicit d)) ∧
      ((resolveArgs d ps as).value.take ps.length).map type = ps ∧
      ∀ t ∈ ps, t.isRecord = false := by
  induction as generalizing ps with
  | nil =>
    obtain rfl : ps = [] := List.length_eq_zero_iff.mp (Nat.le_zero.mp hps)
    simp [resolveArgs]
  | cons a as ih =>
    have iha := has a List.mem_cons_self
    have ihas := @ih fun x hx => has x (List.mem_cons_of_mem a hx)
    cases ps with
    | nil =>
      -- no parameter is left: the argument is taken as it is
      simp only [resolveArgs, Traced.clean_bind, Bool.and_eq_true] at h
      obtain ⟨ha, hrest, -⟩ := h
      obtain ⟨hall, -, -⟩ := ihas (Nat.zero_le _) hrest
      refine ⟨?_, rfl, by simp⟩
      simpa [resolveArgs] using ⟨iha ha, hall⟩
    | cons p ps =>
      simp only [resolveArgs, Traced.clean_bind, Bool.and_eq_true] at h
      obtain ⟨ha, hp, hrest, -⟩ := h
      obtain ⟨hall, htypes, hrec⟩ := ihas (Nat.le_of_succ_le_succ hps) hrest
      rcases Check.argument_cases p (a.resolve d).value with ⟨hr, ht, hx⟩ | hn
      · have hv : (resolveArgs d (p :: ps) (a :: as)).value =
            (a.resolve d).value.adapt p :: (resolveArgs d ps as).value := by
          simp [resolveArgs, hx]
        have hc := Ty.castable_of_eq_or_compatible ht
        have hpr : p.isRecord = false := Ty.isRecord_of_eq_or_compatible ht hr
        rw [hv]
        refine ⟨?_, ?_, ?_⟩
        · simpa using ⟨(Brought.adapt hc).explicit (iha ha), hall⟩
        · simp [htypes]
        · simpa using ⟨hpr, hrec⟩
      · exact absurd hp hn.not_clean

section Forms

variable {i : Info} {l r : Expr}

/-- A binary operator that is accepted leaves operands of the types that its class asks for. -/
theorem explicit_binary {op : BinaryOp} (hl : l.Everywhere (Explicit d))
    (hr : r.Everywhere (Explicit d)) {x : Traced (Expr × Expr × Ty)}
    (hx : Check.BinaryOutcome d.model op l r x) (h : x.clean = true) :
    Everywhere (Explicit d) (.binary (i.typed x.value.2.2) op x.value.1 x.value.2.1) := by
  -- the operands are brought to one type, or they stay as they are
  have hjoin : ∀ {u t : Ty}, Ty.join l.type r.type = some u →
      op.operatorClass.Explicit d.model u u t →
      Everywhere (Explicit d) (.binary (i.typed t) op (l.adapt u) (r.adapt u)) := by
    intro u t hu ht
    obtain ⟨hlu, hru⟩ := Brought.join hu
    exact .node _ ⟨t, by simpa using ht, rfl⟩ (forall_mem_pair (hlu.explicit hl) (hru.explicit hr))
  have hkept : ∀ {t : Ty}, op.operatorClass.Explicit d.model l.type r.type t →
      Everywhere (Explicit d) (.binary (i.typed t) op l r) :=
    fun ht => .node _ ⟨_, ht, rfl⟩ (forall_mem_pair hl hr)
  cases hx with
  | @arithmetic u hop hil hir hu =>
    have hi : u.isInteger = true := Ty.of_join (P := (·.isInteger = true)) hu hil hir
    rw [Check.value_bring]
    refine hjoin hu ?_
    rcases hop with hop | hop
    · rw [hop]
      exact Or.inl ⟨hi, rfl, rfl⟩
    · rw [hop]
      exact ⟨hi, rfl, rfl⟩
  | pointerLeft hop hp hi => exact hkept (hop ▸ Or.inr (Or.inl ⟨hp, hi, rfl⟩))
  | pointerRight hop hi hp => exact hkept (hop ▸ Or.inr (Or.inr ⟨hi, hp, rfl⟩))
  | shift hop hil hir => exact hkept (hop ▸ ⟨hil, hir, rfl⟩)
  | @comparison u hop hsl hsr hu =>
    have hs : u.isScalar = true := Ty.of_join (P := (·.isScalar = true)) hu hsl hsr
    rw [Check.value_bring]
    exact hjoin hu (hop ▸ ⟨hs, rfl, rfl⟩)
  | refused hn => exact absurd h hn.not_clean

/-- An assignment that is accepted leaves a right side that has the type of the left one. -/
theorem explicit_assign {op : AssignOp} {s : Span} (hl : l.Everywhere (Explicit d))
    (hr : r.Everywhere (Explicit d)) {x : Traced (Expr × Ty)}
    (hx : Check.AssignOutcome s op l r x) (h : x.clean = true) :
    Everywhere (Explicit d) (.assign (i.typed x.value.2) op l x.value.1) := by
  cases hx with
  | moved ha hm hp hi =>
    obtain ⟨hlv, harr, hfun⟩ := isAssignable_iff.mp ha
    -- what moves is a pointer, so there is no record on the left
    have hrec : l.type.isRecord = false := by
      rw [← Ty.isAggregate_eq_isRecord harr]
      exact Ty.isAggregate_of_isPointer hp
    refine .node _ ⟨hlv, harr, hfun, hrec, rfl, ?_⟩ (forall_mem_pair hl hr)
    rw [if_pos ⟨hm, hp⟩]
    exact hi
  | stored ha hagg hm hc =>
    obtain ⟨hlv, harr, hfun⟩ := isAssignable_iff.mp ha
    rw [Ty.isAggregate_eq_isRecord harr] at hagg
    rw [Traced.value_map, Check.value_put]
    -- the right side is brought to the type of the left one
    have hr := (Brought.adapt hc).explicit hr
    refine .node _ ⟨hlv, harr, hfun, hagg, rfl, ?_⟩ (forall_mem_pair hl hr)
    rw [if_neg hm, type_adapt]
  | refused hn => exact absurd h hn.not_clean

/-- A conditional that is accepted leaves two branches of one type. -/
theorem explicit_cond {c a b : Expr} (hc : c.Everywhere (Explicit d))
    (ha : a.Everywhere (Explicit d)) (hb : b.Everywhere (Explicit d))
    (h : (Check.cond i.span c a b).clean = true) :
    Everywhere (Explicit d) (.cond (i.typed (Check.cond i.span c a b).value.2.2) c
      (Check.cond i.span c a b).value.1 (Check.cond i.span c a b).value.2.1) := by
  rcases Check.cond_cases i.span c a b with ⟨u, hu, hx⟩ | ⟨-, hx⟩
  · have hs : c.type.isScalar = true := by simpa [hx] using h
    have hv : (Check.cond i.span c a b).value = (a.adapt u, b.adapt u, u) := by simp [hx]
    obtain ⟨hbu, hau⟩ := Brought.join hu
    have hab := forall_mem_pair (hau.explicit ha) (hbu.explicit hb)
    rw [hv]
    refine .node _ ⟨hs, ?_, ?_⟩ (List.forall_mem_cons.mpr ⟨hc, hab⟩)
    · rw [type_adapt, Info.typed]
    · rw [type_adapt, Info.typed]
  · exact absurd h hx.not_clean

/-- A call that is accepted leaves arguments of the types of the parameters. -/
theorem explicit_call {f : Expr} {as : List Expr} (hf : f.Everywhere (Explicit d))
    (has : ∀ a ∈ as, (a.resolve d).clean = true → (a.resolve d).value.Everywhere (Explicit d))
    (h : (Check.call i.span f as.length).clean = true)
    (hargs : (resolveArgs d (Check.call i.span f as.length).value.1 as).clean = true) :
    Everywhere (Explicit d) (.call (i.typed (Check.call i.span f as.length).value.2) f
      (resolveArgs d (Check.call i.span f as.length).value.1 as).value) := by
  rcases Check.call_cases i.span f as.length with ⟨p, hp, hn, hx⟩ | hx
  · rw [hx, Traced.value_pure] at hargs ⊢
    have hle := Ty.Prototype.length_le_of_acceptsCount hn
    obtain ⟨hall, htypes, hrec⟩ := explicit_args has hle hargs
    refine .node _ ⟨p, hp, ?_, htypes, hrec, rfl⟩ (List.forall_mem_cons.mpr ⟨hf, hall⟩)
    rw [length_resolveArgs]
    exact hn
  · exact absurd h hx.not_clean

end Forms

/-- **An expression resolved without an error hides no conversion, at any of its nodes.** -/
theorem explicit_of_clean {e : Expr} (h : (e.resolve d).clean = true) :
    (e.resolve d).value.Everywhere (Explicit d) := by
  -- in each form the operands are explicit by induction, the rule of the form was not refused, and
  -- what it puts around the operands are conversions that can be made
  induction e with
  | intLit i v t => exact .node _ rfl (List.forall_mem_nil _)
  | strLit i s => exact .node _ rfl (List.forall_mem_nil _)
  | var i n t => exact .node _ rfl (List.forall_mem_nil _)
  | unary i op e ih =>
    simp only [resolve, Traced.clean_bind, Bool.and_eq_true] at h
    obtain ⟨he, hc, -⟩ := h
    change Everywhere _ (.unary (i.typed (Check.unary d.model op (e.resolve d).value).value) op _)
    rcases Check.unary_cases d.model op (e.resolve d).value with ⟨hf, hx⟩ | ⟨-, hx⟩
    · rw [hx]
      exact .node _ ⟨hf, rfl⟩ (List.forall_mem_singleton.mpr (ih he))
    · exact absurd hc hx.not_clean
  | step i op e ih =>
    simp only [resolve, Traced.clean_bind, Bool.and_eq_true] at h
    obtain ⟨he, hc, -⟩ := h
    change Everywhere _ (.step (i.typed (Check.step (e.resolve d).value).value) op _)
    rcases Check.step_cases (e.resolve d).value with ⟨ht, hx⟩ | ⟨-, hx⟩
    · rw [hx]
      exact .node _ ⟨ht, rfl⟩ (List.forall_mem_singleton.mpr (ih he))
    · exact absurd hc hx.not_clean
  | addressOf i e ih =>
    simp only [resolve, Traced.clean_bind, Bool.and_eq_true] at h
    obtain ⟨he, hc, -⟩ := h
    change Everywhere _ (.addressOf (i.typed (Check.addressOf i.span (e.resolve d).value).value) _)
    rcases Check.addressOf_cases i.span (e.resolve d).value with ⟨ha, hx⟩ | ⟨-, hx⟩
    · rw [hx]
      obtain ⟨hl, harr, hfun⟩ := isAssignable_iff.mp ha
      exact .node _ ⟨hl, harr, hfun, rfl⟩ (List.forall_mem_singleton.mpr (ih he))
    · exact absurd hc hx.not_clean
  | deref i e ih =>
    simp only [resolve, Traced.clean_bind, Bool.and_eq_true] at h
    obtain ⟨he, hc, -⟩ := h
    change Everywhere _ (.deref (i.typed (Check.deref i.span (e.resolve d).value).value) _)
    rcases Check.deref_cases i.span (e.resolve d).value with ⟨t, ht, hx⟩ | ⟨-, hx⟩
    · rw [hx]
      exact .node _ ⟨t, ht, rfl⟩ (List.forall_mem_singleton.mpr (ih he))
    · exact absurd hc hx.not_clean
  | binary i op l r ihl ihr =>
    simp only [resolve, Traced.clean_bind, Bool.and_eq_true] at h
    obtain ⟨hl, hr, hc, -⟩ := h
    exact explicit_binary (ihl hl) (ihr hr) (Check.binary_outcome d.model i.span op _ _) hc
  | assign i op l r ihl ihr =>
    simp only [resolve, Traced.clean_bind, Bool.and_eq_true] at h
    obtain ⟨hl, hr, hc, -⟩ := h
    exact explicit_assign (ihl hl) (ihr hr) (Check.assign_outcome i.span op _ _) hc
  | cond i c a b ihc iha ihb =>
    simp only [resolve, Traced.clean_bind, Bool.and_eq_true] at h
    obtain ⟨hcc, ha, hb, hc, -⟩ := h
    exact explicit_cond (ihc hcc) (iha ha) (ihb hb) hc
  | call i f as ihf ihas =>
    simp only [resolve, Traced.clean_bind, Bool.and_eq_true] at h
    obtain ⟨hf, hc, has, -⟩ := h
    exact explicit_call (ihf hf) ihas hc has
  | index i b x ihb ihx =>
    simp only [resolve, Traced.clean_bind, Bool.and_eq_true] at h
    obtain ⟨hb, he, hx, hc, -⟩ := h
    change Everywhere _ (.index (i.typed
      (Check.index (Check.element i.span (b.resolve d).value).value (x.resolve d).value).value) _ _)
    rcases Check.element_cases i.span (b.resolve d).value with ⟨t, ht, hy⟩ | ⟨-, hy⟩
    · rw [hy, Traced.value_pure] at hc ⊢
      rcases Check.index_cases t (x.resolve d).value with ⟨hi, hz⟩ | ⟨-, hz⟩
      · rw [hz]
        exact .node _ ⟨t, ht, hi, rfl⟩ (forall_mem_pair (ihb hb) (ihx hx))
      · exact absurd hc hz.not_clean
    · exact absurd he hy.not_clean
  | member i b n ih =>
    simp only [resolve, Traced.clean_bind, Bool.and_eq_true] at h
    obtain ⟨hb, hc, -⟩ := h
    change Everywhere _
      (.member (i.typed (Check.member d i.span (b.resolve d).value.type n).value) _ _)
    rcases Check.member_cases d i.span (b.resolve d).value.type n with ⟨m, hr, hm, hx⟩ | ⟨-, hx⟩
    · rw [hx]
      exact .node _ ⟨m, hr, hm, rfl⟩ (List.forall_mem_singleton.mpr (ih hb))
    · exact absurd hc hx.not_clean
  | arrow i b n ih =>
    simp only [resolve, Traced.clean_bind, Bool.and_eq_true] at h
    obtain ⟨hb, hc, -⟩ := h
    change Everywhere _
      (.arrow (i.typed (Check.arrow d i.span (b.resolve d).value.type n).value) _ _)
    rcases Check.arrow_cases d i.span (b.resolve d).value.type n with
      ⟨t, m, ht, hr, hm, hx⟩ | ⟨-, hx⟩
    · rw [hx]
      exact .node _ ⟨t, m, ht, hr, hm, rfl⟩ (List.forall_mem_singleton.mpr (ih hb))
    · exact absurd hc hx.not_clean
  | cast i t e m ih =>
    simp only [resolve, Traced.clean_bind, Bool.and_eq_true] at h
    obtain ⟨he, hc, -⟩ := h
    change Everywhere _ (.cast (i.typed (Check.cast i.span t (e.resolve d).value m).value) _ _ _)
    rcases Check.cast_cases i.span t (e.resolve d).value m with ⟨hs, hx⟩ | ⟨-, hx⟩
    · rw [hx]
      exact .node _ ⟨hs, rfl⟩ (List.forall_mem_singleton.mpr (ih he))
    · exact absurd hc hx.not_clean
  | sizeofType i t => exact .node _ rfl (List.forall_mem_nil _)
  | sizeofExpr i e ih =>
    simp only [resolve, Traced.clean_bind, Bool.and_eq_true] at h
    exact .node _ rfl (List.forall_mem_singleton.mpr (ih h.1))

end Expr

/-! ### Statements and programs -/

variable {d : Declarations} {result : Ty}

/-- A variable that is accepted is left with an initializer of its own type. -/
theorem Variable.explicit_of_clean {v : Variable} (h : (v.check d).clean = true) :
    (v.check d).value.Explicit d := by
  cases hi : v.initializer with
  | none =>
    rw [Variable.check_none hi]
    intro e he
    rw [Traced.value_pure, hi] at he
    cases he
  | some e =>
    rw [Variable.check_some hi] at h ⊢
    simp only [Traced.clean_bind, Bool.and_eq_true] at h
    rcases Check.initial_cases v (e.resolve d).value with ⟨ha, hc, hx⟩ | ⟨-, hx⟩
    · have hv : (e.resolve d >>= Check.initial v).value =
          { v with initializer := some ((e.resolve d).value.adapt v.type) } := by simp [hx]
      rw [hv]
      rintro _ ⟨⟩
      exact ⟨(Expr.Brought.adapt hc).explicit (Expr.explicit_of_clean h.1), Expr.type_adapt .., ha⟩
    · exact absurd h.2 hx.not_clean

/-- What is left of an accepted return has the type of the result. -/
theorem Demands.explicit_returned {s : Span} {e : Option Expr}
    (h : (Demands.accepted d result).returned e) :
    (Demands.explicit d result).returned
      (Check.returned s result (Expr.resolve? d e).value).value := by
  cases e with
  | none =>
    rcases Check.returned_none_cases s result with ⟨hv, hx⟩ | ⟨hv, hx⟩
    · have hr : (Check.returned s result (Expr.resolve? d none).value).value = none := by
        simp [Expr.resolve?, hx]
      rw [hr]
      exact hv
    · rw [show result.isVoid = true from h] at hv
      cases hv
  | some e =>
    obtain ⟨hv, he, ht⟩ := h
    have hx := Check.returned_some_of (s := s) hv ht
    have hr : (Check.returned s result (Expr.resolve? d (some e)).value).value =
        some ((e.resolve d).value.adapt result) := by simp [Expr.resolve?, hx]
    rw [hr]
    have hb := Expr.Brought.adapt (Ty.castable_of_eq_or_compatible ht)
    exact ⟨hv, hb.explicit (Expr.explicit_of_clean he), Expr.type_adapt ..⟩

/-- **A body checked without an error hides no conversion.** -/
theorem Block.explicit_of_clean {b : Block} (h : (b.check d result).clean = true) :
    (b.check d result).value.Meets (.explicit d result) := by
  have hm := Block.clean_check_iff.mp h
  refine hm.check (fun _ => Variable.explicit_of_clean) (fun _ => Expr.explicit_of_clean) ?_
    fun _ _ => Demands.explicit_returned
  exact fun _ h => ⟨Expr.explicit_of_clean h.1, h.2⟩

/-- **A program checked without an error hides no conversion.** -/
theorem Program.explicit_of_clean {p : Program} (h : (p.check d).clean = true) :
    (p.check d).value.Explicit d := by
  obtain ⟨hglobals, hfunctions⟩ := (Program.clean_check p).mp h
  rw [Program.value_check]
  refine ⟨?_, ?_, ?_⟩
  · simpa using fun v hm => Variable.explicit_of_clean (hglobals v hm)
  · refine List.forall_mem_map.mpr fun f hm => ?_
    obtain ⟨hr, hp⟩ := (Function.clean_check_iff.mp (hfunctions f hm)).signature
    exact ⟨hr, hp⟩
  · refine List.forall_mem_map.mpr fun f hm => ?_
    exact Block.explicit_of_clean ((Function.clean_check f).mp (hfunctions f hm)).2

/-- **A pass that records no error leaves nothing to be converted.** Every slot of the program that
it leaves is filled, and wherever two types have to agree they are equal. -/
theorem explicit_pass {d : Declarations} {p : Program} {j : Journal}
    (h : (p.pass d j).journal.errors = j.errors) : (p.pass d j).program.Explicit d :=
  Program.explicit_of_clean (Program.errors_pass_iff.mp h)

/-- A function that puts an `int` into its parameter, a `char`, and returns as a `long` whether that
is below a `long`. This takes three conversions, of which the first may lose bits. -/
def narrowing : Program :=
  let char := DataModel.lp64.char
  let long := DataModel.lp64.integer .long true
  let c : Expr := .var .blank "c" char
  { records := []
    globals := []
    functions := [{
      name := "f", isPrivate := false, result := long, params := [⟨"c", char, .unknown⟩]
      variadic := false, span := .unknown
      body := ⟨[], [
        .expr .unknown (.assign .blank .assign c (.intLit .blank 300 DataModel.lp64.int)),
        .returns .unknown (some (.binary .blank .less c (.intLit .blank 1 long)))]⟩ }] }

/-- What is left of `narrowing`: the number is converted to the type of the parameter, the parameter
to the type that it is compared with, and the comparison to the type of the result. -/
theorem explicit_pass_narrowing :
    let left := narrowing.pass (.empty .lp64) .empty
    let char := DataModel.lp64.char
    let int := DataModel.lp64.int
    let long := DataModel.lp64.integer .long true
    let c : Expr := .var ⟨.unknown, some char⟩ "c" char
    let number : Expr := .intLit ⟨.unknown, some int⟩ 300 int
    let one : Expr := .intLit ⟨.unknown, some long⟩ 1 long
    let below : Expr := .binary ⟨.unknown, some int⟩ .less (c.convert long) one
    left.journal.errors = Journal.empty.errors ∧ left.program.Explicit (.empty .lp64) ∧
      left.program.functions.map (·.body) = [⟨[], [
        .expr .unknown (.assign ⟨.unknown, some char⟩ .assign c (number.convert char)),
        .returns .unknown (some (below.convert long))]⟩] := by
  intro left char int long c number one below
  have herrors : left.journal.errors = Journal.empty.errors := by decide
  exact ⟨herrors, explicit_pass herrors, rfl⟩

end CTyping
