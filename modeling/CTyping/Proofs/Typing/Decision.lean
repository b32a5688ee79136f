import CTyping.Proofs.Checker.Explicit
import CTyping.Proofs.Tree.Nodes
import CTyping.Proofs.Typing.Program

/-!
# The checker decides the type system

The checker and the type system (`CTyping.HasType` and what is built on it) agree. A program is
checked without an error exactly when it is well typed; every node of the program that is left then
has the type in its slot and no other; and the type that an expression has is the one that the
checker puts into its slot.
-/

namespace CTyping

variable {d : Declarations}

/-! ### Types in slots -/

namespace Expr

/-- The type of a node is the one in its slot. -/
theorem type_of_slot {e : Expr} {t : Ty} (h : e.ty? = some t) : e.type = t := by
  rw [type, h, Option.getD_some]

/-- Arguments that have the types of their parameters can be handed over. -/
theorem argsFit_of_types {as : List Expr} (has : ∀ a ∈ as, HasType d a a.type) {ps : List Ty}
    (hps : (as.take ps.length).map type = ps) (hrec : ∀ t ∈ ps, t.isRecord = false) :
    ArgsFit d ps as := by
  induction as generalizing ps with
  | nil => exact .nil
  | cons a as ih =>
    obtain ⟨ha, has⟩ := List.forall_mem_cons.mp has
    cases ps with
    | nil => exact .extra ha (ih has rfl (List.forall_mem_nil _))
    | cons p ps =>
      obtain ⟨hp, hps⟩ := List.cons.inj hps
      obtain ⟨hr, hrec⟩ := List.forall_mem_cons.mp hrec
      exact .param ha (hp ▸ hr) (Or.inl hp) (ih has hps hrec)

/-- A binary node whose operands need no further conversion has the type of its class. -/
theorem hasType_binary {i : Info} {op : BinaryOp} {l r : Expr} {t : Ty} (hl : HasType d l l.type)
    (hr : HasType d r r.type) (h : op.operatorClass.Explicit d.model l.type r.type t) :
    HasType d (.binary i op l r) t := by
  cases hop : op.operatorClass with
  | additive =>
    rw [hop] at h
    rcases h with ⟨hi, he, rfl⟩ | ⟨hp, hi, rfl⟩ | ⟨hi, hp, rfl⟩
    · exact .arithmetic (Or.inl hop) hl hr hi (he ▸ hi) (he ▸ Ty.join_self _)
    · exact .pointerLeft hop hl hr hp hi
    · exact .pointerRight hop hl hr hi hp
  | multiplicative =>
    rw [hop] at h
    obtain ⟨hi, he, rfl⟩ := h
    exact .arithmetic (Or.inr hop) hl hr hi (he ▸ hi) (he ▸ Ty.join_self _)
  | shift =>
    rw [hop] at h
    obtain ⟨hil, hir, rfl⟩ := h
    exact .shift hop hl hr hil hir
  | comparison =>
    rw [hop] at h
    obtain ⟨hs, he, rfl⟩ := h
    exact .comparison hop hl hr hs (he ▸ hs) (Or.inl he.symm)

/-- **A tree without hidden conversions is well typed, by the types in its slots.** -/
theorem Everywhere.hasType {e : Expr} (h : e.Everywhere (Explicit d)) : HasType d e e.type := by
  induction e with
  | intLit i v t =>
    rw [type_of_slot (e := .intLit i v t) h.here]
    exact .intLit
  | strLit i s =>
    rw [type_of_slot (e := .strLit i s) h.here]
    exact .strLit
  | var i n t =>
    rw [type_of_slot (e := .var i n t) h.here]
    exact .var
  | unary i op e ih =>
    obtain ⟨⟨hf, hs⟩, below⟩ := everywhere_iff.mp h
    have he := ih (below e List.mem_cons_self)
    rw [type_of_slot (e := .unary i op e) hs]
    cases op with
    | logicalNot => exact .not he hf
    | _ => exact .arith (by simp) he hf
  | step i op e ih =>
    obtain ⟨⟨ht, hs⟩, below⟩ := everywhere_iff.mp h
    rw [type_of_slot (e := .step i op e) hs]
    exact .step (ih (below e List.mem_cons_self)) ht
  | addressOf i e ih =>
    obtain ⟨⟨hl, ha, hf, hs⟩, below⟩ := everywhere_iff.mp h
    rw [type_of_slot (e := .addressOf i e) hs]
    exact .addressOf (ih (below e List.mem_cons_self)) hl ha hf
  | deref i e ih =>
    obtain ⟨⟨t, ht, hs⟩, below⟩ := everywhere_iff.mp h
    rw [type_of_slot (e := .deref i e) hs]
    exact .deref (ih (below e List.mem_cons_self)) ht
  | binary i op l r ihl ihr =>
    obtain ⟨⟨t, ht, hs⟩, below⟩ := everywhere_iff.mp h
    obtain ⟨hl, hr⟩ := List.forall_mem_cons.mp below
    rw [type_of_slot (e := .binary i op l r) hs]
    exact hasType_binary (ihl hl) (ihr (List.forall_mem_singleton.mp hr)) ht
  | assign i op l r ihl ihr =>
    obtain ⟨⟨hlv, ha, hf, hrec, hs, ht⟩, below⟩ := everywhere_iff.mp h
    obtain ⟨hl, hr⟩ := List.forall_mem_cons.mp below
    have hr := ihr (List.forall_mem_singleton.mp hr)
    rw [type_of_slot (e := .assign i op l r) hs]
    by_cases hm : op.movesPointer = true ∧ l.type.isPointer = true
    · rw [if_pos hm] at ht
      exact .move hm.1 (ihl hl) hr hlv hm.2 ht
    · rw [if_neg hm] at ht
      exact .assign hm (ihl hl) hr hlv ha hf hrec (ht ▸ Ty.castable_self _)
  | cond i c a b ihc iha ihb =>
    obtain ⟨⟨hs, hsa, hsb⟩, below⟩ := everywhere_iff.mp h
    obtain ⟨hc, hab⟩ := List.forall_mem_cons.mp below
    obtain ⟨ha, hb⟩ := List.forall_mem_cons.mp hab
    have hb := ihb (List.forall_mem_singleton.mp hb)
    -- both branches have the type in the slot, so each has the type of the other
    have he : a.type = b.type := Option.some.inj (hsa.symm.trans hsb)
    rw [type_of_slot (e := .cond i c a b) hsb]
    exact .cond (ihc hc) hs (iha ha) hb (he ▸ Ty.join_self _)
  | call i f as ihf ihas =>
    obtain ⟨⟨p, hp, hn, htypes, hrec, hs⟩, below⟩ := everywhere_iff.mp h
    obtain ⟨hf, has⟩ := List.forall_mem_cons.mp below
    rw [type_of_slot (e := .call i f as) hs]
    exact .call (ihf hf) hp hn (argsFit_of_types (fun a ha => ihas a ha (has a ha)) htypes hrec)
  | index i b x ihb ihx =>
    obtain ⟨⟨t, ht, hi, hs⟩, below⟩ := everywhere_iff.mp h
    obtain ⟨hb, hx⟩ := List.forall_mem_cons.mp below
    rw [type_of_slot (e := .index i b x) hs]
    exact .index (ihb hb) ht (ihx (List.forall_mem_singleton.mp hx)) hi
  | member i b n ih =>
    obtain ⟨⟨t, hr, ht, hs⟩, below⟩ := everywhere_iff.mp h
    rw [type_of_slot (e := .member i b n) hs]
    exact .member (ih (below b List.mem_cons_self)) hr ht
  | arrow i b n ih =>
    obtain ⟨⟨s, t, hb, hr, ht, hs⟩, below⟩ := everywhere_iff.mp h
    rw [type_of_slot (e := .arrow i b n) hs]
    exact .arrow (hb ▸ ih (below b List.mem_cons_self)) hr ht
  | cast i t e m ih =>
    obtain ⟨⟨hc, hs⟩, below⟩ := everywhere_iff.mp h
    rw [type_of_slot (e := .cast i t e m) hs]
    exact .cast (ih (below e List.mem_cons_self)) hc
  | sizeofType i t =>
    rw [type_of_slot (e := .sizeofType i t) h.here]
    exact .sizeofType
  | sizeofExpr i e ih =>
    obtain ⟨hs, below⟩ := everywhere_iff.mp h
    rw [type_of_slot (e := .sizeofExpr i e) hs]
    exact .sizeofExpr (ih (below e List.mem_cons_self))

/-- A node that needs no further conversion has its type in its slot. -/
theorem Explicit.isSome_ty? {e : Expr} (h : e.Explicit d) : e.ty?.isSome = true := by
  -- every form says what its slot holds, with what it asks of the operands before or after
  suffices hslot : ∃ t, e.ty? = some t from Option.isSome_iff_exists.mpr hslot
  cases e with
  | intLit | strLit | var | sizeofType | sizeofExpr => exact ⟨_, h⟩
  | unary | step | cast => exact ⟨_, h.2⟩
  | addressOf =>
    obtain ⟨-, -, -, hty⟩ := h
    exact ⟨_, hty⟩
  | deref | binary =>
    obtain ⟨t, -, hty⟩ := h
    exact ⟨t, hty⟩
  | assign =>
    obtain ⟨-, -, -, -, hty, -⟩ := h
    exact ⟨_, hty⟩
  | cond =>
    obtain ⟨-, hty, -⟩ := h
    exact ⟨_, hty⟩
  | call =>
    obtain ⟨p, -, -, -, -, hty⟩ := h
    exact ⟨_, hty⟩
  | index | member =>
    obtain ⟨t, -, -, hty⟩ := h
    exact ⟨t, hty⟩
  | arrow =>
    obtain ⟨s, t, -, -, -, hty⟩ := h
    exact ⟨t, hty⟩

/-- At every node of a tree without hidden conversions the slot holds the type that the node has. -/
theorem Everywhere.hasType_iff_slot {e : Expr} (h : e.Everywhere (Explicit d)) :
    e.Everywhere fun n => ∀ t, HasType d n t ↔ n.ty? = some t := by
  induction h with
  | node e here below ih =>
    refine .node e (fun t => ?_) ih
    -- the type in the slot is one that the node has, and it has no other
    have he : HasType d e e.type := Everywhere.hasType (.node e here below)
    obtain ⟨s, hs⟩ := Option.isSome_iff_exists.mp here.isSome_ty?
    rw [type_of_slot hs] at he
    rw [hs, Option.some.injEq]
    constructor
    · exact he.unique
    · rintro rfl
      exact he

end Expr

/-! ### The checker and the type system -/

/-- The slots of a program that was checked without an error. -/
theorem Program.hasType_iff_slot {p : Program} (h : (p.check d).clean = true) :
    ∀ e ∈ (p.check d).value.expressions, ∀ t, HasType d e t ↔ e.ty? = some t := by
  rw [forall_mem_expressions_iff]
  obtain ⟨hglobals, -, hbodies⟩ := Program.explicit_of_clean h
  refine ⟨fun v hv e he => (hglobals v hv e he).1.hasType_iff_slot, fun f hf => ?_⟩
  refine (hbodies f hf).imp ?_ ?_ ?_ ?_
  · exact fun v hv e he => (hv e he).1.hasType_iff_slot
  · exact fun e he => he.hasType_iff_slot
  · exact fun e he => he.1.hasType_iff_slot
  · rintro (_ | e) he x hx
    · cases hx
    · cases hx
      exact he.2.1.hasType_iff_slot

/-- **The checker decides the type system.** Whatever declarations and whatever journal it is given,
a pass over a program records no error exactly when the program is well typed. Each node of the
program that it leaves then has the type in its slot, and no other. And an expression has a type
exactly when it is resolved without an error and gets that type in its slot. -/
theorem check_decides_typing (d : Declarations) :
    (∀ (p : Program) (j : Journal), (p.pass d j).journal.errors = j.errors ↔ p.WellTyped d) ∧
      (∀ (p : Program) (j : Journal), p.WellTyped d →
        ∀ e ∈ (p.pass d j).program.expressions, ∀ t, HasType d e t ↔ e.ty? = some t) ∧
      ∀ (e : Expr) (t : Ty), HasType d e t ↔
        (∀ x ∈ (e.resolve d).diagnostics, x.isError = false) ∧
          (e.resolve d).value.ty? = some t := by
  refine ⟨fun p j => Program.errors_pass_iff.trans Program.clean_check_iff, fun p j hp => ?_,
    fun e t => ?_⟩
  · exact Program.hasType_iff_slot (Program.clean_check_iff.mpr hp)
  · rw [hasType_iff, Traced.clean_iff, Expr.ty?_resolve, Option.some.injEq]

theorem check_decides_typing_narrowing :
    narrowing.WellTyped (.empty .lp64) ∧
      ∀ e ∈ (narrowing.pass (.empty .lp64) .empty).program.expressions, ∀ t,
        HasType (.empty .lp64) e t ↔ e.ty? = some t := by
  obtain ⟨hiff, hslots, -⟩ := check_decides_typing (.empty .lp64)
  have h : narrowing.WellTyped (.empty .lp64) := (hiff narrowing .empty).mp (by decide)
  exact ⟨h, hslots narrowing .empty h⟩

end CTyping
