import CTyping.Analysis
import CTyping.Proofs.Checker.Again
import CTyping.Proofs.Checker.Explicit
import CTyping.Proofs.Tree.Erasure

/-!
# Checking adds types and conversions only

Whatever the checker does to a tree, it can be undone by taking conversions out and emptying slots
(`CTyping.Expr.bare`): what is left is what was there before. And each conversion that the checker
makes stands at the place of its operand.
-/

namespace CTyping

variable {d : Declarations}

/-! ### Expressions -/

namespace Expr

/-- An expression as it is written: no conversions, and no types in slots. -/
def bare (e : Expr) : Expr := e.unconvert.untyped

/-- A conversion that is added is taken away by erasure. -/
theorem bare_adapt (t : Ty) (e : Expr) : (e.adapt t).bare = e.bare := by
  by_cases h : e.type = t
  · rw [adapt_of_eq h]
  · rw [adapt_of_ne h]
    rfl

/-- Bringing an operand to a type does not change what it is without conversions. -/
theorem Brought.bare {e e' : Expr} (h : e.Brought e') : e'.bare = e.bare := by
  obtain ⟨t, -, rfl⟩ := h
  exact bare_adapt t e

/-- Arguments stay the same but for conversions if each of them does. -/
theorem bare_resolveArgs {as : List Expr} (has : ∀ a ∈ as, (a.resolve d).value.bare = a.bare)
    (ps : List Ty) : (resolveArgs d ps as).value.map bare = as.map bare := by
  induction as generalizing ps with
  | nil => cases ps <;> rfl
  | cons a as ih =>
    have iha := has a List.mem_cons_self
    have ihas := ih fun x hx => has x (List.mem_cons_of_mem a hx)
    cases ps with
    | nil => simp [resolveArgs, iha, ihas]
    | cons p ps =>
      obtain ⟨ha, -⟩ := Check.argument_again p (a.resolve d).value
      simp [resolveArgs, ha.bare, iha, ihas]

/-- **Resolving an expression does not change what is written.** -/
theorem bare_resolve (d : Declarations) (e : Expr) : (e.resolve d).value.bare = e.bare := by
  induction e with
  | intLit i v t => rfl
  | strLit i s => rfl
  | var i n t => rfl
  | unary i op e ih => exact congrArg (unary i.untyped op) ih
  | step i op e ih => exact congrArg (step i.untyped op) ih
  | addressOf i e ih => exact congrArg (addressOf i.untyped) ih
  | deref i e ih => exact congrArg (deref i.untyped) ih
  | binary i op l r ihl ihr =>
    obtain ⟨hl, hr, -⟩ :=
      Check.binary_again d.model i.span op (l.resolve d).value (r.resolve d).value
    have h := congr (congrArg (binary i.untyped op) (hl.bare.trans ihl)) (hr.bare.trans ihr)
    exact h
  | assign i op l r ihl ihr =>
    obtain ⟨hr, -⟩ := Check.assign_again i.span op (l.resolve d).value (r.resolve d).value
    have h := congr (congrArg (assign i.untyped op) ihl) (hr.bare.trans ihr)
    exact h
  | cond i c a b ihc iha ihb =>
    obtain ⟨ha, hb, -⟩ :=
      Check.cond_again i.span (c.resolve d).value (a.resolve d).value (b.resolve d).value
    have hca := congr (congrArg (cond i.untyped) ihc) (ha.bare.trans iha)
    have h := congr hca (hb.bare.trans ihb)
    exact h
  | call i f as ihf ihas =>
    have has := bare_resolveArgs ihas (Check.call i.span (f.resolve d).value as.length).value.1
    have hbare : ∀ (i : Info) (f : Expr) (as : List Expr),
        (call i f as).bare = call i.untyped f.bare (as.map bare) := by
      intro i f as
      simp [bare, unconvert, untyped, Function.comp_def]
    refine (hbare _ _ _).trans ?_
    rw [hbare, ihf, has]
    rfl
  | index i b x ihb ihx =>
    have h := congr (congrArg (index i.untyped) ihb) ihx
    exact h
  | member i b n ih => exact congrArg (member i.untyped · n) ih
  | arrow i b n ih => exact congrArg (arrow i.untyped · n) ih
  | cast i t e m ih =>
    cases m with
    | true =>
      -- a conversion that was there before is taken out on both sides
      exact ih
    | false => exact congrArg (cast i.untyped t · false) ih
  | sizeofType i t => rfl
  | sizeofExpr i e ih => exact congrArg (sizeofExpr i.untyped) ih

/-- What a check makes of a property of nodes: `N` held of the nodes before, `P` holds of the nodes
after. A node that was there before has its slot filled, and is a conversion only if it was one; a
new node is a conversion that was needed and could be made. -/
structure Yields (N P : Expr → Prop) : Prop where
  kept : ∀ e x, N e → x.ty?.isSome = true → x.isConversion = e.isConversion → P x
  made : ∀ (e : Expr) (t : Ty), e.type ≠ t → e.type.castable t = true → P (e.convert t)

variable {N P : Expr → Prop}

/-- What a check makes of a property of nodes it makes of it everywhere in an expression. -/
theorem Yields.resolve (hP : Yields N P) {e : Expr} (h : e.Everywhere N) :
    (e.resolve d).value.Everywhere P := by
  have hargs : ∀ (as : List Expr), (∀ a ∈ as, (a.resolve d).value.Everywhere P) → ∀ ps,
      ∀ a ∈ (resolveArgs d ps as).value, a.Everywhere P := by
    intro as
    induction as with
    | nil => exact fun _ ps => by cases ps <;> exact List.forall_mem_nil _
    | cons a as ih =>
      intro has ps
      obtain ⟨ha, has⟩ := List.forall_mem_cons.mp has
      cases ps with
      | nil => exact List.forall_mem_cons.mpr ⟨ha, ih has []⟩
      | cons p ps =>
        obtain ⟨hp, -⟩ := Check.argument_again p (a.resolve d).value
        exact List.forall_mem_cons.mpr ⟨hp.everywhere hP.made ha, ih has ps⟩
  -- the operands first, as they come out of the rule of the form, and then the node
  induction e with
  | intLit i v t => exact .node _ (hP.kept _ _ h.here rfl rfl) (List.forall_mem_nil _)
  | strLit i s => exact .node _ (hP.kept _ _ h.here rfl rfl) (List.forall_mem_nil _)
  | var i n t => exact .node _ (hP.kept _ _ h.here rfl rfl) (List.forall_mem_nil _)
  | binary i op l r ihl ihr =>
    obtain ⟨here, below⟩ := everywhere_iff.mp h
    obtain ⟨hl, hr, -⟩ :=
      Check.binary_again d.model i.span op (l.resolve d).value (r.resolve d).value
    have ihl := hl.everywhere hP.made (ihl (below l (by simp [children])))
    have ihr := hr.everywhere hP.made (ihr (below r (by simp [children])))
    exact .node _ (hP.kept _ _ here rfl rfl) (forall_mem_pair ihl ihr)
  | assign i op l r ihl ihr =>
    obtain ⟨here, below⟩ := everywhere_iff.mp h
    obtain ⟨hr, -⟩ := Check.assign_again i.span op (l.resolve d).value (r.resolve d).value
    have ihl := ihl (below l (by simp [children]))
    have ihr := hr.everywhere hP.made (ihr (below r (by simp [children])))
    exact .node _ (hP.kept _ _ here rfl rfl) (forall_mem_pair ihl ihr)
  | cond i c a b ihc iha ihb =>
    obtain ⟨here, below⟩ := everywhere_iff.mp h
    obtain ⟨ha, hb, -⟩ :=
      Check.cond_again i.span (c.resolve d).value (a.resolve d).value (b.resolve d).value
    have ihc := ihc (below c (by simp [children]))
    have iha := ha.everywhere hP.made (iha (below a (by simp [children])))
    have ihb := hb.everywhere hP.made (ihb (below b (by simp [children])))
    have hall := List.forall_mem_cons.mpr ⟨ihc, forall_mem_pair iha ihb⟩
    exact .node _ (hP.kept _ _ here rfl rfl) hall
  | call i f as ihf ihas =>
    obtain ⟨here, below⟩ := everywhere_iff.mp h
    have ihf := ihf (below f List.mem_cons_self)
    have ihas := fun a ha => ihas a ha (below a (List.mem_cons_of_mem f ha))
    refine .node _ (hP.kept _ _ here rfl rfl) (List.forall_mem_cons.mpr ⟨ihf, ?_⟩)
    exact hargs as ihas (Check.call i.span (f.resolve d).value as.length).value.1
  | index i b x ihb ihx =>
    obtain ⟨here, below⟩ := everywhere_iff.mp h
    have ihb := ihb (below b (by simp [children]))
    have ihx := ihx (below x (by simp [children]))
    exact .node _ (hP.kept _ _ here rfl rfl) (forall_mem_pair ihb ihx)
  | sizeofType i t => exact .node _ (hP.kept _ _ h.here rfl rfl) (List.forall_mem_nil _)
  | unary i op e ih | step i op e ih | addressOf i e ih | deref i e ih | member i e n ih
  | arrow i e n ih | cast i t e m ih | sizeofExpr i e ih =>
    obtain ⟨here, below⟩ := everywhere_iff.mp h
    have ih := ih (below e List.mem_cons_self)
    exact .node _ (hP.kept _ _ here rfl rfl) (List.forall_mem_singleton.mpr ih)

end Expr

/-! ### Statements -/

variable {result : Ty}

/-- A check leaves a variable as it is, but for conversions and slots. -/
theorem Variable.bare_check (d : Declarations) (v : Variable) :
    (v.check d).value.mapExpr Expr.bare = v.mapExpr Expr.bare := by
  cases hi : v.initializer with
  | none => rw [check_none hi, Traced.value_pure]
  | some e =>
    obtain ⟨e', hv, he, -⟩ := Check.initial_again v (e.resolve d).value
    rw [check_some hi, Traced.value_bind, hv, mapExpr, mapExpr, hi, Option.map_some, he.bare,
      e.bare_resolve d, Option.map_some]

/-- What is returned stays as it is, but for conversions and slots. -/
theorem Check.bare_returned (d : Declarations) (result : Ty) (s : Span) (e : Option Expr) :
    (Check.returned s result (Expr.resolve? d e).value).value.map Expr.bare = e.map Expr.bare := by
  cases e with
  | none => simp [Expr.resolve?]
  | some e =>
    obtain ⟨e', hv, he, -⟩ := Check.returned_again s result (e.resolve d).value
    simp [Expr.resolve?, hv, he.bare, Expr.bare_resolve]

/-- A block stays the same but for conversions and slots if its statements do. -/
theorem Block.bare_check_of {b : Block}
    (h : ∀ s ∈ b.stmts, (s.check d result).value.map (Variable.mapExpr Expr.bare) Expr.bare =
      s.map (Variable.mapExpr Expr.bare) Expr.bare) :
    (b.check d result).value.map (Variable.mapExpr Expr.bare) Expr.bare =
      b.map (Variable.mapExpr Expr.bare) Expr.bare := by
  rw [Block.value_check, Block.map_eq, Block.map_eq]
  simp only [List.map_map, Function.comp_def, Variable.bare_check]
  rw [List.map_congr_left h]

/-- **Checking a statement does not change what is written.** -/
theorem Stmt.bare_check (d : Declarations) (result : Ty) (s : Stmt) :
    (s.check d result).value.map (Variable.mapExpr Expr.bare) Expr.bare =
      s.map (Variable.mapExpr Expr.bare) Expr.bare := by
  have hopt : ∀ e : Option Expr, (Expr.resolve? d e).value.map Expr.bare = e.map Expr.bare := by
    intro e
    simp [Function.comp_def, Expr.bare_resolve]
  induction s with
  | block s b ih => exact congrArg (Stmt.block s) (Block.bare_check_of ih)
  | forLoop s i c n b ih =>
    simp only [Stmt.check, Traced.value_bind, Traced.value_pure, Stmt.map, hopt, ih]
  | switch s e cs ih =>
    have hcs : (Stmt.checkCases d result cs).value.map
          (Case.map (Variable.mapExpr Expr.bare) Expr.bare) =
        cs.map (Case.map (Variable.mapExpr Expr.bare) Expr.bare) := by
      rw [Stmt.checkCases_eq, Traced.value_mapM, List.map_map]
      refine List.map_congr_left fun c hc => ?_
      have hb := Block.bare_check_of (ih c hc)
      rw [Function.comp_apply, Case.value_check, Case.map_eq, Case.map_eq, hb, List.map_map]
      simp only [Function.comp_def, Expr.bare_resolve]
    simp only [Stmt.check, Traced.value_bind, Traced.value_pure, Stmt.map, Stmt.mapCases_eq, hcs,
      Expr.bare_resolve]
  | returns s e =>
    simp only [Stmt.check, Traced.value_bind, Traced.value_pure, Stmt.map, Check.bare_returned]
  | ifElse s c t e iht ihe =>
    simp only [Stmt.check, Traced.value_bind, Traced.value_pure, Stmt.map, Expr.bare_resolve, iht,
      ihe]
  | breaks | continues | goto | empty => rfl
  | expr s e => exact congrArg (Stmt.expr s) (e.bare_resolve d)
  | ifThen s c b ih | whileLoop s c b ih | doWhile s b c ih =>
    simp only [Stmt.check, Traced.value_bind, Traced.value_pure, Stmt.map, Expr.bare_resolve, ih]
  | label s n b ih => exact congrArg (Stmt.label s n) ih

/-- A check leaves a program as it is, but for conversions and slots. -/
theorem Program.bare_check (d : Declarations) (p : Program) :
    (p.check d).value.mapExprs Expr.bare = p.mapExprs Expr.bare := by
  have hb : ∀ f : Function,
      (f.body.check d f.result).value.map (Variable.mapExpr Expr.bare) Expr.bare =
        f.body.map (Variable.mapExpr Expr.bare) Expr.bare :=
    fun f => Block.bare_check_of fun s _ => s.bare_check d f.result
  rw [Program.value_check, mapExprs, mapExprs]
  simp only [List.map_map, Function.comp_def, Variable.bare_check, Function.value_check, hb]

/-! ### Nodes of a program -/

section Nodes

variable {N P : Expr → Prop} (hP : Expr.Yields N P)

include hP

/-- What a check makes of nodes is carried over to the variables. -/
theorem Variable.nodes_check {v : Variable} (h : (Demands.nodes N).var v) :
    (Demands.nodes P).var (v.check d).value := by
  cases hi : v.initializer with
  | none =>
    rw [check_none hi]
    intro e he
    rw [Traced.value_pure, hi] at he
    cases he
  | some e =>
    obtain ⟨e', hv, he, -⟩ := Check.initial_again v (e.resolve d).value
    rw [check_some hi, Traced.value_bind, hv]
    rintro _ ⟨⟩
    exact he.everywhere hP.made (hP.resolve (h e hi))

/-- What a check makes of nodes is carried over to what is returned. -/
theorem Check.nodes_returned {s : Span} {e : Option Expr} (h : (Demands.nodes N).returned e) :
    (Demands.nodes P).returned (Check.returned s result (Expr.resolve? d e).value).value := by
  cases e with
  | none => simp [Expr.resolve?, Demands.nodes]
  | some e =>
    obtain ⟨e', hv, he, -⟩ := Check.returned_again s result (e.resolve d).value
    have hr : (Check.returned s result (Expr.resolve? d (some e)).value).value = some e' := hv
    rw [hr]
    rintro _ ⟨⟩
    exact he.everywhere hP.made (hP.resolve (h e rfl))

/-- **What a check makes of a property of nodes it makes of it everywhere in a program.** -/
theorem Program.nodes_check {p : Program} (h : ∀ e ∈ p.expressions, N e) :
    ∀ e ∈ (p.check d).value.expressions, P e := by
  rw [forall_mem_expressions_iff] at h ⊢
  rw [Program.value_check]
  simp only [List.forall_mem_map]
  refine ⟨fun v hv => Variable.nodes_check hP (h.1 v hv), fun f hf => ?_⟩
  refine (h.2 f hf).check (fun _ => Variable.nodes_check hP) (fun _ => hP.resolve)
    (fun _ => hP.resolve) fun _ _ => Check.nodes_returned hP

end Nodes

/-! ### What a pass adds -/

/-- Every node that a check leaves has its slot filled. -/
theorem Program.isSome_ty?_check (d : Declarations) (p : Program) :
    ∀ e ∈ (p.check d).value.expressions, e.info.ty.isSome = true := by
  have hP : Expr.Yields (fun _ => True) fun n => n.info.ty.isSome = true :=
    ⟨fun _ _ _ hs _ => hs, fun _ _ _ _ => rfl⟩
  exact Program.nodes_check hP fun _ _ => trivial

/-- Every conversion that a check makes stands at the place of its operand. -/
theorem Program.span_conversion_check (d : Declarations) {p : Program}
    (h : ∀ e ∈ p.expressions, e.isConversion = false) :
    ∀ e ∈ (p.check d).value.expressions, e.isConversion = true → ∀ c ∈ e.children,
      e.span = c.span := by
  have hP : Expr.Yields (fun e => e.isConversion = false) fun n =>
      n.isConversion = true → ∀ c ∈ n.children, n.span = c.span := by
    constructor
    · intro e x he _ hx hc
      rw [hx, he] at hc
      cases hc
    · intro e t _ _ _
      exact List.forall_mem_singleton.mpr rfl
  exact Program.nodes_check hP h

/-- **A pass adds types and conversions, and nothing else.** Without its conversions and with its
slots emptied, the program that a pass leaves is the program that it was given. And if that held no
conversions, then each of those made by the pass stands at the place of its operand, and without
them the program is the given one with all slots filled. -/
theorem pass_adds_types_and_conversions (d : Declarations) (p : Program) (j : Journal) :
    (p.pass d j).program.unconvert.untyped = p.unconvert.untyped ∧
      ((∀ e ∈ p.expressions, e.isConversion = false) →
        (∀ e ∈ (p.pass d j).program.expressions, e.isConversion = true →
            ∀ c ∈ e.children, e.span = c.span) ∧
          (p.pass d j).program.unconvert.untyped = p.untyped ∧
          (p.pass d j).program.unconvert.isFullyTyped = true) := by
  have hv : (p.pass d j).program = (p.check d).value := rfl
  have hbare : (p.pass d j).program.unconvert.untyped = p.unconvert.untyped := by
    rw [hv, Program.unconvert, Program.untyped, Program.mapExprs_mapExprs,
      Program.mapExprs_mapExprs]
    exact p.bare_check d
  refine ⟨hbare, fun h => ⟨p.span_conversion_check d h, ?_, ?_⟩⟩
  · rw [hbare, Program.unconvert_eq_self h]
  · -- every node keeps its slot when conversions are taken out, and a check has filled it
    have hs := Program.forall_mem_unconvert (Q := fun i => i.ty.isSome = true)
      (p.isSome_ty?_check d)
    rw [Program.isFullyTyped, List.all_eq_true]
    exact hs

/-- Three conversions are made in `narrowing`, which is given without any. -/
theorem pass_adds_types_and_conversions_narrowing :
    (∀ e ∈ narrowing.expressions, e.isConversion = false) ∧
      (∀ e ∈ (narrowing.pass (.empty .lp64) .empty).program.expressions, e.isConversion = true →
        ∀ c ∈ e.children, e.span = c.span) ∧
      (narrowing.pass (.empty .lp64) .empty).program.unconvert.untyped = narrowing.untyped ∧
      (narrowing.pass (.empty .lp64) .empty).program.unconvert.isFullyTyped = true := by
  have leaf : ∀ {e : Expr}, e.isConversion = false → e.children = [] →
      e.Everywhere fun n => n.isConversion = false :=
    fun he hc => .node _ he (hc ▸ List.forall_mem_nil _)
  have h : ∀ e ∈ narrowing.expressions, e.isConversion = false := by
    rw [Program.forall_mem_expressions_iff]
    refine ⟨List.forall_mem_nil _, List.forall_mem_singleton.mpr (Block.meets_iff.mpr ?_)⟩
    refine ⟨List.forall_mem_nil _, forall_mem_pair ?_ ?_⟩
    · exact .node _ rfl (forall_mem_pair (leaf rfl rfl) (leaf rfl rfl))
    · rintro _ ⟨⟩
      exact .node _ rfl (forall_mem_pair (leaf rfl rfl) (leaf rfl rfl))
  exact ⟨h, (pass_adds_types_and_conversions (.empty .lp64) narrowing .empty).2 h⟩

end CTyping
