import CTyping.Proofs.Checker.Erasure
import CTyping.Proofs.Checker.Losses
import CTyping.Proofs.Recheck

/-!
# The conversions that a pass makes

A pass over a program without conversions makes no more of them than it has to: each is needed, is
made of an operand that is no conversion, and can be made. It warns about those that are doubtful,
about each of them once and about no others, and these are found only where a value is stored
(`CTyping.Program.LosesOnlyInStores`).
-/

namespace CTyping

open CTyping.Expr (lossyIn ConvertsWell Plain)

variable {d : Declarations} {result : Ty}

/-! ### Lists and options -/

/-- What is checked one by one is accounted for if each is. -/
theorem Traced.lossyIn_mapM {α β : Type} {f : α → Traced β} {g : β → List Expr} {as : List α}
    (h : ∀ a ∈ as, lossyIn (g (f a).value) = (f a).lossy) :
    lossyIn ((as.mapM f).value.flatMap g) = (as.mapM f).lossy := by
  rw [value_mapM, Expr.lossyIn_flatMap, List.map_map, lossy_mapM]
  exact congrArg List.sum (List.map_congr_left h)

/-- What is warned about an expression that may be missing stands in what is left of it. -/
theorem Expr.lossyIn_resolve? {e : Option Expr} (h : ∀ x ∈ e, x.Everywhere Plain) :
    lossyIn (Expr.resolve? d e).value.toList = (Expr.resolve? d e).lossy := by
  cases e with
  | none => exact lossyIn_nil
  | some e => simpa [Expr.resolve?] using (Expr.converted_resolve d (h e rfl)).lossy

@[simp] theorem Check.lossy_scalar (e : Expr) : (Check.scalar e).lossy = 0 :=
  Traced.lossy_of_settled (Check.settled_scalar e)

@[simp] theorem Check.lossy_scalar? (e : Option Expr) : (Check.scalar? e).lossy = 0 :=
  Traced.lossy_of_settled (Check.settled_scalar? e)

/-! ### Variables and returns -/

/-- The initializer of a variable is stored: it may be doubtful, and then there is a warning. -/
theorem Variable.converted_check {v : Variable} (h : (Demands.nodes Plain).var v) :
    (∀ e ∈ (v.check d).value.initializer, e.Everywhere ConvertsWell) ∧
      lossyIn (v.check d).value.initializer.toList = (v.check d).lossy := by
  cases hi : v.initializer with
  | none =>
    rw [check_none hi, Traced.value_pure, hi]
    exact ⟨nofun, Expr.lossyIn_nil⟩
  | some e =>
    have hc := Expr.converted_resolve d (h e hi)
    have hplain := Expr.plain_resolve d (h e hi)
    rw [check_some hi, Traced.value_bind, Traced.lossy_bind]
    rcases Check.initial_cases v (e.resolve d).value with ⟨-, hcast, hx⟩ | ⟨-, hx⟩
    · -- the only conversion that is made here is announced if it is doubtful
      have hb := (Expr.Brought.adapt hcast).converted hplain hc
      rw [hx, Traced.value_map, Check.value_put, Traced.lossy_map,
        Check.lossy_put v.span v.type hplain, add_comm]
      refine ⟨?_, hb.lossy⟩
      rintro _ ⟨⟩
      exact hb.everywhere
    · rw [hx.value, Traced.lossy_of_settled hx.settled, add_zero]
      refine ⟨?_, hc.lossy⟩
      rintro _ ⟨⟩
      exact hc.everywhere

/-- What is returned is not stored, and never doubtful. -/
theorem Check.converted_returned (s : Span) (result : Ty) {e : Option Expr}
    (h : (Demands.nodes Plain).returned e) :
    (∀ x ∈ (Check.returned s result (Expr.resolve? d e).value).value,
        x.Everywhere ConvertsWell ∧ x.lossy? = none) ∧
      lossyIn (Check.returned s result (Expr.resolve? d e).value).value.toList =
        (Expr.resolve? d e).lossy + (Check.returned s result (Expr.resolve? d e).value).lossy := by
  cases e with
  | none =>
    have hwarn : (Check.returned s result none).lossy = 0 := by
      rcases Check.returned_none_cases s result with ⟨-, hx⟩ | ⟨-, hx⟩
      · rw [hx, Traced.lossy_pure]
      · exact Traced.lossy_of_settled hx.settled
    simp [Expr.resolve?, hwarn]
  | some e =>
    have hc := Expr.converted_resolve d (h e rfl)
    have hplain := Expr.plain_resolve d (h e rfl)
    rcases Check.returned_some_cases s result (e.resolve d).value with ⟨-, ht, hx⟩ | ⟨-, hx⟩
    · have hn := Expr.lossy?_adapt hplain ht
      have hb := (Expr.Brought.adapt (Ty.castable_of_eq_or_compatible ht)).converted_of_lossy?
        hplain hc hn
      simpa [Expr.resolve?, hx] using ⟨⟨hb.everywhere, hn⟩, hb.lossy⟩
    · have hn := Expr.lossy?_of_plain hplain
      simpa [Expr.resolve?, hx.value, Traced.lossy_of_settled hx.settled] using
        ⟨⟨hc.everywhere, hn⟩, hc.lossy⟩

/-! ### Statements -/

/-- The demand that all nodes be well converted and no expression be doubtful that is not stored. -/
def Demands.convertsWell : Demands where
  var v := ∀ e ∈ v.initializer, e.Everywhere ConvertsWell
  expr e := e.Everywhere ConvertsWell ∧ e.lossy? = none
  test e := e.Everywhere ConvertsWell ∧ e.lossy? = none
  returned o := ∀ e ∈ o, e.Everywhere ConvertsWell ∧ e.lossy? = none

/-- What is warned about a block stands in what is left of it, if this holds of its statements. -/
theorem Block.lossyIn_check_of (d : Declarations) (result : Ty) {b : Block}
    (hb : b.Meets (.nodes Plain))
    (h : ∀ s ∈ b.stmts, s.Meets (.nodes Plain) →
      lossyIn (s.check d result).value.roots = (s.check d result).lossy) :
    lossyIn ((b.check d result).value.collect (·.initializer.toList) fun e => [e]) =
      (b.check d result).lossy := by
  obtain ⟨hvars, hstmts⟩ := Block.meets_iff.mp hb
  rw [Block.check_eq, Block.collect_eq, Expr.lossyIn_append]
  simp only [Traced.value_bind, Traced.value_pure, Traced.lossy_bind, Traced.lossy_pure, add_zero]
  rw [Traced.lossyIn_mapM fun v hv => (Variable.converted_check (hvars v hv)).2,
    Traced.lossyIn_mapM fun s hs => h s hs (hstmts s hs)]

/-- The same for an arm of a `switch`. -/
theorem Case.lossyIn_check_of (d : Declarations) (result : Ty) {c : Case}
    (hc : c.Meets (.nodes Plain))
    (h : ∀ s ∈ c.body.stmts, s.Meets (.nodes Plain) →
      lossyIn (s.check d result).value.roots = (s.check d result).lossy) :
    lossyIn ((c.check d result).value.collect (·.initializer.toList) fun e => [e]) =
      (c.check d result).lossy := by
  obtain ⟨hvalues, hbody⟩ := Case.meets_iff.mp hc
  have hv := Traced.lossyIn_mapM (g := fun e => [e])
    fun e he => (Expr.converted_resolve d (hvalues e he)).lossy
  rw [Case.check_eq, Case.collect_eq, Expr.lossyIn_append]
  simp only [Traced.value_bind, Traced.value_pure, Traced.lossy_bind, Traced.lossy_pure, add_zero]
  rw [hv, Block.lossyIn_check_of d result hbody h]

/-- **A check of a statement without conversions warns about the doubtful ones that it makes.** -/
theorem Stmt.lossyIn_check {s : Stmt} (h : s.Meets (.nodes Plain)) :
    lossyIn (s.check d result).value.roots = (s.check d result).lossy := by
  induction s with
  | block s b ih =>
    refine (Block.lossyIn_check_of d result h ih).trans ?_
    simp [Stmt.check]
  | expr s e =>
    refine (Expr.converted_resolve d h).lossy.trans ?_
    simp [Stmt.check]
  | ifThen s c t iht =>
    obtain ⟨hc, ht⟩ := h
    refine ((Expr.converted_resolve d hc).lossyIn_cons (iht ht)).trans ?_
    simp [Stmt.check]
  | ifElse s c t e iht ihe =>
    obtain ⟨hc, ht, he⟩ := h
    have hte : lossyIn ((t.check d result).value.roots ++ (e.check d result).value.roots) = _ :=
      (Expr.lossyIn_append _ _).trans (congrArg₂ (· + ·) (iht ht) (ihe he))
    refine ((Expr.converted_resolve d hc).lossyIn_cons hte).trans ?_
    simp [Stmt.check]
  | whileLoop s c b ih =>
    obtain ⟨hc, hb⟩ := h
    refine ((Expr.converted_resolve d hc).lossyIn_cons (ih hb)).trans ?_
    simp [Stmt.check]
  | doWhile s b c ih =>
    -- the condition is listed first, and checked last
    obtain ⟨hb, hc⟩ := h
    refine ((Expr.converted_resolve d hc).lossyIn_cons (ih hb)).trans ?_
    simp [Stmt.check, add_comm]
  | forLoop s i c n b ih =>
    obtain ⟨hi, hc, hn, hb⟩ := h
    have hroots : ((Stmt.forLoop s i c n b).check d result).value.roots =
        (Expr.resolve? d i).value.toList ++ (Expr.resolve? d c).value.toList ++
          (Expr.resolve? d n).value.toList ++ (b.check d result).value.roots := by
      simp [Stmt.check, Stmt.roots, Stmt.collect]
    rw [hroots, Expr.lossyIn_append, Expr.lossyIn_append, Expr.lossyIn_append,
      Expr.lossyIn_resolve? hi, Expr.lossyIn_resolve? hc, Expr.lossyIn_resolve? hn, ih hb]
    simp [Stmt.check, add_assoc]
  | switch s e cs ih =>
    obtain ⟨he, hcs⟩ := h
    have hcases : lossyIn ((cs.mapM (Case.check d result)).value.flatMap
          (Case.collect (·.initializer.toList) fun e => [e])) =
        (cs.mapM (Case.check d result)).lossy := by
      refine Traced.lossyIn_mapM fun c hc => ?_
      exact Case.lossyIn_check_of d result (Stmt.meetCases_iff.mp hcs c hc) (ih c hc)
    have hroots : ((Stmt.switch s e cs).check d result).value.roots =
        (e.resolve d).value :: (cs.mapM (Case.check d result)).value.flatMap
          (Case.collect (·.initializer.toList) fun e => [e]) := by
      rw [Stmt.check, Stmt.checkCases_eq]
      change [_] ++ Stmt.collectCases _ _ _ = _
      rw [Stmt.collectCases_eq]
      rfl
    rw [hroots]
    refine ((Expr.converted_resolve d he).lossyIn_cons hcases).trans ?_
    simp [Stmt.check, Stmt.checkCases_eq]
  | returns s e =>
    have hroots : ((Stmt.returns s e).check d result).value.roots =
        (Check.returned s result (Expr.resolve? d e).value).value.toList := by
      simp [Stmt.check, Stmt.roots, Stmt.collect]
    rw [hroots]
    refine (Check.converted_returned s result h).2.trans ?_
    simp [Stmt.check]
  | breaks | continues | goto | empty => exact Expr.lossyIn_nil
  | label s n b ih =>
    refine (ih h).trans ?_
    simp [Stmt.check]

/-! ### Programs -/

/-- In a program, doubtful conversions stand only where a value is stored: on the right of an
assignment, or as the initializer of a variable. They are neither other operands nor expressions of
a statement. -/
structure Program.LosesOnlyInStores (p : Program) : Prop where
  operands : ∀ e ∈ p.expressions, ∀ c ∈ e.unstored, c.lossy? = none
  statements : ∀ f ∈ p.functions, ∀ e ∈ f.body.collect (fun _ => []) (fun e => [e]), e.lossy? = none

/-- A check of a program without conversions makes only such as are needed and can be made, and
doubtful ones in stores only. -/
theorem Program.convertsWell_check (d : Declarations) {p : Program}
    (h : ∀ e ∈ p.expressions, e.isConversion = false) :
    (∀ e ∈ (p.check d).value.expressions, e.ConvertsWell) ∧
      (p.check d).value.LosesOnlyInStores := by
  obtain ⟨hglobals, hbodies⟩ := forall_mem_expressions_iff.mp h
  have hexpr : ∀ e : Expr, e.Everywhere Plain →
      (e.resolve d).value.Everywhere ConvertsWell ∧ (e.resolve d).value.lossy? = none := by
    intro e he
    exact ⟨(Expr.converted_resolve d he).everywhere,
      Expr.lossy?_of_plain (Expr.plain_resolve d he)⟩
  -- one run over each body gives both: well converted nodes, and nothing doubtful outside stores
  have hbody : ∀ f ∈ p.functions, (f.body.check d f.result).value.Meets .convertsWell := by
    intro f hf
    refine (hbodies f hf).check ?_ hexpr hexpr ?_
    · exact fun v hv => (Variable.converted_check hv).1
    · exact fun s e he => (Check.converted_returned s f.result he).1
  have hnodes : ∀ e ∈ (p.check d).value.expressions, e.ConvertsWell := by
    rw [forall_mem_expressions_iff, value_check]
    simp only [List.forall_mem_map]
    refine ⟨fun v hv => (Variable.converted_check (hglobals v hv)).1, fun f hf => ?_⟩
    refine (hbody f hf).imp ?_ ?_ ?_ ?_
    · exact fun v hv => hv
    · exact fun e he => he.1
    · exact fun e he => he.1
    · exact fun o ho e he => (ho e he).1
  refine ⟨hnodes, fun e he => (hnodes e he).unstored, ?_⟩
  rw [value_check]
  simp only [List.forall_mem_map]
  intro f hf
  rw [Function.value_check, Block.forall_mem_collect_iff]
  refine (hbody f hf).imp (fun _ _ => List.forall_mem_nil _) ?_ ?_ ?_
  · exact fun e he => List.forall_mem_singleton.mpr he.2
  · exact fun e he => List.forall_mem_singleton.mpr he.2
  · exact fun o ho e he => List.forall_mem_singleton.mpr (ho e he).2

/-- What is warned about a function stands in what is left of its body. -/
theorem Function.lossyIn_check (d : Declarations) {f : Function}
    (h : f.body.Meets (.nodes Plain)) :
    lossyIn ((f.check d).value.body.collect (·.initializer.toList) fun e => [e]) =
      (f.check d).lossy := by
  have hnote : (Traced.note (.entered f.name)).lossy = 0 := rfl
  have hsignature : f.checkSignature.lossy = 0 :=
    Traced.lossy_of_settled f.settled_checkSignature
  refine (Block.lossyIn_check_of d f.result h fun s _ hs => Stmt.lossyIn_check hs).trans ?_
  simp [Function.check, hnote, hsignature]

/-- **A check of a program without conversions warns about the doubtful ones that it makes**, about
each of them once. -/
theorem Program.lossyIn_check (d : Declarations) {p : Program}
    (h : ∀ e ∈ p.expressions, e.isConversion = false) :
    lossyIn (p.check d).value.roots = (p.check d).lossy := by
  obtain ⟨hglobals, hbodies⟩ := forall_mem_expressions_iff.mp h
  rw [roots, Expr.lossyIn_append, check, Variable.checkList_eq, Function.checkList_eq]
  simp only [Traced.value_bind, Traced.value_pure, Traced.lossy_bind, Traced.lossy_pure, add_zero]
  rw [Traced.lossyIn_mapM fun v hv => (Variable.converted_check (hglobals v hv)).2,
    Traced.lossyIn_mapM fun f hf => Function.lossyIn_check d (hbodies f hf)]

/-! ### Warnings in a journal -/

/-- The warning about a doubtful conversion. -/
def lossyMessage (w : Ty × Ty) : String := "implicit cast from " ++ w.1.text ++ " to " ++ w.2.text

/-- The warning that an event leads to has the text of its doubtful conversion. -/
theorem Event.lossy?_diagnostic (e : Event) :
    (e.diagnostic?.filter Diagnostic.isImplicitCast).map Diagnostic.message =
      e.lossy?.map lossyMessage := by
  cases e with
  | entered f => rfl
  | converted s t => rfl
  | found p s =>
    have hd := p.isImplicitCast_diagnostic s
    cases hl : (Event.found p s).lasting with
    | true =>
      have hnone : (p.diagnostic s).isImplicitCast = false := by simp [hd, hl]
      rw [Event.lossy?_of_lasting hl, Event.diagnostic?, Option.filter_some_neg hnone]
      rfl
    | false =>
      have hsome : (p.diagnostic s).isImplicitCast = true := by simp [hd, hl]
      rw [Event.diagnostic?, Option.filter_some_pos hsome]
      cases p with
      | lossyConversion a b => rfl
      | _ => cases hl

/-- The warnings of a check have the texts of its doubtful conversions, in their order. -/
theorem Traced.lossy_diagnostics {α : Type} (x : Traced α) :
    (x.diagnostics.filter Diagnostic.isImplicitCast).map Diagnostic.message =
      (x.events.filterMap Event.lossy?).map lossyMessage := by
  rw [diagnostics, List.filter_filterMap, List.map_filterMap, List.map_filterMap]
  exact congrArg (List.filterMap · x.events) (funext Event.lossy?_diagnostic)

/-- **Conversions are needed, single and accounted for.** Whatever the outcome, of the conversions
that a pass makes in a program without any: each is to another type than that of its operand, is of
an operand that is no conversion, and is one that can be made; the doubtful ones stand only where a
value is stored; and these are what the pass warns about, each as often as it stands in the program
that is left. -/
theorem conversions_are_needed_and_accounted_for {d : Declarations} {p : Program} {j : Journal}
    (h : ∀ e ∈ p.expressions, e.isConversion = false) :
    (∀ i t e, .cast i t e true ∈ (p.pass d j).program.expressions →
        e.type ≠ t ∧ e.isConversion = false ∧ e.type.castable t = true) ∧
      (p.pass d j).program.LosesOnlyInStores ∧
      ∃ xs, (p.pass d j).journal.entries = j.entries ++ xs ∧
        ((xs.filter Diagnostic.isImplicitCast).map Diagnostic.message).Perm
          (((p.pass d j).program.expressions.filterMap Expr.lossy?).map lossyMessage) := by
  have hv : (p.pass d j).program = (p.check d).value := rfl
  obtain ⟨hnodes, hstores⟩ := p.convertsWell_check d h
  have hw : lossyIn (p.check d).value.roots.reverse = (p.check d).lossy :=
    (Expr.lossyIn_reverse _).trans (Program.lossyIn_check d h)
  rw [hv]
  refine ⟨fun i t e he => (hnodes _ he).conversion i t e rfl, hstores, (p.check d).diagnostics,
    Journal.entries_recordAll j _, ?_⟩
  rw [Traced.lossy_diagnostics]
  exact (Multiset.coe_eq_coe.mp hw).symm.map lossyMessage

/-- One of the conversions in `narrowing` is doubtful, and there is one warning. -/
theorem conversions_are_needed_and_accounted_for_narrowing :
    (∀ e ∈ narrowing.expressions, e.isConversion = false) ∧
      (∀ i t e, .cast i t e true ∈ (narrowing.pass (.empty .lp64) .empty).program.expressions →
        e.type ≠ t ∧ e.isConversion = false ∧ e.type.castable t = true) ∧
      (narrowing.pass (.empty .lp64) .empty).program.LosesOnlyInStores ∧
      ((narrowing.pass (.empty .lp64) .empty).program.expressions.filterMap Expr.lossy?).map
        lossyMessage = ["implicit cast from int to char"] := by
  have h : ∀ e ∈ narrowing.expressions, e.isConversion = false := by
    simp [narrowing, Program.expressions, Program.roots, Block.collect, Stmt.collectList,
      Stmt.collect, Expr.walk, Expr.children, Expr.isConversion]
  obtain ⟨hneeded, hstores, xs, hxs, hperm⟩ :=
    conversions_are_needed_and_accounted_for (d := .empty .lp64) (j := .empty) h
  refine ⟨h, hneeded, hstores, List.perm_singleton.mp (hperm.symm.trans ?_)⟩
  have hmessages : ((narrowing.pass (.empty .lp64) .empty).journal.entries.filter
      Diagnostic.isImplicitCast).map Diagnostic.message = ["implicit cast from int to char"] := by
    decide
  rw [hxs] at hmessages
  exact .of_eq hmessages

end CTyping
