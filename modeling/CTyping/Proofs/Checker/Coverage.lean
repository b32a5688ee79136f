import CTyping.Proofs.Checker.Erasure
import CTyping.Proofs.Recheck
import CTyping.Proofs.Tree.Reachable

/-!
# Every node gets its type

No rule of the checker passes an operand over. Where a rule refuses its operands they have been
resolved before, and so have the arguments of a call that does not fit and the index of what cannot
be indexed. After a pass every node of the program therefore has its slot filled, whether or not the
pass fails, and an analysis never finds a slot that was left empty.
-/

namespace CTyping

/-- After a pass the scan for empty slots finds none. -/
theorem Program.isFullyTyped_pass (d : Declarations) (p : Program) (j : Journal) :
    (p.pass d j).program.isFullyTyped = true := by
  rw [isFullyTyped, List.all_eq_true]
  exact p.isSome_ty?_check d

/-- A pass takes nothing away from a program. -/
theorem Program.untyped_unconvert_pass (d : Declarations) (p : Program) (j : Journal) :
    (p.pass d j).program.unconvert.untyped = p.unconvert.untyped := by
  have hv : (p.pass d j).program = (p.check d).value := rfl
  rw [hv, unconvert, untyped, mapExprs_mapExprs, mapExprs_mapExprs]
  exact p.bare_check d

/-- No slot is found empty after a pass, so an analysis ends as its pass does. -/
theorem Program.outcome_analyze_of_ofRecords {m : DataModel} {p : Program} {d : Declarations}
    (h : Declarations.ofRecords m p.records = .ok d) (j : Journal) :
    (p.analyze m j).outcome = ((p.mapTypes m.normalize).pass d j).outcome := by
  unfold analyze
  rw [h]
  simp only [isFullyTyped_pass]
  cases ((p.mapTypes m.normalize).pass d j).outcome with
  | ok u => rfl
  | error failure => rfl

/-- **Every node gets its type.** A pass leaves the program it was given, but for conversions and
slots, and every expression that stands in a variable or in a function of it, and every operand of
one, has a type in its slot, whether or not the pass failed. An analysis therefore never ends in an
internal failure. -/
theorem every_node_gets_its_type :
    (∀ (d : Declarations) (p : Program) (j : Journal),
        (p.pass d j).program.unconvert.untyped = p.unconvert.untyped ∧
          (∀ e, (p.pass d j).program.Reaches e → ∃ t, e.ty? = some t) ∧
          (p.pass d j).program.isFullyTyped = true) ∧
      ∀ (m : DataModel) (p : Program) (j : Journal) (text : String),
        (p.analyze m j).outcome ≠ .error (.internal text) := by
  constructor
  · intro d p j
    refine ⟨p.untyped_unconvert_pass d j, fun e he => ?_, p.isFullyTyped_pass d j⟩
    have hs := p.isSome_ty?_check d e (Program.mem_expressions_iff.mpr he)
    exact Option.isSome_iff_exists.mp hs
  · intro m p j text h
    cases hd : Declarations.ofRecords m p.records with
    | error fault =>
      rw [Program.analyze, hd] at h
      cases h
    | ok d =>
      -- a pass fails only by rejecting
      rw [Program.outcome_analyze_of_ofRecords hd, Program.pass] at h
      split at h <;> cases h

/-- A program in which nothing fits: a number is called, with a sum as its argument, and a number
is indexed. The slots say something else than what is there, or nothing. -/
def misfits : Program :=
  let int := DataModel.lp64.int
  let one : Expr := .intLit .blank 1 int
  let sum : Expr := .binary ⟨.unknown, some .void⟩ .add one one
  { records := []
    globals := [⟨"g", int, some (.call .blank one [sum]), false, true, none, .unknown⟩]
    functions := [{
      name := "f", isPrivate := false, result := .void, params := [], variadic := false
      span := .unknown
      body := ⟨[], [.expr .unknown (.index .blank one sum)]⟩ }] }

theorem every_node_gets_its_type_misfits :
    (misfits.pass (.empty .lp64) .empty).journal.errors = 3 ∧
      (∀ e, (misfits.pass (.empty .lp64) .empty).program.Reaches e → ∃ t, e.ty? = some t) ∧
      (misfits.pass (.empty .lp64) .empty).program.isFullyTyped = true :=
  ⟨by decide, (every_node_gets_its_type.1 (.empty .lp64) misfits .empty).2⟩

end CTyping
