import CTyping.Analysis
import CTyping.Proofs.Checker.Trace

/-!
# What a pass records

The counters of a journal go up with the diagnostics recorded in it. A pass therefore records no
error exactly when the check behind it is clean, whatever the journal held before. An analysis is a
pass over the program with its types laid out, unless a declaration is refused, and then it does
nothing.
-/

namespace CTyping

/-! ### Journals -/

namespace Journal

/-- An error adds one to the errors, a warning adds none. -/
theorem errors_record (j : Journal) (x : Diagnostic) :
    (j.record x).errors = j.errors + if x.isError then 1 else 0 := by
  cases h : x.severity with
  | error => simp [record, Diagnostic.isError, h]
  | warning => simp [record, Diagnostic.isError, h]

/-- A list of findings adds as many errors as are in it. -/
theorem errors_recordAll (j : Journal) (xs : List Diagnostic) :
    (j.recordAll xs).errors = j.errors + xs.countP Diagnostic.isError := by
  induction xs generalizing j with
  | nil => rfl
  | cons x xs ih =>
    have h : j.recordAll (x :: xs) = (j.record x).recordAll xs := rfl
    rw [h, ih, errors_record, List.countP_cons]
    omega

/-- A warning adds one to the warnings, an error adds none. -/
theorem warnings_record (j : Journal) (x : Diagnostic) :
    (j.record x).warnings = j.warnings + if x.isError then 0 else 1 := by
  cases h : x.severity with
  | error => simp [record, Diagnostic.isError, h]
  | warning => simp [record, Diagnostic.isError, h]

/-- A list of findings adds as many warnings as are in it. -/
theorem warnings_recordAll (j : Journal) (xs : List Diagnostic) :
    (j.recordAll xs).warnings = j.warnings + xs.countP fun x => !x.isError := by
  induction xs generalizing j with
  | nil => rfl
  | cons x xs ih =>
    have h : j.recordAll (x :: xs) = (j.record x).recordAll xs := rfl
    rw [h, ih, warnings_record, List.countP_cons]
    cases x.isError with
    | true => rfl
    | false => exact Nat.add_right_comm _ _ _

end Journal

/-! ### Passes -/

namespace Program

/-- A pass adds to the journal what the check of the program finds. -/
theorem journal_pass (d : Declarations) (p : Program) (j : Journal) :
    (p.pass d j).journal = j.recordAll (p.check d).diagnostics := rfl

/-- A pass leaves the program that the check gives. -/
theorem program_pass (d : Declarations) (p : Program) (j : Journal) :
    (p.pass d j).program = (p.check d).value := rfl

/-- A pass that starts with an empty journal ends with the findings of the check. -/
theorem entries_pass (d : Declarations) (p : Program) :
    (p.pass d .empty).journal.entries = (p.check d).diagnostics :=
  Journal.entries_recordAll _ _

/-- How a pass ends: it fails if there is an error in its journal, be it an earlier one, and then
with the numbers of what it found itself. -/
theorem outcome_pass (d : Declarations) (p : Program) (j : Journal) :
    (p.pass d j).outcome =
      if (p.pass d j).journal.hasErrors then
        .error (.rejected ((p.check d).diagnostics.countP Diagnostic.isError)
          ((p.check d).diagnostics.countP fun x => !x.isError))
      else .ok () := by
  have herrors := j.errors_recordAll (p.check d).diagnostics
  have hwarnings := j.warnings_recordAll (p.check d).diagnostics
  simp only [pass, herrors, hwarnings, Nat.add_sub_cancel_left]

/-- A pass records no error exactly when the check is clean. -/
theorem errors_pass_iff {d : Declarations} {p : Program} {j : Journal} :
    (p.pass d j).journal.errors = j.errors ↔ (p.check d).clean = true := by
  rw [journal_pass, Journal.errors_recordAll, Traced.clean_iff]
  constructor
  · intro he x hx
    have h0 : (p.check d).diagnostics.countP Diagnostic.isError = 0 := by omega
    exact Bool.eq_false_iff.mpr (List.countP_eq_zero.mp h0 x hx)
  · intro hx
    rw [List.countP_eq_zero.mpr fun x h => Bool.eq_false_iff.mp (hx x h)]
    rfl

/-! ### Analyses -/

/-- An analysis takes its input for invalid exactly when a declaration is refused. -/
theorem analyze_invalidInput_iff {m : DataModel} {p : Program} {j : Journal} :
    (∃ text, (p.analyze m j).outcome = .error (.invalidInput text)) ↔
      ∃ fault, Declarations.ofRecords m p.records = .error fault := by
  unfold analyze
  cases h : Declarations.ofRecords m p.records with
  | error fault => exact ⟨fun _ => ⟨fault, rfl⟩, fun _ => ⟨fault.message, rfl⟩⟩
  | ok d =>
    refine ⟨?_, nofun⟩
    rintro ⟨text, ht⟩
    -- either errors were found or a slot is empty, and both failures have other names
    have ho : ((p.mapTypes m.normalize).pass d j).outcome =
        if ((p.mapTypes m.normalize).pass d j).journal.hasErrors then
          .error (.rejected _ _) else .ok () := rfl
    simp only [ho] at ht
    split at ht
    · cases ht
    · cases hf : ((p.mapTypes m.normalize).pass d j).program.isFullyTyped <;> rw [hf] at ht <;>
        cases ht

/-- If a declaration is refused, nothing is done. -/
theorem analyze_of_fault {m : DataModel} {p : Program} {fault : DeclFault} {j : Journal}
    (h : Declarations.ofRecords m p.records = .error fault) :
    p.analyze m j = ⟨.error (.invalidInput fault.message), p, j, []⟩ := by
  rw [analyze, h]

/-- Otherwise an analysis is a pass over the program with its types laid out. -/
theorem analyze_of_ofRecords {m : DataModel} {p : Program} {d : Declarations}
    (h : Declarations.ofRecords m p.records = .ok d) (j : Journal) :
    (p.analyze m j).program = ((p.mapTypes m.normalize).pass d j).program ∧
      (p.analyze m j).journal = ((p.mapTypes m.normalize).pass d j).journal := by
  unfold analyze
  rw [h]
  exact ⟨rfl, rfl⟩

end Program

end CTyping
