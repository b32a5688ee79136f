import CTyping.Proofs.Checker.Again
import CTyping.Proofs.Checker.Explicit
import CTyping.Proofs.Checker.Layout
import CTyping.Proofs.Journal

/-!
# Checking is done once

A second pass over what a pass leaves changes nothing and records nothing new: it leaves the same
program, and records the same diagnostics in the same order, without the warnings about conversions,
which have been made. This holds whether or not there are errors, and for an analysis as for a check
against given declarations: an analysis sets widths to those of its data model first, and those of a
checked program are set already.
-/

namespace CTyping

/-! ### Warnings about conversions -/

/-- Whether a diagnostic is a warning about a conversion that was made without being asked for. -/
def Diagnostic.isImplicitCast (x : Diagnostic) : Bool :=
  x.severity == .warning && "implicit cast from ".toList.isPrefixOf x.message.toList

/-- Only a doubtful conversion in an assignment is warned about in these words. -/
theorem Problem.isImplicitCast_diagnostic (p : Problem) (s : Span) :
    (p.diagnostic s).isImplicitCast = !(Event.found p s).lasting := by
  cases p with
  | lossyConversion a b =>
    change "implicit cast from ".toList.isPrefixOf
      ("implicit cast from " ++ a.text ++ " to " ++ b.text).toList = true
    rw [List.isPrefixOf_iff_prefix, String.toList_append, String.toList_append,
      String.toList_append, List.append_assoc, List.append_assoc]
    exact List.prefix_append _ _
  | lossyCast a b =>
    change "implicit cast from ".toList.isPrefixOf
      ("incompatible cast from " ++ a.text ++ " to " ++ b.text).toList = false
    rw [String.toList_append, String.toList_append, String.toList_append]
    rfl
  | _ => rfl

/-- What lasts of the diagnostics of a check. -/
theorem Traced.diagnostics_settled {α : Type} (x : Traced α) :
    x.settled.diagnostics = x.diagnostics.filter fun d => !d.isImplicitCast := by
  rw [diagnostics, settled, diagnostics, List.filterMap_filter, List.filter_filterMap]
  congr 1
  funext e
  cases e with
  | entered f => rfl
  | converted s t => rfl
  | found p s =>
    have hd := p.isImplicitCast_diagnostic s
    cases h : (Event.found p s).lasting with
    | true => simp [Event.diagnostic?, Option.filter, hd, h]
    | false => simp [Event.diagnostic?, Option.filter, hd, h]

/-! ### Passes and analyses -/

/-- A second pass repeats a first one: it leaves the same program, and what it adds to its journal
is what the first one added to its own, without the warnings about conversions. -/
structure Pass.Repeats (first : Pass) (j : Journal) (second : Pass) (j' : Journal) : Prop where
  program : second.program = first.program
  diagnostics : ∃ xs, first.journal.entries = j.entries ++ xs ∧
    second.journal.entries = j'.entries ++ xs.filter fun x => !x.isImplicitCast

/-- A second pass over what the first has left repeats it. -/
theorem Program.repeats_pass (d : Declarations) (p : Program) (j j' : Journal) :
    (p.pass d j).Repeats j ((p.pass d j).program.pass d j') j' := by
  have hv : (p.pass d j).program = (p.check d).value := rfl
  have hs : ((p.check d).value.pass d j').program = ((p.check d).value.check d).value := rfl
  have he : ((p.check d).value.pass d j').journal =
      j'.recordAll ((p.check d).value.check d).diagnostics := rfl
  rw [hv]
  refine ⟨?_, (p.check d).diagnostics, Journal.entries_recordAll j _, ?_⟩
  · rw [hs, p.check_again d, Traced.value_settled, hv]
  · rw [he, p.check_again d, Traced.diagnostics_settled, Journal.entries_recordAll]

/-- A second analysis of what the first has left repeats it, if the declarations were taken. -/
theorem Program.repeats_analyze {m : DataModel} {p : Program} {d : Declarations}
    (h : Declarations.ofRecords m p.records = .ok d) (j j' : Journal) :
    (p.analyze m j).Repeats j ((p.analyze m j).program.analyze m j') j' := by
  obtain ⟨rfl, hd, hrec⟩ := Declarations.ofRecords_eq_ok h
  obtain ⟨hp, hj⟩ := analyze_of_ofRecords h j
  -- what the first analysis leaves is sized, so the second finds nothing to normalize
  have hq : (p.analyze d.model j).program.mapTypes d.model.normalize =
      (p.analyze d.model j).program := by
    have hs : ((p.mapTypes d.model.normalize).check d).value.Sized d.model :=
      p.sized_mapTypes.check hd
    rw [hp]
    exact hs.mapTypes_eq
  -- and its records are the normalized ones, from which the same declarations come
  have hr : (p.analyze d.model j).program.records =
      p.records.map (Record.mapTypes d.model.normalize) := by
    rw [hp]
    rfl
  obtain ⟨hp', hj'⟩ := analyze_of_ofRecords (hr ▸ hrec) j'
  rw [hq, hp] at hp' hj'
  obtain ⟨hprogram, xs, hxs, hys⟩ := repeats_pass d (p.mapTypes d.model.normalize) j j'
  refine ⟨?_, xs, ?_, ?_⟩
  · rw [hp, hp', hprogram]
  · rw [hj, hxs]
  · rw [hp, hj', hys]

/-- **Checking is done once.** A second pass, over the program that a first one leaves and against
the same declarations, repeats the first; and so does a second analysis for the same data model,
unless the first found its input invalid. -/
theorem second_pass_repeats_first :
    (∀ (d : Declarations) (p : Program) (j j' : Journal),
        (p.pass d j).Repeats j ((p.pass d j).program.pass d j') j') ∧
      ∀ (m : DataModel) (p : Program) (j j' : Journal),
        (∀ text, (p.analyze m j).outcome ≠ .error (.invalidInput text)) →
          (p.analyze m j).Repeats j ((p.analyze m j).program.analyze m j') j' := by
  refine ⟨Program.repeats_pass, fun m p j j' h => ?_⟩
  cases hd : Declarations.ofRecords m p.records with
  | ok d => exact Program.repeats_analyze hd j j'
  | error fault =>
    obtain ⟨text, ht⟩ := Program.analyze_invalidInput_iff (j := j).mpr ⟨fault, hd⟩
    exact absurd ht (h text)

/-- The conversion in `narrowing` that may lose bits is warned about once. -/
theorem second_pass_repeats_first_narrowing :
    (narrowing.analyze .lp64 .empty).journal.warnings = 1 ∧
      ((narrowing.analyze .lp64 .empty).program.analyze .lp64 .empty).journal.warnings = 0 ∧
      (narrowing.analyze .lp64 .empty).Repeats .empty
        ((narrowing.analyze .lp64 .empty).program.analyze .lp64 .empty) .empty := by
  have h : ∀ text, (narrowing.analyze .lp64 .empty).outcome ≠ .error (.invalidInput text) :=
    fun text ht => by
      obtain ⟨fault, hf⟩ := Program.analyze_invalidInput_iff.mp ⟨text, ht⟩
      cases hf
  exact ⟨by decide, by decide, second_pass_repeats_first.2 .lp64 narrowing .empty .empty h⟩

end CTyping
