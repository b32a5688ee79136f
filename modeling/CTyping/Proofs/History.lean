import CTyping.Proofs.Checker.Coverage
import CTyping.Proofs.Ty.Lookup

/-!
# One analysis after the other

A journal may serve for many passes, and be written to between them (`CTyping.Journal.Reached`). Its
counters agree with its entries all the time (`CTyping.Journal.Exact`). What an analysis leaves and
what it adds to the journal depend on the program and on the data model alone. What the journal held
before matters in one respect: an earlier error lets the analysis fail, even if it finds none
itself, and the numbers of the failure are then those of what it found itself.
-/

namespace CTyping

namespace Journal

variable {j k : Journal}

/-- The counters of a journal agree with its entries. -/
structure Exact (j : Journal) : Prop where
  errors : j.errors = j.entries.countP Diagnostic.isError
  warnings : j.warnings = j.entries.countP fun x => !x.isError

theorem exact_empty : empty.Exact := ⟨rfl, rfl⟩

theorem Exact.recordAll (h : j.Exact) (xs : List Diagnostic) : (j.recordAll xs).Exact where
  errors := by rw [errors_recordAll, entries_recordAll, List.countP_append, h.errors]
  warnings := by rw [warnings_recordAll, entries_recordAll, List.countP_append, h.warnings]

theorem Exact.record (h : j.Exact) (x : Diagnostic) : (j.record x).Exact := h.recordAll [x]

theorem Exact.hasErrors_eq_false_iff (h : j.Exact) :
    j.hasErrors = false ↔ ∀ x ∈ j.entries, x.isError = false := by
  rw [hasErrors, decide_eq_false_iff_not, h.errors, Nat.not_lt, Nat.le_zero, List.countP_eq_zero]
  simp only [Bool.not_eq_true]

/-! ### Histories -/

/-- Journals as they come about: from the empty one, by single entries, by merging with another
journal, and by passes over programs, whether or not they succeed. -/
inductive Reached : Journal → Prop
  | empty : Reached empty
  /-- Something is said without a place. -/
  | note {j : Journal} (before : j.Reached) (severity : Severity) (message : String) :
    Reached (j.record ⟨severity, message, none⟩)
  /-- Something is said about a place, which is left out if it is not known. -/
  | noteAt {j : Journal} (before : j.Reached) (severity : Severity) (message : String) (s : Span) :
    Reached (j.record (.place severity message s))
  | record {j : Journal} (before : j.Reached) (x : Diagnostic) : Reached (j.record x)
  | merge {j k : Journal} (before : j.Reached) (other : k.Reached) : Reached (j.merge k)
  | pass {j : Journal} (before : j.Reached) (d : Declarations) (p : Program) :
    Reached (p.pass d j).journal
  | analyze {j : Journal} (before : j.Reached) (m : DataModel) (p : Program) :
    Reached (p.analyze m j).journal
  | analyzeDocument {j : Journal} (before : j.Reached) (m : DataModel) (source : String) :
    Reached (Program.analyzeDocument m source j).2.1

theorem Exact.analyze (h : j.Exact) (m : DataModel) (p : Program) :
    (p.analyze m j).journal.Exact := by
  cases hd : Declarations.ofRecords m p.records with
  | error fault =>
    rw [Program.analyze_of_fault hd]
    exact h
  | ok d =>
    rw [(Program.analyze_of_ofRecords hd j).2]
    exact h.recordAll _

/-- **The counters of a journal agree with its entries**, whatever its history. -/
theorem Reached.exact (h : j.Reached) : j.Exact := by
  induction h with
  | empty => exact exact_empty
  | note _ _ _ ih => exact ih.record _
  | noteAt _ _ _ _ ih => exact ih.record _
  | record _ x ih => exact ih.record x
  | merge _ _ ih _ => exact ih.recordAll _
  | pass _ _ _ ih => exact ih.recordAll _
  | analyze _ m p ih => exact ih.analyze m p
  | analyzeDocument _ m source ih =>
    rw [Program.analyzeDocument]
    cases Program.read source with
    | error failure => exact ih
    | ok p => exact ih.analyze m p

end Journal

/-! ### How an analysis ends -/

/-- **An analysis does nothing at all to a program whose declarations contradict each other.** -/
theorem Program.analyze_of_not_distinct {m : DataModel} {p : Program}
    (h : ¬Declarations.Distinct p.records) (j : Journal) :
    (∃ text, (p.analyze m j).outcome = .error (.invalidInput text)) ∧
      (p.analyze m j).program = p ∧ (p.analyze m j).journal = j := by
  cases hd : Declarations.ofRecords m p.records with
  | ok d => exact absurd (Declarations.exists_ofRecords_iff.mp ⟨d, hd⟩) h
  | error fault =>
    rw [Program.analyze_of_fault hd]
    exact ⟨⟨fault.message, rfl⟩, rfl, rfl⟩

/-- **The outcome of an analysis over any history.** The counters of a journal agree with its
entries at all times. If two declarations of a program have one id, or one has the largest id, an
analysis finds its input invalid and changes neither the program nor the journal. Otherwise it
leaves the same program and adds the same diagnostics after any history; it succeeds exactly if
there is no error among these and the earlier ones; and if it fails, it is with the numbers of
errors and of warnings that it added. -/
theorem analysis_outcome_after_any_history :
    (∀ j : Journal, j.Reached → j.Exact) ∧
      (∀ (m : DataModel) (p : Program) (j : Journal), ¬Declarations.Distinct p.records →
        (∃ text, (p.analyze m j).outcome = .error (.invalidInput text)) ∧
          (p.analyze m j).program = p ∧ (p.analyze m j).journal = j) ∧
      ∀ (m : DataModel) (p : Program), Declarations.Distinct p.records →
        ∃ (q : Program) (xs : List Diagnostic), ∀ j : Journal, j.Reached →
          (p.analyze m j).program = q ∧ (p.analyze m j).journal.entries = j.entries ++ xs ∧
            ((p.analyze m j).outcome = .ok () ↔ ∀ x ∈ j.entries ++ xs, x.isError = false) ∧
            ((p.analyze m j).outcome ≠ .ok () → (p.analyze m j).outcome =
              .error (.rejected (xs.countP Diagnostic.isError)
                (xs.countP fun x => !x.isError))) := by
  refine ⟨fun j h => h.exact, fun m p j h => p.analyze_of_not_distinct h j, fun m p h => ?_⟩
  obtain ⟨d, hd⟩ := Declarations.exists_ofRecords_iff (m := m).mpr h
  -- neither the checked program nor the findings depend on the journal
  let checked := (p.mapTypes m.normalize).check d
  refine ⟨checked.value, checked.diagnostics, fun j hj => ?_⟩
  obtain ⟨hprogram, hjournal⟩ := Program.analyze_of_ofRecords hd j
  have hentries : (p.analyze m j).journal.entries = j.entries ++ checked.diagnostics := by
    rw [hjournal, Program.journal_pass, Journal.entries_recordAll]
  -- the flag of the journal says whether an error is among its entries, the earlier ones included
  have hfails := (hj.exact.analyze m p).hasErrors_eq_false_iff
  have houtcome := Program.outcome_analyze_of_ofRecords hd j
  rw [Program.outcome_pass, ← hjournal] at houtcome
  refine ⟨hprogram, hentries, ?_, ?_⟩
  · rw [← hentries, ← hfails, houtcome]
    cases (p.analyze m j).journal.hasErrors with
    | true => exact ⟨nofun, nofun⟩
    | false => exact ⟨fun _ => rfl, fun _ => rfl⟩
  · intro hne
    rw [houtcome] at hne ⊢
    cases herr : (p.analyze m j).journal.hasErrors with
    | true => rfl
    | false =>
      rw [herr] at hne
      exact absurd rfl hne

/-- The check of `narrowing` warns once. After an earlier error this is what it fails with. -/
theorem analysis_outcome_after_any_history_narrowing :
    let j := Journal.empty.record ⟨.error, "unreadable", none⟩
    j.Reached ∧ Declarations.Distinct narrowing.records ∧
      (narrowing.analyze .lp64 .empty).outcome = .ok () ∧
      (narrowing.analyze .lp64 j).outcome = .error (.rejected 0 1) ∧
      (narrowing.analyze .lp64 j).program = (narrowing.analyze .lp64 .empty).program ∧
      (narrowing.analyze .lp64 j).journal.entries =
        j.entries ++ (narrowing.analyze .lp64 .empty).journal.entries := by
  intro j
  have hj : j.Reached := .note .empty .error "unreadable"
  have hd : Declarations.Distinct narrowing.records := ⟨List.nodup_nil, List.forall_mem_nil _⟩
  obtain ⟨q, xs, h⟩ := analysis_outcome_after_any_history.2.2 .lp64 narrowing hd
  obtain ⟨hp, hx, hok, hfails⟩ := h j hj
  obtain ⟨hp₀, hx₀, hok₀, -⟩ := h .empty .empty
  obtain rfl : (narrowing.analyze .lp64 .empty).journal.entries = xs := hx₀
  refine ⟨hj, hd, hok₀.mpr (by decide), ?_, hp.trans hp₀.symm, hx⟩
  rw [hfails fun hpassed => absurd (hok.mp hpassed) (by decide)]
  decide

end CTyping
