import CTyping.Proofs.Checker.Coverage
import CTyping.Proofs.Checker.Lookup

/-!
# A program checked in pieces

Nothing is carried over from one variable or function to the next. So a program may be divided into
consecutive pieces (`CTyping.Program.Division`), each piece checked by itself and from an empty
journal, and the results put together: this gives what one pass over the whole gives. Divided into
single variables and functions (`CTyping.Program.items`), it follows that another order of them only
leads to another order of the results; and since declarations are only looked up, their order leads
to nothing else at all.
-/

namespace CTyping

/-! ### Journals put together -/

namespace Journal

/-- Adds what passes have recorded, one pass after the other. -/
def mergeAll (j : Journal) (xs : List Pass) : Journal := xs.foldl (fun k x => k.merge x.journal) j

/-- Merging journals records their entries one after another. -/
theorem mergeAll_eq (j : Journal) (xs : List Pass) :
    j.mergeAll xs = j.recordAll (xs.flatMap fun x => x.journal.entries) := by
  induction xs generalizing j with
  | nil => rfl
  | cons x xs ih => exact (ih (j.merge x.journal)).trans (j.recordAll_append _ _).symm

end Journal

@[simp] theorem Traced.diagnostics_map {α β : Type} (f : α → β) (x : Traced α) :
    (f <$> x).diagnostics = x.diagnostics := by
  simp only [map_eq_pure_bind, diagnostics_bind, diagnostics_pure, List.append_nil]

/-- Checking a list reports what checking each of it reports, in their order. -/
theorem Traced.diagnostics_mapM {α β : Type} (f : α → Traced β) (as : List α) :
    (as.mapM f).diagnostics = as.flatMap fun a => (f a).diagnostics := by
  induction as with
  | nil => rfl
  | cons a as ih => simp [ih]

namespace Program

variable {d d' : Declarations} {p q : Program} {j : Journal}

/-- **What a check finds, it finds item by item.** -/
theorem diagnostics_check (d : Declarations) (p : Program) :
    (p.check d).diagnostics =
      p.globals.flatMap (fun v => (v.check d).diagnostics) ++
        p.functions.flatMap fun f => (f.check d).diagnostics := by
  simp [check, Variable.checkList_eq, Function.checkList_eq, Traced.diagnostics_mapM]

/-- Passes that count alike end alike. -/
theorem outcome_pass_congr (herrors : (p.pass d j).journal.errors = (q.pass d' j).journal.errors)
    (hwarnings : (p.pass d j).journal.warnings = (q.pass d' j).journal.warnings) :
    (p.pass d j).outcome = (q.pass d' j).outcome := by
  have h : ∀ (d : Declarations) (p : Program), (p.pass d j).outcome =
      if 0 < (p.pass d j).journal.errors then
        .error (.rejected ((p.pass d j).journal.errors - j.errors)
          ((p.pass d j).journal.warnings - j.warnings))
      else .ok () := by
    intro d p
    rw [pass, Journal.hasErrors]
    simp only [decide_eq_true_eq]
  rw [h, h, herrors, hwarnings]

/-! ### Pieces -/

/-- A program of variables only. -/
def ofGlobals (vs : List Variable) : Program := ⟨[], vs, []⟩

/-- A program of functions only. -/
def ofFunctions (fs : List Function) : Program := ⟨[], [], fs⟩

/-- A division of the variables and of the functions of a program into consecutive pieces. -/
structure Division (p : Program) where
  globals : List (List Variable)
  functions : List (List Function)
  flatten_globals : globals.flatten = p.globals
  flatten_functions : functions.flatten = p.functions

namespace Division

/-- The pieces, each a program of its own; those with variables come first. -/
def pieces (c : p.Division) : List Program :=
  c.globals.map ofGlobals ++ c.functions.map ofFunctions

/-- The passes over the pieces, each from an empty journal. -/
def passes (d : Declarations) (c : p.Division) : List Pass := c.pieces.map (·.pass d .empty)

end Division

/-- The variables and the functions that passes leave, one pass after the other. -/
def join (records : List Record) (xs : List Pass) : Program where
  records := records
  globals := xs.flatMap (·.program.globals)
  functions := xs.flatMap (·.program.functions)

/-- The pieces of a division report what the program does, one after another. -/
theorem flatMap_diagnostics_pieces (d : Declarations) (c : p.Division) :
    (c.pieces.flatMap fun q => (q.check d).diagnostics) = (p.check d).diagnostics := by
  simp only [Division.pieces, List.flatMap_append, List.flatMap_map, diagnostics_check, ofGlobals,
    ofFunctions, List.flatMap_nil, List.append_nil, List.nil_append]
  rw [← c.flatten_globals, ← c.flatten_functions, List.flatten_eq_flatMap,
    List.flatten_eq_flatMap, List.flatMap_assoc, List.flatMap_assoc]
  rfl

/-- Passes over the pieces leave together the program that one pass over the whole leaves. -/
theorem program_pass_pieces (d : Declarations) (c : p.Division) (j : Journal) :
    (p.pass d j).program = join p.records (c.passes d) := by
  simp only [join, Division.passes, Division.pieces, List.flatMap_map, List.flatMap_append,
    program_pass, value_check, ofGlobals, ofFunctions, List.map_nil]
  rw [← c.flatten_globals, ← c.flatten_functions, List.map_flatten, List.map_flatten]
  simp [List.flatMap]

/-- Passes over the pieces record together what one pass over the whole records. -/
theorem journal_pass_pieces (d : Declarations) (c : p.Division) (j : Journal) :
    (p.pass d j).journal = j.mergeAll (c.passes d) := by
  rw [Journal.mergeAll_eq, journal_pass, Division.passes, List.flatMap_map]
  simp only [entries_pass]
  rw [flatMap_diagnostics_pieces]

/-! ### Single items -/

/-- The division of a program into single variables and functions. -/
def items (p : Program) : p.Division where
  globals := p.globals.map fun v => [v]
  functions := p.functions.map fun f => [f]
  flatten_globals := by simp [← List.flatMap_def]
  flatten_functions := by simp [← List.flatMap_def]

section Order

variable (hg : p.globals.Perm q.globals) (hf : p.functions.Perm q.functions)

include hg hf

/-- The passes over the items of two programs are the same up to order if the items are. -/
theorem perm_passes_items (d : Declarations) : (p.items.passes d).Perm (q.items.passes d) := by
  simp only [Division.passes, Division.pieces, items, List.map_append, List.map_map]
  exact (hg.map _).append (hf.map _)

/-- The findings of two programs are the same up to order if the items are. -/
theorem perm_diagnostics_check (d : Declarations) :
    (p.check d).diagnostics.Perm (q.check d).diagnostics := by
  rw [diagnostics_check, diagnostics_check]
  exact (hg.flatMap_right _).append (hf.flatMap_right _)

/-- Another order of variables and functions leads to another order of what a pass leaves. -/
theorem perm_pass (d : Declarations) (j : Journal) :
    (p.pass d j).program.globals.Perm (q.pass d j).program.globals ∧
      (p.pass d j).program.functions.Perm (q.pass d j).program.functions ∧
      (p.pass d j).journal.entries.Perm (q.pass d j).journal.entries := by
  simp only [program_pass, value_check, journal_pass, Journal.entries_recordAll]
  exact ⟨hg.map _, hf.map _, (perm_diagnostics_check hg hf d).append_left _⟩

/-- The order of variables and functions does not matter to how a pass ends. -/
theorem outcome_pass_perm (d : Declarations) (j : Journal) :
    (p.pass d j).outcome = (q.pass d j).outcome := by
  have hperm := perm_diagnostics_check hg hf d
  apply outcome_pass_congr
  · rw [journal_pass, journal_pass, Journal.errors_recordAll, Journal.errors_recordAll,
      hperm.countP_eq]
  · rw [journal_pass, journal_pass, Journal.warnings_recordAll, Journal.warnings_recordAll,
      hperm.countP_eq]

end Order

/-! ### Declarations -/

/-- A pass does not look at the declarations that the program itself makes. -/
theorem pass_withRecords (d : Declarations) (p : Program) (rs : List Record) (j : Journal) :
    (p.pass d j).journal = ({ p with records := rs }.pass d j).journal ∧
      (p.pass d j).outcome = ({ p with records := rs }.pass d j).outcome := by
  have hd : (p.check d).diagnostics = ({ p with records := rs }.check d).diagnostics := by
    rw [diagnostics_check, diagnostics_check]
  have hj : (p.pass d j).journal = ({ p with records := rs }.pass d j).journal := by
    rw [journal_pass, journal_pass, hd]
  exact ⟨hj, outcome_pass_congr (by rw [hj]) (by rw [hj])⟩

/-- The order of the declarations does not matter to an analysis, where each has an id of its
own. -/
theorem analyze_perm_records (m : DataModel) {rs : List Record} (hp : p.records.Perm rs)
    (h : Declarations.Distinct p.records) (j : Journal) :
    (p.analyze m j).outcome = ({ p with records := rs }.analyze m j).outcome ∧
      (p.analyze m j).journal = ({ p with records := rs }.analyze m j).journal ∧
      (p.analyze m j).program.globals = ({ p with records := rs }.analyze m j).program.globals ∧
      (p.analyze m j).program.functions =
        ({ p with records := rs }.analyze m j).program.functions := by
  obtain ⟨d, d', hd, hd', hi⟩ := Declarations.ofRecords_perm (m := m) h hp
  obtain ⟨hprogram, hjournal⟩ := analyze_of_ofRecords hd j
  obtain ⟨hprogram', hjournal'⟩ := analyze_of_ofRecords (p := { p with records := rs }) hd' j
  -- the declarations are made in another order, but the same is found in them
  have hpass : (p.mapTypes m.normalize).pass d j = (p.mapTypes m.normalize).pass d' j := by
    rw [pass, pass, hi.check]
  have hrecords : ({ p with records := rs } : Program).mapTypes m.normalize =
      { p.mapTypes m.normalize with records := rs.map (Record.mapTypes m.normalize) } := rfl
  obtain ⟨hj, ho⟩ := pass_withRecords d' (p.mapTypes m.normalize)
    (rs.map (Record.mapTypes m.normalize)) j
  have houtcome := outcome_analyze_of_ofRecords hd j
  have houtcome' := outcome_analyze_of_ofRecords (p := { p with records := rs }) hd' j
  rw [houtcome, houtcome', hprogram, hprogram', hjournal, hjournal', hpass, hrecords]
  refine ⟨ho, hj, ?_, ?_⟩
  · rw [program_pass, program_pass, value_check, value_check]
  · rw [program_pass, program_pass, value_check, value_check]

end Program

/-- **Items are checked independently.** A pass over a program leaves and records what passes over
the pieces of any division of it do, each from an empty journal and put together in order. So
another order of the variables or of the functions leads to another order of the checked items with
what is recorded for each, and the pass ends as it did; and another order of the declarations, each
with an id of its own, leads to the same analysis. -/
theorem items_are_checked_independently :
    (∀ (d : Declarations) (p : Program) (j : Journal) (c : p.Division),
        (p.pass d j).program = .join p.records (c.passes d) ∧
          (p.pass d j).journal = j.mergeAll (c.passes d)) ∧
      (∀ (d : Declarations) (p q : Program) (j : Journal),
        p.globals.Perm q.globals → p.functions.Perm q.functions →
          (p.items.passes d).Perm (q.items.passes d) ∧
            (p.pass d j).program.globals.Perm (q.pass d j).program.globals ∧
            (p.pass d j).program.functions.Perm (q.pass d j).program.functions ∧
            (p.pass d j).journal.entries.Perm (q.pass d j).journal.entries ∧
            (p.pass d j).outcome = (q.pass d j).outcome) ∧
      ∀ (m : DataModel) (p : Program) (rs : List Record) (j : Journal),
        p.records.Perm rs → Declarations.Distinct p.records →
          (p.analyze m j).outcome = ({ p with records := rs }.analyze m j).outcome ∧
            (p.analyze m j).journal = ({ p with records := rs }.analyze m j).journal ∧
            (p.analyze m j).program.globals =
              ({ p with records := rs }.analyze m j).program.globals ∧
            (p.analyze m j).program.functions =
              ({ p with records := rs }.analyze m j).program.functions := by
  refine ⟨fun d p j c => ⟨p.program_pass_pieces d c j, p.journal_pass_pieces d c j⟩,
    fun d p q j hg hf => ?_, fun m p rs j hp h => p.analyze_perm_records m hp h j⟩
  obtain ⟨hglobals, hfunctions, hentries⟩ := p.perm_pass hg hf d j
  exact ⟨p.perm_passes_items hg hf d, hglobals, hfunctions, hentries,
    p.outcome_pass_perm hg hf d j⟩

/-- A program with two declarations, two variables and two functions: the first variable is
narrowed, the second has a struct for its value, and one function reads a member of each struct. -/
def crossed : Program :=
  let char := DataModel.lp64.char
  let long := DataModel.lp64.integer .long true
  let a : Expr := .var .blank "a" (.struct ⟨0, "a"⟩)
  let b : Expr := .var .blank "b" (.struct ⟨1, "b"⟩)
  { records := [⟨1, "b", false, [⟨"m", char⟩]⟩, ⟨0, "a", false, [⟨"m", long⟩]⟩]
    globals := [⟨"c", char, some (.sizeofExpr .blank b), false, true, none, .unknown⟩,
      ⟨"l", long, some a, false, true, none, .unknown⟩]
    functions := [
      ⟨"f", false, char, [], false, ⟨[], [.returns .unknown none]⟩, .unknown⟩,
      ⟨"g", false, long, [], false, ⟨[], [.returns .unknown (some
        (.binary .blank .add (.member .blank a "m") (.member .blank b "m")))]⟩, .unknown⟩] }

theorem items_are_checked_independently_crossed :
    (crossed.analyze .lp64 .empty).journal.errors = 2 ∧
      (crossed.analyze .lp64 .empty).journal.warnings = 1 ∧
      (crossed.analyze .lp64 .empty).journal =
        ({ crossed with records := crossed.records.reverse }.analyze .lp64 .empty).journal ∧
      (crossed.pass (.empty .lp64) .empty).journal =
        Journal.empty.mergeAll (crossed.items.passes (.empty .lp64)) ∧
      (crossed.pass (.empty .lp64) .empty).outcome =
        ({ crossed with functions := crossed.functions.reverse }.pass (.empty .lp64)
          .empty).outcome := by
  obtain ⟨hpieces, horder, hrecords⟩ := items_are_checked_independently
  refine ⟨by decide, by decide, ?_, (hpieces _ _ _ crossed.items).2, ?_⟩
  · exact (hrecords .lp64 crossed _ .empty (List.reverse_perm _).symm ⟨by decide, by decide⟩).2.1
  · exact (horder _ crossed { crossed with functions := crossed.functions.reverse } .empty
      (List.Perm.refl _) (List.reverse_perm _).symm).2.2.2.2

end CTyping
