import CTyping.Command.Run
import CTyping.Proofs.Document.Program
import CTyping.Proofs.History

/-!
# All or nothing

A checked program is handed on only if there is no error in it, and then as a whole. This is so for
a report on a document (`CTyping.Report.Delivers`), where the counts, the list of diagnostics and
the program come by different ways and agree. And it is so for the command, which succeeds exactly
when its report does, and writes a file then only; for this files are taken to be read and written
without failure (`CTyping.Files.reliable`).
-/

namespace CTyping

/-! ### Reports -/

/-- What a report owes to those who read it. The program is there, all of it and checked, exactly if
no error was found, and the numbers are those of the list. -/
structure Report.Delivers (r : Report) (m : DataModel) (p : Program) : Prop where
  passed_iff : r.passed = true ↔ r.errors = 0
  program_iff : r.errors = 0 ↔ ∃ q, r.program = some q
  errors : r.errors = r.diagnostics.countP Diagnostic.isError
  warnings : r.warnings = r.diagnostics.countP fun x => !x.isError
  found : r.diagnostics = (p.analyze m .empty).journal.entries
  /-- The program that is given is the one that was read, laid out for the data model, with nothing
  but types and conversions added, and no type or conversion is missing in it. -/
  checked : ∀ q, r.program = some q → q = (p.analyze m .empty).program ∧
    q.unconvert.untyped = (p.mapTypes m.normalize).unconvert.untyped ∧ q.isFullyTyped = true ∧
    ∃ d, Declarations.ofRecords m p.records = .ok d ∧ q.Explicit d

section Documents

variable {m : DataModel} {source : String} {p : Program} {d : Declarations}

theorem Program.ofDocument?_document (h : p.toJson.depth ≤ Program.maxLevels) :
    Program.ofDocument? p.document = some p := by
  rw [Program.ofDocument?, Program.document, Json.parse?_pretty, Option.bind_some]
  exact (Program.inverts_decoder Program.maxLevels p).eq_some h

theorem Program.read_of_ofDocument? (h : Program.ofDocument? source = some p) :
    Program.read source = .ok p := by
  rw [Program.read, h]

/-- The report on a document whose program can be analysed. -/
theorem Report.ofDocument_of_ofRecords (hp : Program.ofDocument? source = some p)
    (hd : Declarations.ofRecords m p.records = .ok d) :
    ∃ r, Report.ofDocument m source = .ok r ∧
      r.errors = (p.analyze m .empty).journal.errors ∧
      r.warnings = (p.analyze m .empty).journal.warnings ∧
      r.diagnostics = (p.analyze m .empty).journal.entries ∧
      r.program = if (p.analyze m .empty).journal.hasErrors then none
        else some (p.analyze m .empty).program := by
  -- the analysis ends with an error exactly if its journal has one
  have houtcome := Program.outcome_analyze_of_ofRecords hd .empty
  rw [Program.outcome_pass, ← (Program.analyze_of_ofRecords hd .empty).2] at houtcome
  rw [Report.ofDocument, Program.analyzeDocument, Program.read_of_ofDocument? hp]
  simp only [houtcome]
  cases (p.analyze m .empty).journal.hasErrors with
  | true => exact ⟨_, rfl, rfl, rfl, rfl, rfl⟩
  | false => exact ⟨_, rfl, rfl, rfl, rfl, rfl⟩

theorem Report.ofDocument_of_not_distinct (hp : Program.ofDocument? source = some p)
    (h : ¬Declarations.Distinct p.records) :
    ∃ failure, Report.ofDocument m source = .error failure := by
  obtain ⟨⟨text, ht⟩, -, -⟩ := p.analyze_of_not_distinct (m := m) h .empty
  refine ⟨.invalidInput text, ?_⟩
  rw [Report.ofDocument, Program.analyzeDocument, Program.read_of_ofDocument? hp]
  simp only [ht, Except.map]

theorem Report.ofDocument_of_unreadable (h : Program.ofDocument? source = none) :
    ∃ failure, Report.ofDocument m source = .error failure := by
  refine ⟨.invalidInput "malformed AST", ?_⟩
  rw [Report.ofDocument, Program.analyzeDocument, Program.read, h]

/-- **A program that is given is complete**: nothing is missing in what an analysis leaves, if there
is no error in its journal. -/
theorem Program.explicit_analyze (hd : Declarations.ofRecords m p.records = .ok d)
    (h : (p.analyze m .empty).journal.errors = 0) : (p.analyze m .empty).program.Explicit d := by
  obtain ⟨hprogram, hjournal⟩ := Program.analyze_of_ofRecords hd .empty
  rw [hjournal] at h
  rw [hprogram]
  exact Program.explicit_of_clean (Program.errors_pass_iff.mp h)

theorem Report.delivers (hp : Program.ofDocument? source = some p)
    (hd : Declarations.ofRecords m p.records = .ok d) :
    ∃ r, Report.ofDocument m source = .ok r ∧ r.Delivers m p := by
  obtain ⟨r, hr, herrors, hwarnings, hentries, hprogram⟩ := Report.ofDocument_of_ofRecords hp hd
  have hexact := Journal.exact_empty.analyze m p
  -- the program is there unless the counter of errors has moved
  have hnone : r.errors = 0 ↔ (p.analyze m .empty).journal.hasErrors = false := by
    rw [herrors, Journal.hasErrors, decide_eq_false_iff_not, Nat.not_lt, Nat.le_zero]
  have hsome : r.errors = 0 ↔ ∃ q, r.program = some q := by
    rw [hnone, hprogram]
    cases (p.analyze m .empty).journal.hasErrors with
    | true => simp
    | false => simp
  refine ⟨r, hr, ?_, hsome, ?_, ?_, hentries, fun q hq => ?_⟩
  · rw [hsome, Report.passed, Option.isSome_iff_exists]
  · rw [herrors, hentries, hexact.errors]
  · rw [hwarnings, hentries, hexact.warnings]
  · have hclean := hsome.mpr ⟨q, hq⟩
    rw [hprogram, hnone.mp hclean] at hq
    obtain rfl : (p.analyze m .empty).program = q := Option.some.inj hq
    obtain ⟨hleft, -⟩ := Program.analyze_of_ofRecords hd .empty
    refine ⟨rfl, ?_, ?_, d, hd, Program.explicit_analyze hd (herrors ▸ hclean)⟩
    · rw [hleft]
      exact Program.untyped_unconvert_pass d _ .empty
    · rw [hleft]
      exact Program.isFullyTyped_pass d _ .empty

/-- A document fails without a report exactly if it cannot be read or its declarations contradict
each other. -/
theorem Report.ofDocument_fails_iff :
    (∃ failure, Report.ofDocument m source = .error failure) ↔
      Program.ofDocument? source = none ∨
        ∃ p, Program.ofDocument? source = some p ∧ ¬Declarations.Distinct p.records := by
  constructor
  · rintro ⟨failure, hf⟩
    cases hp : Program.ofDocument? source with
    | none => exact Or.inl rfl
    | some p =>
      refine Or.inr ⟨p, rfl, fun h => ?_⟩
      obtain ⟨d, hd⟩ := Declarations.exists_ofRecords_iff (m := m).mpr h
      obtain ⟨r, hr, -⟩ := Report.delivers hp hd
      rw [hr] at hf
      cases hf
  · rintro (h | ⟨p, hp, h⟩)
    · exact Report.ofDocument_of_unreadable h
    · exact Report.ofDocument_of_not_distinct hp h

/-- **A report is given in full**, on the program that was read. -/
theorem Report.delivers_of_ofDocument {r : Report} (hr : Report.ofDocument m source = .ok r) :
    ∃ p, Program.ofDocument? source = some p ∧ r.Delivers m p := by
  have hn : ¬∃ failure, Report.ofDocument m source = .error failure := by
    rintro ⟨failure, hf⟩
    rw [hr] at hf
    cases hf
  -- what makes a document fail is excluded, so the report is the one of its analysis
  rw [Report.ofDocument_fails_iff, not_or] at hn
  obtain ⟨p, hp⟩ := Option.ne_none_iff_exists'.mp hn.1
  have h : Declarations.Distinct p.records := by
    by_contra h
    exact hn.2 ⟨p, hp, h⟩
  obtain ⟨d, hd⟩ := Declarations.exists_ofRecords_iff (m := m).mpr h
  obtain ⟨r', hr', hdelivers⟩ := Report.delivers hp hd
  obtain rfl : r = r' := Except.ok.inj (hr.symm.trans hr')
  exact ⟨p, hp, hdelivers⟩

end Documents

/-! ### The command -/

/-- Access to files that does not fail. -/
def Files.reliable {M : Type → Type} [Monad M] (read : String → M String)
    (write : String → String → M Unit) : Files M where
  read path := Except.ok <$> read path
  write path text := Except.ok <$> write path text

namespace Options

variable (o : Options) (source : String)

/-- How the command ends for a document. -/
def answer : Outcome :=
  match Report.ofDocument o.target source with
  | .error failure => ⟨false, "", failureText ("failed to check " ++ o.input) failure.message⟩
  | .ok r => o.present r

/-- The file that the command writes for a document: its path, and what is in it. -/
def delivery : Option (String × String) :=
  match Report.ofDocument o.target source with
  | .error _ => none
  | .ok r => r.program.bind fun p => o.output.map fun path => (path, p.document)

/-- **What the command does**, where files can be read and written: it reads one file, writes at
most one, and ends. -/
theorem run_reliable {M : Type → Type} [Monad M] [LawfulMonad M] (read : String → M String)
    (write : String → String → M Unit) :
    o.run (.reliable read write) = (do
      let source ← read o.input
      match o.delivery source with
      | none => pure ()
      | some (path, text) => write path text
      return o.answer source) := by
  simp only [run, Files.reliable, bind_map_left]
  congr 1
  funext source
  unfold delivery answer
  cases Report.ofDocument o.target source with
  | error failure => simp
  | ok r =>
    cases hp : r.program with
    | none => simp [hp]
    | some p =>
      cases ho : o.output with
      | none => simp [hp]
      | some path => simp [hp]

theorem success_present (r : Report) : (o.present r).success = r.passed := by
  unfold present
  split <;> rfl

theorem success_answer_iff :
    (o.answer source).success = true ↔
      ∃ r, Report.ofDocument o.target source = .ok r ∧ r.passed = true := by
  unfold answer
  cases Report.ofDocument o.target source with
  | error failure => exact ⟨nofun, fun ⟨_, h, _⟩ => nomatch h⟩
  | ok r =>
    simp only [success_present]
    exact ⟨fun h => ⟨r, rfl, h⟩, fun ⟨_, hr, h⟩ => Except.ok.inj hr ▸ h⟩

theorem delivery_eq_some_iff {path text : String} :
    o.delivery source = some (path, text) ↔ o.output = some path ∧
      ∃ r p, Report.ofDocument o.target source = .ok r ∧ r.program = some p ∧
        text = p.document := by
  unfold delivery
  cases Report.ofDocument o.target source with
  | error failure => exact ⟨nofun, fun ⟨_, _, _, h, _⟩ => nomatch h⟩
  | ok r =>
    simp only [Option.bind_eq_some_iff, Option.map_eq_some_iff, Prod.mk.injEq]
    constructor
    · rintro ⟨p, hp, path, ho, rfl, rfl⟩
      exact ⟨ho, r, p, rfl, hp, rfl⟩
    · rintro ⟨ho, _, p, ⟨⟩, hp, rfl⟩
      exact ⟨p, hp, path, ho, rfl, rfl⟩

end Options

/-- **Delivery is all or nothing.** A document fails without a report exactly if it cannot be read
or its declarations contradict each other. Otherwise its report gives the program exactly if it
counts no error, counts what it lists, and gives nothing but a complete program. The command, where
files can be read and written, succeeds exactly if its report does, and writes a file exactly if the
report gives a program and a path was given for it; what it writes there is the document of that
program. -/
theorem delivery_is_all_or_nothing :
    (∀ (m : DataModel) (source : String),
        (∃ failure, Report.ofDocument m source = .error failure) ↔
          Program.ofDocument? source = none ∨
            ∃ p, Program.ofDocument? source = some p ∧ ¬Declarations.Distinct p.records) ∧
      (∀ (m : DataModel) (source : String) (r : Report), Report.ofDocument m source = .ok r →
        ∃ p, Program.ofDocument? source = some p ∧ r.Delivers m p) ∧
      ∀ (M : Type → Type) [Monad M] [LawfulMonad M] (read : String → M String)
        (write : String → String → M Unit) (o : Options),
        o.run (.reliable read write) = (do
          let source ← read o.input
          match o.delivery source with
          | none => pure ()
          | some (path, text) => write path text
          return o.answer source) ∧
        ∀ source, ((o.answer source).success = true ↔
            ∃ r, Report.ofDocument o.target source = .ok r ∧ r.passed = true) ∧
          ∀ path text, o.delivery source = some (path, text) ↔ o.output = some path ∧
            ∃ r p, Report.ofDocument o.target source = .ok r ∧ r.program = some p ∧
              text = p.document := by
  refine ⟨fun m source => Report.ofDocument_fails_iff,
    fun m source r hr => Report.delivers_of_ofDocument hr, fun M _ _ read write o => ?_⟩
  refine ⟨o.run_reliable read write, fun source => ⟨o.success_answer_iff source, ?_⟩⟩
  exact fun path text => o.delivery_eq_some_iff source

/-- The command on the document of `narrowing`, where the files that it writes are listed. -/
theorem delivery_is_all_or_nothing_narrowing :
    let o : Options := ⟨"in.json", .lp64, .text, some "out.json", false⟩
    let files : Files (StateM (List (String × String))) :=
      .reliable (fun _ => pure narrowing.document) fun path text => modify ((path, text) :: ·)
    ∃ shown : Outcome, shown.success = true ∧
      (o.run files).run [] =
        (shown, [("out.json", (narrowing.analyze .lp64 .empty).program.document)]) := by
  intro o files
  obtain ⟨hfails, hreports, hcommand⟩ := delivery_is_all_or_nothing
  have hread : Program.ofDocument? narrowing.document = some narrowing :=
    Program.ofDocument?_document (by decide)
  cases hr : Report.ofDocument .lp64 narrowing.document with
  | error failure =>
    rcases (hfails .lp64 narrowing.document).mp ⟨failure, hr⟩ with h | ⟨p, hp, h⟩
    · rw [hread] at h
      cases h
    · obtain rfl : narrowing = p := Option.some.inj (hread.symm.trans hp)
      exact absurd ⟨List.nodup_nil, List.forall_mem_nil _⟩ h
  | ok r =>
    obtain ⟨p, hp, hdelivers⟩ := hreports .lp64 narrowing.document r hr
    obtain rfl : narrowing = p := Option.some.inj (hread.symm.trans hp)
    have hclean : r.errors = 0 := by
      rw [hdelivers.errors, hdelivers.found]
      decide
    obtain ⟨q, hq⟩ := hdelivers.program_iff.mp hclean
    obtain ⟨rfl, -⟩ := hdelivers.checked q hq
    obtain ⟨hrun, hends⟩ := hcommand (StateM (List (String × String)))
      (fun _ => pure narrowing.document)
      (fun path text => modify ((path, text) :: ·)) o
    obtain ⟨hsuccess, hwritten⟩ := hends narrowing.document
    refine ⟨o.answer narrowing.document,
      hsuccess.mpr ⟨r, hr, hdelivers.passed_iff.mpr hclean⟩, ?_⟩
    rw [hrun, pure_bind, (hwritten "out.json" _).mpr ⟨rfl, r, _, hr, hq, rfl⟩]
    rfl

end CTyping
