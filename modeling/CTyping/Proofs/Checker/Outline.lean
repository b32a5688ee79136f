import CTyping.Proofs.Checker.Pieces
import CTyping.Proofs.Checker.Simulation
import CTyping.Proofs.Checker.Slots

/-!
# Checking programs of one outline

Programs of one outline are checked alike (`CTyping.Program.Alike.check_outline`). How places are
related is left open all the way, so one simulation gives two results. Between two programs it says
that nothing depends on places, storage, names or values; between a program and itself, that all
places of diagnostics are places in the program.
-/

namespace CTyping

/-! ### Expressions and variables -/

section Simulation

variable (d : Declarations) {Q : Span → Span → Prop}

mutual

/-- **Expressions of one outline are resolved alike.** -/
theorem Expr.Alike.resolve_outline : ∀ {e e' : Expr}, e.Alike (.outline Q) e' →
    (e.resolve d).Alike Q (Expr.Alike (.outline Q)) (e'.resolve d)
  | _, _, .intLit hi hv ht => by
    rw [Expr.resolve, Expr.resolve]
    exact .pure (.intLit (hi.fill ht) hv ht)
  | _, _, .strLit hi hs => by
    rw [Expr.resolve, Expr.resolve]
    exact .pure (.strLit (hi.fill rfl) hs)
  | _, _, .var hi hn ht => by
    rw [Expr.resolve, Expr.resolve]
    exact .pure (.var (hi.fill ht) hn ht)
  | _, _, .unary hi he => by
    rw [Expr.resolve, Expr.resolve]
    refine he.resolve_outline.bind fun _ _ he => ?_
    exact (Check.unary_alike _ _ he).bind_same fun _ => .pure (.unary (hi.fill rfl) he)
  | _, _, .step hi he => by
    rw [Expr.resolve, Expr.resolve]
    refine he.resolve_outline.bind fun _ _ he => ?_
    exact (Check.step_alike he).bind_same fun _ => .pure (.step (hi.fill rfl) he)
  | _, _, .addressOf hi he => by
    rw [Expr.resolve, Expr.resolve]
    refine he.resolve_outline.bind fun _ _ he => ?_
    exact (Check.addressOf_alike hi.span he).bind_same fun _ => .pure (.addressOf (hi.fill rfl) he)
  | _, _, .deref hi he => by
    rw [Expr.resolve, Expr.resolve]
    refine he.resolve_outline.bind fun _ _ he => ?_
    exact (Check.deref_alike hi.span he).bind_same fun _ => .pure (.deref (hi.fill rfl) he)
  | _, _, .binary hi hl hr => by
    rw [Expr.resolve, Expr.resolve]
    refine hl.resolve_outline.bind fun _ _ hl => hr.resolve_outline.bind fun _ _ hr => ?_
    refine (Check.binary_alike _ _ hi.span hl hr).bind fun _ _ h => ?_
    exact .pure (.binary (hi.fill h.2.2) h.1 h.2.1)
  | _, _, .assign hi hl hr => by
    rw [Expr.resolve, Expr.resolve]
    refine hl.resolve_outline.bind fun _ _ hl => hr.resolve_outline.bind fun _ _ hr => ?_
    refine (Check.assign_alike _ hi.span hl hr).bind fun _ _ h => ?_
    exact .pure (.assign (hi.fill h.2) hl h.1)
  | _, _, .cond hi hc hx hy => by
    rw [Expr.resolve, Expr.resolve]
    refine hc.resolve_outline.bind fun _ _ hc => hx.resolve_outline.bind fun _ _ hx =>
      hy.resolve_outline.bind fun _ _ hy => ?_
    refine (Check.cond_alike hi.span hc hx hy).bind fun _ _ h => ?_
    exact .pure (.cond (hi.fill h.2.2) hc h.1 h.2.1)
  | _, _, .call hi hf has => by
    rw [Expr.resolve, Expr.resolve, has.length_eq]
    refine hf.resolve_outline.bind fun _ _ hf => ?_
    refine (Check.call_alike hi.span hf _).bind_same fun x => ?_
    exact (Expr.Alike.resolveArgs_outline has x.1).bind fun _ _ has =>
      .pure (.call (hi.fill rfl) hf has)
  | _, _, .index hi hb hx => by
    rw [Expr.resolve, Expr.resolve]
    refine hb.resolve_outline.bind fun _ _ hb => ?_
    refine (Check.element_alike hi.span hb).bind_same fun o => ?_
    refine hx.resolve_outline.bind fun _ _ hx => ?_
    exact (Check.index_alike o hx).bind_same fun _ => .pure (.index (hi.fill rfl) hb hx)
  | _, _, .member hi hb => by
    rw [Expr.resolve, Expr.resolve]
    refine hb.resolve_outline.bind fun _ _ hb => ?_
    rw [hb.type_eq]
    exact (Check.member_alike d hi.span _ _).bind_same fun _ => .pure (.member (hi.fill rfl) hb)
  | _, _, .arrow hi hb => by
    rw [Expr.resolve, Expr.resolve]
    refine hb.resolve_outline.bind fun _ _ hb => ?_
    rw [hb.type_eq]
    exact (Check.arrow_alike d hi.span _ _).bind_same fun _ => .pure (.arrow (hi.fill rfl) hb)
  | _, _, .cast hi rfl he => by
    rw [Expr.resolve, Expr.resolve]
    refine he.resolve_outline.bind fun _ _ he => ?_
    exact (Check.cast_alike hi.span _ _ he).bind_same fun _ => .pure (.cast (hi.fill rfl) rfl he)
  | _, _, .sizeofType hi ht => by
    rw [Expr.resolve, Expr.resolve]
    exact .pure (.sizeofType (hi.fill rfl) ht)
  | _, _, .sizeofExpr hi he => by
    rw [Expr.resolve, Expr.resolve]
    exact he.resolve_outline.bind fun _ _ he => .pure (.sizeofExpr (hi.fill rfl) he)

/-- Arguments that are alike in outline stay so, one by one. -/
theorem Expr.Alike.resolveArgs_outline : ∀ {as bs : List Expr},
    List.Forall₂ (Expr.Alike (.outline Q)) as bs → ∀ params,
      (Expr.resolveArgs d params as).Alike Q (List.Forall₂ (Expr.Alike (.outline Q)))
        (Expr.resolveArgs d params bs)
  | _, _, .nil, _ => ⟨.nil, .nil⟩
  | _, _, .cons h hs, [] => by
    rw [Expr.resolveArgs, Expr.resolveArgs]
    refine h.resolve_outline.bind fun _ _ h => ?_
    exact (Expr.Alike.resolveArgs_outline hs []).bind fun _ _ hs => .pure (.cons h hs)
  | _, _, .cons h hs, p :: ps => by
    rw [Expr.resolveArgs, Expr.resolveArgs]
    refine h.resolve_outline.bind fun _ _ h => (Check.argument_alike p h).bind fun _ _ h => ?_
    exact (Expr.Alike.resolveArgs_outline hs ps).bind fun _ _ hs => .pure (.cons h hs)

end

/-- The same for an expression that may be missing. -/
theorem Expr.Alike.resolve?_outline {o o' : Option Expr}
    (h : Option.Rel (Expr.Alike (.outline Q)) o o') :
    (Expr.resolve? d o).Alike Q (Option.Rel (Expr.Alike (.outline Q))) (Expr.resolve? d o') := by
  cases h with
  | none => exact .pure .none
  | some h => exact (h.resolve_outline d).bind fun _ _ h => .pure (.some h)

/-- An initializer is put into a variable alike. -/
theorem Check.initial_alike {v w : Variable} (h : v.Alike (.outline Q) w) {e e' : Expr}
    (he : e.Alike (.outline Q) e') :
    (Check.initial v e).Alike Q (Variable.Alike (.outline Q)) (Check.initial w e') := by
  obtain ⟨n, t, i, p, l, x, s⟩ := v
  obtain ⟨n', t', i', p', l', x', s'⟩ := w
  obtain rfl : t = t' := h.type
  have hwith : ∀ {e e' : Expr}, e.Alike (.outline Q) e' →
      Variable.Alike (.outline Q) ⟨n, t, some e, p, l, x, s⟩ ⟨n', t, some e', p', l', x', s'⟩ :=
    fun he => ⟨h.name, rfl, .some he, h.isPrivate, h.isToplevel, h.storage, h.span⟩
  refine .ite (.report_pure h.span (hwith he)) ?_
  refine (Check.store_alike h.span t he).bind fun stored stored' hstored => .pure (hwith ?_)
  cases hstored with
  | none => exact he
  | some hstored => exact hstored

/-- Variables that are alike in outline are checked alike. -/
theorem Variable.Alike.check_outline {v w : Variable} (h : v.Alike (.outline Q) w) :
    (v.check d).Alike Q (Variable.Alike (.outline Q)) (w.check d) := by
  have hinit := h.initializer
  generalize hv : v.initializer = i, hw : w.initializer = i' at hinit
  cases hinit with
  | none =>
    rw [Variable.check_none hv, Variable.check_none hw]
    exact .pure h
  | some he =>
    rw [Variable.check_some hv, Variable.check_some hw]
    exact (he.resolve_outline d).bind fun _ _ he => Check.initial_alike h he

/-! ### Statements and programs -/

mutual

/-- **Statements of one outline are checked alike.** -/
theorem Stmt.Alike.check_outline (result : Ty) : ∀ {s s' : Stmt}, s.Alike (.outline Q) s' →
    (s.check d result).Alike Q (Stmt.Alike (.outline Q)) (s'.check d result)
  | _, _, .block hs hb => by
    rw [Stmt.check, Stmt.check]
    exact (hb.check_outline result).bind fun _ _ hb => .pure (.block hs hb)
  | _, _, .expr hs he => by
    rw [Stmt.check, Stmt.check]
    exact (he.resolve_outline d).bind fun _ _ he => .pure (.expr hs he)
  | _, _, .ifThen hs hc ht => by
    rw [Stmt.check, Stmt.check]
    refine (hc.resolve_outline d).bind fun _ _ hc => ?_
    refine (ht.check_outline result).bind fun _ _ ht => ?_
    exact (Check.scalar_alike hc).bind_same fun _ => .pure (.ifThen hs hc ht)
  | _, _, .ifElse hs hc ht hu => by
    rw [Stmt.check, Stmt.check]
    refine (hc.resolve_outline d).bind fun _ _ hc => ?_
    refine (ht.check_outline result).bind fun _ _ ht => ?_
    refine (hu.check_outline result).bind fun _ _ hu => ?_
    exact (Check.scalar_alike hc).bind_same fun _ => .pure (.ifElse hs hc ht hu)
  | _, _, .whileLoop hs hc hb => by
    rw [Stmt.check, Stmt.check]
    refine (hc.resolve_outline d).bind fun _ _ hc => ?_
    refine (hb.check_outline result).bind fun _ _ hb => ?_
    exact (Check.scalar_alike hc).bind_same fun _ => .pure (.whileLoop hs hc hb)
  | _, _, .doWhile hs hb hc => by
    rw [Stmt.check, Stmt.check]
    refine (hb.check_outline result).bind fun _ _ hb => ?_
    refine (hc.resolve_outline d).bind fun _ _ hc => ?_
    exact (Check.scalar_alike hc).bind_same fun _ => .pure (.doWhile hs hb hc)
  | _, _, .forLoop hs hi hc hn hb => by
    rw [Stmt.check, Stmt.check]
    refine (Expr.Alike.resolve?_outline d hi).bind fun _ _ hi => ?_
    refine (Expr.Alike.resolve?_outline d hc).bind fun _ _ hc => ?_
    refine (Expr.Alike.resolve?_outline d hn).bind fun _ _ hn => ?_
    refine (hb.check_outline result).bind fun _ _ hb => ?_
    exact (Check.scalar?_alike hc).bind_same fun _ => .pure (.forLoop hs hi hc hn hb)
  | _, _, .switch hs he hcs => by
    rw [Stmt.check, Stmt.check]
    refine (he.resolve_outline d).bind fun _ _ he => ?_
    refine (Stmt.Alike.checkCases_outline result hcs).bind fun _ _ hcs => ?_
    exact (Check.scalar_alike he).bind_same fun _ => .pure (.switch hs he hcs)
  | _, _, .returns hs he => by
    rw [Stmt.check, Stmt.check]
    refine (Expr.Alike.resolve?_outline d he).bind fun _ _ he => ?_
    exact (Check.returned_alike hs result he).bind fun _ _ he => .pure (.returns hs he)
  | _, _, .breaks hs => by
    rw [Stmt.check, Stmt.check]
    exact .pure (.breaks hs)
  | _, _, .continues hs => by
    rw [Stmt.check, Stmt.check]
    exact .pure (.continues hs)
  | _, _, .goto hs hl => by
    rw [Stmt.check, Stmt.check]
    exact .pure (.goto hs hl)
  | _, _, .label hs hn hb => by
    rw [Stmt.check, Stmt.check]
    exact (hb.check_outline result).bind fun _ _ hb => .pure (.label hs hn hb)
  | _, _, .empty hs => by
    rw [Stmt.check, Stmt.check]
    exact .pure (.empty hs)

theorem Stmt.Alike.checkList_outline (result : Ty) : ∀ {ss ts : List Stmt},
    List.Forall₂ (Stmt.Alike (.outline Q)) ss ts →
      (Stmt.checkList d result ss).Alike Q (List.Forall₂ (Stmt.Alike (.outline Q)))
        (Stmt.checkList d result ts)
  | _, _, .nil => by
    rw [Stmt.checkList]
    exact .pure .nil
  | _, _, .cons h hs => by
    rw [Stmt.checkList, Stmt.checkList]
    refine (h.check_outline result).bind fun _ _ h => ?_
    exact (Stmt.Alike.checkList_outline result hs).bind fun _ _ hs => .pure (.cons h hs)

theorem Stmt.Alike.checkCases_outline (result : Ty) : ∀ {cs cs' : List Case},
    List.Forall₂ (Case.Alike (.outline Q)) cs cs' →
      (Stmt.checkCases d result cs).Alike Q (List.Forall₂ (Case.Alike (.outline Q)))
        (Stmt.checkCases d result cs')
  | _, _, .nil => by
    rw [Stmt.checkCases]
    exact .pure .nil
  | _, _, .cons h hs => by
    rw [Stmt.checkCases, Stmt.checkCases]
    refine (h.check_outline result).bind fun _ _ h => ?_
    exact (Stmt.Alike.checkCases_outline result hs).bind fun _ _ hs => .pure (.cons h hs)

theorem Case.Alike.check_outline (result : Ty) : ∀ {c c' : Case}, c.Alike (.outline Q) c' →
    (c.check d result).Alike Q (Case.Alike (.outline Q)) (c'.check d result)
  | _, _, .mk hvs hb => by
    rw [Case.check, Case.check]
    refine (Expr.Alike.resolveArgs_outline d hvs []).bind fun _ _ hvs => ?_
    exact (hb.check_outline result).bind fun _ _ hb => .pure (.mk hvs hb)

theorem Block.Alike.check_outline (result : Ty) : ∀ {b b' : Block}, b.Alike (.outline Q) b' →
    (b.check d result).Alike Q (Block.Alike (.outline Q)) (b'.check d result)
  | _, _, .mk hvs hss => by
    rw [Block.check, Block.check, Variable.checkList_eq, Variable.checkList_eq]
    refine (Traced.Alike.mapM hvs fun _ _ hv => hv.check_outline d).bind fun _ _ hvs => ?_
    exact (Stmt.Alike.checkList_outline result hss).bind fun _ _ hss => .pure (.mk hvs hss)

end

/-- Signatures that are alike in outline are checked alike. -/
theorem Function.Alike.checkSignature_outline {f g : Function} (h : f.Alike (.outline Q) g) :
    f.checkSignature.Alike Q Eq g.checkSignature := by
  have hresult : f.result = g.result := h.result
  have hproblem : f.resultProblem? = g.resultProblem? := by
    rw [resultProblem?, resultProblem?, hresult, h.name]
  refine ⟨rfl, List.rel_append ?_ ?_⟩
  · rw [hproblem]
    cases g.resultProblem? with
    | none => exact .nil
    | some p => exact .cons (.found h.span) .nil
  · -- the same parameters are found fault with
    have hparams := h.params
    generalize f.params = ps, g.params = qs at hparams
    induction hparams with
    | nil => exact .nil
    | @cons p q ps qs hpq _ ih =>
      have htype : p.type = q.type := hpq.type
      rw [List.filter_cons, List.filter_cons, htype]
      by_cases ha : q.type.isAggregate = true
      · rw [if_pos ha, if_pos ha, List.map_cons, List.map_cons, htype]
        exact .cons (.found hpq.span) ih
      · rwa [if_neg ha, if_neg ha]

/-- Functions that are alike in outline are checked alike. -/
theorem Function.Alike.check_outline {f g : Function} (h : f.Alike (.outline Q) g) :
    (f.check d).Alike Q (Function.Alike (.outline Q)) (g.check d) := by
  have hresult : f.result = g.result := h.result
  have hentered : (Traced.note (.entered f.name)).Alike Q Eq (Traced.note (.entered g.name)) := by
    rw [h.name]
    exact ⟨rfl, .cons .entered .nil⟩
  refine hentered.bind_same fun _ => h.checkSignature_outline.bind_same fun _ => ?_
  rw [hresult]
  refine (h.body.check_outline d g.result).bind fun _ _ hb => .pure ?_
  exact ⟨h.name, h.isPrivate, rfl, h.params, h.variadic, hb, h.span⟩

/-- **Programs of one outline are checked alike.** -/
theorem Program.Alike.check_outline {p q : Program} (h : p.Alike (.outline Q) q) :
    (p.check d).Alike Q (Program.Alike (.outline Q)) (q.check d) := by
  rw [Program.check, Program.check, Variable.checkList_eq, Variable.checkList_eq,
    Function.checkList_eq, Function.checkList_eq]
  refine (Traced.Alike.mapM h.globals fun _ _ hv => hv.check_outline d).bind fun _ _ hvs => ?_
  refine (Traced.Alike.mapM h.functions fun _ _ hf => hf.check_outline d).bind fun _ _ hfs => ?_
  exact .pure ⟨h.records, hvs, hfs⟩

end Simulation

/-! ### Diagnostics -/

/-- Diagnostics of one problem, at places that are related. -/
def Diagnostic.Alike (Q : Span → Span → Prop) (x y : Diagnostic) : Prop :=
  ∃ (problem : Problem) (s s' : Span),
    Q s s' ∧ x = problem.diagnostic s ∧ y = problem.diagnostic s'

/-- Alike checks report alike findings, one by one. -/
theorem Traced.Alike.diagnostics {α β : Type} {Q : Span → Span → Prop} {R : α → β → Prop}
    {x : Traced α} {y : Traced β} (h : x.Alike Q R y) :
    List.Forall₂ (Diagnostic.Alike Q) x.diagnostics y.diagnostics := by
  have hevents := h.events
  rw [Traced.diagnostics, Traced.diagnostics]
  generalize x.events = es, y.events = fs at hevents
  induction hevents with
  | nil => exact .nil
  | cons hef _ ih =>
    cases hef with
    | entered => exact ih
    | found hs => exact .cons ⟨_, _, _, hs, rfl, rfl⟩ ih
    | converted => exact ih

/-- What a diagnostic says, apart from where. -/
def Diagnostic.statement (x : Diagnostic) : Severity × String := (x.severity, x.message)

/-- Findings that are alike say the same, wherever they say it. -/
theorem Diagnostic.Alike.statement_eq {Q : Span → Span → Prop} {x y : Diagnostic}
    (h : x.Alike Q y) : x.statement = y.statement := by
  obtain ⟨problem, s, s', -, rfl, rfl⟩ := h
  rfl

/-- A diagnostic shows a place that is known, or none. -/
theorem Problem.mem_span_diagnostic {problem : Problem} {s t : Span}
    (h : t ∈ (problem.diagnostic s).span) : t = s ∧ s.start.line ≠ 0 := by
  rw [diagnostic, Diagnostic.place] at h
  cases hs : s.isUnknown with
  | true =>
    rw [hs] at h
    cases h
  | false =>
    rw [hs] at h
    cases h
    exact ⟨rfl, ne_of_beq_false hs⟩

namespace Program

variable {d : Declarations} {p q : Program}

/-- Passes that say the same end in the same way. -/
theorem outcome_pass_of_statements
    (h : (p.check d).diagnostics.map Diagnostic.statement =
      (q.check d).diagnostics.map Diagnostic.statement) :
    (p.pass d .empty).outcome = (q.pass d .empty).outcome := by
  -- the outcome depends on how many findings of each severity there are
  have hcount : ∀ f : Severity → Bool, (p.check d).diagnostics.countP (fun x => f x.severity) =
      (q.check d).diagnostics.countP fun x => f x.severity := by
    intro f
    have hmap := congrArg (List.countP fun x => f x.1) h
    rwa [List.countP_map, List.countP_map] at hmap
  refine outcome_pass_congr ?_ ?_
  · rw [journal_pass, journal_pass, Journal.errors_recordAll, Journal.errors_recordAll]
    exact congrArg _ (hcount (· == .error))
  · rw [journal_pass, journal_pass, Journal.warnings_recordAll, Journal.warnings_recordAll]
    exact congrArg _ (hcount fun s => !(s == .error))

/-- **Every place that is shown is a place in the program.** -/
theorem place_of_mem_diagnostics {x : Diagnostic} (hx : x ∈ (p.check d).diagnostics) {s : Span}
    (hs : s ∈ x.span) : s.start.line ≠ 0 ∧
      ∃ address n, (Node.program p).at? address = some n ∧ n.span? = some s := by
  have hself : p.Alike (.outline fun s _ =>
      ∃ address n, (Node.program p).at? address = some n ∧ n.span? = some s) p :=
    alike_self fun address n hn s hs => ⟨address, n, hn, hs⟩
  obtain ⟨problem, t, -, ht, rfl, -⟩ :=
    List.forall₂_same.mp (hself.check_outline d).diagnostics x hx
  obtain ⟨rfl, hline⟩ := Problem.mem_span_diagnostic hs
  exact ⟨hline, ht⟩

end Program

/-- **Places, storage, names and values do not matter to typing.** Programs that differ in nothing
else are accepted or rejected alike, in the same words and order, and what is left of them differs
in nothing else: slots are filled alike and conversions stand in the same places of the tree. What a
diagnostic shows as its place is a known one, and that of a node of the program. -/
theorem typing_ignores_places_and_values (d : Declarations) :
    (∀ p q : Program, p.Alike (.outline fun _ _ => True) q →
      (p.pass d .empty).outcome = (q.pass d .empty).outcome ∧
      (p.pass d .empty).journal.entries.map Diagnostic.statement =
        (q.pass d .empty).journal.entries.map Diagnostic.statement ∧
      (p.pass d .empty).program.Alike (.outline fun _ _ => True) (q.pass d .empty).program) ∧
    ∀ p : Program, ∀ x ∈ (p.pass d .empty).journal.entries, ∀ s ∈ x.span, s.start.line ≠ 0 ∧
      ∃ address n, (Node.program p).at? address = some n ∧ n.span? = some s := by
  constructor
  · intro p q h
    have hcheck := h.check_outline d
    have hstatements : (p.check d).diagnostics.map Diagnostic.statement =
        (q.check d).diagnostics.map Diagnostic.statement :=
      eq_of_forall₂ (forall₂_map_map hcheck.diagnostics fun _ _ h => h.statement_eq) fun _ _ h => h
    rw [Program.entries_pass, Program.entries_pass]
    exact ⟨Program.outcome_pass_of_statements hstatements, hstatements, hcheck.value⟩
  · intro p x hx s hs
    rw [Program.entries_pass] at hx
    exact Program.place_of_mem_diagnostics hx hs

/-- A number that does not fit its variable, and a text that is returned from a function without a
result. -/
def labelled (s : Span) (name text : String) (value : Int64) : Program where
  records := []
  globals := [⟨name, DataModel.lp64.char, some (.intLit ⟨s, none⟩ value DataModel.lp64.int), false,
    true, some (.global name), s⟩]
  functions := [{
    name := "f", isPrivate := false, result := .void, params := [], variadic := false, span := s
    body := ⟨[], [.label s name (.returns s (some (.strLit ⟨s, none⟩ text)))]⟩ }]

/-- Whatever is put into it, the labelled function has one outline. -/
theorem labelled_alike (s s' : Span) (name name' text text' : String) (value value' : Int64) :
    (labelled s name text value).Alike (.outline fun _ _ => True)
      (labelled s' name' text' value') where
  records := .nil
  globals := by
    have hinit : Option.Rel (Expr.Alike (.outline fun _ _ => True))
        (some (.intLit ⟨s, none⟩ value DataModel.lp64.int))
        (some (.intLit ⟨s', none⟩ value' DataModel.lp64.int)) :=
      .some (.intLit ⟨trivial, rfl⟩ trivial rfl)
    exact .cons ⟨trivial, rfl, hinit, trivial, trivial, trivial, trivial⟩ .nil
  functions := by
    have htext : Option.Rel (Expr.Alike (.outline fun _ _ => True))
        (some (.strLit ⟨s, none⟩ text)) (some (.strLit ⟨s', none⟩ text')) :=
      .some (.strLit ⟨trivial, rfl⟩ trivial)
    have hlabel : Stmt.Alike (.outline fun _ _ => True)
        (.label s name (.returns s (some (.strLit ⟨s, none⟩ text))))
        (.label s' name' (.returns s' (some (.strLit ⟨s', none⟩ text')))) :=
      .label trivial trivial (.returns trivial htext)
    exact .cons ⟨rfl, trivial, rfl, .nil, rfl, .mk .nil (.cons hlabel .nil), trivial⟩ .nil

/-- A warning and an error, in a program with places and in one without. -/
theorem typing_ignores_places_and_values_labelled :
    let place : Span := .point ⟨"a.c", 3, 1⟩
    let p := labelled place "c" "text" 300
    let q := labelled .unknown "d" "" 0
    let found : List (Severity × String) := [(.warning, "implicit cast from int to char"),
      (.error, "returning value from void function")]
    p.Alike (.outline fun _ _ => True) q ∧
      (q.pass (.empty .lp64) .empty).journal.entries.map Diagnostic.statement = found ∧
      (p.pass (.empty .lp64) .empty).journal.entries.map Diagnostic.statement = found ∧
      (p.pass (.empty .lp64) .empty).outcome = .error (.rejected 1 1) ∧
      ⟨.warning, "implicit cast from int to char", some place⟩ ∈
        (p.pass (.empty .lp64) .empty).journal.entries ∧
      ∃ address n, (Node.program p).at? address = some n ∧ n.span? = some place := by
  intro place p q found
  have halike : p.Alike (.outline fun _ _ => True) q := labelled_alike _ _ _ _ _ _ _ _
  have hq : (q.pass (.empty .lp64) .empty).journal.entries.map Diagnostic.statement = found := by
    decide
  have hmem : ⟨.warning, "implicit cast from int to char", some place⟩ ∈
      (p.pass (.empty .lp64) .empty).journal.entries := by
    decide
  obtain ⟨hall, hplaces⟩ := typing_ignores_places_and_values (.empty .lp64)
  obtain ⟨houtcome, hstatements, -⟩ := hall p q halike
  exact ⟨halike, hq, hstatements.trans hq, houtcome.trans rfl, hmem, (hplaces p _ hmem _ rfl).2⟩

end CTyping
