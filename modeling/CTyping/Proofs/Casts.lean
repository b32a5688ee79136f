import CTyping.Proofs.Conversions

/-!
# Conversions are legal casts

Compatibility is reflexive and implies castability, for types of any nesting and any width
(`CTyping.Ty.compatible_self`, `CTyping.Ty.castable_of_compatible`). So where the checker converts
an operand because its type is compatible with the one that is wanted, the cast that it puts there
is one that the rule for casts accepts without a word.

Every conversion leaves an event in the trace, and so it can be said of all programs, those that are
refused and those that came with conversions too, that a check makes only such casts
(`CTyping.Program.legal_check`). A rule notes conversions only through `CTyping.Check.adapt`, given
that the cast can be made; whatever else it notes is met again by a second check, and then it is no
conversion (`CTyping.Traced.legal_of_settled`).
-/

namespace CTyping

/-! ### Conversions in a trace -/

namespace Traced

variable {α β : Type}

/-- Every conversion that is noted is to another type, and to one that could be cast to. -/
def Legal (x : Traced α) : Prop :=
  ∀ a b, .converted a b ∈ x.events → a ≠ b ∧ a.castable b = true

@[simp] theorem legal_pure (a : α) : (pure a : Traced α).Legal := nofun

@[simp] theorem legal_bind (x : Traced α) (f : α → Traced β) :
    (x >>= f).Legal ↔ x.Legal ∧ (f x.value).Legal := by
  rw [Legal, events_bind]
  constructor
  · intro h
    exact ⟨fun a b hab => h a b (List.mem_append_left _ hab),
      fun a b hab => h a b (List.mem_append_right _ hab)⟩
  · rintro ⟨hx, hf⟩ a b hab
    exact (List.mem_append.mp hab).elim (hx a b) (hf a b)

@[simp] theorem legal_map (f : α → β) (x : Traced α) : (f <$> x).Legal ↔ x.Legal := by
  rw [map_eq_pure_bind, legal_bind, and_iff_left (legal_pure _)]

/-- A list is checked with legal conversions only if each of it is. -/
theorem legal_mapM {f : α → Traced β} {as : List α} (h : ∀ a ∈ as, (f a).Legal) :
    (as.mapM f).Legal := by
  induction as with
  | nil => exact legal_pure _
  | cons a as ih =>
    obtain ⟨ha, has⟩ := List.forall_mem_cons.mp h
    rw [List.mapM_cons]
    simp [ha, ih has]

/-- A warning about a conversion is none itself, though it does not last either. -/
theorem legal_reportUnless (well : Bool) (s : Span) (p : Problem) :
    (reportUnless well s p).Legal := by
  cases well with
  | true => exact legal_pure ()
  | false =>
    intro a b hab
    cases List.mem_singleton.mp hab

/-- What would happen again is no conversion. -/
theorem legal_of_settled {x : Traced α} (h : x.settled = x) : x.Legal := by
  intro a b hab
  rw [← h] at hab
  exact absurd (List.mem_filter.mp hab).2 Bool.false_ne_true

end Traced

/-! ### Rules -/

namespace Check

/-- Bringing an operand to a type that its own can be cast to is legal. -/
theorem legal_adapt {t : Ty} {e : Expr} (h : e.type.castable t = true) : (adapt t e).Legal := by
  by_cases ht : e.type = t
  · rw [adapt_of_eq ht]
    exact Traced.legal_pure e
  · rw [adapt_of_ne ht]
    rintro a b hab
    obtain ⟨⟩ : .converted a b = Event.converted e.type t := List.mem_singleton.mp hab
    exact ⟨ht, h⟩

/-- Bringing operands to a type that theirs are compatible with is legal. -/
theorem legal_bring {u : Ty} {l r : Expr} (hl : l.type = u ∨ l.type.compatible u = true)
    (hr : r.type = u ∨ r.type.compatible u = true) (t : Ty) : (bring u l r t).Legal := by
  simp [bring, legal_adapt (Ty.castable_of_eq_or_compatible hl),
    legal_adapt (Ty.castable_of_eq_or_compatible hr)]

/-- So is storing a value in a type that its own can be cast to. -/
theorem legal_put {t : Ty} {e : Expr} (s : Span) (h : e.type.castable t = true) :
    (put s t e).Legal := by
  simp [put, Traced.legal_reportUnless, legal_adapt h]

/-- Binary operators make only legal conversions. -/
theorem legal_binary (m : DataModel) (s : Span) (op : BinaryOp) (l r : Expr) :
    (binary m s op l r).Legal := by
  have hx := binary_outcome m s op l r
  generalize binary m s op l r = x at hx ⊢
  cases hx with
  | arithmetic _ _ _ hu | comparison _ _ _ hu =>
    obtain ⟨hl, hr⟩ := Ty.eq_or_compatible_of_join hu
    exact legal_bring hl hr _
  | pointerLeft | pointerRight | shift => exact Traced.legal_pure _
  | refused h => exact Traced.legal_of_settled h.settled

/-- Assignments make only legal conversions. -/
theorem legal_assign (s : Span) (op : AssignOp) (l r : Expr) : (assign s op l r).Legal := by
  have hx := assign_outcome s op l r
  generalize assign s op l r = x at hx ⊢
  cases hx with
  | moved => exact Traced.legal_pure _
  | stored hl ha hm hr => exact (Traced.legal_map _ _).mpr (legal_put s hr)
  | refused h => exact Traced.legal_of_settled h.settled

/-- Conditionals make only legal conversions. -/
theorem legal_cond (s : Span) (c a b : Expr) : (cond s c a b).Legal := by
  rcases cond_cases s c a b with ⟨u, hu, hx⟩ | ⟨-, hx⟩
  · obtain ⟨hb, ha⟩ := Ty.eq_or_compatible_of_join hu
    rw [hx, Traced.legal_bind]
    exact ⟨Traced.legal_of_settled (settled_scalar c), legal_bring ha hb u⟩
  · exact Traced.legal_of_settled hx.settled

theorem legal_argument (p : Ty) (e : Expr) : (argument p e).Legal := by
  rcases argument_cases p e with ⟨-, ht, hx⟩ | hx
  · rw [hx]
    exact legal_adapt (Ty.castable_of_eq_or_compatible ht)
  · exact Traced.legal_of_settled hx.settled

theorem legal_initial (v : Variable) (e : Expr) : (initial v e).Legal := by
  rcases initial_cases v e with ⟨-, hc, hx⟩ | ⟨-, hx⟩
  · rw [hx]
    exact (Traced.legal_map _ _).mpr (legal_put v.span hc)
  · exact Traced.legal_of_settled hx.settled

theorem legal_returned (s : Span) (result : Ty) (e : Option Expr) :
    (returned s result e).Legal := by
  cases e with
  | none =>
    rcases returned_none_cases s result with ⟨-, hx⟩ | ⟨-, hx⟩
    · rw [hx]
      exact Traced.legal_pure _
    · exact Traced.legal_of_settled hx.settled
  | some e =>
    rcases returned_some_cases s result e with ⟨-, ht, hx⟩ | ⟨-, hx⟩
    · rw [hx]
      exact (Traced.legal_map _ _).mpr (legal_adapt (Ty.castable_of_eq_or_compatible ht))
    · exact Traced.legal_of_settled hx.settled

end Check

/-! ### Expressions -/

namespace Expr

open Traced (legal_of_settled)

variable (d : Declarations)

/-- Arguments are checked with legal conversions only if each of them is by itself. -/
theorem legal_resolveArgs {as : List Expr} (has : ∀ a ∈ as, (a.resolve d).Legal) (ps : List Ty) :
    (resolveArgs d ps as).Legal := by
  induction as generalizing ps with
  | nil => cases ps <;> exact Traced.legal_pure _
  | cons a as ih =>
    obtain ⟨ha, has⟩ := List.forall_mem_cons.mp has
    cases ps with
    | nil => simp [resolveArgs, ha, ih has]
    | cons p ps => simp [resolveArgs, ha, ih has, Check.legal_argument]

/-- **Resolving an expression makes only conversions that could be written as casts.** -/
theorem legal_resolve (e : Expr) : (e.resolve d).Legal := by
  induction e with
  | intLit | strLit | var | sizeofType => exact Traced.legal_pure _
  | unary i op e ih => simp [resolve, ih, legal_of_settled (Check.settled_unary ..)]
  | step i op e ih => simp [resolve, ih, legal_of_settled (Check.settled_step _)]
  | addressOf i e ih => simp [resolve, ih, legal_of_settled (Check.settled_addressOf ..)]
  | deref i e ih => simp [resolve, ih, legal_of_settled (Check.settled_deref ..)]
  | binary i op l r ihl ihr => simp [resolve, ihl, ihr, Check.legal_binary]
  | assign i op l r ihl ihr => simp [resolve, ihl, ihr, Check.legal_assign]
  | cond i c a b ihc iha ihb => simp [resolve, ihc, iha, ihb, Check.legal_cond]
  | call i f as ihf ihas =>
    simp [resolve, ihf, legal_of_settled (Check.settled_call ..), legal_resolveArgs d ihas]
  | index i b x ihb ihx =>
    simp [resolve, ihb, ihx, legal_of_settled (Check.settled_element ..),
      legal_of_settled (Check.settled_index ..)]
  | member i b n ih => simp [resolve, ih, legal_of_settled (Check.settled_member ..)]
  | arrow i b n ih => simp [resolve, ih, legal_of_settled (Check.settled_arrow ..)]
  | cast i t e m ih => simp [resolve, ih, legal_of_settled (Check.settled_cast ..)]
  | sizeofExpr i e ih => simp [resolve, ih]

theorem legal_resolve? (e : Option Expr) : (resolve? d e).Legal := by
  cases e with
  | none => exact Traced.legal_pure _
  | some e => simp [resolve?, legal_resolve]

end Expr

/-! ### Statements and programs -/

section Programs

variable (d : Declarations) (result : Ty)

/-- The check of a variable makes only legal conversions. -/
theorem Variable.legal_check (v : Variable) : (v.check d).Legal := by
  cases hi : v.initializer with
  | none =>
    rw [check_none hi]
    exact Traced.legal_pure v
  | some e =>
    rw [check_some hi, Traced.legal_bind]
    exact ⟨Expr.legal_resolve d e, Check.legal_initial v _⟩

/-- The check of a block makes only legal conversions if those of its statements do. -/
theorem Block.legal_check_of {b : Block} (h : ∀ s ∈ b.stmts, (s.check d result).Legal) :
    (b.check d result).Legal := by
  have hvars := Traced.legal_mapM fun v (_ : v ∈ b.vars) => Variable.legal_check d v
  simp [Block.check_eq, hvars, Traced.legal_mapM h]

theorem Case.legal_check_of {c : Case} (h : ∀ s ∈ c.body.stmts, (s.check d result).Legal) :
    (c.check d result).Legal := by
  have hvalues := Traced.legal_mapM fun e (_ : e ∈ c.values) => Expr.legal_resolve d e
  simp [Case.check_eq, hvalues, Block.legal_check_of d result h]

/-- **Checking a statement makes only conversions that could be written as casts.** -/
theorem Stmt.legal_check (s : Stmt) : (s.check d result).Legal := by
  have hscalar : ∀ e, (Check.scalar e).Legal :=
    fun e => Traced.legal_of_settled (Check.settled_scalar e)
  induction s with
  | block s b ih => simp [Stmt.check, Block.legal_check_of d result ih]
  | expr s e => simp [Stmt.check, Expr.legal_resolve]
  | ifThen s c t iht => simp [Stmt.check, Expr.legal_resolve, iht, hscalar]
  | ifElse s c t e iht ihe => simp [Stmt.check, Expr.legal_resolve, iht, ihe, hscalar]
  | whileLoop s c b ih => simp [Stmt.check, Expr.legal_resolve, ih, hscalar]
  | doWhile s b c ih => simp [Stmt.check, Expr.legal_resolve, ih, hscalar]
  | forLoop s i c n b ih =>
    simp [Stmt.check, Expr.legal_resolve?, ih, Traced.legal_of_settled (Check.settled_scalar? _)]
  | switch s e cs ih =>
    have hcases := Traced.legal_mapM fun c hc => Case.legal_check_of d result (ih c hc)
    simp [Stmt.check, Stmt.checkCases_eq, Expr.legal_resolve, hcases, hscalar]
  | returns s e => simp [Stmt.check, Expr.legal_resolve?, Check.legal_returned]
  | breaks | continues | goto | empty => exact Traced.legal_pure _
  | label s n b ih => simp [Stmt.check, ih]

/-- The check of a function makes only legal conversions. -/
theorem Function.legal_check (f : Function) : (f.check d).Legal := by
  have hbody := Block.legal_check_of d f.result fun s (_ : s ∈ f.body.stmts) => s.legal_check d _
  have hentered : (Traced.note (.entered f.name)).Legal := Traced.legal_of_settled rfl
  simp [Function.check, hentered, Traced.legal_of_settled f.settled_checkSignature, hbody]

/-- **Checking a program makes only conversions that could be written as casts.** -/
theorem Program.legal_check (p : Program) : (p.check d).Legal := by
  have hglobals := Traced.legal_mapM fun v (_ : v ∈ p.globals) => Variable.legal_check d v
  have hfunctions := Traced.legal_mapM fun f (_ : f ∈ p.functions) => Function.legal_check d f
  simp [Program.check, Variable.checkList_eq, Function.checkList_eq, hglobals, hfunctions]

end Programs

/-! ### The rule for casts -/

/-- A cast to a type that the operand is compatible with is accepted without a word, whoever wrote
it. -/
theorem Check.cast_of_compatible {s : Span} {t : Ty} {e : Expr} {m : Bool}
    (h : e.type.compatible t = true) : cast s t e m = pure t := by
  rw [cast_of (Ty.castable_of_compatible h), h, Bool.or_true]
  rfl

/-- **Conversions are legal casts.** Every type is compatible with itself and can be cast to itself,
and a type that is compatible with another can be cast to it: such a cast is accepted without a
word. So are all those that a check makes, of whatever program and with whatever outcome: none is of
an expression to the type that it has, and if the program had no conversions, the tree that is left
holds no others. -/
theorem conversions_are_legal_casts :
    (∀ a : Ty, a.compatible a = true ∧ a.castable a = true) ∧
      (∀ a b : Ty, a.compatible b = true → a.castable b = true) ∧
      (∀ s t e m, e.type.compatible t = true → Check.cast s t e m = pure t) ∧
      ∀ (d : Declarations) (p : Program),
        (∀ a b, .converted a b ∈ (p.check d).events →
          a ≠ b ∧ ∀ s e, e.type = a → Check.cast s b e true = pure b) ∧
        ((∀ e ∈ p.expressions, e.isConversion = false) →
          ∀ i t e, .cast i t e true ∈ (p.check d).value.expressions →
            Check.cast i.span t e true = pure t) := by
  refine ⟨fun a => ⟨a.compatible_self, a.castable_self⟩, fun a b => Ty.castable_of_compatible,
    fun s t e m => Check.cast_of_compatible, fun d p => ⟨fun a b hab => ?_, fun h i t e he => ?_⟩⟩
  · obtain ⟨hne, hc⟩ := p.legal_check d a b hab
    refine ⟨hne, fun s e he => Check.cast_implicit ?_⟩
    rwa [he]
  · obtain ⟨-, -, hc⟩ := ((p.convertsWell_check d h).1 _ he).conversion i t e rfl
    exact Check.cast_implicit hc

/-- A function that returns an array of three numbers as a pointer to the first. -/
def decaying : Program where
  records := []
  globals := []
  functions := [{
    name := "first", isPrivate := false, result := .ptr DataModel.lp64.int, params := []
    variadic := false, span := .unknown
    body := ⟨[], [.returns .unknown
      (some (.var .blank "a" (.array DataModel.lp64.int (some 3))))]⟩ }]

theorem conversions_are_legal_casts_decaying :
    let array := Ty.array DataModel.lp64.int (some 3)
    let pointer := Ty.ptr DataModel.lp64.int
    let a : Expr := .var ⟨.unknown, some array⟩ "a" array
    array.compatible pointer = true ∧ array.castable pointer = true ∧
      .converted array pointer ∈ (decaying.check (.empty .lp64)).events ∧ array ≠ pointer ∧
      (∀ e ∈ decaying.expressions, e.isConversion = false) ∧
      a.convert pointer ∈ (decaying.check (.empty .lp64)).value.expressions ∧
      Check.cast a.span pointer a true = pure pointer := by
  intro array pointer a
  obtain ⟨-, hcastable, -, hall⟩ := conversions_are_legal_casts
  obtain ⟨hevents, hnodes⟩ := hall (.empty .lp64) decaying
  have hcompatible : array.compatible pointer = true := by decide
  have hconverted : .converted array pointer ∈ (decaying.check (.empty .lp64)).events := by decide
  have hbefore : ∀ e ∈ decaying.expressions, e.isConversion = false := by
    simp [decaying, Program.expressions, Program.roots, Block.collect, Stmt.collectList,
      Stmt.collect, Expr.walk, Expr.children, Expr.isConversion]
  have hafter : a.convert pointer ∈ (decaying.check (.empty .lp64)).value.expressions := by
    have hroots : (decaying.check (.empty .lp64)).value.roots = [a.convert pointer] := rfl
    rw [Program.expressions, hroots, List.reverse_singleton, Expr.walk]
    exact List.mem_cons_self
  exact ⟨hcompatible, hcastable _ _ hcompatible, hconverted, (hevents _ _ hconverted).1, hbefore,
    hafter, hnodes hbefore ⟨a.span, some pointer⟩ pointer a hafter⟩

end CTyping
