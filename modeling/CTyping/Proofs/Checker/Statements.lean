import CTyping.Proofs.Checker.Rules
import CTyping.Proofs.Tree.Demands
import CTyping.Proofs.Tree.Induction

/-!
# Statements, part by part

Checking a statement is checking its parts. Lists are checked member by member, so a check of a list
is a `mapM`; and a statement is accepted exactly when its parts are
(`CTyping.Stmt.clean_check_iff`). What holds of the parts that a check leaves holds of the statement
that it leaves (`CTyping.Stmt.Meets.check`).
-/

namespace CTyping

variable {d : Declarations} {result : Ty}

/-! ### Lists -/

theorem Expr.resolveList_eq (d : Declarations) (es : List Expr) :
    Expr.resolveList d es = es.mapM (Expr.resolve d) := by
  induction es with
  | nil => simp [resolveList, resolveArgs]
  | cons e es ih =>
    rw [resolveList] at ih
    simp [resolveList, resolveArgs, ih]

/-- There are as many arguments after a check as before. -/
theorem Expr.length_resolveArgs (ps : List Ty) (as : List Expr) :
    (Expr.resolveArgs d ps as).value.length = as.length := by
  induction as generalizing ps with
  | nil => rfl
  | cons a as ih => cases ps <;> simp [resolveArgs, ih]

theorem Variable.checkList_eq (d : Declarations) (vs : List Variable) :
    Variable.checkList d vs = vs.mapM (Variable.check d) := by
  induction vs with
  | nil => simp [checkList]
  | cons v vs ih => simp [checkList, ih]

theorem Stmt.checkList_eq (d : Declarations) (result : Ty) (ss : List Stmt) :
    Stmt.checkList d result ss = ss.mapM (Stmt.check d result) := by
  induction ss with
  | nil => simp [checkList]
  | cons s ss ih => simp [checkList, ih]

theorem Stmt.checkCases_eq (d : Declarations) (result : Ty) (cs : List Case) :
    Stmt.checkCases d result cs = cs.mapM (Case.check d result) := by
  induction cs with
  | nil => simp [checkCases]
  | cons c cs ih => simp [checkCases, ih]

theorem Function.checkList_eq (d : Declarations) (fs : List Function) :
    Function.checkList d fs = fs.mapM (Function.check d) := by
  induction fs with
  | nil => simp [checkList]
  | cons f fs ih => simp [checkList, ih]

/-- A block is checked in order, its variables first. -/
theorem Block.check_eq (d : Declarations) (result : Ty) (b : Block) :
    b.check d result =
      b.vars.mapM (Variable.check d) >>= fun vars =>
        b.stmts.mapM (Stmt.check d result) >>= fun stmts => pure ⟨vars, stmts⟩ := by
  obtain ⟨vars, stmts⟩ := b
  rw [Block.check, Variable.checkList_eq, Stmt.checkList_eq]

/-- An arm is checked in order, its values first. -/
theorem Case.check_eq (d : Declarations) (result : Ty) (c : Case) :
    c.check d result =
      c.values.mapM (Expr.resolve d) >>= fun values =>
        c.body.check d result >>= fun body => pure ⟨values, body⟩ := by
  obtain ⟨values, body⟩ := c
  rw [Case.check, Expr.resolveList_eq]

@[simp] theorem Block.value_check (b : Block) :
    (b.check d result).value =
      ⟨b.vars.map fun v => (v.check d).value, b.stmts.map fun s => (s.check d result).value⟩ := by
  simp [Block.check_eq]

@[simp] theorem Block.clean_check (b : Block) :
    (b.check d result).clean = true ↔
      (∀ v ∈ b.vars, (v.check d).clean = true) ∧
        ∀ s ∈ b.stmts, (s.check d result).clean = true := by
  simp [Block.check_eq]

@[simp] theorem Case.value_check (c : Case) :
    (c.check d result).value =
      ⟨c.values.map fun e => (e.resolve d).value, (c.body.check d result).value⟩ := by
  simp [Case.check_eq]

@[simp] theorem Case.clean_check (c : Case) :
    (c.check d result).clean = true ↔
      (∀ e ∈ c.values, (e.resolve d).clean = true) ∧ (c.body.check d result).clean = true := by
  simp [Case.check_eq]

@[simp] theorem Function.value_check (f : Function) :
    (f.check d).value = { f with body := (f.body.check d f.result).value } := rfl

@[simp] theorem Function.clean_check (f : Function) :
    (f.check d).clean = true ↔
      f.checkSignature.clean = true ∧ (f.body.check d f.result).clean = true := by
  simp [Function.check, Event.isError, -Block.clean_check]

@[simp] theorem Program.value_check (p : Program) :
    (p.check d).value =
      { p with
        globals := p.globals.map fun v => (v.check d).value
        functions := p.functions.map fun f => (f.check d).value } := by
  simp [Program.check, Variable.checkList_eq, Function.checkList_eq]

@[simp] theorem Program.clean_check (p : Program) :
    (p.check d).clean = true ↔
      (∀ v ∈ p.globals, (v.check d).clean = true) ∧
        ∀ f ∈ p.functions, (f.check d).clean = true := by
  simp [Program.check, Variable.checkList_eq, Function.checkList_eq]

/-! ### Optional parts -/

@[simp] theorem Expr.value_resolve? (d : Declarations) (e : Option Expr) :
    (Expr.resolve? d e).value = e.map fun e => (e.resolve d).value := by
  cases e <;> rfl

@[simp] theorem Expr.clean_resolve? (d : Declarations) (e : Option Expr) :
    (Expr.resolve? d e).clean = true ↔ ∀ x ∈ e, (x.resolve d).clean = true := by
  cases e <;> simp [Expr.resolve?]

@[simp] theorem Check.clean_scalar? (e : Option Expr) :
    (Check.scalar? e).clean = true ↔ ∀ x ∈ e, x.type.isScalar = true := by
  cases e <;> simp [Check.scalar?]

/-! ### Variables -/

/-- A variable without an initializer is accepted as it is. -/
theorem Variable.check_none {v : Variable} (h : v.initializer = none) : v.check d = pure v := by
  rw [Variable.check, h]

/-- The initializer of a variable is checked first, and then put into it. -/
theorem Variable.check_some {v : Variable} {e : Expr} (h : v.initializer = some e) :
    v.check d = e.resolve d >>= Check.initial v := by
  rw [Variable.check, h]
  rfl

/-- A variable is accepted when its initializer is and can be assigned to it. -/
theorem Variable.clean_check_iff {v : Variable} :
    (v.check d).clean = true ↔ ∀ e ∈ v.initializer, (e.resolve d).clean = true ∧
      v.type.isAggregate = false ∧ (e.resolve d).value.type.castable v.type = true := by
  cases h : v.initializer with
  | none => simp [Variable.check_none h]
  | some e =>
    rcases Check.initial_cases v (e.resolve d).value with ⟨ha, hc, hx⟩ | ⟨hn, hx⟩
    · simp [Variable.check_some h, hx, ha, hc]
    · simp only [Variable.check_some h, Traced.clean_bind, hx.clean, Bool.and_false,
        Bool.false_eq_true, Option.mem_def, Option.some.injEq, forall_eq', false_iff, not_and]
      exact fun _ => not_and.mp hn

/-! ### Acceptance -/

/-- What the checker accepts in a function with a given result. -/
def Demands.accepted (d : Declarations) (result : Ty) : Demands where
  var v := (v.check d).clean = true
  expr e := (e.resolve d).clean = true
  test e := (e.resolve d).clean = true ∧ (e.resolve d).value.type.isScalar = true
  returned
    | none => result.isVoid = true
    | some e => result.isVoid = false ∧ (e.resolve d).clean = true ∧
        ((e.resolve d).value.type = result ∨
          (e.resolve d).value.type.compatible result = true)

/-- A `return` is accepted if and only if what it returns is. -/
theorem Stmt.clean_returns_iff {s : Span} {e : Option Expr} :
    ((Stmt.returns s e).check d result).clean = true ↔
      (Demands.accepted d result).returned e := by
  cases e with
  | none =>
    rcases Check.returned_none_cases s result with ⟨h, hx⟩ | ⟨h, hx⟩
    · simp [Stmt.check, Expr.resolve?, hx, Demands.accepted, h]
    · simp [Stmt.check, Expr.resolve?, hx.clean, Demands.accepted, h]
  | some e =>
    rcases Check.returned_some_cases s result (e.resolve d).value with ⟨hv, h, hx⟩ | ⟨hn, hx⟩
    · simp [Stmt.check, Expr.resolve?, hx, Demands.accepted, h, hv]
    · have hf : ((Stmt.returns s (some e)).check d result).clean = false := by
        simp [Stmt.check, Expr.resolve?, hx.clean]
      simp only [hf, Bool.false_eq_true, Demands.accepted, false_iff]
      exact fun h => hn ⟨h.1, h.2.2⟩

/-- **A statement is accepted exactly when its parts are.** -/
theorem Stmt.clean_check_iff {s : Stmt} :
    (s.check d result).clean = true ↔ s.Meets (.accepted d result) := by
  induction s with
  | block s b ih =>
    simp only [Stmt.check, Traced.clean_bind, Traced.clean_pure, Bool.and_true, Block.clean_check,
      Stmt.Meets, Block.meets_iff]
    exact and_congr_right fun _ => forall₂_congr ih
  | expr s e => simp [Stmt.check, Stmt.Meets, Demands.accepted]
  | ifThen s c t iht =>
    simp only [Stmt.check, Stmt.Meets, Traced.clean_bind, Traced.clean_pure, Check.clean_scalar,
      Bool.and_true, Bool.and_eq_true, iht]
    -- the condition is resolved first, but asked for a scalar only after the branch
    constructor
    · rintro ⟨hc, ht, hs⟩
      exact ⟨⟨hc, hs⟩, ht⟩
    · rintro ⟨⟨hc, hs⟩, ht⟩
      exact ⟨hc, ht, hs⟩
  | ifElse s c t e iht ihe =>
    simp only [Stmt.check, Stmt.Meets, Traced.clean_bind, Traced.clean_pure, Check.clean_scalar,
      Bool.and_true, Bool.and_eq_true, iht, ihe]
    constructor
    · rintro ⟨hc, ht, he, hs⟩
      exact ⟨⟨hc, hs⟩, ht, he⟩
    · rintro ⟨⟨hc, hs⟩, ht, he⟩
      exact ⟨hc, ht, he, hs⟩
  | whileLoop s c b ih =>
    simp only [Stmt.check, Stmt.Meets, Traced.clean_bind, Traced.clean_pure, Check.clean_scalar,
      Bool.and_true, Bool.and_eq_true, ih]
    constructor
    · rintro ⟨hc, hb, hs⟩
      exact ⟨⟨hc, hs⟩, hb⟩
    · rintro ⟨⟨hc, hs⟩, hb⟩
      exact ⟨hc, hb, hs⟩
  | doWhile s b c ih =>
    simp only [Stmt.check, Stmt.Meets, Traced.clean_bind, Traced.clean_pure, Check.clean_scalar,
      Bool.and_true, Bool.and_eq_true, ih]
    exact Iff.rfl
  | forLoop s i c n b ih =>
    simp only [Stmt.check, Stmt.Meets, Traced.clean_bind, Traced.clean_pure, Check.clean_scalar?,
      Expr.clean_resolve?, Expr.value_resolve?, Bool.and_true, Bool.and_eq_true, ih]
    constructor
    · rintro ⟨hi, hc, hn, hb, hs⟩
      refine ⟨hi, fun e he => ⟨hc e he, ?_⟩, hn, hb⟩
      exact hs _ (Option.mem_map_of_mem _ he)
    · rintro ⟨hi, hc, hn, hb⟩
      refine ⟨hi, fun e he => (hc e he).1, hn, hb, fun x hx => ?_⟩
      obtain ⟨e, he, rfl⟩ := Option.map_eq_some_iff.mp hx
      exact (hc e he).2
  | switch s e cs ih =>
    have hcs : (Stmt.checkCases d result cs).clean = true ↔
        Stmt.MeetCases (.accepted d result) cs := by
      simp only [Stmt.checkCases_eq, Traced.clean_mapM, List.all_eq_true, Stmt.meetCases_iff,
        Case.clean_check, Case.meets_iff, Block.clean_check, Block.meets_iff]
      refine forall₂_congr fun c hc => and_congr_right fun _ => and_congr_right fun _ => ?_
      exact forall₂_congr (ih c hc)
    simp only [Stmt.check, Stmt.Meets, Traced.clean_bind, Traced.clean_pure, Check.clean_scalar,
      Bool.and_true, Bool.and_eq_true, hcs]
    constructor
    · rintro ⟨he, hcs, hs⟩
      exact ⟨⟨he, hs⟩, hcs⟩
    · rintro ⟨⟨he, hs⟩, hcs⟩
      exact ⟨he, hcs, hs⟩
  | returns s e => rw [Stmt.clean_returns_iff, Stmt.Meets]
  | breaks s => exact ⟨fun _ => trivial, fun _ => rfl⟩
  | continues s => exact ⟨fun _ => trivial, fun _ => rfl⟩
  | goto s l => exact ⟨fun _ => trivial, fun _ => rfl⟩
  | label s n b ih => simp [Stmt.check, Stmt.Meets, ih]
  | empty s => exact ⟨fun _ => trivial, fun _ => rfl⟩

/-- A block is accepted if and only if all that is demanded of its parts is met. -/
theorem Block.clean_check_iff {b : Block} :
    (b.check d result).clean = true ↔ b.Meets (.accepted d result) := by
  rw [Block.clean_check, Block.meets_iff]
  exact and_congr_right fun _ => forall₂_congr fun _ _ => Stmt.clean_check_iff

/-! ### What a check leaves -/

/-- What holds of an optional expression that is resolved. -/
theorem Expr.forall_mem_resolve? {P Q : Expr → Prop} (h : ∀ e, P e → Q (e.resolve d).value)
    {e : Option Expr} (he : ∀ x ∈ e, P x) : ∀ x ∈ (Expr.resolve? d e).value, Q x := by
  rw [Expr.value_resolve?]
  exact forall_mem_option_map h he

/-- **What holds of the parts that a check leaves holds of the statement that it leaves.** The
demands on what is left may rest on demands that the statement met before. -/
theorem Stmt.Meets.check {m m' : Demands} (hvar : ∀ v, m.var v → m'.var (v.check d).value)
    (hexpr : ∀ e, m.expr e → m'.expr (e.resolve d).value)
    (htest : ∀ e, m.test e → m'.test (e.resolve d).value)
    (hreturned : ∀ s e, m.returned e →
      m'.returned (Check.returned s result (Expr.resolve? d e).value).value)
    {s : Stmt} (h : s.Meets m) : (s.check d result).value.Meets m' := by
  have hblock : ∀ b : Block, (∀ x ∈ b.stmts, x.Meets m → (x.check d result).value.Meets m') →
      b.Meets m → (b.check d result).value.Meets m' := by
    intro b ih hb
    rw [Block.meets_iff] at hb ⊢
    simp only [Block.value_check, List.forall_mem_map]
    exact ⟨fun v hv => hvar v (hb.1 v hv), fun x hx => ih x hx (hb.2 x hx)⟩
  induction s with
  | block s b ih => exact hblock b ih h
  | expr s e => exact hexpr e h
  | ifThen s c t iht => exact ⟨htest c h.1, iht h.2⟩
  | ifElse s c t e iht ihe => exact ⟨htest c h.1, iht h.2.1, ihe h.2.2⟩
  | whileLoop s c b ih => exact ⟨htest c h.1, ih h.2⟩
  | doWhile s b c ih => exact ⟨ih h.1, htest c h.2⟩
  | forLoop s i c n b ih =>
    obtain ⟨hi, hc, hn, hb⟩ := h
    exact ⟨Expr.forall_mem_resolve? hexpr hi, Expr.forall_mem_resolve? htest hc,
      Expr.forall_mem_resolve? hexpr hn, ih hb⟩
  | switch s e cs ih =>
    obtain ⟨he, hcs⟩ := h
    refine ⟨htest e he, ?_⟩
    rw [Stmt.meetCases_iff] at hcs ⊢
    simp only [Stmt.checkCases_eq, Traced.value_mapM, List.forall_mem_map]
    intro c hc
    have hm := Case.meets_iff.mp (hcs c hc)
    rw [Case.meets_iff]
    simp only [Case.value_check, List.forall_mem_map]
    exact ⟨fun v hv => hexpr v (hm.1 v hv), hblock c.body (ih c hc) hm.2⟩
  | returns s e => exact hreturned s e h
  | breaks s => trivial
  | continues s => trivial
  | goto s l => trivial
  | label s n b ih => exact ih h
  | empty s => trivial

/-- What a check makes of the parts of a block it makes of the block. -/
theorem Block.Meets.check {m m' : Demands} (hvar : ∀ v, m.var v → m'.var (v.check d).value)
    (hexpr : ∀ e, m.expr e → m'.expr (e.resolve d).value)
    (htest : ∀ e, m.test e → m'.test (e.resolve d).value)
    (hreturned : ∀ s e, m.returned e →
      m'.returned (Check.returned s result (Expr.resolve? d e).value).value)
    {b : Block} (h : b.Meets m) : (b.check d result).value.Meets m' := by
  obtain ⟨hvars, hstmts⟩ := Block.meets_iff.mp h
  rw [Block.meets_iff, Block.value_check]
  simp only [List.forall_mem_map]
  exact ⟨fun v hv => hvar v (hvars v hv),
    fun s hs => (hstmts s hs).check hvar hexpr htest hreturned⟩

end CTyping
