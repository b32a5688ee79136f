import CTyping.Proofs.Tree.Induction

/-!
# Demands on the parts of a statement

Several properties of statements say nothing of a statement but that its parts have properties: its
variables, its expressions, the conditions on which it goes on, and what it returns.
`CTyping.Stmt.Meets` is such a property, for given properties of the parts.
-/

namespace CTyping

/-- Demands on the parts of a statement. -/
structure Demands where
  var : Variable → Prop
  /-- Of an expression by itself. -/
  expr : Expr → Prop
  /-- Of an expression that decides where to go on. -/
  test : Expr → Prop
  /-- Of what a `return` gives. -/
  returned : Option Expr → Prop

mutual

/-- Whether the parts of a statement meet demands. -/
def Stmt.Meets (m : Demands) : Stmt → Prop
  | .block _ b => b.Meets m
  | .expr _ e => m.expr e
  | .ifElse _ c t none => m.test c ∧ t.Meets m
  | .ifElse _ c t (some e) => m.test c ∧ t.Meets m ∧ e.Meets m
  | .whileLoop _ c b => m.test c ∧ b.Meets m
  | .doWhile _ b c => b.Meets m ∧ m.test c
  | .forLoop _ i c n b =>
    (∀ e ∈ i, m.expr e) ∧ (∀ e ∈ c, m.test e) ∧ (∀ e ∈ n, m.expr e) ∧ b.Meets m
  | .switch _ e cs => m.test e ∧ Stmt.MeetCases m cs
  | .returns _ e => m.returned e
  | .breaks _ => True
  | .continues _ => True
  | .goto _ _ => True
  | .label _ _ b => b.Meets m
  | .empty _ => True

/-- Whether the parts of every statement of a list meet demands. -/
def Stmt.MeetList (m : Demands) : List Stmt → Prop
  | [] => True
  | s :: ss => s.Meets m ∧ Stmt.MeetList m ss

/-- Whether the parts of every arm of a `switch` meet demands. -/
def Stmt.MeetCases (m : Demands) : List Case → Prop
  | [] => True
  | c :: cs => c.Meets m ∧ Stmt.MeetCases m cs

/-- Whether the parts of an arm of a `switch` meet demands. -/
def Case.Meets (m : Demands) : Case → Prop
  | ⟨values, body⟩ => (∀ e ∈ values, m.expr e) ∧ body.Meets m

/-- Whether the parts of a block meet demands. -/
def Block.Meets (m : Demands) : Block → Prop
  | ⟨vars, stmts⟩ => (∀ v ∈ vars, m.var v) ∧ Stmt.MeetList m stmts

end

section Meets

variable {m : Demands}

@[simp] theorem Stmt.meetList_iff {ss : List Stmt} :
    Stmt.MeetList m ss ↔ ∀ s ∈ ss, s.Meets m := by
  induction ss with
  | nil => simp [MeetList]
  | cons s ss ih => simp [MeetList, ih]

@[simp] theorem Stmt.meetCases_iff {cs : List Case} :
    Stmt.MeetCases m cs ↔ ∀ c ∈ cs, c.Meets m := by
  induction cs with
  | nil => simp [MeetCases]
  | cons c cs ih => simp [MeetCases, ih]

/-- An arm meets demands if its values and its block do. -/
theorem Case.meets_iff {c : Case} :
    c.Meets m ↔ (∀ e ∈ c.values, m.expr e) ∧ c.body.Meets m := by
  cases c
  rw [Case.Meets]

/-- A block meets demands if its variables and its statements do. -/
theorem Block.meets_iff {b : Block} :
    b.Meets m ↔ (∀ v ∈ b.vars, m.var v) ∧ ∀ s ∈ b.stmts, s.Meets m := by
  cases b
  rw [Block.Meets, Stmt.meetList_iff]

/-- Demands that ask for less are met as well. -/
theorem Stmt.Meets.imp {m' : Demands} (hvar : ∀ v, m.var v → m'.var v)
    (hexpr : ∀ e, m.expr e → m'.expr e) (htest : ∀ e, m.test e → m'.test e)
    (hreturned : ∀ e, m.returned e → m'.returned e) {s : Stmt} (h : s.Meets m) :
    s.Meets m' := by
  have hblock : ∀ b : Block, (∀ x ∈ b.stmts, x.Meets m → x.Meets m') →
      b.Meets m → b.Meets m' := by
    intro b ih hb
    rw [Block.meets_iff] at hb ⊢
    exact ⟨fun v hv => hvar v (hb.1 v hv), fun x hx => ih x hx (hb.2 x hx)⟩
  induction s with
  | block s b ih => exact hblock b ih h
  | expr s e => exact hexpr e h
  | ifThen s c t iht => exact ⟨htest c h.1, iht h.2⟩
  | ifElse s c t e iht ihe => exact ⟨htest c h.1, iht h.2.1, ihe h.2.2⟩
  | whileLoop s c b ih => exact ⟨htest c h.1, ih h.2⟩
  | doWhile s b c ih => exact ⟨ih h.1, htest c h.2⟩
  | forLoop s i c n b ih =>
    obtain ⟨hi, hc, hn, hb⟩ := h
    exact ⟨fun e he => hexpr e (hi e he), fun e he => htest e (hc e he),
      fun e he => hexpr e (hn e he), ih hb⟩
  | switch s e cs ih =>
    obtain ⟨he, hcs⟩ := h
    refine ⟨htest e he, ?_⟩
    rw [Stmt.meetCases_iff] at hcs ⊢
    intro c hc
    have hm := Case.meets_iff.mp (hcs c hc)
    exact Case.meets_iff.mpr ⟨fun v hv => hexpr v (hm.1 v hv), hblock c.body (ih c hc) hm.2⟩
  | returns s e => exact hreturned e h
  | breaks s => trivial
  | continues s => trivial
  | goto s l => trivial
  | label s n b ih => exact ih h
  | empty s => trivial

/-- A block that meets demands meets all that follow from them. -/
theorem Block.Meets.imp {m' : Demands} (hvar : ∀ v, m.var v → m'.var v)
    (hexpr : ∀ e, m.expr e → m'.expr e) (htest : ∀ e, m.test e → m'.test e)
    (hreturned : ∀ e, m.returned e → m'.returned e) {b : Block} (h : b.Meets m) :
    b.Meets m' := by
  rw [Block.meets_iff] at h ⊢
  exact ⟨fun v hv => hvar v (h.1 v hv),
    fun s hs => (h.2 s hs).imp hvar hexpr htest hreturned⟩

end Meets

/-! ### No demands -/

/-- Demands that anything meets. -/
def Demands.vacuous : Demands := ⟨fun _ => True, fun _ => True, fun _ => True, fun _ => True⟩

/-- Every statement meets no demands. -/
theorem Stmt.meets_vacuous (s : Stmt) : s.Meets .vacuous := by
  induction s with
  | block s b ih => exact Block.meets_iff.mpr ⟨fun _ _ => trivial, ih⟩
  | switch s e cs ih =>
    refine ⟨trivial, Stmt.meetCases_iff.mpr fun c hc => Case.meets_iff.mpr ⟨fun _ _ => trivial, ?_⟩⟩
    exact Block.meets_iff.mpr ⟨fun _ _ => trivial, ih c hc⟩
  | ifElse s c t e iht ihe => exact ⟨trivial, iht, ihe⟩
  | ifThen s c t ih | whileLoop s c b ih => exact ⟨trivial, ih⟩
  | doWhile s b c ih => exact ⟨ih, trivial⟩
  | forLoop s i c n b ih =>
    exact ⟨fun _ _ => trivial, fun _ _ => trivial, fun _ _ => trivial, ih⟩
  | label s n b ih => exact ih
  | expr | returns | breaks | continues | goto | empty => trivial

theorem Block.meets_vacuous (b : Block) : b.Meets .vacuous :=
  Block.meets_iff.mpr ⟨fun _ _ => trivial, fun s _ => s.meets_vacuous⟩

end CTyping
