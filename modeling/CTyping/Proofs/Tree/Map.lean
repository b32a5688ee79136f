import CTyping.Proofs.Tree.Demands

/-!
# Changing the parts of a statement

`CTyping.Stmt.map` changes the variables and the expressions of a statement and nothing else. So a
statement whose parts are changed to themselves stays as it is (`CTyping.Stmt.Meets.map_eq_self`),
and the parts of a changed statement are changed parts (`CTyping.Stmt.Meets.map`).
-/

namespace CTyping

variable {f : Variable → Variable} {g : Expr → Expr}

/-! ### Lists of parts -/

@[simp] theorem Stmt.mapList_eq (ss : List Stmt) :
    Stmt.mapList f g ss = ss.map (Stmt.map f g) := by
  induction ss with
  | nil => simp [mapList]
  | cons s ss ih => simp [mapList, ih]

@[simp] theorem Stmt.mapCases_eq (cs : List Case) :
    Stmt.mapCases f g cs = cs.map (Case.map f g) := by
  induction cs with
  | nil => simp [mapCases]
  | cons c cs ih => simp [mapCases, ih]

theorem Block.map_eq (b : Block) : b.map f g = ⟨b.vars.map f, b.stmts.map (Stmt.map f g)⟩ := by
  cases b
  rw [Block.map, Stmt.mapList_eq]

theorem Case.map_eq (c : Case) : c.map f g = ⟨c.values.map g, c.body.map f g⟩ := by
  cases c
  rw [Case.map]

/-! ### Statements -/

/-- The demand that each part be changed to itself. -/
def Demands.fixed (f : Variable → Variable) (g : Expr → Expr) : Demands where
  var v := f v = v
  expr e := g e = e
  test e := g e = e
  returned e := e.map g = e

/-- A block stays as it is if its parts do, given this for its statements. -/
theorem Block.map_eq_self_of {b : Block} (hb : b.Meets (.fixed f g))
    (h : ∀ s ∈ b.stmts, s.Meets (.fixed f g) → s.map f g = s) : b.map f g = b := by
  obtain ⟨hvars, hstmts⟩ := Block.meets_iff.mp hb
  cases b
  rw [Block.map_eq, list_map_eq_self hvars, list_map_eq_self fun s hs => h s hs (hstmts s hs)]

/-- **A statement whose parts are changed to themselves stays as it is.** -/
theorem Stmt.Meets.map_eq_self {s : Stmt} (h : s.Meets (.fixed f g)) : s.map f g = s := by
  induction s with
  | block s b ih => rw [Stmt.map, Block.map_eq_self_of h ih]
  | expr s e => rw [Stmt.map, show g e = e from h]
  | ifThen s c t iht => rw [Stmt.map, show g c = c from h.1, iht h.2]
  | ifElse s c t e iht ihe => rw [Stmt.map, show g c = c from h.1, iht h.2.1, ihe h.2.2]
  | whileLoop s c b ih => rw [Stmt.map, show g c = c from h.1, ih h.2]
  | doWhile s b c ih => rw [Stmt.map, show g c = c from h.2, ih h.1]
  | forLoop s i c n b ih =>
    obtain ⟨hi, hc, hn, hb⟩ := h
    rw [Stmt.map, option_map_eq_self hi, option_map_eq_self hc, option_map_eq_self hn, ih hb]
  | switch s e cs ih =>
    have hcs : cs.map (Case.map f g) = cs := by
      refine list_map_eq_self fun c hc => ?_
      obtain ⟨hvalues, hbody⟩ := Case.meets_iff.mp (Stmt.meetCases_iff.mp h.2 c hc)
      have hc := Block.map_eq_self_of hbody (ih c hc)
      cases c
      rw [Case.map_eq, list_map_eq_self hvalues, hc]
    rw [Stmt.map, show g e = e from h.1, Stmt.mapCases_eq, hcs]
  | returns s e => rw [Stmt.map, show e.map g = e from h]
  | breaks s => rfl
  | continues s => rfl
  | goto s l => rfl
  | label s n b ih => rw [Stmt.map, ih h]
  | empty s => rfl

/-- **The parts of a changed statement are changed parts.** -/
theorem Stmt.Meets.map {m m' : Demands} (hvar : ∀ v, m.var v → m'.var (f v))
    (hexpr : ∀ e, m.expr e → m'.expr (g e)) (htest : ∀ e, m.test e → m'.test (g e))
    (hreturned : ∀ e : Option Expr, m.returned e → m'.returned (e.map g)) {s : Stmt}
    (h : s.Meets m) : (s.map f g).Meets m' := by
  -- a block stands by itself and in the arms of a `switch`; there the statements are smaller
  have hblock : ∀ b : Block, (∀ s ∈ b.stmts, s.Meets m → (s.map f g).Meets m') → b.Meets m →
      (b.map f g).Meets m' := by
    intro b ih hb
    obtain ⟨hvars, hstmts⟩ := Block.meets_iff.mp hb
    rw [Block.meets_iff, Block.map_eq]
    simp only [List.forall_mem_map]
    exact ⟨fun v hv => hvar v (hvars v hv), fun s hs => ih s hs (hstmts s hs)⟩
  induction s with
  | block s b ih => exact hblock b ih h
  | expr s e => exact hexpr e h
  | ifThen s c t iht => exact ⟨htest c h.1, iht h.2⟩
  | ifElse s c t e iht ihe => exact ⟨htest c h.1, iht h.2.1, ihe h.2.2⟩
  | whileLoop s c b ih => exact ⟨htest c h.1, ih h.2⟩
  | doWhile s b c ih => exact ⟨ih h.1, htest c h.2⟩
  | forLoop s i c n b ih =>
    obtain ⟨hi, hc, hn, hb⟩ := h
    exact ⟨forall_mem_option_map hexpr hi, forall_mem_option_map htest hc,
      forall_mem_option_map hexpr hn, ih hb⟩
  | switch s e cs ih =>
    obtain ⟨he, hcs⟩ := h
    refine ⟨htest e he, ?_⟩
    rw [Stmt.meetCases_iff] at hcs
    rw [Stmt.mapCases_eq, Stmt.meetCases_iff]
    simp only [List.forall_mem_map]
    intro c hc
    obtain ⟨hvalues, hbody⟩ := Case.meets_iff.mp (hcs c hc)
    rw [Case.meets_iff, Case.map_eq]
    simp only [List.forall_mem_map]
    exact ⟨fun e he => hexpr e (hvalues e he), hblock c.body (ih c hc) hbody⟩
  | returns s e => exact hreturned e h
  | breaks s => trivial
  | continues s => trivial
  | goto s l => trivial
  | label s n b ih => exact ih h
  | empty s => trivial

/-! ### Blocks -/

/-- A block whose parts all stay as they are does so. -/
theorem Block.Meets.map_eq_self {b : Block} (h : b.Meets (.fixed f g)) : b.map f g = b :=
  Block.map_eq_self_of h fun _ _ => Stmt.Meets.map_eq_self

/-- What functions make of the parts of a block they make of the block. -/
theorem Block.Meets.map {m m' : Demands} (hvar : ∀ v, m.var v → m'.var (f v))
    (hexpr : ∀ e, m.expr e → m'.expr (g e)) (htest : ∀ e, m.test e → m'.test (g e))
    (hreturned : ∀ e : Option Expr, m.returned e → m'.returned (e.map g)) {b : Block}
    (h : b.Meets m) : (b.map f g).Meets m' := by
  obtain ⟨hvars, hstmts⟩ := Block.meets_iff.mp h
  rw [Block.meets_iff, Block.map_eq]
  simp only [List.forall_mem_map]
  exact ⟨fun v hv => hvar v (hvars v hv),
    fun s hs => (hstmts s hs).map hvar hexpr htest hreturned⟩

end CTyping
