import CTyping.Proofs.Checker.Coverage
import CTyping.Proofs.Tree.Alike

/-!
# What an analysis does not read

A slot is filled before any rule asks for its type, so what it held before is never seen: programs
that agree in all that is written are checked alike (`CTyping.Program.Alike.check`). An analysis
further sets every width before it checks, in the declarations as well as in the tree. Hence it sees
neither the widths nor the slots of what it is given.
-/

namespace CTyping

/-! ### Slots -/

section Lists

variable {α β : Type} {R : α → α → Prop} {xs ys : List α}

theorem eq_of_forall₂ (h : List.Forall₂ R xs ys) (hR : ∀ x y, R x y → x = y) : xs = ys := by
  have hxs : List.Forall₂ Eq xs ys := h.imp hR
  rwa [List.forall₂_eq_eq_eq] at hxs

/-- Lists whose entries are checked as the same are. -/
theorem mapM_eq_of_forall₂ {f : α → Traced β} (h : List.Forall₂ R xs ys)
    (hf : ∀ x y, R x y → f x = f y) : xs.mapM f = ys.mapM f := by
  induction h with
  | nil => rfl
  | cons hx _ ih => simp only [List.mapM_cons, hf _ _ hx, ih]

end Lists

section Slots

variable (d : Declarations)

theorem Info.Alike.span_eq {i j : Info} (h : i.Alike .written j) : i.span = j.span := h.span

/-- What is written of a node is all that is kept once it has a type. -/
theorem Info.Alike.typed_eq {i j : Info} (h : i.Alike .written j) : i.typed = j.typed := by
  funext t
  rw [typed, typed, h.span_eq]

mutual

/-- Expressions that agree in all that is written are resolved alike. -/
theorem Expr.Alike.resolve : ∀ {e e' : Expr}, e.Alike .written e' → e.resolve d = e'.resolve d
  | _, _, .intLit hi rfl rfl => by simp only [Expr.resolve, hi.typed_eq]
  | _, _, .strLit hi rfl => by simp only [Expr.resolve, hi.typed_eq]
  | _, _, .var hi rfl rfl => by simp only [Expr.resolve, hi.typed_eq]
  | _, _, .unary hi he => by simp only [Expr.resolve, hi.typed_eq, he.resolve]
  | _, _, .step hi he => by simp only [Expr.resolve, hi.typed_eq, he.resolve]
  | _, _, .addressOf hi he => by
    simp only [Expr.resolve, hi.typed_eq, hi.span_eq, he.resolve]
  | _, _, .deref hi he => by
    simp only [Expr.resolve, hi.typed_eq, hi.span_eq, he.resolve]
  | _, _, .binary hi hl hr => by
    simp only [Expr.resolve, hi.typed_eq, hi.span_eq, hl.resolve, hr.resolve]
  | _, _, .assign hi hl hr => by
    simp only [Expr.resolve, hi.typed_eq, hi.span_eq, hl.resolve, hr.resolve]
  | _, _, .cond hi hc hx hy => by
    simp only [Expr.resolve, hi.typed_eq, hi.span_eq, hc.resolve, hx.resolve, hy.resolve]
  | _, _, .call hi hf has => by
    simp only [Expr.resolve, hi.typed_eq, hi.span_eq, hf.resolve, has.length_eq,
      Expr.Alike.resolveArgs has]
  | _, _, .index hi hb hx => by
    simp only [Expr.resolve, hi.typed_eq, hi.span_eq, hb.resolve, hx.resolve]
  | _, _, .member hi hb => by
    simp only [Expr.resolve, hi.typed_eq, hi.span_eq, hb.resolve]
  | _, _, .arrow hi hb => by
    simp only [Expr.resolve, hi.typed_eq, hi.span_eq, hb.resolve]
  | _, _, .cast hi rfl he => by
    simp only [Expr.resolve, hi.typed_eq, hi.span_eq, he.resolve]
  | _, _, .sizeofType hi rfl => by simp only [Expr.resolve, hi.typed_eq]
  | _, _, .sizeofExpr hi he => by simp only [Expr.resolve, hi.typed_eq, he.resolve]

/-- Arguments that are written the same are checked as the same. -/
theorem Expr.Alike.resolveArgs : ∀ {as bs : List Expr}, List.Forall₂ (Expr.Alike .written) as bs →
    ∀ params, Expr.resolveArgs d params as = Expr.resolveArgs d params bs
  | _, _, .nil, _ => rfl
  | _, _, .cons h hs, [] => by
    simp only [Expr.resolveArgs, h.resolve, Expr.Alike.resolveArgs hs]
  | _, _, .cons h hs, _ :: _ => by
    simp only [Expr.resolveArgs, h.resolve, Expr.Alike.resolveArgs hs]

end

/-- The same for an expression that may be missing. -/
theorem Expr.Alike.resolve? {o o' : Option Expr} (h : Option.Rel (Expr.Alike .written) o o') :
    Expr.resolve? d o = Expr.resolve? d o' := by
  cases h with
  | none => rfl
  | some he => simp only [Expr.resolve?, he.resolve]

/-- Variables that are written the same are checked as the same. -/
theorem Variable.Alike.check {v w : Variable} (h : v.Alike .written w) : v.check d = w.check d := by
  obtain ⟨n, t, i, p, l, s, x⟩ := v
  obtain ⟨n', t', i', p', l', s', x'⟩ := w
  obtain ⟨hn, ht, hi, hp, hl, hs, hx⟩ := h
  cases hn; cases ht; cases hp; cases hl; cases hs; cases hx
  cases hi with
  | none => rfl
  | some he => simp only [Variable.check, he.resolve]

mutual

/-- Statements that agree in all that is written are checked alike. -/
theorem Stmt.Alike.check (result : Ty) :
    ∀ {s s' : Stmt}, s.Alike .written s' → s.check d result = s'.check d result
  | _, _, .block rfl hb => by simp only [Stmt.check, hb.check]
  | _, _, .expr rfl he => by simp only [Stmt.check, he.resolve]
  | _, _, .ifThen rfl hc ht => by simp only [Stmt.check, hc.resolve, ht.check]
  | _, _, .ifElse rfl hc ht hu => by simp only [Stmt.check, hc.resolve, ht.check, hu.check]
  | _, _, .whileLoop rfl hc hb => by simp only [Stmt.check, hc.resolve, hb.check]
  | _, _, .doWhile rfl hb hc => by simp only [Stmt.check, hc.resolve, hb.check]
  | _, _, .forLoop rfl hi hc hn hb => by
    simp only [Stmt.check, Expr.Alike.resolve? d hi, Expr.Alike.resolve? d hc,
      Expr.Alike.resolve? d hn, hb.check]
  | _, _, .switch rfl he hcs => by
    simp only [Stmt.check, he.resolve, Stmt.Alike.checkCases result hcs]
  | _, _, .returns rfl he => by simp only [Stmt.check, Expr.Alike.resolve? d he]
  | _, _, .breaks rfl => rfl
  | _, _, .continues rfl => rfl
  | _, _, .goto rfl rfl => rfl
  | _, _, .label rfl rfl hb => by simp only [Stmt.check, hb.check]
  | _, _, .empty rfl => rfl

theorem Stmt.Alike.checkList (result : Ty) :
    ∀ {ss ts : List Stmt}, List.Forall₂ (Stmt.Alike .written) ss ts →
      Stmt.checkList d result ss = Stmt.checkList d result ts
  | _, _, .nil => rfl
  | _, _, .cons h hs => by simp only [Stmt.checkList, h.check, Stmt.Alike.checkList result hs]

theorem Stmt.Alike.checkCases (result : Ty) :
    ∀ {cs cs' : List Case}, List.Forall₂ (Case.Alike .written) cs cs' →
      Stmt.checkCases d result cs = Stmt.checkCases d result cs'
  | _, _, .nil => rfl
  | _, _, .cons h hs => by simp only [Stmt.checkCases, h.check, Stmt.Alike.checkCases result hs]

theorem Case.Alike.check (result : Ty) :
    ∀ {c c' : Case}, c.Alike .written c' → c.check d result = c'.check d result
  | _, _, .mk hvs hb => by
    simp only [Case.check, Expr.resolveList, Expr.Alike.resolveArgs d hvs, hb.check]

theorem Block.Alike.check (result : Ty) :
    ∀ {b b' : Block}, b.Alike .written b' → b.check d result = b'.check d result
  | _, _, .mk hvs hss => by
    simp only [Block.check, Variable.checkList_eq, Stmt.Alike.checkList result hss,
      mapM_eq_of_forall₂ hvs fun _ _ hv => hv.check d]

end

/-- Nothing in a parameter is left open by what is written. -/
theorem Param.Alike.eq {p q : Param} (h : p.Alike .written q) : p = q := by
  obtain ⟨n, t, s⟩ := p
  obtain ⟨n', t', s'⟩ := q
  obtain ⟨hn, ht, hs⟩ := h
  cases hn; cases ht; cases hs
  rfl

/-- Functions that are written the same are checked as the same. -/
theorem Function.Alike.check {f g : Function} (h : f.Alike .written g) : f.check d = g.check d := by
  obtain ⟨n, p, r, ps, v, b, s⟩ := f
  obtain ⟨n', p', r', ps', v', b', s'⟩ := g
  obtain ⟨hn, hp, hr, hps, hv, hb, hs⟩ := h
  cases hn; cases hp; cases hr; cases hv; cases hs
  cases eq_of_forall₂ hps fun _ _ => Param.Alike.eq
  have hb' := hb.check d r
  simp only [Function.check, checkSignature, resultProblem?, hb']

/-- Nothing in a member is left open by what is written. -/
theorem Member.Alike.eq {m n : Member} (h : m.Alike .written n) : m = n := by
  obtain ⟨x, t⟩ := m
  obtain ⟨x', t'⟩ := n
  obtain ⟨hx, ht⟩ := h
  cases hx; cases ht
  rfl

/-- Nothing in a record is left open by what is written. -/
theorem Record.Alike.eq {r s : Record} (h : r.Alike .written s) : r = s := by
  obtain ⟨i, n, u, ms⟩ := r
  obtain ⟨i', n', u', ms'⟩ := s
  obtain ⟨hi, hn, hu, hms⟩ := h
  cases hi; cases hn; cases hu
  cases eq_of_forall₂ hms fun _ _ => Member.Alike.eq
  rfl

/-- **Slots are not read.** Programs that agree in all that is written are checked alike. -/
theorem Program.Alike.check {p q : Program} (h : p.Alike .written q) : p.check d = q.check d := by
  have hr : p.records = q.records := eq_of_forall₂ h.records fun _ _ => Record.Alike.eq
  simp only [Program.check, Variable.checkList_eq, Function.checkList_eq, hr,
    mapM_eq_of_forall₂ h.globals fun _ _ hv => hv.check d,
    mapM_eq_of_forall₂ h.functions fun _ _ hf => hf.check d]

end Slots

/-! ### Widths -/

theorem DeclFault.message_duplicate (r : Record) : (duplicate r).message =
    "duplicate type definition id " ++ toString r.id.toNat ++ " (" ++ r.name ++ ")" := rfl

theorem DeclFault.message_outOfRange (r : Record) : (outOfRange r).message =
    "type definition id " ++ toString r.id.toNat ++ " out of range (" ++ r.name ++ ")" := rfl

/-- Declarations that differ in widths only are taken alike, or refused in the same words. -/
theorem Declarations.add_alike {d : Declarations} {r s : Record} (h : r.Alike .layout s) :
    (d.add r).mapError DeclFault.message = (d.add s).mapError DeclFault.message := by
  -- widths are filled in before a record is stored, and the messages do not show them
  have hm : r.mapTypes d.model.normalize = s.mapTypes d.model.normalize := (h.normalize d.model).eq
  have hdup : (DeclFault.duplicate r).message = (DeclFault.duplicate s).message := by
    rw [DeclFault.message_duplicate, DeclFault.message_duplicate, h.id, h.name]
  have hrange : (DeclFault.outOfRange r).message = (DeclFault.outOfRange s).message := by
    rw [DeclFault.message_outOfRange, DeclFault.message_outOfRange, h.id, h.name]
  rw [add, add, h.id, hm]
  by_cases hf : (d.find? s.id).isSome
  · rw [if_pos hf, if_pos hf]
    exact congrArg Except.error hdup
  · rw [if_neg hf, if_neg hf]
    by_cases hmax : s.id = maxId
    · rw [if_pos hmax, if_pos hmax]
      exact congrArg Except.error hrange
    · rw [if_neg hmax, if_neg hmax]

/-- Records that differ in widths alone are registered alike, with the same message if there is a
fault. -/
theorem Declarations.register_alike {rs ss : List Record}
    (h : List.Forall₂ (Record.Alike .layout) rs ss) (d : Declarations) :
    (d.register rs).1 = (d.register ss).1 ∧
      (d.register rs).2.map DeclFault.message = (d.register ss).2.map DeclFault.message := by
  induction h generalizing d with
  | nil => exact ⟨rfl, rfl⟩
  | @cons r s rs ss hr _ ih =>
    have ha := add_alike (d := d) hr
    rw [register, register]
    cases hr : d.add r <;> cases hs : d.add s <;> rw [hr, hs] at ha
    case ok.ok d₁ d₂ =>
      cases ha
      exact ih d₁
    case error.error fault fault' => exact ⟨rfl, congrArg some (Except.error.inj ha)⟩
    all_goals cases ha

/-- The declarations of two programs that differ in widths only are the same, or contradict each
other in the same words. -/
theorem Declarations.ofRecords_alike {rs ss : List Record}
    (h : List.Forall₂ (Record.Alike .layout) rs ss) (m : DataModel) :
    (ofRecords m rs).mapError DeclFault.message = (ofRecords m ss).mapError DeclFault.message := by
  obtain ⟨h₁, h₂⟩ := register_alike h (empty m)
  rw [ofRecords, ofRecords]
  generalize (empty m).register rs = x at h₁ h₂ ⊢
  generalize (empty m).register ss = y at h₁ h₂ ⊢
  obtain ⟨d, f₁⟩ := x
  obtain ⟨d', f₂⟩ := y
  cases h₁
  cases f₁ with
  | none =>
    cases f₂ with
    | none => rfl
    | some fault => cases h₂
  | some fault =>
    cases f₂ with
    | none => cases h₂
    | some fault' => exact congrArg Except.error (Option.some.inj h₂)

/-- **An analysis sees neither widths nor slots.** Two programs that differ in nothing but the
widths of integers and what is in the slots have analyses that end alike, log and record the same
and, unless the declarations contradict each other, leave the same program. -/
theorem analysis_ignores_widths_and_slots {p q : Program} (h : p.Alike .layout q) (m : DataModel)
    (j : Journal) :
    (p.analyze m j).outcome = (q.analyze m j).outcome ∧
      (p.analyze m j).journal = (q.analyze m j).journal ∧
      (p.analyze m j).log = (q.analyze m j).log ∧
      ((∀ text, (p.analyze m j).outcome ≠ .error (.invalidInput text)) →
        (p.analyze m j).program = (q.analyze m j).program) := by
  have hd := Declarations.ofRecords_alike h.records m
  cases hp : Declarations.ofRecords m p.records <;>
    cases hq : Declarations.ofRecords m q.records <;> rw [hp, hq] at hd
  case ok.ok d d' =>
    cases hd
    have hcheck := (h.normalize m).check d
    have hpass : (p.mapTypes m.normalize).pass d j = (q.mapTypes m.normalize).pass d j := by
      rw [Program.pass, Program.pass, hcheck]
    have hfirst : p.announcement m = q.announcement m := by
      rw [Program.announcement, Program.announcement, h.functions.length_eq, h.globals.length_eq]
    have hall : p.analyze m j = q.analyze m j := by
      rw [Program.analyze, Program.analyze, hp, hq]
      simp only [hpass, hfirst]
    rw [hall]
    exact ⟨rfl, rfl, rfl, fun _ => rfl⟩
  case error.error fault fault' =>
    -- nothing is done, so only the words of the failure have to be the same
    have htext : fault.message = fault'.message := Except.error.inj hd
    rw [Program.analyze_of_fault hp, Program.analyze_of_fault hq, htext]
    exact ⟨rfl, rfl, rfl, fun hvalid => absurd rfl (hvalid fault'.message)⟩
  all_goals cases hd

/-- A program with integers of one width throughout and one thing in all slots: a struct with a
member that is called, and a variable that is narrowed. -/
def uniform (width : UInt8) (slot : Option Ty) : Program :=
  let char : Ty := .int ⟨.char, true, width⟩
  let long : Ty := .int ⟨.long, false, width⟩
  let method : Ty := .ptr (.func long [.array char none] false)
  let i : Info := ⟨.unknown, slot⟩
  { records := [⟨0, "s", false, [⟨"m", method⟩]⟩]
    globals := [⟨"c", char, some (.sizeofType i long), false, true, none, .unknown⟩]
    functions := [{
      name := "f", isPrivate := false, result := long, params := [⟨"l", long, .unknown⟩]
      variadic := false, span := .unknown
      body := ⟨[], [.returns .unknown (some (.call i
        (.member i (.var i "x" (.struct ⟨0, "s"⟩)) "m") [.strLit i "text"]))]⟩ }] }

/-- Programs with one layout, whatever widths and slots are put into it. -/
theorem uniform_alike (m n : UInt8) (t u : Option Ty) :
    (uniform m t).Alike .layout (uniform n u) := by
  have hi : Info.Alike .layout ⟨.unknown, t⟩ ⟨.unknown, u⟩ := ⟨rfl, trivial⟩
  have hmethod : List.Forall₂ Ty.Resized [.array (.int ⟨.char, true, m⟩) none]
      [.array (.int ⟨.char, true, n⟩) none] := .cons (.array .int) .nil
  refine ⟨.cons ⟨rfl, rfl, rfl, .cons ⟨rfl, .ptr (.func .int hmethod)⟩ .nil⟩ .nil,
    .cons ⟨rfl, .int, .some (.sizeofType hi .int), rfl, rfl, rfl, rfl⟩ .nil,
    .cons ⟨rfl, rfl, .int, .cons ⟨rfl, .int, rfl⟩ .nil, rfl, ?_, rfl⟩ .nil⟩
  exact .mk .nil (.cons (.returns rfl (.some
    (.call hi (.member hi (.var hi rfl .struct)) (.cons (.strLit hi rfl) .nil)))) .nil)

theorem analysis_ignores_widths_and_slots_uniform :
    (uniform 0 none).Alike .layout (uniform 255 (some .void)) ∧
      ((uniform 0 none).analyze .lp64 .empty).journal.warnings = 1 ∧
      ((uniform 0 none).analyze .lp64 .empty).journal =
        ((uniform 255 (some .void)).analyze .lp64 .empty).journal ∧
      ((uniform 0 none).analyze .lp64 .empty).program =
        ((uniform 255 (some .void)).analyze .lp64 .empty).program := by
  have h := uniform_alike 0 255 none (some .void)
  obtain ⟨_, hj, _, hp⟩ := analysis_ignores_widths_and_slots h .lp64 .empty
  refine ⟨h, by decide, hj, hp fun text ht => ?_⟩
  obtain ⟨fault, hf⟩ := Program.analyze_invalidInput_iff.mp ⟨text, ht⟩
  cases hf

end CTyping
