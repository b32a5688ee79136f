import CTyping.Analysis
import CTyping.Proofs.Document.Expr
import CTyping.Proofs.Json.Reader

/-!
# Programs are read as they are written

A document is the text of a value, and the text of a value is read as that value
(`CTyping.Json.parse?_pretty`); what is left is that the decoders of statements, functions and
programs invert their encodings. Together, a written document is read as the program that it was
written from if it is nested no deeper than documents may be, and is not read if it is nested
deeper.
-/

namespace CTyping

open Decoder

/-! ### Variables -/

theorem Storage.inverts_decoder : Storage.decoder.Inverts Storage.toJson := by
  intro d s
  cases s with
  | global symbol =>
    exact .variant fun d₁ _ => .fields (by rfl) (by decide) fun d₂ _ =>
      .bind (.required (inverts_string d₂ symbol) rfl) .pure
  | frame offset =>
    exact .variant fun d₁ _ => .fields (by rfl) (by decide) fun d₂ _ =>
      .bind (.required (inverts_int64 d₂ offset) rfl) .pure

theorem Storage.toJson_ne_null (s : Storage) : s.toJson ≠ .null := by cases s <;> nofun

/-- A variable is read back from what is written of it. -/
theorem Variable.inverts_decoder : Variable.decoder.Inverts Variable.toJson := fun _ v =>
  .fields (by rfl) (by decide) fun d _ =>
    .bind (.required (inverts_string d v.name) rfl) <|
    .bind (.required (Ty.inverts_decoder d v.type) rfl) <|
    .bind (.optional ((Expr.inverts_decoder d).nullable Expr.toJson_ne_null v.initializer) rfl) <|
    .bind (.optional (inverts_bool d v.isPrivate) rfl) <|
    .bind (.optional (inverts_bool d v.isToplevel) rfl) <|
    .bind (.optional ((Storage.inverts_decoder d).nullable Storage.toJson_ne_null v.storage) rfl) <|
    .bind (.optional (Span.inverts_decoder d v.span) rfl) .pure

/-! ### Statements -/

theorem Stmt.toJsonList_eq (ss : List Stmt) : Stmt.toJsonList ss = ss.map Stmt.toJson := by
  induction ss with
  | nil => rfl
  | cons s ss ih => rw [toJsonList, ih, List.map_cons]

theorem Stmt.toJsonCases_eq (cs : List Case) : Stmt.toJsonCases cs = cs.map Case.toJson := by
  induction cs with
  | nil => rfl
  | cons c cs ih => rw [toJsonCases, ih, List.map_cons]

section Statements

variable {stmt : Decoder Stmt} {d : Nat}

/-- Statements that are read back one by one are as a list. -/
theorem Stmt.inverts_list (h : stmt.InvertsBelow Stmt.toJson d) :
    (list stmt).InvertsAt (fun ss => .arr (Stmt.toJsonList ss)) d := by
  simp only [Stmt.toJsonList_eq]
  exact h.list

/-- A block is read back if its statements are. -/
theorem Block.inverts_decodeWith (h : stmt.InvertsBelow Stmt.toJson d) :
    (Block.decodeWith stmt).InvertsAt Block.toJson d := fun ⟨vars, stmts⟩ =>
  .fields (by rfl) (by decide) fun d₁ h₁ =>
    .bind (.optional ((Variable.inverts_decoder.below d₁).list vars) rfl) <|
    .bind (.optional (Stmt.inverts_list (h.mono h₁) stmts) rfl) .pure

/-- An arm of a `switch` is read back if its statements are. -/
theorem Case.inverts_decodeWith (h : stmt.InvertsBelow Stmt.toJson d) :
    (Case.decodeWith stmt).InvertsAt Case.toJson d := fun ⟨values, body⟩ =>
  .fields (by rfl) (by decide) fun d₁ h₁ =>
    .bind (.optional (Expr.inverts_list (Expr.inverts_decoder.below d₁) values) rfl) <|
    .bind (.required (Block.inverts_decodeWith (h.mono h₁) body) rfl) .pure

/-- The arms of a `switch` are read back if their statements are. -/
theorem Stmt.inverts_cases (h : stmt.InvertsBelow Stmt.toJson d) :
    (list (Case.decodeWith stmt)).InvertsAt (fun cs => .arr (Stmt.toJsonCases cs)) d := by
  simp only [Stmt.toJsonCases_eq]
  exact InvertsBelow.list fun _ hd => Case.inverts_decodeWith (h.mono hd)

end Statements

namespace Stmt

/-- No statement is written as `null`, so that one that is missing is not taken for one. -/
theorem toJson_ne_null (s : Stmt) : s.toJson ≠ .null := by
  cases s with
  | ifElse s c t e => cases e <;> nofun
  | _ => nofun

/-- Each form is read from what is written for it, given that the statements in it are read as they
are written. -/
theorem exists_form (stmt : Decoder Stmt) (x : Stmt) :
    ∃ form span, x.toJson = nodeJson form span ∧
      ∀ d, stmt.InvertsBelow toJson d → Gives (decodeForm stmt span d form) (form.depth ≤ d) x := by
  cases x with
  | block s b =>
    exact ⟨_, s, rfl, fun _ h => .variant fun d₁ h₁ =>
      .holds (Block.inverts_decodeWith (h.mono h₁) b)⟩
  | expr s e =>
    exact ⟨_, s, rfl, fun _ _ => .variant fun d₁ _ => .holds (Expr.inverts_decoder d₁ e)⟩
  | ifElse s c t e =>
    cases e with
    -- what is missing is written as `null`
    | none =>
      exact ⟨_, s, rfl, fun _ h => .variant fun d₁ h₁ => .fields (by rfl) (by decide) fun d₂ h₂ =>
        .bind (.required (Expr.inverts_decoder d₂ c) rfl) <|
        .bind (.required (h.mono h₁ d₂ h₂ t) rfl) <|
        .bind (.optional ((h.mono h₁ d₂ h₂).nullable toJson_ne_null none) rfl) .pure⟩
    | some e =>
      exact ⟨_, s, rfl, fun _ h => .variant fun d₁ h₁ => .fields (by rfl) (by decide) fun d₂ h₂ =>
        .bind (.required (Expr.inverts_decoder d₂ c) rfl) <|
        .bind (.required (h.mono h₁ d₂ h₂ t) rfl) <|
        .bind (.optional ((h.mono h₁ d₂ h₂).nullable toJson_ne_null (some e)) rfl) .pure⟩
  | whileLoop s c b =>
    exact ⟨_, s, rfl, fun _ h => .variant fun d₁ h₁ => .fields (by rfl) (by decide) fun d₂ h₂ =>
      .bind (.required (Expr.inverts_decoder d₂ c) rfl) <|
      .bind (.required (h.mono h₁ d₂ h₂ b) rfl) .pure⟩
  | doWhile s b c =>
    exact ⟨_, s, rfl, fun _ h => .variant fun d₁ h₁ => .fields (by rfl) (by decide) fun d₂ h₂ =>
      .bind (.required (h.mono h₁ d₂ h₂ b) rfl) <|
      .bind (.required (Expr.inverts_decoder d₂ c) rfl) .pure⟩
  | forLoop s i c n b =>
    exact ⟨_, s, rfl, fun _ h => .variant fun d₁ h₁ => .fields (by rfl) (by decide) fun d₂ h₂ =>
      .bind (.optional ((Expr.inverts_decoder d₂).nullable Expr.toJson_ne_null i) rfl) <|
      .bind (.optional ((Expr.inverts_decoder d₂).nullable Expr.toJson_ne_null c) rfl) <|
      .bind (.optional ((Expr.inverts_decoder d₂).nullable Expr.toJson_ne_null n) rfl) <|
      .bind (.required (h.mono h₁ d₂ h₂ b) rfl) .pure⟩
  | switch s e cs =>
    exact ⟨_, s, rfl, fun _ h => .variant fun d₁ h₁ => .fields (by rfl) (by decide) fun d₂ h₂ =>
      .bind (.required (Expr.inverts_decoder d₂ e) rfl) <|
      .bind (.required (inverts_cases ((h.mono h₁).mono h₂) cs) rfl) .pure⟩
  | returns s e =>
    exact ⟨_, s, rfl, fun _ _ => .variant fun d₁ _ =>
      .holds ((Expr.inverts_decoder d₁).nullable Expr.toJson_ne_null e)⟩
  | breaks s => exact ⟨_, s, rfl, fun d _ => .of_eq rfl (Nat.zero_le d)⟩
  | continues s => exact ⟨_, s, rfl, fun d _ => .of_eq rfl (Nat.zero_le d)⟩
  | goto s l => exact ⟨_, s, rfl, fun _ _ => .variant fun d₁ _ => .holds (inverts_string d₁ l)⟩
  | label s n b =>
    exact ⟨_, s, rfl, fun _ h => .variant fun d₁ h₁ => .fields (by rfl) (by decide) fun d₂ h₂ =>
      .bind (.required (inverts_string d₂ n) rfl) <|
      .bind (.required (h.mono h₁ d₂ h₂ b) rfl) .pure⟩
  | empty s => exact ⟨_, s, rfl, fun d _ => .of_eq rfl (Nat.zero_le d)⟩

/-- One statement, given that the statements in it are read as they are written. -/
theorem inverts_decodeWith (stmt : Decoder Stmt) (d : Nat) (h : stmt.InvertsBelow toJson d) :
    (decodeWith stmt).InvertsAt toJson d := by
  intro x
  obtain ⟨form, span, hjson, hform⟩ := exists_form stmt x
  rw [hjson]
  refine .fields (by rfl) (by decide) fun d₁ h₁ => .congr
    (.bind (.optional (Span.inverts_decoder d₁ span) rfl) <|
      .required (hform d₁ (h.mono h₁)) rfl) ?_
  exact ⟨fun ⟨hspan, hkind⟩ => ⟨hkind, hspan, trivial⟩, fun ⟨hkind, hspan, _⟩ => ⟨hspan, hkind⟩⟩

/-- A statement is read back from what is written of it. -/
theorem inverts_decoder : Stmt.decoder.Inverts Stmt.toJson := inverts_fix inverts_decodeWith

end Stmt

/-! ### Functions and programs -/

theorem Param.inverts_decoder : Param.decoder.Inverts Param.toJson := fun _ p =>
  .fields (by rfl) (by decide) fun d _ =>
    .bind (.required (inverts_string d p.name) rfl) <|
    .bind (.required (Ty.inverts_decoder d p.type) rfl) <|
    .bind (.optional (Span.inverts_decoder d p.span) rfl) .pure

/-- A function is read back from what is written of it. -/
theorem Function.inverts_decoder : Function.decoder.Inverts Function.toJson := fun _ f =>
  .fields (by rfl) (by decide) fun d _ =>
    .bind (.required (inverts_string d f.name) rfl) <|
    .bind (.optional (inverts_bool d f.isPrivate) rfl) <|
    .bind (.required (Ty.inverts_decoder d f.result) rfl) <|
    .bind (.optional ((Param.inverts_decoder.below d).list f.params) rfl) <|
    .bind (.optional (inverts_bool d f.variadic) rfl) <|
    .bind (.required (Block.inverts_decodeWith (Stmt.inverts_decoder.below d) f.body) rfl) <|
    .bind (.optional (Span.inverts_decoder d f.span) rfl) .pure

/-- A program is read back from what is written of it. -/
theorem Program.inverts_decoder : Program.decoder.Inverts Program.toJson := fun _ p =>
  .fields (by rfl) (by decide) fun d _ =>
    .bind (.optional ((Record.inverts_decoder.below d).list p.records) rfl) <|
    .bind (.optional ((Variable.inverts_decoder.below d).list p.globals) rfl) <|
    .bind (.optional ((Function.inverts_decoder.below d).list p.functions) rfl) .pure

/-- **Programs are read as they are written.** The document of a program is the text of the value
that the program is encoded as. If arrays and objects are nested in that at most 127 deep, reading
the document gives exactly the program; if they are nested deeper, it is taken for invalid input. -/
theorem documents_are_read_as_written (p : Program) :
    Json.parse? p.document = some p.toJson ∧
      (p.toJson.depth ≤ 127 → Program.read p.document = .ok p) ∧
      (127 < p.toJson.depth → ∃ text, Program.read p.document = .error (.invalidInput text)) := by
  have hparse : Json.parse? p.document = some p.toJson := Json.parse?_pretty p.toJson
  have hdecode := Program.inverts_decoder 127 p
  have hread : Program.ofDocument? p.document = Program.decoder 127 p.toJson := by
    rw [Program.ofDocument?, hparse, Option.bind_some, Program.maxLevels]
  refine ⟨hparse, fun h => ?_, fun h => ⟨"malformed AST", ?_⟩⟩
  · rw [Program.read, hread, hdecode.eq_some h]
  · rw [Program.read, hread, hdecode.eq_none (Nat.not_le.mpr h)]

/-- A program of one variable, which is a pointer to a pointer and so on. -/
def indirection (n : Nat) : Program where
  records := []
  globals := [⟨"p", Nat.repeat Ty.ptr n .void, none, false, true, none, .unknown⟩]
  functions := []

/-- Each pointer adds one level to the document. -/
theorem depth_indirection {n : Nat} (hn : 2 ≤ n) : (indirection n).toJson.depth = n + 3 := by
  have htype : ∀ n, (Nat.repeat Ty.ptr n .void).toJson.depth = n := by
    intro n
    induction n with
    | zero => rfl
    | succ n ih =>
      rw [Nat.repeat, Ty.toJson, Json.tagged, Json.depth, Json.depthFields, Json.depthFields, ih]
      omega
  have hspan : (Span.toJson .unknown).depth = 2 := by decide
  simp only [indirection, Program.toJson, Variable.toJson, Json.record, List.map_cons, List.map_nil,
    Json.depth, Json.depthFields, Json.depthItems, Json.nullable, Json.text, htype, hspan]
  omega

theorem documents_are_read_as_written_indirection :
    Program.read (indirection 124).document = .ok (indirection 124) ∧
      ∃ text, Program.read (indirection 125).document = .error (.invalidInput text) := by
  have hfits : (indirection 124).toJson.depth = 127 := depth_indirection (by decide)
  have hdeep : (indirection 125).toJson.depth = 128 := depth_indirection (by decide)
  constructor
  · exact (documents_are_read_as_written (indirection 124)).2.1 (Nat.le_of_eq hfits)
  · exact (documents_are_read_as_written (indirection 125)).2.2 (by rw [hdeep]; decide)

end CTyping
