import CTyping.Document.Expr
import CTyping.Proofs.Document.Ty

/-!
# Expressions are read as they are written

An expression is written as a node, whose form holds what belongs to it. The node is looked at once
for all forms (`CTyping.Expr.inverts_decodeWith`), and the forms one by one
(`CTyping.Expr.exists_payload`).
-/

namespace CTyping

open Decoder

theorem UnaryOp.ofName?_name (op : UnaryOp) : UnaryOp.ofName? op.name = some op := by
  cases op <;> rfl

theorem StepOp.ofName?_name (op : StepOp) : StepOp.ofName? op.name = some op := by
  cases op <;> rfl

theorem BinaryOp.ofName?_name (op : BinaryOp) : BinaryOp.ofName? op.name = some op := by
  cases op <;> rfl

theorem AssignOp.ofName?_name (op : AssignOp) : AssignOp.ofName? op.name = some op := by
  cases op <;> rfl

namespace Expr

theorem toJsonList_eq (es : List Expr) : toJsonList es = es.map toJson := by
  induction es with
  | nil => rfl
  | cons e es ih => rw [toJsonList, ih, List.map_cons]

/-- Operands that are read back one by one are as a list. -/
theorem inverts_list {r : Decoder Expr} {d : Nat} (h : r.InvertsBelow toJson d) :
    (list r).InvertsAt (fun es => .arr (toJsonList es)) d := by
  simp only [toJsonList_eq]
  exact h.list

/-- Each form holds something from which it is read, given that the operands are read as they are
written. -/
theorem exists_payload (expr : Decoder Expr) (e : Expr) :
    ∃ payload, e.toJson = nodeJson e.form e.info payload ∧
      ∀ d, expr.InvertsBelow toJson d →
        Gives (decodeForm expr e.info d (.tagged e.form payload))
          ((Json.tagged e.form payload).depth ≤ d) e := by
  cases e with
  -- the payload is read at the level below its tag, its fields at the level below that
  | intLit i v t =>
    exact ⟨_, rfl, fun _ _ => .variant fun d₁ _ => .fields (by rfl) (by decide) fun d₂ _ =>
      .bind (.required (inverts_int64 d₂ v) rfl) <|
      .bind (.required (Ty.inverts_decoder d₂ t) rfl) .pure⟩
  | strLit i s => exact ⟨_, rfl, fun _ _ => .variant fun d₁ _ => .holds (inverts_string d₁ s)⟩
  | var i n t =>
    exact ⟨_, rfl, fun _ _ => .variant fun d₁ _ => .fields (by rfl) (by decide) fun d₂ _ =>
      .bind (.required (inverts_string d₂ n) rfl) <|
      .bind (.required (Ty.inverts_decoder d₂ t) rfl) .pure⟩
  | unary i op e =>
    exact ⟨_, rfl, fun _ h => .variant fun d₁ h₁ => .fields (by rfl) (by decide) fun d₂ h₂ =>
      .bind (.required (inverts_named UnaryOp.ofName?_name d₂ op) rfl) <|
      .bind (.required (h.mono h₁ d₂ h₂ e) rfl) .pure⟩
  | step i op e =>
    exact ⟨_, rfl, fun _ h => .variant fun d₁ h₁ => .fields (by rfl) (by decide) fun d₂ h₂ =>
      .bind (.required (inverts_named StepOp.ofName?_name d₂ op) rfl) <|
      .bind (.required (h.mono h₁ d₂ h₂ e) rfl) .pure⟩
  | addressOf i e => exact ⟨_, rfl, fun _ h => .variant fun d₁ h₁ => .holds (h d₁ h₁ e)⟩
  | deref i e => exact ⟨_, rfl, fun _ h => .variant fun d₁ h₁ => .holds (h d₁ h₁ e)⟩
  | binary i op l r =>
    exact ⟨_, rfl, fun _ h => .variant fun d₁ h₁ => .fields (by rfl) (by decide) fun d₂ h₂ =>
      .bind (.required (inverts_named BinaryOp.ofName?_name d₂ op) rfl) <|
      .bind (.required (h.mono h₁ d₂ h₂ l) rfl) <|
      .bind (.required (h.mono h₁ d₂ h₂ r) rfl) .pure⟩
  | assign i op l r =>
    exact ⟨_, rfl, fun _ h => .variant fun d₁ h₁ => .fields (by rfl) (by decide) fun d₂ h₂ =>
      .bind (.required (inverts_named AssignOp.ofName?_name d₂ op) rfl) <|
      .bind (.required (h.mono h₁ d₂ h₂ l) rfl) <|
      .bind (.required (h.mono h₁ d₂ h₂ r) rfl) .pure⟩
  | cond i c a b =>
    exact ⟨_, rfl, fun _ h => .variant fun d₁ h₁ => .fields (by rfl) (by decide) fun d₂ h₂ =>
      .bind (.required (h.mono h₁ d₂ h₂ c) rfl) <|
      .bind (.required (h.mono h₁ d₂ h₂ a) rfl) <|
      .bind (.required (h.mono h₁ d₂ h₂ b) rfl) .pure⟩
  | call i f as =>
    exact ⟨_, rfl, fun _ h => .variant fun d₁ h₁ => .fields (by rfl) (by decide) fun d₂ h₂ =>
      .bind (.required (h.mono h₁ d₂ h₂ f) rfl) <|
      .bind (.required (inverts_list ((h.mono h₁).mono h₂) as) rfl) .pure⟩
  | index i b x =>
    exact ⟨_, rfl, fun _ h => .variant fun d₁ h₁ => .fields (by rfl) (by decide) fun d₂ h₂ =>
      .bind (.required (h.mono h₁ d₂ h₂ b) rfl) <|
      .bind (.required (h.mono h₁ d₂ h₂ x) rfl) .pure⟩
  | member i b n =>
    exact ⟨_, rfl, fun _ h => .variant fun d₁ h₁ => .fields (by rfl) (by decide) fun d₂ h₂ =>
      .bind (.required (h.mono h₁ d₂ h₂ b) rfl) <|
      .bind (.required (inverts_string d₂ n) rfl) .pure⟩
  | arrow i b n =>
    exact ⟨_, rfl, fun _ h => .variant fun d₁ h₁ => .fields (by rfl) (by decide) fun d₂ h₂ =>
      .bind (.required (h.mono h₁ d₂ h₂ b) rfl) <|
      .bind (.required (inverts_string d₂ n) rfl) .pure⟩
  | cast i t e m =>
    exact ⟨_, rfl, fun _ h => .variant fun d₁ h₁ => .fields (by rfl) (by decide) fun d₂ h₂ =>
      .bind (.required (Ty.inverts_decoder d₂ t) rfl) <|
      .bind (.required (h.mono h₁ d₂ h₂ e) rfl) <|
      .bind (.optional (inverts_bool d₂ m) rfl) .pure⟩
  | sizeofType i t =>
    exact ⟨_, rfl, fun _ _ => .variant fun d₁ _ => .holds (Ty.inverts_decoder d₁ t)⟩
  | sizeofExpr i e => exact ⟨_, rfl, fun _ h => .variant fun d₁ h₁ => .holds (h d₁ h₁ e)⟩

/-- One node, given that the operands are read as they are written. -/
theorem inverts_decodeWith (r : Decoder Expr) (d : Nat) (h : r.InvertsBelow toJson d) :
    (decodeWith r).InvertsAt toJson d := by
  intro e
  obtain ⟨payload, hjson, hform⟩ := exists_payload r e
  rw [hjson]
  -- the form is decoded last, since the place and the slot belong to it
  refine .fields (by rfl) (by decide) fun d₁ h₁ => .congr
    (.bind (.optional (Span.inverts_decoder d₁ e.info.span) rfl) <|
      .bind (.optional ((Ty.inverts_decoder d₁).nullable Ty.toJson_ne_null e.info.ty) rfl) <|
      .required (hform d₁ (h.mono h₁)) rfl) ?_
  exact ⟨fun ⟨hspan, hty, hkind⟩ => ⟨hkind, hspan, hty, trivial⟩,
    fun ⟨hkind, hspan, hty, _⟩ => ⟨hspan, hty, hkind⟩⟩

/-- An expression is read back from what is written of it. -/
theorem inverts_decoder : Expr.decoder.Inverts Expr.toJson := inverts_fix inverts_decodeWith

/-- No expression is written as `null`, so that one that is missing is not taken for one. -/
theorem toJson_ne_null (e : Expr) : e.toJson ≠ .null := by cases e <;> nofun

end Expr

end CTyping
