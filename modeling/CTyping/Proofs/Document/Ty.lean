import CTyping.Document.Ty
import CTyping.Proofs.Json.Decoder

/-!
# Types and places are read as they are written

Each decoder inverts its encoding, by the lemma for records or for variants and then field by field.
A type is recursive, so its decoder is a fixed point: it is looked at form by form, given that the
inner types are decoded with fewer levels.
-/

namespace CTyping

open Decoder

/-! ### Places -/

theorem Location.inverts_decoder : Location.decoder.Inverts Location.toJson := fun _ l =>
  .fields (by rfl) (by decide) fun d _ =>
    .bind (.required (inverts_string d l.filename) rfl) <|
    .bind (.required (inverts_uint32 d l.line) rfl) <|
    .bind (.required (inverts_uint32 d l.column) rfl) .pure

/-- A place is read back from what is written of it. -/
theorem Span.inverts_decoder : Span.decoder.Inverts Span.toJson := fun _ s =>
  .fields (by rfl) (by decide) fun d _ =>
    .bind (.required (Location.inverts_decoder d s.start) rfl) <|
    .bind (.required (Location.inverts_decoder d s.stop) rfl) .pure

/-! ### Types -/

/-- Every kind of integer is found under its name. -/
theorem IntKind.ofName?_text (k : IntKind) : IntKind.ofName? k.text = some k := by
  cases k <;> rfl

theorem IntTy.inverts_decoder : IntTy.decoder.Inverts IntTy.toJson := fun _ i =>
  .fields (by rfl) (by decide) fun d _ =>
    .bind (.required (inverts_named IntKind.ofName?_text d i.kind) rfl) <|
    .bind (.required (inverts_bool d i.signed) rfl) <|
    .bind (.required (inverts_uint8 d i.size) rfl) .pure

theorem RecordRef.inverts_decoder : RecordRef.decoder.Inverts RecordRef.toJson := fun _ r =>
  .fields (by rfl) (by decide) fun d _ =>
    .bind (.required (inverts_uint32 d r.id) rfl) <|
    .bind (.required (inverts_string d r.name) rfl) .pure

namespace Ty

theorem toJsonList_eq (ts : List Ty) : toJsonList ts = ts.map toJson := by
  induction ts with
  | nil => rfl
  | cons t ts ih => rw [toJsonList, ih, List.map_cons]

/-- Types that are read back one by one are as a list. -/
theorem inverts_list {r : Decoder Ty} {d : Nat} (h : r.InvertsBelow toJson d) :
    (list r).InvertsAt (fun ts => .arr (toJsonList ts)) d := by
  simp only [toJsonList_eq]
  exact h.list

/-- No type is written as `null`, so that an empty slot is not taken for one. -/
theorem toJson_ne_null (t : Ty) : t.toJson ≠ .null := by cases t <;> nofun

/-- One form of a type, given that the types in it are read as they are written. -/
theorem inverts_decodeWith (r : Decoder Ty) (d : Nat) (h : r.InvertsBelow toJson d) :
    (decodeWith r).InvertsAt toJson d := by
  intro t
  cases t with
  | void => exact .of_eq rfl (Nat.zero_le d)
  | int i => exact .variant fun d₁ _ => .holds (IntTy.inverts_decoder d₁ i)
  | ptr t => exact .variant fun d₁ h₁ => .holds (h d₁ h₁ t)
  | array t n =>
    exact .variant fun d₁ h₁ => .fields (by rfl) (by decide) fun d₂ h₂ =>
      .bind (.required (h.mono h₁ d₂ h₂ t) rfl) <|
      .bind (.optional ((inverts_uint64 d₂).nullable nofun n) rfl) .pure
  | func t ts v =>
    exact .variant fun d₁ h₁ => .fields (by rfl) (by decide) fun d₂ h₂ =>
      .bind (.required (h.mono h₁ d₂ h₂ t) rfl) <|
      .bind (.required (inverts_list ((h.mono h₁).mono h₂) ts) rfl) <|
      .bind (.optional (inverts_bool d₂ v) rfl) .pure
  | struct ref => exact .variant fun d₁ _ => .holds (RecordRef.inverts_decoder d₁ ref)
  | union ref => exact .variant fun d₁ _ => .holds (RecordRef.inverts_decoder d₁ ref)

/-- A type is read back from what is written of it. -/
theorem inverts_decoder : Ty.decoder.Inverts Ty.toJson := inverts_fix inverts_decodeWith

end Ty

/-! ### Declarations -/

theorem Member.inverts_decoder : Member.decoder.Inverts Member.toJson := fun _ m =>
  .fields (by rfl) (by decide) fun d _ =>
    .bind (.required (inverts_string d m.name) rfl) <|
    .bind (.required (Ty.inverts_decoder d m.type) rfl) .pure

/-- A record is read back from what is written of it. -/
theorem Record.inverts_decoder : Record.decoder.Inverts Record.toJson := fun _ r =>
  .fields (by rfl) (by decide) fun d _ =>
    .bind (.required (inverts_uint32 d r.id) rfl) <|
    .bind (.required (inverts_string d r.name) rfl) <|
    .bind (.optional (inverts_bool d r.isUnion) rfl) <|
    .bind (.required ((Member.inverts_decoder.below d).list r.members) rfl) .pure

end CTyping
