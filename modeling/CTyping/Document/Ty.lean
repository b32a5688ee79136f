import CTyping.Diagnostic
import CTyping.Json.Decoder
import CTyping.Operator
import CTyping.Ty.Declarations

/-!
# Types and places in documents

How places, types and declarations are written in a document. Writing gives every field; reading
takes a place that is missing for an unknown one.
-/

namespace CTyping

open Decoder (string bool uint8 uint32 uint64 nullable list)

/-! ### Places -/

/-- A location as it is written. -/
def Location.toJson (l : Location) : Json :=
  .record [("filename", .text l.filename), ("line", .nat l.line.toNat),
    ("column", .nat l.column.toNat)]

/-- Reads a location, all of whose fields have to be given. -/
def Location.decoder : Decoder Location := fun d j => do
  let fs ← j.fields? ["filename", "line", "column"] d
  return ⟨← fs.required "filename" string, ← fs.required "line" uint32,
    ← fs.required "column" uint32⟩

/-- A place as it is written. -/
def Span.toJson (s : Span) : Json :=
  .record [("start", s.start.toJson), ("end", s.stop.toJson)]

/-- Reads a place, both of whose ends have to be given. -/
def Span.decoder : Decoder Span := fun d j => do
  let fs ← j.fields? ["start", "end"] d
  return ⟨← fs.required "start" Location.decoder, ← fs.required "end" Location.decoder⟩

/-- The place of a record, unknown if it is not given. -/
def Fields.span (fs : Fields) : Option Span := fs.optional "span" .unknown Span.decoder

/-! ### Types -/

/-- The kind of integer with a given name in a document, which is also its name in a type. -/
def IntKind.ofName? (s : String) : Option IntKind :=
  [IntKind.char, .short, .int, .long].find? (·.text == s)

/-- An integer type as it is written. -/
def IntTy.toJson (i : IntTy) : Json :=
  .record [("kind", .text i.kind.text), ("signed", .bool i.signed), ("size", .nat i.size.toNat)]

/-- Reads an integer type; its width is any that fits into a byte. -/
def IntTy.decoder : Decoder IntTy := fun d j => do
  let fs ← j.fields? ["kind", "signed", "size"] d
  return ⟨← fs.required "kind" (Decoder.named IntKind.ofName?), ← fs.required "signed" bool,
    ← fs.required "size" uint8⟩

/-- A reference to a record as it is written. -/
def RecordRef.toJson (r : RecordRef) : Json :=
  .record [("id", .nat r.id.toNat), ("name", .text r.name)]

/-- Reads a reference to a record. -/
def RecordRef.decoder : Decoder RecordRef := fun d j => do
  let fs ← j.fields? ["id", "name"] d
  return ⟨← fs.required "id" uint32, ← fs.required "name" string⟩

namespace Ty

mutual

/-- A type as it is written: `void` as a word, all others tagged with their form. -/
def toJson : Ty → Json
  | .void => .text "void"
  | .int i => .tagged "integer" i.toJson
  | .ptr base => .tagged "pointer" base.toJson
  | .array element length =>
    .tagged "array" (.record [("element", element.toJson),
      ("length", .nullable (fun n => .nat n.toNat) length)])
  | .func result params variadic =>
    .tagged "function" (.record [("return_type", result.toJson),
      ("params", .arr (toJsonList params)), ("variadic", .bool variadic)])
  | .struct ref => .tagged "struct" ref.toJson
  | .union ref => .tagged "union" ref.toJson

/-- The types of a list as they are written. -/
def toJsonList : List Ty → List Json
  | [] => []
  | t :: ts => t.toJson :: toJsonList ts

end

/-- Decodes a type, given the decoder for the types in it. -/
def decodeWith (ty : Decoder Ty) : Decoder Ty := fun d j => do
  let v ← j.variant? d
  match v.tag with
  | "void" => v.unit .void
  | "integer" => return .int (← v.holds IntTy.decoder)
  | "pointer" => return .ptr (← v.holds ty)
  | "array" =>
    let fs ← v.fields? ["element", "length"]
    return .array (← fs.required "element" ty) (← fs.optional "length" none (nullable uint64))
  | "function" =>
    let fs ← v.fields? ["return_type", "params", "variadic"]
    return .func (← fs.required "return_type" ty) (← fs.required "params" (list ty))
      (← fs.optional "variadic" false bool)
  | "struct" => return .struct (← v.holds RecordRef.decoder)
  | "union" => return .union (← v.holds RecordRef.decoder)
  | _ => none

/-- Reads a type, and the types in it. -/
def decoder : Decoder Ty := Decoder.fix decodeWith

end Ty

/-! ### Declarations -/

/-- A member as it is written. -/
def Member.toJson (m : Member) : Json :=
  .record [("name", .text m.name), ("type", m.type.toJson)]

/-- Reads a member. -/
def Member.decoder : Decoder Member := fun d j => do
  let fs ← j.fields? ["name", "type"] d
  return ⟨← fs.required "name" string, ← fs.required "type" Ty.decoder⟩

/-- A record as it is written, with all its fields. -/
def Record.toJson (r : Record) : Json :=
  .record [("id", .nat r.id.toNat), ("name", .text r.name), ("is_union", .bool r.isUnion),
    ("members", .arr (r.members.map Member.toJson))]

/-- Reads a record, which is a struct unless it says otherwise. -/
def Record.decoder : Decoder Record := fun d j => do
  let fs ← j.fields? ["id", "name", "is_union", "members"] d
  return ⟨← fs.required "id" uint32, ← fs.required "name" string,
    ← fs.optional "is_union" false bool, ← fs.required "members" (list Member.decoder)⟩

/-! ### Diagnostics -/

/-- A diagnostic as it is written. Its place is left out where there is none. -/
def Diagnostic.toJson (d : Diagnostic) : Json :=
  .record ([("severity", .text d.severity.text), ("message", .text d.message)] ++
    d.span.toList.map fun s => ("span", s.toJson))

end CTyping
