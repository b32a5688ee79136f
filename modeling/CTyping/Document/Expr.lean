import CTyping.Document.Ty
import CTyping.Tree.Expr

/-!
# Expressions in documents

An expression is written as a record of its form, its place and its type slot. The form is a variant
whose tag is `CTyping.Expr.form`.
-/

namespace CTyping.Expr

open Decoder (string bool int64 nullable list)

/-- A node, given what belongs to its form. -/
def nodeJson (form : String) (i : Info) (payload : Json) : Json :=
  .record [("kind", .tagged form payload), ("span", i.span.toJson),
    ("ty", .nullable Ty.toJson i.ty)]

mutual

/-- An expression as it is written: its form, its place, and the type in its slot. -/
def toJson : Expr → Json
  | e@(intLit i v t) =>
    nodeJson e.form i (.record [("value", .int v.toInt), ("literal_type", t.toJson)])
  | e@(strLit i s) => nodeJson e.form i (.text s)
  | e@(var i n t) => nodeJson e.form i (.record [("name", .text n), ("entity_type", t.toJson)])
  | e@(unary i op a) =>
    nodeJson e.form i (.record [("op", .text op.name), ("operand", a.toJson)])
  | e@(step i op a) =>
    nodeJson e.form i (.record [("op", .text op.name), ("operand", a.toJson)])
  | e@(addressOf i a) => nodeJson e.form i a.toJson
  | e@(deref i a) => nodeJson e.form i a.toJson
  | e@(binary i op l r) =>
    nodeJson e.form i (.record [("op", .text op.name), ("left", l.toJson), ("right", r.toJson)])
  | e@(assign i op l r) =>
    nodeJson e.form i (.record [("op", .text op.name), ("lhs", l.toJson), ("rhs", r.toJson)])
  | e@(cond i c a b) =>
    nodeJson e.form i (.record [("cond", c.toJson), ("then_expr", a.toJson),
      ("else_expr", b.toJson)])
  | e@(call i f as) =>
    nodeJson e.form i (.record [("callee", f.toJson), ("args", .arr (toJsonList as))])
  | e@(index i b x) => nodeJson e.form i (.record [("base", b.toJson), ("index", x.toJson)])
  | e@(member i b n) => nodeJson e.form i (.record [("base", b.toJson), ("member", .text n)])
  | e@(arrow i b n) => nodeJson e.form i (.record [("base", b.toJson), ("member", .text n)])
  | e@(cast i t a m) =>
    nodeJson e.form i (.record [("target", t.toJson), ("operand", a.toJson), ("implicit", .bool m)])
  | e@(sizeofType i t) => nodeJson e.form i t.toJson
  | e@(sizeofExpr i a) => nodeJson e.form i a.toJson

/-- The expressions of a list as they are written. -/
def toJsonList : List Expr → List Json
  | [] => []
  | e :: es => e.toJson :: toJsonList es

end

/-- Decodes the form of a node with given information, given the decoder for the operands. -/
def decodeForm (expr : Decoder Expr) (i : Info) : Decoder Expr := fun d j => do
  let v ← j.variant? d
  match v.tag with
  | "int_literal" =>
    let fs ← v.fields? ["value", "literal_type"]
    return intLit i (← fs.required "value" int64) (← fs.required "literal_type" Ty.decoder)
  | "string_literal" => return strLit i (← v.holds string)
  | "variable" =>
    let fs ← v.fields? ["name", "entity_type"]
    return var i (← fs.required "name" string) (← fs.required "entity_type" Ty.decoder)
  | "unary" =>
    let fs ← v.fields? ["op", "operand"]
    return unary i (← fs.required "op" (Decoder.named UnaryOp.ofName?))
      (← fs.required "operand" expr)
  | "inc_dec" =>
    let fs ← v.fields? ["op", "operand"]
    return step i (← fs.required "op" (Decoder.named StepOp.ofName?)) (← fs.required "operand" expr)
  | "address_of" => return addressOf i (← v.holds expr)
  | "dereference" => return deref i (← v.holds expr)
  | "binary" =>
    let fs ← v.fields? ["op", "left", "right"]
    return binary i (← fs.required "op" (Decoder.named BinaryOp.ofName?))
      (← fs.required "left" expr) (← fs.required "right" expr)
  | "assign" =>
    let fs ← v.fields? ["op", "lhs", "rhs"]
    return assign i (← fs.required "op" (Decoder.named AssignOp.ofName?))
      (← fs.required "lhs" expr) (← fs.required "rhs" expr)
  | "conditional" =>
    let fs ← v.fields? ["cond", "then_expr", "else_expr"]
    return cond i (← fs.required "cond" expr) (← fs.required "then_expr" expr)
      (← fs.required "else_expr" expr)
  | "call" =>
    let fs ← v.fields? ["callee", "args"]
    return call i (← fs.required "callee" expr) (← fs.required "args" (list expr))
  | "index" =>
    let fs ← v.fields? ["base", "index"]
    return index i (← fs.required "base" expr) (← fs.required "index" expr)
  | "member" =>
    let fs ← v.fields? ["base", "member"]
    return member i (← fs.required "base" expr) (← fs.required "member" string)
  | "ptr_member" =>
    let fs ← v.fields? ["base", "member"]
    return arrow i (← fs.required "base" expr) (← fs.required "member" string)
  | "cast" =>
    let fs ← v.fields? ["target", "operand", "implicit"]
    return cast i (← fs.required "target" Ty.decoder) (← fs.required "operand" expr)
      (← fs.optional "implicit" false bool)
  | "sizeof_type" => return sizeofType i (← v.holds Ty.decoder)
  | "sizeof_expr" => return sizeofExpr i (← v.holds expr)
  | _ => none

/-- Decodes an expression, given the decoder for the operands. -/
def decodeWith (expr : Decoder Expr) : Decoder Expr := fun d j => do
  let fs ← j.fields? ["kind", "span", "ty"] d
  let i : Info := ⟨← fs.span, ← fs.optional "ty" none (nullable Ty.decoder)⟩
  fs.required "kind" (decodeForm expr i)

/-- Reads an expression, and the operands in it. -/
def decoder : Decoder Expr := Decoder.fix decodeWith

end CTyping.Expr
