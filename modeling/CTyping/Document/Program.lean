import CTyping.Document.Expr
import CTyping.Json.Printer
import CTyping.Json.Reader
import CTyping.Tree.Program

/-!
# Programs as documents

`CTyping.Program.document` writes a program, `CTyping.Program.ofDocument?` reads one. Written
documents give every field, and reading takes whatever may be left out by its default. A document
whose arrays and objects are nested more than `CTyping.Program.maxLevels` deep is not read, whoever
wrote it.
-/

namespace CTyping

open Decoder (string bool int64 nullable list)

/-! ### Variables -/

/-- The storage of a variable as it is written, tagged with its sort. -/
def Storage.toJson : Storage → Json
  | .global symbol => .tagged "global" (.record [("symbol", .text symbol)])
  | .frame offset => .tagged "frame" (.record [("offset", .int offset.toInt)])

/-- Reads the storage of a variable. -/
def Storage.decoder : Decoder Storage := fun d j => do
  let v ← j.variant? d
  match v.tag with
  | "global" =>
    let fs ← v.fields? ["symbol"]
    return .global (← fs.required "symbol" string)
  | "frame" =>
    let fs ← v.fields? ["offset"]
    return .frame (← fs.required "offset" int64)
  | _ => none

/-- A variable as it is written, with all its fields. -/
def Variable.toJson (v : Variable) : Json :=
  .record [("name", .text v.name), ("type", v.type.toJson),
    ("initializer", .nullable Expr.toJson v.initializer), ("is_private", .bool v.isPrivate),
    ("is_toplevel", .bool v.isToplevel), ("storage", .nullable Storage.toJson v.storage),
    ("span", v.span.toJson)]

/-- Reads a variable; only its name and its type have to be given. -/
def Variable.decoder : Decoder Variable := fun d j => do
  let fs ← j.fields?
    ["name", "type", "initializer", "is_private", "is_toplevel", "storage", "span"] d
  return ⟨← fs.required "name" string, ← fs.required "type" Ty.decoder,
    ← fs.optional "initializer" none (nullable Expr.decoder),
    ← fs.optional "is_private" false bool, ← fs.optional "is_toplevel" false bool,
    ← fs.optional "storage" none (nullable Storage.decoder), ← fs.span⟩

/-! ### Statements -/

/-- A statement of a given form. -/
def Stmt.nodeJson (form : Json) (s : Span) : Json := .record [("kind", form), ("span", s.toJson)]

mutual

/-- A statement as it is written: its form, and its place. -/
def Stmt.toJson : Stmt → Json
  | .block s b => Stmt.nodeJson (.tagged "block" b.toJson) s
  | .expr s e => Stmt.nodeJson (.tagged "expression" e.toJson) s
  | .ifElse s c t none =>
    Stmt.nodeJson (.tagged "if" (.record [("cond", c.toJson), ("then_stmt", t.toJson),
      ("else_stmt", .null)])) s
  | .ifElse s c t (some e) =>
    Stmt.nodeJson (.tagged "if" (.record [("cond", c.toJson), ("then_stmt", t.toJson),
      ("else_stmt", e.toJson)])) s
  | .whileLoop s c b =>
    Stmt.nodeJson (.tagged "while" (.record [("cond", c.toJson), ("body", b.toJson)])) s
  | .doWhile s b c =>
    Stmt.nodeJson (.tagged "do_while" (.record [("body", b.toJson), ("cond", c.toJson)])) s
  | .forLoop s i c n b =>
    Stmt.nodeJson (.tagged "for" (.record [("init", .nullable Expr.toJson i),
      ("cond", .nullable Expr.toJson c), ("incr", .nullable Expr.toJson n),
      ("body", b.toJson)])) s
  | .switch s e cs =>
    Stmt.nodeJson (.tagged "switch" (.record [("cond", e.toJson),
      ("cases", .arr (Stmt.toJsonCases cs))])) s
  | .returns s e => Stmt.nodeJson (.tagged "return" (.nullable Expr.toJson e)) s
  | .breaks s => Stmt.nodeJson (.text "break") s
  | .continues s => Stmt.nodeJson (.text "continue") s
  | .goto s l => Stmt.nodeJson (.tagged "goto" (.text l)) s
  | .label s n b =>
    Stmt.nodeJson (.tagged "label" (.record [("name", .text n), ("stmt", b.toJson)])) s
  | .empty s => Stmt.nodeJson (.text "empty") s

/-- The statements of a list as they are written. -/
def Stmt.toJsonList : List Stmt → List Json
  | [] => []
  | s :: ss => s.toJson :: Stmt.toJsonList ss

/-- The arms of a `switch` as they are written. -/
def Stmt.toJsonCases : List Case → List Json
  | [] => []
  | c :: cs => c.toJson :: Stmt.toJsonCases cs

/-- An arm of a `switch` as it is written. -/
def Case.toJson : Case → Json
  | ⟨values, body⟩ => .record [("values", .arr (Expr.toJsonList values)), ("body", body.toJson)]

/-- A block as it is written, its variables first. -/
def Block.toJson : Block → Json
  | ⟨vars, stmts⟩ =>
    .record [("variables", .arr (vars.map Variable.toJson)),
      ("stmts", .arr (Stmt.toJsonList stmts))]

end

/-- Decodes a block, given the decoder for statements. -/
def Block.decodeWith (stmt : Decoder Stmt) : Decoder Block := fun d j => do
  let fs ← j.fields? ["variables", "stmts"] d
  return ⟨← fs.optional "variables" [] (list Variable.decoder),
    ← fs.optional "stmts" [] (list stmt)⟩

/-- Decodes an arm of a `switch`, given the decoder for statements. -/
def Case.decodeWith (stmt : Decoder Stmt) : Decoder Case := fun d j => do
  let fs ← j.fields? ["values", "body"] d
  return ⟨← fs.optional "values" [] (list Expr.decoder),
    ← fs.required "body" (Block.decodeWith stmt)⟩

namespace Stmt

/-- Decodes the form of a statement at a given place, given the decoder for the statements in it. -/
def decodeForm (stmt : Decoder Stmt) (s : Span) : Decoder Stmt := fun d j => do
  let v ← j.variant? d
  match v.tag with
  | "block" => return .block s (← v.holds (Block.decodeWith stmt))
  | "expression" => return .expr s (← v.holds Expr.decoder)
  | "if" =>
    let fs ← v.fields? ["cond", "then_stmt", "else_stmt"]
    return .ifElse s (← fs.required "cond" Expr.decoder) (← fs.required "then_stmt" stmt)
      (← fs.optional "else_stmt" none (nullable stmt))
  | "while" =>
    let fs ← v.fields? ["cond", "body"]
    return .whileLoop s (← fs.required "cond" Expr.decoder) (← fs.required "body" stmt)
  | "do_while" =>
    let fs ← v.fields? ["body", "cond"]
    return .doWhile s (← fs.required "body" stmt) (← fs.required "cond" Expr.decoder)
  | "for" =>
    let fs ← v.fields? ["init", "cond", "incr", "body"]
    return .forLoop s (← fs.optional "init" none (nullable Expr.decoder))
      (← fs.optional "cond" none (nullable Expr.decoder))
      (← fs.optional "incr" none (nullable Expr.decoder)) (← fs.required "body" stmt)
  | "switch" =>
    let fs ← v.fields? ["cond", "cases"]
    return .switch s (← fs.required "cond" Expr.decoder)
      (← fs.required "cases" (list (Case.decodeWith stmt)))
  | "return" => return .returns s (← v.holds (nullable Expr.decoder))
  | "break" => v.unit (.breaks s)
  | "continue" => v.unit (.continues s)
  | "goto" => return .goto s (← v.holds string)
  | "label" =>
    let fs ← v.fields? ["name", "stmt"]
    return .label s (← fs.required "name" string) (← fs.required "stmt" stmt)
  | "empty" => v.unit (.empty s)
  | _ => none

/-- Decodes a statement, given the decoder for the statements in it. -/
def decodeWith (stmt : Decoder Stmt) : Decoder Stmt := fun d j => do
  let fs ← j.fields? ["kind", "span"] d
  fs.required "kind" (decodeForm stmt (← fs.span))

/-- Reads a statement, and the statements in it. -/
def decoder : Decoder Stmt := Decoder.fix decodeWith

end Stmt

/-- Reads a block; both of its lists are empty unless given. -/
def Block.decoder : Decoder Block := Block.decodeWith Stmt.decoder

/-! ### Functions and programs -/

/-- A parameter as it is written. -/
def Param.toJson (p : Param) : Json :=
  .record [("name", .text p.name), ("type", p.type.toJson), ("span", p.span.toJson)]

/-- Reads a parameter; its place is unknown unless given. -/
def Param.decoder : Decoder Param := fun d j => do
  let fs ← j.fields? ["name", "type", "span"] d
  return ⟨← fs.required "name" string, ← fs.required "type" Ty.decoder, ← fs.span⟩

/-- A function as it is written, with all its fields. -/
def Function.toJson (f : Function) : Json :=
  .record [("name", .text f.name), ("is_private", .bool f.isPrivate),
    ("return_type", f.result.toJson), ("params", .arr (f.params.map Param.toJson)),
    ("variadic", .bool f.variadic), ("body", f.body.toJson), ("span", f.span.toJson)]

/-- Reads a function; its name, its result and its body have to be given. -/
def Function.decoder : Decoder Function := fun d j => do
  let fs ← j.fields?
    ["name", "is_private", "return_type", "params", "variadic", "body", "span"] d
  return ⟨← fs.required "name" string, ← fs.optional "is_private" false bool,
    ← fs.required "return_type" Ty.decoder, ← fs.optional "params" [] (list Param.decoder),
    ← fs.optional "variadic" false bool, ← fs.required "body" Block.decoder, ← fs.span⟩

namespace Program

/-- A program as it is written: records, then variables, then functions. -/
def toJson (p : Program) : Json :=
  .record [("types", .arr (p.records.map Record.toJson)),
    ("variables", .arr (p.globals.map Variable.toJson)),
    ("functions", .arr (p.functions.map Function.toJson))]

/-- Reads a program; a list that is left out is empty. -/
def decoder : Decoder Program := fun d j => do
  let fs ← j.fields? ["types", "variables", "functions"] d
  return ⟨← fs.optional "types" [] (list Record.decoder),
    ← fs.optional "variables" [] (list Variable.decoder),
    ← fs.optional "functions" [] (list Function.decoder)⟩

/-- How deep arrays and objects may be nested in a document. -/
def maxLevels : Nat := 127

/-- A program as it is written. -/
def document (p : Program) : String := p.toJson.pretty

/-- The program that a document writes. -/
def ofDocument? (s : String) : Option Program := (Json.parse? s).bind (decoder maxLevels)

end Program

end CTyping
