import CTyping.Document.Program
import Mathlib.Logic.Relation

/-!
# The format of documents

Which records a document is made of, where they stand, and which of their fields may be left out:
the format by itself, without the decoders that read it. A `CTyping.Shape` describes the values of
one kind; it looks into a value only as far as there are records in it.

One document can be written in many ways. `CTyping.Shape.Restyled` is one change of presentation, in
one record of a value:

* the fields of an object are permuted,
* a field is left out that says no more than what is taken for it where it is missing
  (`CTyping.Shape.Default.Written`),
* a field is added that the record does not know, with any value whatever.

Fields may be permuted, so it is enough to say of the *first* field of an object that it is left
out, added or changed within. A record that is written as an array of its fields has no names to
permute or to leave out, but the records in it can be changed. Any number of changes, at any places,
lead from one document to another (`CTyping.Program.Restyled`).
-/

namespace CTyping

/-! ### Shapes -/

namespace Shape

/-- What is taken for a field that is missing. -/
inductive Default where
  | null
  | no
  | emptyList
  | unknownPlace

/-- The values that say no more than what is taken for a field that is missing. -/
inductive Default.Written : Default → Json → Prop
  | null : Written .null .null
  | no : Written .no (.bool false)
  | emptyList : Written .emptyList (.arr [])
  /-- A place is itself a record, and so is written in many ways. -/
  | unknownPlace {d : Nat} {j : Json} (h : Span.decoder d j = some .unknown) :
    Written .unknownPlace j

/-- The kinds of values that may hold values of their own kind. -/
inductive Kind where
  | ty
  | expr
  | stmt

/-- A field of a record: its name, what is taken for it where it is missing, unless it has to be
there, and what is known of its value. -/
structure Field (σ : Type) where
  name : String
  default? : Option Default
  shape : σ

end Shape

/-- Where the records of a value are. -/
inductive Shape where
  /-- A value without records. -/
  | simple
  | nullable (shape : Shape)
  | list (item : Shape)
  | record (fields : List (Shape.Field Shape))
  /-- One of several variants, each with its tag and with what belongs to it. -/
  | variant (forms : List (String × Shape))
  | kind (k : Shape.Kind)

namespace Shape.Field

/-- A field that has to be there. -/
def required (name : String) (s : Shape) : Field Shape := ⟨name, none, s⟩

/-- A field that may be missing. -/
def optional (name : String) (default : Default) (s : Shape) : Field Shape :=
  ⟨name, some default, s⟩

end Shape.Field

open Shape.Field (required optional)

/-! ### Places and types -/

/-- A location is written with its file, line and column, none of which can be left out. -/
def Location.shape : Shape :=
  .record [required "filename" .simple, required "line" .simple, required "column" .simple]

/-- A place is written with the location where it starts and the one where it ends. -/
def Span.shape : Shape :=
  .record [required "start" Location.shape, required "end" Location.shape]

/-- The place of a record, unknown where it is missing. -/
def Shape.Field.span : Shape.Field Shape := optional "span" .unknownPlace Span.shape

/-- An integer type is written with its kind, sign and width. -/
def IntTy.shape : Shape :=
  .record [required "kind" .simple, required "signed" .simple, required "size" .simple]

/-- A reference is written with the id and the name that it carries. -/
def RecordRef.shape : Shape := .record [required "id" .simple, required "name" .simple]

/-- The forms of a type, each with the shape of what belongs to it. -/
def Ty.forms : List (String × Shape) :=
  [("void", .simple), ("integer", IntTy.shape), ("pointer", .kind .ty),
    ("array", .record [required "element" (.kind .ty), optional "length" .null .simple]),
    ("function", .record [required "return_type" (.kind .ty),
      required "params" (.list (.kind .ty)), optional "variadic" .no .simple]),
    ("struct", RecordRef.shape), ("union", RecordRef.shape)]

/-- A member is written with its name and its type. -/
def Member.shape : Shape := .record [required "name" .simple, required "type" (.kind .ty)]

/-- A record is a struct unless it says that it is a union; its members cannot be left out. -/
def Record.shape : Shape :=
  .record [required "id" .simple, required "name" .simple, optional "is_union" .no .simple,
    required "members" (.list Member.shape)]

/-! ### Expressions -/

/-- The forms of an expression, each with the shape of what belongs to it. -/
def Expr.forms : List (String × Shape) :=
  [("int_literal", .record [required "value" .simple, required "literal_type" (.kind .ty)]),
    ("string_literal", .simple),
    ("variable", .record [required "name" .simple, required "entity_type" (.kind .ty)]),
    ("unary", .record [required "op" .simple, required "operand" (.kind .expr)]),
    ("inc_dec", .record [required "op" .simple, required "operand" (.kind .expr)]),
    ("address_of", .kind .expr), ("dereference", .kind .expr),
    ("binary", .record [required "op" .simple, required "left" (.kind .expr),
      required "right" (.kind .expr)]),
    ("assign", .record [required "op" .simple, required "lhs" (.kind .expr),
      required "rhs" (.kind .expr)]),
    ("conditional", .record [required "cond" (.kind .expr), required "then_expr" (.kind .expr),
      required "else_expr" (.kind .expr)]),
    ("call", .record [required "callee" (.kind .expr), required "args" (.list (.kind .expr))]),
    ("index", .record [required "base" (.kind .expr), required "index" (.kind .expr)]),
    ("member", .record [required "base" (.kind .expr), required "member" .simple]),
    ("ptr_member", .record [required "base" (.kind .expr), required "member" .simple]),
    ("cast", .record [required "target" (.kind .ty), required "operand" (.kind .expr),
      optional "implicit" .no .simple]),
    ("sizeof_type", .kind .ty), ("sizeof_expr", .kind .expr)]

/-! ### Statements -/

/-- The storage of a variable is a symbol or an offset in a frame. -/
def Storage.forms : List (String × Shape) :=
  [("global", .record [required "symbol" .simple]), ("frame", .record [required "offset" .simple])]

/-- A variable is written with its name and its type; all else can be left out. -/
def Variable.shape : Shape :=
  .record [required "name" .simple, required "type" (.kind .ty),
    optional "initializer" .null (.nullable (.kind .expr)), optional "is_private" .no .simple,
    optional "is_toplevel" .no .simple,
    optional "storage" .null (.nullable (.variant Storage.forms)), .span]

/-- A block may leave out its variables or its statements if it has none. -/
def Block.shape : Shape :=
  .record [optional "variables" .emptyList (.list Variable.shape),
    optional "stmts" .emptyList (.list (.kind .stmt))]

/-- An arm may leave out its values if it has none, but not its block. -/
def Case.shape : Shape :=
  .record [optional "values" .emptyList (.list (.kind .expr)), required "body" Block.shape]

/-- What a `return` gives is no field: it is written as `null` where there is nothing, and cannot be
left out. -/
def Stmt.forms : List (String × Shape) :=
  [("block", Block.shape), ("expression", .kind .expr),
    ("if", .record [required "cond" (.kind .expr), required "then_stmt" (.kind .stmt),
      optional "else_stmt" .null (.nullable (.kind .stmt))]),
    ("while", .record [required "cond" (.kind .expr), required "body" (.kind .stmt)]),
    ("do_while", .record [required "body" (.kind .stmt), required "cond" (.kind .expr)]),
    ("for", .record [optional "init" .null (.nullable (.kind .expr)),
      optional "cond" .null (.nullable (.kind .expr)),
      optional "incr" .null (.nullable (.kind .expr)), required "body" (.kind .stmt)]),
    ("switch", .record [required "cond" (.kind .expr), required "cases" (.list Case.shape)]),
    ("return", .nullable (.kind .expr)), ("break", .simple), ("continue", .simple),
    ("goto", .simple),
    ("label", .record [required "name" .simple, required "stmt" (.kind .stmt)]),
    ("empty", .simple)]

/-- The shapes that refer to each other. -/
def Shape.Kind.shape : Shape.Kind → Shape
  | .ty => .variant Ty.forms
  | .expr =>
    .record [required "kind" (.variant Expr.forms), .span,
      optional "ty" .null (.nullable (.kind .ty))]
  | .stmt => .record [required "kind" (.variant Stmt.forms), .span]

/-! ### Functions and programs -/

/-- A parameter is written with its name and its type; its place can be left out. -/
def Param.shape : Shape :=
  .record [required "name" .simple, required "type" (.kind .ty), .span]

/-- A function is written with its name, its result and its body; all else can be left out. -/
def Function.shape : Shape :=
  .record [required "name" .simple, optional "is_private" .no .simple,
    required "return_type" (.kind .ty), optional "params" .emptyList (.list Param.shape),
    optional "variadic" .no .simple, required "body" Block.shape, .span]

/-- A program may leave out each of its three lists if it is empty. -/
def Program.shape : Shape :=
  .record [optional "types" .emptyList (.list Record.shape),
    optional "variables" .emptyList (.list Variable.shape),
    optional "functions" .emptyList (.list Function.shape)]

/-! ### Changes of presentation -/

/-- **One change of presentation** of a value of a given shape. The first three rules change a
record, the others lead to it. -/
inductive Shape.Restyled : Shape → Json → Json → Prop
  /-- The fields of an object change places. -/
  | permuted {fields : List (Field Shape)} {es es' : List (String × Json)} (h : es.Perm es') :
    Restyled (.record fields) (.record es) (.record es')
  /-- A field is left out that says what is taken for it anyway. -/
  | omitted {fields : List (Field Shape)} {f : Field Shape} (hf : f ∈ fields) {v : Default}
      (hv : f.default? = some v) {j : Json} (hj : v.Written j) (es : List (String × Json)) :
    Restyled (.record fields) (.record ((f.name, j) :: es)) (.record es)
  /-- A field is added that the record does not know. -/
  | added {fields : List (Field Shape)} {key : String} (hkey : ∀ f ∈ fields, f.name ≠ key)
      (j : Json) (es : List (String × Json)) :
    Restyled (.record fields) (.record es) (.record ((key, j) :: es))
  | field {fields : List (Field Shape)} {f : Field Shape} (hf : f ∈ fields) {j j' : Json}
      (h : Restyled f.shape j j') (es : List (String × Json)) :
    Restyled (.record fields) (.record ((f.name, j) :: es)) (.record ((f.name, j') :: es))
  /-- A record may be written as an array, with its fields in order. -/
  | entry {before after : List (Field Shape)} {f : Field Shape} {js : List Json}
      (hjs : js.length = before.length) {j j' : Json} (h : Restyled f.shape j j')
      (js' : List Json) :
    Restyled (.record (before ++ f :: after)) (.arr (js ++ j :: js')) (.arr (js ++ j' :: js'))
  | item {s : Shape} {j j' : Json} (js : List Json) (h : Restyled s j j') (js' : List Json) :
    Restyled (.list s) (.arr (js ++ j :: js')) (.arr (js ++ j' :: js'))
  | payload {forms : List (String × Shape)} {tag : String} {s : Shape} (hs : (tag, s) ∈ forms)
      {j j' : Json} (h : Restyled s j j') :
    Restyled (.variant forms) (.tagged tag j) (.tagged tag j')
  | nullable {s : Shape} {j j' : Json} (h : Restyled s j j') : Restyled (.nullable s) j j'
  | kind {k : Kind} {j j' : Json} (h : Restyled k.shape j j') : Restyled (.kind k) j j'

/-- A document in another presentation: any number of changes lead from the value that the one
writes to the value that the other writes. -/
def Program.Restyled (source source' : String) : Prop :=
  ∃ j j', Json.parse? source = some j ∧ Json.parse? source' = some j' ∧
    Relation.ReflTransGen Program.shape.Restyled j j'

end CTyping
