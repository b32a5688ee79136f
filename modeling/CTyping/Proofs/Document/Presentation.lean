import CTyping.Analysis
import CTyping.Proofs.Document.Restyling
import CTyping.Proofs.Json.Reader

/-!
# Reading does not depend on the presentation

Each decoder of a document respects the shape of what it decodes, by the lemmas of
`CTyping.Proofs.Document.Restyling` and then field by field. So whatever is read of a document is
read of it in any other presentation (`CTyping.reading_ignores_presentation`).

A place is the only default that is itself a record. That a value writes the unknown place is said
at some number of levels, and the field it is written in stands at another; but what a place is
decoded as does not depend on the levels that are left (`CTyping.Span.grows_decoder`), if it is
decoded at all.
-/

namespace CTyping

open Decoder

/-! ### Levels -/

/-- More levels that are left do not change what is decoded. -/
def Decoder.Grows {α : Type} (r : Decoder α) : Prop :=
  ∀ ⦃d d' : Nat⦄ ⦃j : Json⦄, d ≤ d' → Keeps (r d j) (r d' j)

/-- With more levels left, a record is still decoded, with the same fields and with more levels left
for them. -/
theorem Json.fields?_grows {names : List String} {d d' : Nat} {j : Json} {fs : Fields} (hd : d ≤ d')
    (h : fields? names d j = some fs) :
    ∃ l, fs.levels ≤ l ∧ fields? names d' j = some ⟨fs.entries, l⟩ := by
  obtain _ | d := d
  · cases j <;> cases h
  obtain _ | d' := d'
  · cases hd
  have hd : d ≤ d' := Nat.le_of_succ_le_succ hd
  cases j with
  | obj es =>
    obtain ⟨es', hes', h⟩ := Option.bind_eq_some_iff.mp h
    obtain ⟨hn, ⟨⟩⟩ := Option.ite_none_right_eq_some.mp h
    exact ⟨d', hd, Option.bind_eq_some_iff.mpr ⟨es', hes', if_pos hn⟩⟩
  | arr js =>
    obtain ⟨hn, ⟨⟩⟩ := Option.ite_none_right_eq_some.mp h
    exact ⟨d', hd, if_pos hn⟩
  | _ => cases h

theorem Decoder.grows_string : string.Grows := by
  intro d d' j _
  cases j <;> exact .refl _

theorem Decoder.grows_uint32 : uint32.Grows := by
  intro d d' j _
  cases j <;> exact .refl _

/-- What is made of a record does not depend on the levels if what is made of its fields does
not. -/
theorem Decoder.Grows.record {α : Type} {names : List String} {k : Fields → Option α}
    (hk : ∀ {es : List (String × Json)} {l l' : Nat}, l ≤ l' → Keeps (k ⟨es, l⟩) (k ⟨es, l'⟩)) :
    Decoder.Grows fun d j => Json.fields? names d j >>= k := by
  intro d d' j hd a ha
  obtain ⟨fs, hfs, ha⟩ := Option.bind_eq_some_iff.mp ha
  obtain ⟨l, hl, hfs'⟩ := Json.fields?_grows hd hfs
  exact Option.bind_eq_some_iff.mpr ⟨_, hfs', hk hl a ha⟩

/-- More levels do not change what is decoded of a field. -/
theorem Keeps.grown {α : Type} {r : Decoder α} {es : List (String × Json)} {l l' : Nat}
    {name : String} (hl : l ≤ l') (hr : r.Grows) :
    Keeps (Fields.required ⟨es, l⟩ name r) (Fields.required ⟨es, l'⟩ name r) :=
  .bind (.refl _) fun _ => hr hl

/-! ### Places -/

theorem Location.grows_decoder : Location.decoder.Grows := by
  refine .record ?_
  intro es l l' hl
  refine .bind (.grown hl grows_string) fun filename => ?_
  refine .bind (.grown hl grows_uint32) fun line => ?_
  refine .bind (.grown hl grows_uint32) fun column => ?_
  exact .refl _

/-- A place that is decoded at some number of levels is decoded as the same at any more. -/
theorem Span.grows_decoder : Span.decoder.Grows := by
  refine .record ?_
  intro es l l' hl
  refine .bind (.grown hl Location.grows_decoder) fun start => ?_
  refine .bind (.grown hl Location.grows_decoder) fun stop => ?_
  exact .refl _

/-- What is decoded of a value that writes the unknown place is the unknown place. -/
theorem Span.takes_decoder : Span.decoder.Takes .unknownPlace .unknown := by
  intro d j s hj hs
  cases hj with
  | @unknownPlace d' _ h =>
    have hs' := grows_decoder (Nat.le_max_left d d') s hs
    have h' := grows_decoder (Nat.le_max_right d d') .unknown h
    exact Option.some.inj (hs'.symm.trans h')

theorem Location.respects_decoder : Location.decoder.Respects Location.shape := by
  refine .record rfl (by decide) ?_
  rintro es es' d ⟨hfilename, hline, hcolumn, -⟩
  refine .bind (.required hfilename rfl (.simple _)) fun filename => ?_
  refine .bind (.required hline rfl (.simple _)) fun line => ?_
  refine .bind (.required hcolumn rfl (.simple _)) fun column => ?_
  exact .refl _

theorem Span.respects_decoder : Span.decoder.Respects Span.shape := by
  refine .record rfl (by decide) ?_
  rintro es es' d ⟨hstart, hend, -⟩
  refine .bind (.required hstart rfl Location.respects_decoder) fun start => ?_
  refine .bind (.required hend rfl Location.respects_decoder) fun stop => ?_
  exact .refl _

/-- The place of a node may be left out if it is unknown. -/
theorem Keeps.span {es es' : List (String × Json)} {d : Nat}
    (h : Shape.Field.span.Alike (es.lookup "span") (es'.lookup "span")) :
    Keeps (Fields.span ⟨es, d⟩) (Fields.span ⟨es', d⟩) :=
  .optional h rfl Span.takes_decoder Span.respects_decoder

/-! ### Types -/

theorem IntTy.respects_decoder : IntTy.decoder.Respects IntTy.shape := by
  refine .record rfl (by decide) ?_
  rintro es es' d ⟨hkind, hsigned, hsize, -⟩
  refine .bind (.required hkind rfl (.simple _)) fun kind => ?_
  refine .bind (.required hsigned rfl (.simple _)) fun signed => ?_
  refine .bind (.required hsize rfl (.simple _)) fun size => ?_
  exact .refl _

theorem RecordRef.respects_decoder : RecordRef.decoder.Respects RecordRef.shape := by
  refine .record rfl (by decide) ?_
  rintro es es' d ⟨hid, hname, -⟩
  refine .bind (.required hid rfl (.simple _)) fun id => ?_
  refine .bind (.required hname rfl (.simple _)) fun name => ?_
  exact .refl _

/-- One form of a type, given that the types in it are respected. -/
theorem Ty.respects_decodeWith (r : Decoder Ty) (hr : r.Respects (.kind .ty)) :
    (decodeWith r).Respects (.variant Ty.forms) := by
  refine .variant ⟨?void, ?integer, ?pointer, ?array, ?function, ?struct, ?union, trivial⟩
  case void => nofun
  case integer =>
    intro d j j' h
    exact .bind (IntTy.respects_decoder h) fun _ => .refl _
  case pointer =>
    intro d j j' h
    exact .bind (hr h) fun _ => .refl _
  case array =>
    intro d j j' h
    refine .fields h rfl (by decide) ?_
    rintro es es' d ⟨helement, hlength, -⟩
    refine .bind (.required helement rfl hr) fun element => ?_
    refine .bind (.optional hlength rfl (takes_nullable _) (.simple _)) fun length => ?_
    exact .refl _
  case function =>
    intro d j j' h
    refine .fields h rfl (by decide) ?_
    rintro es es' d ⟨hresult, hparams, hvariadic, -⟩
    refine .bind (.required hresult rfl hr) fun result => ?_
    refine .bind (.required hparams rfl hr.list) fun params => ?_
    refine .bind (.optional hvariadic rfl takes_bool (.simple _)) fun isVariadic => ?_
    exact .refl _
  case struct | union =>
    intro d j j' h
    exact .bind (RecordRef.respects_decoder h) fun _ => .refl _

/-- A type is the same type in any presentation. -/
theorem Ty.respects_decoder : Ty.decoder.Respects (.kind .ty) := respects_fix respects_decodeWith

theorem Member.respects_decoder : Member.decoder.Respects Member.shape := by
  refine .record rfl (by decide) ?_
  rintro es es' d ⟨hname, htype, -⟩
  refine .bind (.required hname rfl (.simple _)) fun name => ?_
  refine .bind (.required htype rfl Ty.respects_decoder) fun type => ?_
  exact .refl _

theorem Record.respects_decoder : Record.decoder.Respects Record.shape := by
  refine .record rfl (by decide) ?_
  rintro es es' d ⟨hid, hname, hunion, hmembers, -⟩
  refine .bind (.required hid rfl (.simple _)) fun id => ?_
  refine .bind (.required hname rfl (.simple _)) fun name => ?_
  refine .bind (.optional hunion rfl takes_bool (.simple _)) fun isUnion => ?_
  refine .bind (.required hmembers rfl Member.respects_decoder.list) fun members => ?_
  exact .refl _

/-! ### Expressions -/

/-- One form of an expression, given that the operands are respected. -/
theorem Expr.respects_decodeForm {r : Decoder Expr} (hr : r.Respects (.kind .expr)) (i : Info) :
    (decodeForm r i).Respects (.variant Expr.forms) := by
  refine .variant ⟨?intLit, ?strLit, ?var, ?unary, ?step, ?addressOf, ?deref, ?binary, ?assign,
    ?cond, ?call, ?index, ?member, ?arrow, ?cast, ?sizeofType, ?sizeofExpr, trivial⟩
  case intLit =>
    intro d j j' h
    refine .fields h rfl (by decide) ?_
    rintro es es' d ⟨hvalue, htype, -⟩
    refine .bind (.required hvalue rfl (.simple _)) fun value => ?_
    refine .bind (.required htype rfl Ty.respects_decoder) fun type => ?_
    exact .refl _
  case strLit => nofun
  case var =>
    intro d j j' h
    refine .fields h rfl (by decide) ?_
    rintro es es' d ⟨hname, htype, -⟩
    refine .bind (.required hname rfl (.simple _)) fun name => ?_
    refine .bind (.required htype rfl Ty.respects_decoder) fun type => ?_
    exact .refl _
  case unary | step =>
    intro d j j' h
    refine .fields h rfl (by decide) ?_
    rintro es es' d ⟨hop, hoperand, -⟩
    refine .bind (.required hop rfl (.simple _)) fun op => ?_
    refine .bind (.required hoperand rfl hr) fun operand => ?_
    exact .refl _
  case addressOf | deref | sizeofExpr =>
    intro d j j' h
    exact .bind (hr h) fun _ => .refl _
  case binary | assign =>
    intro d j j' h
    refine .fields h rfl (by decide) ?_
    rintro es es' d ⟨hop, hleft, hright, -⟩
    refine .bind (.required hop rfl (.simple _)) fun op => ?_
    refine .bind (.required hleft rfl hr) fun left => ?_
    refine .bind (.required hright rfl hr) fun right => ?_
    exact .refl _
  case cond =>
    intro d j j' h
    refine .fields h rfl (by decide) ?_
    rintro es es' d ⟨hcond, hthen, helse, -⟩
    refine .bind (.required hcond rfl hr) fun cond => ?_
    refine .bind (.required hthen rfl hr) fun thenBranch => ?_
    refine .bind (.required helse rfl hr) fun elseBranch => ?_
    exact .refl _
  case call =>
    intro d j j' h
    refine .fields h rfl (by decide) ?_
    rintro es es' d ⟨hcallee, hargs, -⟩
    refine .bind (.required hcallee rfl hr) fun callee => ?_
    refine .bind (.required hargs rfl hr.list) fun args => ?_
    exact .refl _
  case index =>
    intro d j j' h
    refine .fields h rfl (by decide) ?_
    rintro es es' d ⟨hbase, hindex, -⟩
    refine .bind (.required hbase rfl hr) fun base => ?_
    refine .bind (.required hindex rfl hr) fun index => ?_
    exact .refl _
  case member | arrow =>
    intro d j j' h
    refine .fields h rfl (by decide) ?_
    rintro es es' d ⟨hbase, hmember, -⟩
    refine .bind (.required hbase rfl hr) fun base => ?_
    refine .bind (.required hmember rfl (.simple _)) fun member => ?_
    exact .refl _
  case cast =>
    intro d j j' h
    refine .fields h rfl (by decide) ?_
    rintro es es' d ⟨htarget, hoperand, himplicit, -⟩
    refine .bind (.required htarget rfl Ty.respects_decoder) fun target => ?_
    refine .bind (.required hoperand rfl hr) fun operand => ?_
    refine .bind (.optional himplicit rfl takes_bool (.simple _)) fun implicit => ?_
    exact .refl _
  case sizeofType =>
    intro d j j' h
    exact .bind (Ty.respects_decoder h) fun _ => .refl _

/-- An expression is read from its form, its place and its slot. -/
theorem Expr.respects_decodeWith (r : Decoder Expr) (hr : r.Respects (.kind .expr)) :
    (decodeWith r).Respects Shape.Kind.expr.shape := by
  refine .record rfl (by decide) ?_
  rintro es es' d ⟨hkind, hspan, hty, -⟩
  refine .bind (.span hspan) fun span => ?_
  refine .bind (.optional hty rfl (takes_nullable _) Ty.respects_decoder.nullable) fun ty => ?_
  exact .required hkind rfl (respects_decodeForm hr _)

/-- An expression is the same expression in any presentation. -/
theorem Expr.respects_decoder : Expr.decoder.Respects (.kind .expr) :=
  respects_fix respects_decodeWith

/-! ### Statements -/

theorem Storage.respects_decoder : Storage.decoder.Respects (.variant Storage.forms) := by
  refine .variant ⟨?global, ?frame, trivial⟩
  case global =>
    intro d j j' h
    refine .fields h rfl (by decide) ?_
    rintro es es' d ⟨hsymbol, -⟩
    refine .bind (.required hsymbol rfl (.simple _)) fun symbol => ?_
    exact .refl _
  case frame =>
    intro d j j' h
    refine .fields h rfl (by decide) ?_
    rintro es es' d ⟨hoffset, -⟩
    refine .bind (.required hoffset rfl (.simple _)) fun offset => ?_
    exact .refl _

theorem Variable.respects_decoder : Variable.decoder.Respects Variable.shape := by
  refine .record rfl (by decide) ?_
  rintro es es' d ⟨hname, htype, hinit, hprivate, htoplevel, hstorage, hspan, -⟩
  refine .bind (.required hname rfl (.simple _)) fun name => ?_
  refine .bind (.required htype rfl Ty.respects_decoder) fun type => ?_
  refine .bind (.optional hinit rfl (takes_nullable _) Expr.respects_decoder.nullable)
    fun init => ?_
  refine .bind (.optional hprivate rfl takes_bool (.simple _)) fun isPrivate => ?_
  refine .bind (.optional htoplevel rfl takes_bool (.simple _)) fun toplevel => ?_
  refine .bind (.optional hstorage rfl (takes_nullable _) Storage.respects_decoder.nullable)
    fun storage => ?_
  refine .bind (.span hspan) fun span => ?_
  exact .refl _

section Stmt

variable {r : Decoder Stmt} (hr : r.Respects (.kind .stmt))

include hr

theorem Block.respects_decodeWith : (Block.decodeWith r).Respects Block.shape := by
  refine .record rfl (by decide) ?_
  rintro es es' d ⟨hvariables, hstmts, -⟩
  refine .bind (.optional hvariables rfl (takes_list _) Variable.respects_decoder.list)
    fun vars => ?_
  refine .bind (.optional hstmts rfl (takes_list _) hr.list) fun stmts => ?_
  exact .refl _

theorem Case.respects_decodeWith : (Case.decodeWith r).Respects Case.shape := by
  refine .record rfl (by decide) ?_
  rintro es es' d ⟨hvalues, hbody, -⟩
  refine .bind (.optional hvalues rfl (takes_list _) Expr.respects_decoder.list) fun values => ?_
  refine .bind (.required hbody rfl (Block.respects_decodeWith hr)) fun body => ?_
  exact .refl _

/-- One form of a statement, given that the statements in it are respected. -/
theorem Stmt.respects_decodeForm (s : Span) : (decodeForm r s).Respects (.variant Stmt.forms) := by
  refine .variant ⟨?block, ?expr, ?ifElse, ?whileLoop, ?doWhile, ?forLoop, ?switch, ?returns,
    ?breaks, ?continues, ?goto, ?label, ?empty, trivial⟩
  case block =>
    intro d j j' h
    exact .bind (Block.respects_decodeWith hr h) fun _ => .refl _
  case expr =>
    intro d j j' h
    exact .bind (Expr.respects_decoder h) fun _ => .refl _
  case ifElse =>
    intro d j j' h
    refine .fields h rfl (by decide) ?_
    rintro es es' d ⟨hcond, hthen, helse, -⟩
    refine .bind (.required hcond rfl Expr.respects_decoder) fun cond => ?_
    refine .bind (.required hthen rfl hr) fun thenBranch => ?_
    refine .bind (.optional helse rfl (takes_nullable _) hr.nullable) fun elseBranch => ?_
    exact .refl _
  case whileLoop =>
    intro d j j' h
    refine .fields h rfl (by decide) ?_
    rintro es es' d ⟨hcond, hbody, -⟩
    refine .bind (.required hcond rfl Expr.respects_decoder) fun cond => ?_
    refine .bind (.required hbody rfl hr) fun body => ?_
    exact .refl _
  case doWhile =>
    intro d j j' h
    refine .fields h rfl (by decide) ?_
    rintro es es' d ⟨hbody, hcond, -⟩
    refine .bind (.required hbody rfl hr) fun body => ?_
    refine .bind (.required hcond rfl Expr.respects_decoder) fun cond => ?_
    exact .refl _
  case forLoop =>
    intro d j j' h
    refine .fields h rfl (by decide) ?_
    rintro es es' d ⟨hinit, hcond, hincr, hbody, -⟩
    refine .bind (.optional hinit rfl (takes_nullable _) Expr.respects_decoder.nullable)
      fun init => ?_
    refine .bind (.optional hcond rfl (takes_nullable _) Expr.respects_decoder.nullable)
      fun cond => ?_
    refine .bind (.optional hincr rfl (takes_nullable _) Expr.respects_decoder.nullable)
      fun incr => ?_
    refine .bind (.required hbody rfl hr) fun body => ?_
    exact .refl _
  case switch =>
    intro d j j' h
    refine .fields h rfl (by decide) ?_
    rintro es es' d ⟨hcond, hcases, -⟩
    refine .bind (.required hcond rfl Expr.respects_decoder) fun cond => ?_
    refine .bind (.required hcases rfl (Case.respects_decodeWith hr).list) fun cases => ?_
    exact .refl _
  case returns =>
    intro d j j' h
    exact .bind (Expr.respects_decoder.nullable h) fun _ => .refl _
  case breaks | continues | goto | empty => nofun
  case label =>
    intro d j j' h
    refine .fields h rfl (by decide) ?_
    rintro es es' d ⟨hname, hstmt, -⟩
    refine .bind (.required hname rfl (.simple _)) fun name => ?_
    refine .bind (.required hstmt rfl hr) fun stmt => ?_
    exact .refl _

end Stmt

theorem Stmt.respects_decodeWith (r : Decoder Stmt) (hr : r.Respects (.kind .stmt)) :
    (decodeWith r).Respects Shape.Kind.stmt.shape := by
  refine .record rfl (by decide) ?_
  rintro es es' d ⟨hkind, hspan, -⟩
  refine .bind (.span hspan) fun span => ?_
  exact .required hkind rfl (respects_decodeForm hr _)

/-- A statement is the same statement in any presentation. -/
theorem Stmt.respects_decoder : Stmt.decoder.Respects (.kind .stmt) :=
  respects_fix respects_decodeWith

/-! ### Functions and programs -/

theorem Param.respects_decoder : Param.decoder.Respects Param.shape := by
  refine .record rfl (by decide) ?_
  rintro es es' d ⟨hname, htype, hspan, -⟩
  refine .bind (.required hname rfl (.simple _)) fun name => ?_
  refine .bind (.required htype rfl Ty.respects_decoder) fun type => ?_
  refine .bind (.span hspan) fun span => ?_
  exact .refl _

theorem Function.respects_decoder : Function.decoder.Respects Function.shape := by
  refine .record rfl (by decide) ?_
  rintro es es' d ⟨hname, hprivate, hresult, hparams, hvariadic, hbody, hspan, -⟩
  refine .bind (.required hname rfl (.simple _)) fun name => ?_
  refine .bind (.optional hprivate rfl takes_bool (.simple _)) fun isPrivate => ?_
  refine .bind (.required hresult rfl Ty.respects_decoder) fun result => ?_
  refine .bind (.optional hparams rfl (takes_list _) Param.respects_decoder.list) fun params => ?_
  refine .bind (.optional hvariadic rfl takes_bool (.simple _)) fun isVariadic => ?_
  refine .bind (.required hbody rfl (Block.respects_decodeWith Stmt.respects_decoder))
    fun body => ?_
  refine .bind (.span hspan) fun span => ?_
  exact .refl _

/-- A program is the same program in any presentation. -/
theorem Program.respects_decoder : Program.decoder.Respects Program.shape := by
  refine .record rfl (by decide) ?_
  rintro es es' d ⟨htypes, hvariables, hfunctions, -⟩
  refine .bind (.optional htypes rfl (takes_list _) Record.respects_decoder.list) fun types => ?_
  refine .bind (.optional hvariables rfl (takes_list _) Variable.respects_decoder.list)
    fun vars => ?_
  refine .bind (.optional hfunctions rfl (takes_list _) Function.respects_decoder.list)
    fun functions => ?_
  exact .refl _

/-- A text that is a document is read as what is decoded of it. -/
theorem Program.read_eq_ok {source : String} {j : Json} {p : Program}
    (hj : Json.parse? source = some j) : read source = .ok p ↔ decoder maxLevels j = some p := by
  rw [read, ofDocument?, hj, Option.bind_some]
  cases decoder maxLevels j with
  | none => exact ⟨nofun, nofun⟩
  | some q => rw [Except.ok.injEq, Option.some.injEq]

/-- **Reading does not depend on the presentation.** If a document is read as a program, the same
program is read of every document that is made from it by permuting the fields of objects, leaving
out fields that say what is taken for them anyway, and adding fields that are not known, in as many
records as one likes. -/
theorem reading_ignores_presentation {source source' : String} {p : Program}
    (h : Program.Restyled source source') (hp : Program.read source = .ok p) :
    Program.read source' = .ok p := by
  obtain ⟨j, j', hj, hj', hsteps⟩ := h
  rw [Program.read_eq_ok hj] at hp
  rw [Program.read_eq_ok hj']
  exact Program.respects_decoder.run hsteps p hp

/-- A document with one variable, given by its fields. -/
def oneVariable (fields : List (String × Json)) : Json :=
  .record [("variables", .arr [.record fields])]

/-- A variable with a place and with an array type that has a length, neither of which is known. -/
def spelledOut : Json :=
  oneVariable [("type", .tagged "array" (.record [("element", .text "void"), ("length", .null)])),
    ("name", .text "x"), ("span", Span.toJson .unknown)]

/-- The same variable without these, with its fields in another order, and with a note that is
nested deeper than a document may be. -/
def annotated : Json :=
  let note := Nat.repeat (fun j => .arr [j]) 1000 .null
  oneVariable [("name", .text "x"),
    ("type", .tagged "array" (.record [("note", note), ("element", .text "void")]))]

/-- The two documents are the same up to presentation. -/
theorem spelledOut_restyled :
    Relation.ReflTransGen Program.shape.Restyled spelledOut annotated := by
  -- a change in the variable, and one in the type of the array, is one in the document
  have hvariable : ∀ {fs fs' : List (String × Json)},
      Variable.shape.Restyled (.record fs) (.record fs') →
        Program.shape.Restyled (oneVariable fs) (oneVariable fs') := by
    intro fs fs' h
    exact .field (.tail _ (.head _)) (.item [] h []) []
  have harray : ∀ {fs fs' rest : List (String × Json)},
      (Shape.record [.required "element" (.kind .ty), .optional "length" .null .simple]).Restyled
          (.record fs) (.record fs') →
        Program.shape.Restyled (oneVariable (("type", .tagged "array" (.record fs)) :: rest))
          (oneVariable (("type", .tagged "array" (.record fs')) :: rest)) := by
    intro fs fs' rest h
    have htype : (Shape.kind .ty).Restyled (.tagged "array" (.record fs))
        (.tagged "array" (.record fs')) :=
      .kind (k := .ty) (.payload (.tail _ (.tail _ (.tail _ (.head _)))) h)
    exact hvariable (.field (.tail _ (.head _)) htype rest)
  have hnote : ∀ f ∈ [Shape.Field.required "element" (.kind .ty),
      .optional "length" .null .simple], f.name ≠ "note" := by decide
  -- the length goes to the front and is left out, and the note is added
  refine .head (harray (.permuted (.swap _ _ _))) ?_
  refine .head (harray (.omitted (.tail _ (.head _)) rfl .null _)) ?_
  refine .head (harray (.added hnote (Nat.repeat (fun j => .arr [j]) 1000 .null) _)) ?_
  -- then so does the place, which is left out as well
  refine .head (hvariable (.permuted (List.reverse_perm _).symm)) ?_
  exact .single (hvariable (.omitted (f := .span) (by simp) rfl (.unknownPlace (d := 2) rfl) _))

theorem reading_ignores_presentation_annotated :
    let p : Program :=
      ⟨[], [⟨"x", .array .void none, none, false, false, none, .unknown⟩], []⟩
    Program.Restyled spelledOut.pretty annotated.pretty ∧
      Program.read spelledOut.pretty = .ok p ∧ Program.read annotated.pretty = .ok p := by
  intro p
  have h : Program.Restyled spelledOut.pretty annotated.pretty :=
    ⟨_, _, Json.parse?_pretty _, Json.parse?_pretty _, spelledOut_restyled⟩
  have hp : Program.read spelledOut.pretty = .ok p :=
    (Program.read_eq_ok (Json.parse?_pretty spelledOut)).mpr rfl
  exact ⟨h, hp, reading_ignores_presentation h hp⟩

end CTyping
