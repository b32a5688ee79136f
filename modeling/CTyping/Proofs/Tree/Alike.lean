import CTyping.Proofs.Tree.Induction
import CTyping.Proofs.Ty.Layout
import Mathlib.Data.List.Forall2
import Mathlib.Data.Option.Defs

/-!
# Programs that differ only in some respects

Two programs are *alike* when they are built in the same way and their parts agree, place by place.
In what the parts have to agree is a `CTyping.Agreement`: it may ask that places be the same, or
only that the written types be the same up to their widths, or nothing at all of what is in a slot.

* `CTyping.Expr.Alike`, `CTyping.Stmt.Alike`, …, `CTyping.Program.Alike`: one rule for each form.
  Nothing here goes through a walk, so a place that a walk forgets is not forgotten here.
* `CTyping.Agreement.layout`: everything but the widths of integers and what is in the slots.
* `CTyping.Agreement.written`: everything but what is in the slots.

Setting the widths to those of one data model leads from the first of these to the second
(`CTyping.Program.Alike.normalize`).
-/

namespace CTyping

/-! ### Agreements -/

/-- In what the parts of two programs have to agree. -/
structure Agreement where
  span : Span → Span → Prop
  /-- Of the types that are written. -/
  type : Ty → Ty → Prop
  /-- Of the types in slots. -/
  slot : Option Ty → Option Ty → Prop
  /-- Of the names of variables, parameters and labels. -/
  name : String → String → Prop
  /-- Of integer literals. -/
  value : Int64 → Int64 → Prop
  /-- Of string literals. -/
  string : String → String → Prop
  /-- Of what is private, and what is at the top level. -/
  flag : Bool → Bool → Prop
  storage : Option Storage → Option Storage → Prop

namespace Agreement

/-- Agreement in all that is written: the slots may hold anything. -/
def written : Agreement where
  span := Eq
  type := Eq
  slot _ _ := True
  name := Eq
  value := Eq
  string := Eq
  flag := Eq
  storage := Eq

end Agreement

/-- Agreement in all that is written, up to the widths of integers. -/
def Agreement.layout : Agreement := { written with type := Ty.Resized }

/-! ### Trees that are alike -/

section Alike

variable (a : Agreement)

/-- What nodes carry is alike if the places are and the slots are. -/
structure Info.Alike (i j : Info) : Prop where
  span : a.span i.span j.span
  slot : a.slot i.ty j.ty

/-- Expressions of the same form whose parts agree. -/
inductive Expr.Alike : Expr → Expr → Prop
  | intLit {i j : Info} {v w : Int64} {t u : Ty} (hi : i.Alike a j) (hv : a.value v w)
      (ht : a.type t u) : Alike (.intLit i v t) (.intLit j w u)
  | strLit {i j : Info} {s s' : String} (hi : i.Alike a j) (hs : a.string s s') :
      Alike (.strLit i s) (.strLit j s')
  | var {i j : Info} {n n' : String} {t u : Ty} (hi : i.Alike a j) (hn : a.name n n')
      (ht : a.type t u) : Alike (.var i n t) (.var j n' u)
  | unary {i j : Info} {op : UnaryOp} {e e' : Expr} (hi : i.Alike a j) (he : Alike e e') :
      Alike (.unary i op e) (.unary j op e')
  | step {i j : Info} {op : StepOp} {e e' : Expr} (hi : i.Alike a j) (he : Alike e e') :
      Alike (.step i op e) (.step j op e')
  | addressOf {i j : Info} {e e' : Expr} (hi : i.Alike a j) (he : Alike e e') :
      Alike (.addressOf i e) (.addressOf j e')
  | deref {i j : Info} {e e' : Expr} (hi : i.Alike a j) (he : Alike e e') :
      Alike (.deref i e) (.deref j e')
  | binary {i j : Info} {op : BinaryOp} {l l' r r' : Expr} (hi : i.Alike a j) (hl : Alike l l')
      (hr : Alike r r') : Alike (.binary i op l r) (.binary j op l' r')
  | assign {i j : Info} {op : AssignOp} {l l' r r' : Expr} (hi : i.Alike a j) (hl : Alike l l')
      (hr : Alike r r') : Alike (.assign i op l r) (.assign j op l' r')
  | cond {i j : Info} {c c' x x' y y' : Expr} (hi : i.Alike a j) (hc : Alike c c')
      (hx : Alike x x') (hy : Alike y y') : Alike (.cond i c x y) (.cond j c' x' y')
  | call {i j : Info} {f f' : Expr} {as bs : List Expr} (hi : i.Alike a j) (hf : Alike f f')
      (has : List.Forall₂ Alike as bs) : Alike (.call i f as) (.call j f' bs)
  | index {i j : Info} {b b' x x' : Expr} (hi : i.Alike a j) (hb : Alike b b')
      (hx : Alike x x') : Alike (.index i b x) (.index j b' x')
  | member {i j : Info} {b b' : Expr} {n : String} (hi : i.Alike a j) (hb : Alike b b') :
      Alike (.member i b n) (.member j b' n)
  | arrow {i j : Info} {b b' : Expr} {n : String} (hi : i.Alike a j) (hb : Alike b b') :
      Alike (.arrow i b n) (.arrow j b' n)
  | cast {i j : Info} {t u : Ty} {e e' : Expr} {m : Bool} (hi : i.Alike a j) (ht : a.type t u)
      (he : Alike e e') : Alike (.cast i t e m) (.cast j u e' m)
  | sizeofType {i j : Info} {t u : Ty} (hi : i.Alike a j) (ht : a.type t u) :
      Alike (.sizeofType i t) (.sizeofType j u)
  | sizeofExpr {i j : Info} {e e' : Expr} (hi : i.Alike a j) (he : Alike e e') :
      Alike (.sizeofExpr i e) (.sizeofExpr j e')

/-- Variables are alike if everything in them is, the storage given to them included. -/
structure Variable.Alike (v w : Variable) : Prop where
  name : a.name v.name w.name
  type : a.type v.type w.type
  initializer : Option.Rel (Expr.Alike a) v.initializer w.initializer
  isPrivate : a.flag v.isPrivate w.isPrivate
  isToplevel : a.flag v.isToplevel w.isToplevel
  storage : a.storage v.storage w.storage
  span : a.span v.span w.span

mutual

/-- Statements of the same form whose parts agree. -/
inductive Stmt.Alike : Stmt → Stmt → Prop
  | block {s s' : Span} {b b' : Block} (hs : a.span s s') (hb : Block.Alike b b') :
      Stmt.Alike (.block s b) (.block s' b')
  | expr {s s' : Span} {e e' : Expr} (hs : a.span s s') (he : e.Alike a e') :
      Stmt.Alike (.expr s e) (.expr s' e')
  | ifThen {s s' : Span} {c c' : Expr} {t t' : Stmt} (hs : a.span s s') (hc : c.Alike a c')
      (ht : Stmt.Alike t t') : Stmt.Alike (.ifElse s c t none) (.ifElse s' c' t' none)
  | ifElse {s s' : Span} {c c' : Expr} {t t' u u' : Stmt} (hs : a.span s s')
      (hc : c.Alike a c') (ht : Stmt.Alike t t') (hu : Stmt.Alike u u') :
      Stmt.Alike (.ifElse s c t (some u)) (.ifElse s' c' t' (some u'))
  | whileLoop {s s' : Span} {c c' : Expr} {b b' : Stmt} (hs : a.span s s') (hc : c.Alike a c')
      (hb : Stmt.Alike b b') : Stmt.Alike (.whileLoop s c b) (.whileLoop s' c' b')
  | doWhile {s s' : Span} {b b' : Stmt} {c c' : Expr} (hs : a.span s s') (hb : Stmt.Alike b b')
      (hc : c.Alike a c') : Stmt.Alike (.doWhile s b c) (.doWhile s' b' c')
  | forLoop {s s' : Span} {i i' c c' n n' : Option Expr} {b b' : Stmt} (hs : a.span s s')
      (hi : Option.Rel (Expr.Alike a) i i') (hc : Option.Rel (Expr.Alike a) c c')
      (hn : Option.Rel (Expr.Alike a) n n') (hb : Stmt.Alike b b') :
      Stmt.Alike (.forLoop s i c n b) (.forLoop s' i' c' n' b')
  | switch {s s' : Span} {e e' : Expr} {cs cs' : List Case} (hs : a.span s s')
      (he : e.Alike a e') (hcs : List.Forall₂ Case.Alike cs cs') :
      Stmt.Alike (.switch s e cs) (.switch s' e' cs')
  | returns {s s' : Span} {e e' : Option Expr} (hs : a.span s s')
      (he : Option.Rel (Expr.Alike a) e e') : Stmt.Alike (.returns s e) (.returns s' e')
  | breaks {s s' : Span} (hs : a.span s s') : Stmt.Alike (.breaks s) (.breaks s')
  | continues {s s' : Span} (hs : a.span s s') : Stmt.Alike (.continues s) (.continues s')
  | goto {s s' : Span} {l l' : String} (hs : a.span s s') (hl : a.name l l') :
      Stmt.Alike (.goto s l) (.goto s' l')
  | label {s s' : Span} {n n' : String} {b b' : Stmt} (hs : a.span s s') (hn : a.name n n')
      (hb : Stmt.Alike b b') : Stmt.Alike (.label s n b) (.label s' n' b')
  | empty {s s' : Span} (hs : a.span s s') : Stmt.Alike (.empty s) (.empty s')

/-- Arms are alike if their values are, one by one, and their blocks. -/
inductive Case.Alike : Case → Case → Prop
  | mk {vs ws : List Expr} {b b' : Block} (hvs : List.Forall₂ (Expr.Alike a) vs ws)
      (hb : Block.Alike b b') : Case.Alike ⟨vs, b⟩ ⟨ws, b'⟩

/-- Blocks are alike if their variables and their statements are, one by one. -/
inductive Block.Alike : Block → Block → Prop
  | mk {vs ws : List Variable} {ss ts : List Stmt}
      (hvs : List.Forall₂ (Variable.Alike a) vs ws) (hss : List.Forall₂ Stmt.Alike ss ts) :
      Block.Alike ⟨vs, ss⟩ ⟨ws, ts⟩

end

/-- Parameters are alike if their names, types and places are. -/
structure Param.Alike (p q : Param) : Prop where
  name : a.name p.name q.name
  type : a.type p.type q.type
  span : a.span p.span q.span

/-- Functions of the same name whose parts agree. -/
structure Function.Alike (f g : Function) : Prop where
  name : f.name = g.name
  isPrivate : a.flag f.isPrivate g.isPrivate
  result : a.type f.result g.result
  params : List.Forall₂ (Param.Alike a) f.params g.params
  variadic : f.variadic = g.variadic
  body : f.body.Alike a g.body
  span : a.span f.span g.span

/-- Members are alike if they have the same name and alike types. -/
structure Member.Alike (m n : Member) : Prop where
  name : m.name = n.name
  type : a.type m.type n.type

/-- Declarations under the same id and name whose members agree one by one. -/
structure Record.Alike (r s : Record) : Prop where
  id : r.id = s.id
  name : r.name = s.name
  isUnion : r.isUnion = s.isUnion
  members : List.Forall₂ (Member.Alike a) r.members s.members

/-- **Programs that are alike**: as many declarations, variables and functions, alike one by one. -/
structure Program.Alike (p q : Program) : Prop where
  records : List.Forall₂ (Record.Alike a) p.records q.records
  globals : List.Forall₂ (Variable.Alike a) p.globals q.globals
  functions : List.Forall₂ (Function.Alike a) p.functions q.functions

end Alike

/-! ### Laid out for one data model

The relations are nested in lists, so the proofs recur on derivations and on lists of derivations
side by side. -/

theorem Info.Alike.normalize (m : DataModel) {i j : Info} (h : i.Alike .layout j) :
    (i.mapTy m.normalize).Alike .written (j.mapTy m.normalize) :=
  ⟨h.span, trivial⟩

mutual

/-- Expressions of one layout are written the same once widths are filled in. -/
theorem Expr.Alike.normalize (m : DataModel) : ∀ {e e' : Expr}, e.Alike .layout e' →
    (e.mapTypes m.normalize).Alike .written (e'.mapTypes m.normalize)
  | _, _, .intLit hi hv ht => .intLit (hi.normalize m) hv (ht.normalize m)
  | _, _, .strLit hi hs => .strLit (hi.normalize m) hs
  | _, _, .var hi hn ht => .var (hi.normalize m) hn (ht.normalize m)
  | _, _, .unary hi he => .unary (hi.normalize m) (he.normalize m)
  | _, _, .step hi he => .step (hi.normalize m) (he.normalize m)
  | _, _, .addressOf hi he => .addressOf (hi.normalize m) (he.normalize m)
  | _, _, .deref hi he => .deref (hi.normalize m) (he.normalize m)
  | _, _, .binary hi hl hr => .binary (hi.normalize m) (hl.normalize m) (hr.normalize m)
  | _, _, .assign hi hl hr => .assign (hi.normalize m) (hl.normalize m) (hr.normalize m)
  | _, _, .cond hi hc hx hy =>
    .cond (hi.normalize m) (hc.normalize m) (hx.normalize m) (hy.normalize m)
  | _, _, .call hi hf has =>
    .call (hi.normalize m) (hf.normalize m) (Expr.Alike.normalizeList m has)
  | _, _, .index hi hb hx => .index (hi.normalize m) (hb.normalize m) (hx.normalize m)
  | _, _, .member hi hb => .member (hi.normalize m) (hb.normalize m)
  | _, _, .arrow hi hb => .arrow (hi.normalize m) (hb.normalize m)
  | _, _, .cast hi ht he => .cast (hi.normalize m) (ht.normalize m) (he.normalize m)
  | _, _, .sizeofType hi ht => .sizeofType (hi.normalize m) (ht.normalize m)
  | _, _, .sizeofExpr hi he => .sizeofExpr (hi.normalize m) (he.normalize m)

theorem Expr.Alike.normalizeList (m : DataModel) : ∀ {as bs : List Expr},
    List.Forall₂ (Expr.Alike .layout) as bs →
      List.Forall₂ (Expr.Alike .written) (Expr.mapTypesList m.normalize as)
        (Expr.mapTypesList m.normalize bs)
  | _, _, .nil => .nil
  | _, _, .cons h hs => .cons (h.normalize m) (Expr.Alike.normalizeList m hs)

end

theorem Expr.Alike.normalize_option (m : DataModel) {o o' : Option Expr}
    (h : Option.Rel (Expr.Alike .layout) o o') :
    Option.Rel (Expr.Alike .written) (o.map (Expr.mapTypes m.normalize))
      (o'.map (Expr.mapTypes m.normalize)) := by
  cases h with
  | none => exact .none
  | some he => exact .some (he.normalize m)

/-- Variables of one layout are written the same once widths are filled in. -/
theorem Variable.Alike.normalize (m : DataModel) {v w : Variable} (h : v.Alike .layout w) :
    (v.mapTypes m.normalize).Alike .written (w.mapTypes m.normalize) :=
  ⟨h.name, h.type.normalize m, Expr.Alike.normalize_option m h.initializer, h.isPrivate,
    h.isToplevel, h.storage, h.span⟩

/-- Members that correspond to each other still do once each is changed. -/
theorem forall₂_map_map {α β : Type} {R : α → α → Prop} {S : β → β → Prop} {f : α → β}
    {xs ys : List α} (h : List.Forall₂ R xs ys) (hf : ∀ x y, R x y → S (f x) (f y)) :
    List.Forall₂ S (xs.map f) (ys.map f) := by
  rw [List.forall₂_map_left_iff, List.forall₂_map_right_iff]
  exact h.imp hf

mutual

/-- Statements of one layout are written the same once widths are filled in. -/
theorem Stmt.Alike.normalize (m : DataModel) : ∀ {s s' : Stmt}, s.Alike .layout s' →
    (s.map (Variable.mapTypes m.normalize) (Expr.mapTypes m.normalize)).Alike .written
      (s'.map (Variable.mapTypes m.normalize) (Expr.mapTypes m.normalize))
  | _, _, .block hs hb => .block hs (hb.normalize m)
  | _, _, .expr hs he => .expr hs (he.normalize m)
  | _, _, .ifThen hs hc ht => .ifThen hs (hc.normalize m) (ht.normalize m)
  | _, _, .ifElse hs hc ht hu => .ifElse hs (hc.normalize m) (ht.normalize m) (hu.normalize m)
  | _, _, .whileLoop hs hc hb => .whileLoop hs (hc.normalize m) (hb.normalize m)
  | _, _, .doWhile hs hb hc => .doWhile hs (hb.normalize m) (hc.normalize m)
  | _, _, .forLoop hs hi hc hn hb =>
    .forLoop hs (Expr.Alike.normalize_option m hi) (Expr.Alike.normalize_option m hc)
      (Expr.Alike.normalize_option m hn) (hb.normalize m)
  | _, _, .switch hs he hcs => .switch hs (he.normalize m) (Stmt.Alike.normalizeCases m hcs)
  | _, _, .returns hs he => .returns hs (Expr.Alike.normalize_option m he)
  | _, _, .breaks hs => .breaks hs
  | _, _, .continues hs => .continues hs
  | _, _, .goto hs hl => .goto hs hl
  | _, _, .label hs hn hb => .label hs hn (hb.normalize m)
  | _, _, .empty hs => .empty hs

theorem Stmt.Alike.normalizeList (m : DataModel) : ∀ {ss ts : List Stmt},
    List.Forall₂ (Stmt.Alike .layout) ss ts →
      List.Forall₂ (Stmt.Alike .written)
        (Stmt.mapList (Variable.mapTypes m.normalize) (Expr.mapTypes m.normalize) ss)
        (Stmt.mapList (Variable.mapTypes m.normalize) (Expr.mapTypes m.normalize) ts)
  | _, _, .nil => .nil
  | _, _, .cons h hs => .cons (h.normalize m) (Stmt.Alike.normalizeList m hs)

theorem Stmt.Alike.normalizeCases (m : DataModel) : ∀ {cs cs' : List Case},
    List.Forall₂ (Case.Alike .layout) cs cs' →
      List.Forall₂ (Case.Alike .written)
        (Stmt.mapCases (Variable.mapTypes m.normalize) (Expr.mapTypes m.normalize) cs)
        (Stmt.mapCases (Variable.mapTypes m.normalize) (Expr.mapTypes m.normalize) cs')
  | _, _, .nil => .nil
  | _, _, .cons h hs => .cons (h.normalize m) (Stmt.Alike.normalizeCases m hs)

theorem Case.Alike.normalize (m : DataModel) : ∀ {c c' : Case}, c.Alike .layout c' →
    (c.map (Variable.mapTypes m.normalize) (Expr.mapTypes m.normalize)).Alike .written
      (c'.map (Variable.mapTypes m.normalize) (Expr.mapTypes m.normalize))
  | _, _, .mk hvs hb => .mk (forall₂_map_map hvs fun _ _ h => h.normalize m) (hb.normalize m)

theorem Block.Alike.normalize (m : DataModel) : ∀ {b b' : Block}, b.Alike .layout b' →
    (b.map (Variable.mapTypes m.normalize) (Expr.mapTypes m.normalize)).Alike .written
      (b'.map (Variable.mapTypes m.normalize) (Expr.mapTypes m.normalize))
  | _, _, .mk hvs hss =>
    .mk (forall₂_map_map hvs fun _ _ h => h.normalize m) (Stmt.Alike.normalizeList m hss)

end

/-- Functions of one layout are written the same once widths are filled in. -/
theorem Function.Alike.normalize (m : DataModel) {f g : Function} (h : f.Alike .layout g) :
    (f.mapTypes m.normalize).Alike .written (g.mapTypes m.normalize) where
  name := h.name
  isPrivate := h.isPrivate
  result := h.result.normalize m
  params := forall₂_map_map h.params fun _ _ hp => ⟨hp.name, hp.type.normalize m, hp.span⟩
  variadic := h.variadic
  body := h.body.normalize m
  span := h.span

/-- Records of one layout are written the same once widths are filled in. -/
theorem Record.Alike.normalize (m : DataModel) {r s : Record} (h : r.Alike .layout s) :
    (r.mapTypes m.normalize).Alike .written (s.mapTypes m.normalize) where
  id := h.id
  name := h.name
  isUnion := h.isUnion
  members := forall₂_map_map h.members fun _ _ hm => ⟨hm.name, hm.type.normalize m⟩

/-- **Programs that differ in widths and slots only differ in slots only**, once they are laid out
for one data model. -/
theorem Program.Alike.normalize (m : DataModel) {p q : Program} (h : p.Alike .layout q) :
    (p.mapTypes m.normalize).Alike .written (q.mapTypes m.normalize) where
  records := forall₂_map_map h.records fun _ _ h => h.normalize m
  globals := forall₂_map_map h.globals fun _ _ h => h.normalize m
  functions := forall₂_map_map h.functions fun _ _ h => h.normalize m

end CTyping
