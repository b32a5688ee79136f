import CTyping.Proofs.Tree.Demands
import CTyping.Proofs.Ty.Conversion

/-!
# The type system

What it means for a program to be well typed, said of the program as it is written: no type slot is
read, nothing is converted and nothing is reported.

* `CTyping.HasType`: the type of an expression. One rule, or a few, for each form.
* `CTyping.Demands.typing`: what is demanded of the parts of a statement.
* `CTyping.Function.WellTyped`, `CTyping.Program.WellTyped`: the parts of a program meet these
  demands, and no function hands over what cannot be handed over.

A type is *taken* for another when it is that type or is compatible with it; an assignment takes all
that can be cast, so that here the doubtful conversions do not show.
-/

namespace CTyping

/-! ### Expressions -/

mutual

/-- The types of expressions, against given declarations. -/
inductive HasType (d : Declarations) : Expr → Ty → Prop
  | intLit {i : Info} {v : Int64} {t : Ty} : HasType d (.intLit i v t) t
  | strLit {i : Info} {s : String} : HasType d (.strLit i s) (.ptr d.model.char)
  | var {i : Info} {n : String} {t : Ty} : HasType d (.var i n t) t
  /-- Of `+ - ~` an integer is asked. -/
  | arith {i : Info} {op : UnaryOp} {e : Expr} {t : Ty} (hop : op ≠ .logicalNot)
      (he : HasType d e t) (ht : t.isInteger = true) : HasType d (.unary i op e) t
  | not {i : Info} {e : Expr} {t : Ty} (he : HasType d e t) (ht : t.isScalar = true) :
      HasType d (.unary i .logicalNot e) d.model.int
  | step {i : Info} {op : StepOp} {e : Expr} {t : Ty} (he : HasType d e t)
      (ht : t.isScalar = true) : HasType d (.step i op e) t
  | addressOf {i : Info} {e : Expr} {t : Ty} (he : HasType d e t) (hl : e.isLvalue = true)
      (ha : t.isArray = false) (hf : t.isFunction = false) : HasType d (.addressOf i e) (.ptr t)
  | deref {i : Info} {e : Expr} {t b : Ty} (he : HasType d e t) (hb : t.base? = some b) :
      HasType d (.deref i e) b
  /-- Two integers have a common type. -/
  | arithmetic {i : Info} {op : BinaryOp} {l r : Expr} {s t u : Ty}
      (hop : op.operatorClass = .additive ∨ op.operatorClass = .multiplicative)
      (hl : HasType d l s) (hr : HasType d r t) (hs : s.isInteger = true)
      (ht : t.isInteger = true) (hu : Ty.join s t = some u) : HasType d (.binary i op l r) u
  | pointerLeft {i : Info} {op : BinaryOp} {l r : Expr} {s t : Ty}
      (hop : op.operatorClass = .additive) (hl : HasType d l s) (hr : HasType d r t)
      (hs : s.isPointer = true) (ht : t.isInteger = true) : HasType d (.binary i op l r) s
  | pointerRight {i : Info} {op : BinaryOp} {l r : Expr} {s t : Ty}
      (hop : op.operatorClass = .additive) (hl : HasType d l s) (hr : HasType d r t)
      (hs : s.isInteger = true) (ht : t.isPointer = true) : HasType d (.binary i op l r) t
  | shift {i : Info} {op : BinaryOp} {l r : Expr} {s t : Ty}
      (hop : op.operatorClass = .shift) (hl : HasType d l s) (hr : HasType d r t)
      (hs : s.isInteger = true) (ht : t.isInteger = true) : HasType d (.binary i op l r) s
  | comparison {i : Info} {op : BinaryOp} {l r : Expr} {s t : Ty}
      (hop : op.operatorClass = .comparison) (hl : HasType d l s) (hr : HasType d r t)
      (hs : s.isScalar = true) (ht : t.isScalar = true)
      (hst : s = t ∨ s.compatible t = true ∨ t.compatible s = true) :
      HasType d (.binary i op l r) d.model.int
  /-- A pointer is moved by an integer. -/
  | move {i : Info} {op : AssignOp} {l r : Expr} {s t : Ty} (hop : op.movesPointer = true)
      (hl : HasType d l t) (hr : HasType d r s) (hlv : l.isLvalue = true)
      (ht : t.isPointer = true) (hs : s.isInteger = true) : HasType d (.assign i op l r) t
  /-- Anything that can be cast is assigned. -/
  | assign {i : Info} {op : AssignOp} {l r : Expr} {s t : Ty}
      (hop : ¬(op.movesPointer = true ∧ t.isPointer = true)) (hl : HasType d l t)
      (hr : HasType d r s) (hlv : l.isLvalue = true) (ha : t.isArray = false)
      (hf : t.isFunction = false) (hc : t.isRecord = false) (hs : s.castable t = true) :
      HasType d (.assign i op l r) t
  /-- Of the two branches the first is the one to be converted if it can be. -/
  | cond {i : Info} {c a b : Expr} {r s t u : Ty} (hc : HasType d c r) (hr : r.isScalar = true)
      (ha : HasType d a s) (hb : HasType d b t) (hu : Ty.join t s = some u) :
      HasType d (.cond i c a b) u
  | call {i : Info} {f : Expr} {as : List Expr} {t : Ty} {p : Ty.Prototype} (hf : HasType d f t)
      (hp : t.prototype? = some p) (hn : p.acceptsCount as.length = true)
      (has : ArgsFit d p.params as) : HasType d (.call i f as) p.result
  | index {i : Info} {b x : Expr} {s t u : Ty} (hb : HasType d b s) (hs : s.base? = some u)
      (hx : HasType d x t) (ht : t.isInteger = true) : HasType d (.index i b x) u
  | member {i : Info} {b : Expr} {n : String} {t u : Ty} (hb : HasType d b t)
      (ht : t.isRecord = true) (hu : d.memberType? t n = some u) : HasType d (.member i b n) u
  | arrow {i : Info} {b : Expr} {n : String} {t u : Ty} (hb : HasType d b (.ptr t))
      (ht : t.isRecord = true) (hu : d.memberType? t n = some u) : HasType d (.arrow i b n) u
  | cast {i : Info} {t s : Ty} {e : Expr} {m : Bool} (he : HasType d e s)
      (hs : s.castable t = true) : HasType d (.cast i t e m) t
  | sizeofType {i : Info} {t : Ty} : HasType d (.sizeofType i t) d.model.size
  | sizeofExpr {i : Info} {e : Expr} {t : Ty} (he : HasType d e t) :
      HasType d (.sizeofExpr i e) d.model.size

/-- Arguments that can be handed over to parameters; those that no parameter is left for need only
have a type. -/
inductive ArgsFit (d : Declarations) : List Ty → List Expr → Prop
  | nil {ps : List Ty} : ArgsFit d ps []
  | extra {e : Expr} {es : List Expr} {t : Ty} (he : HasType d e t) (hes : ArgsFit d [] es) :
      ArgsFit d [] (e :: es)
  | param {p : Ty} {ps : List Ty} {e : Expr} {es : List Expr} {t : Ty} (he : HasType d e t)
      (hr : t.isRecord = false) (ht : t = p ∨ t.compatible p = true) (hes : ArgsFit d ps es) :
      ArgsFit d (p :: ps) (e :: es)

end

/-! ### Programs -/

/-- An initializer is assigned to its variable. -/
def Variable.WellTyped (d : Declarations) (v : Variable) : Prop :=
  ∀ e ∈ v.initializer, ∃ t, HasType d e t ∧ v.type.isAggregate = false ∧
    t.castable v.type = true

/-- What typing demands in a function with a given result: conditions are scalars, and what is
returned is taken for the result. -/
def Demands.typing (d : Declarations) (result : Ty) : Demands where
  var := Variable.WellTyped d
  expr e := ∃ t, HasType d e t
  test e := ∃ t, HasType d e t ∧ t.isScalar = true
  returned
    | none => result.isVoid = true
    | some e => result.isVoid = false ∧
        ∃ t, HasType d e t ∧ (t = result ∨ t.compatible result = true)

/-- What a function may declare: neither arrays nor records are returned, and nothing is passed that
is not assigned as a whole. -/
structure Function.Sound (f : Function) : Prop where
  result : f.result.isArray = false ∧ f.result.isRecord = false
  params : ∀ p ∈ f.params, p.type.isAggregate = false

/-- A function with a sound signature and a well typed body. -/
structure Function.WellTyped (d : Declarations) (f : Function) : Prop where
  signature : f.Sound
  body : f.body.Meets (.typing d f.result)

/-- **A well typed program**: each variable and each function is. -/
structure Program.WellTyped (d : Declarations) (p : Program) : Prop where
  globals : ∀ v ∈ p.globals, v.WellTyped d
  functions : ∀ f ∈ p.functions, f.WellTyped d

end CTyping
