import CTyping.Checker.Rules

/-!
# Checking expressions

`CTyping.Expr.resolve` gives an expression and everything in it a type, from the operands up, and
converts operands where a rule asks for it. It does so whether or not there are problems.
-/

namespace CTyping.Expr

mutual

/-- Fills the type slots of an expression and makes its conversions. -/
def resolve (d : Declarations) : Expr → Traced Expr
  | intLit i v t => return intLit (i.typed t) v t
  | strLit i s => return strLit (i.typed (.ptr d.model.char)) s
  | var i n t => return var (i.typed t) n t
  | unary i op e => do
    let e ← resolve d e
    return unary (i.typed (← Check.unary d.model op e)) op e
  | step i op e => do
    let e ← resolve d e
    return step (i.typed (← Check.step e)) op e
  | addressOf i e => do
    let e ← resolve d e
    return addressOf (i.typed (← Check.addressOf i.span e)) e
  | deref i e => do
    let e ← resolve d e
    return deref (i.typed (← Check.deref i.span e)) e
  | binary i op l r => do
    let l ← resolve d l
    let r ← resolve d r
    let (l, r, t) ← Check.binary d.model i.span op l r
    return binary (i.typed t) op l r
  | assign i op l r => do
    let l ← resolve d l
    let r ← resolve d r
    let (r, t) ← Check.assign i.span op l r
    return assign (i.typed t) op l r
  | cond i c a b => do
    let c ← resolve d c
    let a ← resolve d a
    let b ← resolve d b
    let (a, b, t) ← Check.cond i.span c a b
    return cond (i.typed t) c a b
  | call i f as => do
    let f ← resolve d f
    let (params, t) ← Check.call i.span f as.length
    let as ← resolveArgs d params as
    return call (i.typed t) f as
  | index i b x => do
    let b ← resolve d b
    let element ← Check.element i.span b
    let x ← resolve d x
    return index (i.typed (← Check.index element x)) b x
  | member i b n => do
    let b ← resolve d b
    return member (i.typed (← Check.member d i.span b.type n)) b n
  | arrow i b n => do
    let b ← resolve d b
    return arrow (i.typed (← Check.arrow d i.span b.type n)) b n
  | cast i t e m => do
    let e ← resolve d e
    return cast (i.typed (← Check.cast i.span t e m)) t e m
  | sizeofType i t => return sizeofType (i.typed d.model.size) t
  | sizeofExpr i e => do
    let e ← resolve d e
    return sizeofExpr (i.typed d.model.size) e

/-- Resolves arguments, and converts each to its parameter as long as there are parameters. -/
def resolveArgs (d : Declarations) : List Ty → List Expr → Traced (List Expr)
  | _, [] => return []
  | [], e :: es => do
    let e ← resolve d e
    return e :: (← resolveArgs d [] es)
  | p :: ps, e :: es => do
    let e ← resolve d e
    let e ← Check.argument p e
    return e :: (← resolveArgs d ps es)

end

/-- Resolves each expression of a list. -/
def resolveList (d : Declarations) (es : List Expr) : Traced (List Expr) := resolveArgs d [] es

/-- Resolves an expression where there is one. -/
def resolve? (d : Declarations) : Option Expr → Traced (Option Expr)
  | none => return none
  | some e => return some (← resolve d e)

end CTyping.Expr
