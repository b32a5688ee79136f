import CTyping.Location
import CTyping.Operator
import CTyping.Ty.Basic

/-!
# Expressions

Names are resolved before a tree gets here: a variable carries the type of its declaration, a
literal its own. Every expression further carries an `CTyping.Info`, its place in the source
and a slot for its type, which is empty until the checker fills it.

A conversion that the checker makes is a `cast` node with `implicit` set
(`CTyping.Expr.convert`).
-/

namespace CTyping

/-- What an expression carries beside its form: its place, and its type once that is known. -/
structure Info where
  span : Span
  ty : Option Ty
deriving DecidableEq, Inhabited

namespace Info

/-- The information of a node that has neither a place nor a type yet. -/
def blank : Info := ⟨.unknown, none⟩

/-- The same place, with a type. -/
def typed (i : Info) (t : Ty) : Info := { i with ty := some t }

/-- The same place, with the type changed where there is one. -/
def mapTy (f : Ty → Ty) (i : Info) : Info := { i with ty := i.ty.map f }

end Info

/-- The expressions. -/
inductive Expr where
  | intLit (info : Info) (value : Int64) (type : Ty)
  | strLit (info : Info) (value : String)
  /-- A variable, a parameter or a function, with the type it is declared with. -/
  | var (info : Info) (name : String) (type : Ty)
  | unary (info : Info) (op : UnaryOp) (operand : Expr)
  /-- A step up or down, `++` or `--`. -/
  | step (info : Info) (op : StepOp) (operand : Expr)
  /-- The address `&operand`. -/
  | addressOf (info : Info) (operand : Expr)
  /-- The pointee `*operand`. -/
  | deref (info : Info) (operand : Expr)
  | binary (info : Info) (op : BinaryOp) (left right : Expr)
  | assign (info : Info) (op : AssignOp) (lhs rhs : Expr)
  /-- The choice `test ? yes : no`. -/
  | cond (info : Info) (test yes no : Expr)
  | call (info : Info) (callee : Expr) (args : List Expr)
  /-- The element `base[index]`. -/
  | index (info : Info) (base index : Expr)
  /-- The member `base.name`. -/
  | member (info : Info) (base : Expr) (name : String)
  /-- The member `base->name` of a pointee. -/
  | arrow (info : Info) (base : Expr) (name : String)
  /-- A conversion, written in the program or, if `implicit`, made by the checker. -/
  | cast (info : Info) (target : Ty) (operand : Expr) (implicit : Bool)
  | sizeofType (info : Info) (type : Ty)
  | sizeofExpr (info : Info) (operand : Expr)
deriving Inhabited

namespace Expr

/-! ### Place and type of a node -/

/-- What every node carries, whatever its form. -/
def info : Expr → Info
  | intLit i _ _ => i
  | strLit i _ => i
  | var i _ _ => i
  | unary i _ _ => i
  | step i _ _ => i
  | addressOf i _ => i
  | deref i _ => i
  | binary i _ _ _ => i
  | assign i _ _ _ => i
  | cond i _ _ _ => i
  | call i _ _ => i
  | index i _ _ => i
  | member i _ _ => i
  | arrow i _ _ => i
  | cast i _ _ _ => i
  | sizeofType i _ => i
  | sizeofExpr i _ => i

/-- The same node with other information. -/
def withInfo (i : Info) : Expr → Expr
  | intLit _ v t => intLit i v t
  | strLit _ s => strLit i s
  | var _ n t => var i n t
  | unary _ op e => unary i op e
  | step _ op e => step i op e
  | addressOf _ e => addressOf i e
  | deref _ e => deref i e
  | binary _ op l r => binary i op l r
  | assign _ op l r => assign i op l r
  | cond _ c t e => cond i c t e
  | call _ f as => call i f as
  | index _ b x => index i b x
  | member _ b n => member i b n
  | arrow _ b n => arrow i b n
  | cast _ t e m => cast i t e m
  | sizeofType _ t => sizeofType i t
  | sizeofExpr _ e => sizeofExpr i e

@[simp] theorem info_withInfo (i : Info) (e : Expr) : (e.withInfo i).info = i := by
  cases e <;> rfl

/-- The place of a node. -/
def span (e : Expr) : Span := e.info.span

/-- The type slot. -/
def ty? (e : Expr) : Option Ty := e.info.ty

/-- The type of an expression; one whose type is not known counts as `void`. -/
def type (e : Expr) : Ty := e.ty?.getD .void

/-- The same node with another type slot. -/
def withTy (t : Option Ty) (e : Expr) : Expr := e.withInfo { e.info with ty := t }

@[simp] theorem ty?_withTy (t : Option Ty) (e : Expr) : (e.withTy t).ty? = t := by
  simp [withTy, ty?]

@[simp] theorem span_withTy (t : Option Ty) (e : Expr) : (e.withTy t).span = e.span := by
  simp [withTy, span]

/-! ### Kinds of expressions -/

/-- The name of a node's form, as documents have it. -/
def form : Expr → String
  | intLit _ _ _ => "int_literal"
  | strLit _ _ => "string_literal"
  | var _ _ _ => "variable"
  | unary _ _ _ => "unary"
  | step _ _ _ => "inc_dec"
  | addressOf _ _ => "address_of"
  | deref _ _ => "dereference"
  | binary _ _ _ _ => "binary"
  | assign _ _ _ _ => "assign"
  | cond _ _ _ _ => "conditional"
  | call _ _ _ => "call"
  | index _ _ _ => "index"
  | member _ _ _ => "member"
  | arrow _ _ _ => "ptr_member"
  | cast _ _ _ _ => "cast"
  | sizeofType _ _ => "sizeof_type"
  | sizeofExpr _ _ => "sizeof_expr"

/-- Whether an expression denotes a place in memory. -/
def isLvalue : Expr → Bool
  | var _ _ _ => true
  | deref _ _ => true
  | index _ _ _ => true
  | member _ _ _ => true
  | arrow _ _ _ => true
  | _ => false

/-- Whether an expression can be assigned to, and its address taken. Arrays and functions are
places, but no value is stored there as a whole. -/
def isAssignable (e : Expr) : Bool := e.isLvalue && !e.type.isArray && !e.type.isFunction

/-- Whether a node is a conversion made by the checker. -/
def isConversion : Expr → Bool
  | cast _ _ _ implicit => implicit
  | _ => false

/-- The conversion of an expression to a type, at the place of the expression. -/
def convert (target : Ty) (e : Expr) : Expr := cast ⟨e.span, some target⟩ target e true

@[simp] theorem type_convert (target : Ty) (e : Expr) : (e.convert target).type = target := rfl

@[simp] theorem span_convert (target : Ty) (e : Expr) : (e.convert target).span = e.span := rfl

/-! ### Operands -/

/-- The operands of a node, in the order in which they are written. -/
def children : Expr → List Expr
  | intLit _ _ _ => []
  | strLit _ _ => []
  | var _ _ _ => []
  | unary _ _ e => [e]
  | step _ _ e => [e]
  | addressOf _ e => [e]
  | deref _ e => [e]
  | binary _ _ l r => [l, r]
  | assign _ _ l r => [l, r]
  | cond _ c t e => [c, t, e]
  | call _ f as => f :: as
  | index _ b x => [b, x]
  | member _ b _ => [b]
  | arrow _ b _ => [b]
  | cast _ _ e _ => [e]
  | sizeofType _ _ => []
  | sizeofExpr _ e => [e]

/-- The same node with its operands replaced, in the order of `CTyping.Expr.children`. A node keeps
its own operands when there are not as many new ones. -/
def withChildren : Expr → List Expr → Expr
  | unary i op _, [e] => unary i op e
  | step i op _, [e] => step i op e
  | addressOf i _, [e] => addressOf i e
  | deref i _, [e] => deref i e
  | binary i op _ _, [l, r] => binary i op l r
  | assign i op _ _, [l, r] => assign i op l r
  | cond i _ _ _, [c, t, e] => cond i c t e
  | call i _ _, f :: as => call i f as
  | index i _ _, [b, x] => index i b x
  | member i _ n, [b] => member i b n
  | arrow i _ n, [b] => arrow i b n
  | cast i t _ m, [e] => cast i t e m
  | sizeofExpr i _, [e] => sizeofExpr i e
  | e, _ => e

/-- Changes the node at the end of a path, each step of which is the position of an operand. A path
that leaves the tree changes nothing. -/
def modifyAt (f : Expr → Expr) : List Nat → Expr → Expr
  | [], e => f e
  | n :: path, e => e.withChildren (e.children.modify n (modifyAt f path))

/-! ### Types in a tree -/

mutual

/-- Applies a function to every type in an expression, in the slots and in the nodes. -/
def mapTypes (f : Ty → Ty) : Expr → Expr
  | intLit i v t => intLit (i.mapTy f) v (f t)
  | strLit i s => strLit (i.mapTy f) s
  | var i n t => var (i.mapTy f) n (f t)
  | unary i op e => unary (i.mapTy f) op (mapTypes f e)
  | step i op e => step (i.mapTy f) op (mapTypes f e)
  | addressOf i e => addressOf (i.mapTy f) (mapTypes f e)
  | deref i e => deref (i.mapTy f) (mapTypes f e)
  | binary i op l r => binary (i.mapTy f) op (mapTypes f l) (mapTypes f r)
  | assign i op l r => assign (i.mapTy f) op (mapTypes f l) (mapTypes f r)
  | cond i c t e =>
    cond (i.mapTy f) (mapTypes f c) (mapTypes f t) (mapTypes f e)
  | call i g as => call (i.mapTy f) (mapTypes f g) (mapTypesList f as)
  | index i b x => index (i.mapTy f) (mapTypes f b) (mapTypes f x)
  | member i b n => member (i.mapTy f) (mapTypes f b) n
  | arrow i b n => arrow (i.mapTy f) (mapTypes f b) n
  | cast i t e m => cast (i.mapTy f) (f t) (mapTypes f e) m
  | sizeofType i t => sizeofType (i.mapTy f) (f t)
  | sizeofExpr i e => sizeofExpr (i.mapTy f) (mapTypes f e)

/-- Applies a function to every type in the expressions of a list. -/
def mapTypesList (f : Ty → Ty) : List Expr → List Expr
  | [] => []
  | e :: es => mapTypes f e :: mapTypesList f es

end

/-- The type written in a node itself, as opposed to its slot. -/
def written? : Expr → Option Ty
  | intLit _ _ t => some t
  | var _ _ t => some t
  | cast _ t _ _ => some t
  | sizeofType _ t => some t
  | _ => none

/-- The types of one node: its slot, then the type written in it. -/
def ownTypes (e : Expr) : List Ty := e.ty?.toList ++ e.written?.toList

mutual

/-- Every type in an expression, those of a node before those of its operands. -/
def types : Expr → List Ty
  | e@(intLit _ _ _) => e.ownTypes
  | e@(strLit _ _) => e.ownTypes
  | e@(var _ _ _) => e.ownTypes
  | e@(unary _ _ a) => e.ownTypes ++ types a
  | e@(step _ _ a) => e.ownTypes ++ types a
  | e@(addressOf _ a) => e.ownTypes ++ types a
  | e@(deref _ a) => e.ownTypes ++ types a
  | e@(binary _ _ l r) => e.ownTypes ++ types l ++ types r
  | e@(assign _ _ l r) => e.ownTypes ++ types l ++ types r
  | e@(cond _ c a b) => e.ownTypes ++ types c ++ types a ++ types b
  | e@(call _ g as) => e.ownTypes ++ types g ++ typesList as
  | e@(index _ b x) => e.ownTypes ++ types b ++ types x
  | e@(member _ b _) => e.ownTypes ++ types b
  | e@(arrow _ b _) => e.ownTypes ++ types b
  | e@(cast _ _ a _) => e.ownTypes ++ types a
  | e@(sizeofType _ _) => e.ownTypes
  | e@(sizeofExpr _ a) => e.ownTypes ++ types a

/-- The types of the expressions of a list, one expression after the other. -/
def typesList : List Expr → List Ty
  | [] => []
  | e :: es => types e ++ typesList es

end

/-! ### Typed trees -/

mutual

/-- Whether an expression and everything in it has its type. -/
def isFullyTyped : Expr → Bool
  | intLit i _ _ => i.ty.isSome
  | strLit i _ => i.ty.isSome
  | var i _ _ => i.ty.isSome
  | unary i _ e => i.ty.isSome && isFullyTyped e
  | step i _ e => i.ty.isSome && isFullyTyped e
  | addressOf i e => i.ty.isSome && isFullyTyped e
  | deref i e => i.ty.isSome && isFullyTyped e
  | binary i _ l r => i.ty.isSome && isFullyTyped l && isFullyTyped r
  | assign i _ l r => i.ty.isSome && isFullyTyped l && isFullyTyped r
  | cond i c t e => i.ty.isSome && isFullyTyped c && isFullyTyped t && isFullyTyped e
  | call i f as => i.ty.isSome && isFullyTyped f && isFullyTypedList as
  | index i b x => i.ty.isSome && isFullyTyped b && isFullyTyped x
  | member i b _ => i.ty.isSome && isFullyTyped b
  | arrow i b _ => i.ty.isSome && isFullyTyped b
  | cast i _ e _ => i.ty.isSome && isFullyTyped e
  | sizeofType i _ => i.ty.isSome
  | sizeofExpr i e => i.ty.isSome && isFullyTyped e

/-- Whether every expression of a list is fully typed. -/
def isFullyTypedList : List Expr → Bool
  | [] => true
  | e :: es => isFullyTyped e && isFullyTypedList es

end

end Expr

end CTyping
