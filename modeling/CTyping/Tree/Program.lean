import CTyping.Tree.Expr
import CTyping.Ty.Declarations

/-!
# Statements and programs

A program is a list of struct and union declarations, a list of variables and a list of functions,
whose bodies are blocks of statements.

Statements are walked in two ways. `CTyping.Stmt.map` rebuilds a statement with its variables
and expressions changed; `CTyping.Stmt.collect` lists something of each of them. Both meet them
in one order, variables of a block before its statements and conditions before what they govern,
also where the program writes a condition last.
-/

namespace CTyping

/-- Where a variable is kept. -/
inductive Storage where
  | global (symbol : String)
  | frame (offset : Int64)
deriving DecidableEq, Inhabited, Repr

/-- A variable of the program or of a block. -/
structure Variable where
  name : String
  type : Ty
  initializer : Option Expr
  isPrivate : Bool
  isToplevel : Bool
  storage : Option Storage
  span : Span
deriving Inhabited

mutual

/-- The statements. -/
inductive Stmt where
  | block (span : Span) (body : Block)
  | expr (span : Span) (value : Expr)
  | ifElse (span : Span) (test : Expr) (yes : Stmt) (no : Option Stmt)
  | whileLoop (span : Span) (test : Expr) (body : Stmt)
  | doWhile (span : Span) (body : Stmt) (test : Expr)
  | forLoop (span : Span) (start test next : Option Expr) (body : Stmt)
  | switch (span : Span) (value : Expr) (cases : List Case)
  | returns (span : Span) (value : Option Expr)
  | breaks (span : Span)
  | continues (span : Span)
  | goto (span : Span) (label : String)
  | label (span : Span) (name : String) (body : Stmt)
  | empty (span : Span)

/-- Statements in braces, after the variables that they share. -/
structure Block where
  vars : List Variable
  stmts : List Stmt

/-- One arm of a `switch`; the arm for all other values lists none. -/
structure Case where
  values : List Expr
  body : Block

end

instance : Inhabited Stmt := ⟨.empty .unknown⟩

instance : Inhabited Block := ⟨⟨[], []⟩⟩

/-- A parameter of a function. -/
structure Param where
  name : String
  type : Ty
  span : Span
deriving DecidableEq, Inhabited

/-- A function with its body. -/
structure Function where
  name : String
  isPrivate : Bool
  result : Ty
  params : List Param
  variadic : Bool
  body : Block
  span : Span
deriving Inhabited

/-- A whole program. -/
structure Program where
  records : List Record
  globals : List Variable
  functions : List Function
deriving Inhabited

/-! ### Walking over statements -/

mutual

/-- Changes the variables and the expressions of a statement. -/
def Stmt.map (onVar : Variable → Variable) (onExpr : Expr → Expr) : Stmt → Stmt
  | .block s b => .block s (b.map onVar onExpr)
  | .expr s e => .expr s (onExpr e)
  | .ifElse s c t none => .ifElse s (onExpr c) (t.map onVar onExpr) none
  | .ifElse s c t (some e) => .ifElse s (onExpr c) (t.map onVar onExpr) (some (e.map onVar onExpr))
  | .whileLoop s c b => .whileLoop s (onExpr c) (b.map onVar onExpr)
  | .doWhile s b c => .doWhile s (b.map onVar onExpr) (onExpr c)
  | .forLoop s i c n b =>
    .forLoop s (i.map onExpr) (c.map onExpr) (n.map onExpr) (b.map onVar onExpr)
  | .switch s e cs => .switch s (onExpr e) (Stmt.mapCases onVar onExpr cs)
  | .returns s e => .returns s (e.map onExpr)
  | .breaks s => .breaks s
  | .continues s => .continues s
  | .goto s l => .goto s l
  | .label s n b => .label s n (b.map onVar onExpr)
  | .empty s => .empty s

/-- Changes the statements of a list as `CTyping.Stmt.map` does. -/
def Stmt.mapList (onVar : Variable → Variable) (onExpr : Expr → Expr) : List Stmt → List Stmt
  | [] => []
  | s :: ss => s.map onVar onExpr :: Stmt.mapList onVar onExpr ss

/-- Changes the arms of a `switch` as `CTyping.Stmt.map` does. -/
def Stmt.mapCases (onVar : Variable → Variable) (onExpr : Expr → Expr) : List Case → List Case
  | [] => []
  | c :: cs => c.map onVar onExpr :: Stmt.mapCases onVar onExpr cs

/-- Changes an arm of a `switch` as `CTyping.Stmt.map` does. -/
def Case.map (onVar : Variable → Variable) (onExpr : Expr → Expr) : Case → Case
  | ⟨values, body⟩ => ⟨values.map onExpr, body.map onVar onExpr⟩

/-- Changes a block as `CTyping.Stmt.map` does. -/
def Block.map (onVar : Variable → Variable) (onExpr : Expr → Expr) : Block → Block
  | ⟨vars, stmts⟩ => ⟨vars.map onVar, Stmt.mapList onVar onExpr stmts⟩

end

mutual

/-- Lists something of each variable and each expression of a statement. -/
def Stmt.collect {α : Type} (onVar : Variable → List α) (onExpr : Expr → List α) :
    Stmt → List α
  | .block _ b => b.collect onVar onExpr
  | .expr _ e => onExpr e
  | .ifElse _ c t none => onExpr c ++ t.collect onVar onExpr
  | .ifElse _ c t (some e) =>
    onExpr c ++ t.collect onVar onExpr ++ e.collect onVar onExpr
  | .whileLoop _ c b => onExpr c ++ b.collect onVar onExpr
  | .doWhile _ b c => onExpr c ++ b.collect onVar onExpr
  | .forLoop _ i c n b =>
    i.toList.flatMap onExpr ++ c.toList.flatMap onExpr ++ n.toList.flatMap onExpr ++
      b.collect onVar onExpr
  | .switch _ e cs => onExpr e ++ Stmt.collectCases onVar onExpr cs
  | .returns _ e => e.toList.flatMap onExpr
  | .breaks _ => []
  | .continues _ => []
  | .goto _ _ => []
  | .label _ _ b => b.collect onVar onExpr
  | .empty _ => []

/-- Lists over statements as `CTyping.Stmt.collect` does, one after the other. -/
def Stmt.collectList {α : Type} (onVar : Variable → List α) (onExpr : Expr → List α) :
    List Stmt → List α
  | [] => []
  | s :: ss => s.collect onVar onExpr ++ Stmt.collectList onVar onExpr ss

/-- Lists over the arms of a `switch` as `CTyping.Stmt.collect` does. -/
def Stmt.collectCases {α : Type} (onVar : Variable → List α) (onExpr : Expr → List α) :
    List Case → List α
  | [] => []
  | c :: cs => c.collect onVar onExpr ++ Stmt.collectCases onVar onExpr cs

/-- Lists over an arm of a `switch`, its values before its body. -/
def Case.collect {α : Type} (onVar : Variable → List α) (onExpr : Expr → List α) :
    Case → List α
  | ⟨values, body⟩ => values.flatMap onExpr ++ body.collect onVar onExpr

/-- Lists over a block, its variables before its statements. -/
def Block.collect {α : Type} (onVar : Variable → List α) (onExpr : Expr → List α) :
    Block → List α
  | ⟨vars, stmts⟩ => vars.flatMap onVar ++ Stmt.collectList onVar onExpr stmts

end

/-! ### Types in a program -/

namespace Variable

/-- A variable with a function applied to all types in it, those of its initializer included. -/
def mapTypes (f : Ty → Ty) (v : Variable) : Variable :=
  { v with type := f v.type, initializer := v.initializer.map (Expr.mapTypes f) }

/-- The type of a variable, then those of its initializer. -/
def types (v : Variable) : List Ty := v.type :: v.initializer.toList.flatMap Expr.types

end Variable

namespace Function

/-- A function with a function of types applied to its result, its parameters and its body. -/
def mapTypes (f : Ty → Ty) (g : Function) : Function :=
  { g with
    result := f g.result
    params := g.params.map fun p => { p with type := f p.type }
    body := g.body.map (Variable.mapTypes f) (Expr.mapTypes f) }

/-- The type of the result, those of the parameters, then those of the body. -/
def types (g : Function) : List Ty :=
  g.result :: g.params.map (·.type) ++ g.body.collect Variable.types Expr.types

end Function

namespace Program

/-- Applies a function to every type in a program. -/
def mapTypes (f : Ty → Ty) (p : Program) : Program where
  records := p.records.map (Record.mapTypes f)
  globals := p.globals.map (Variable.mapTypes f)
  functions := p.functions.map (Function.mapTypes f)

/-- Every type in a program: those of members, of variables, of functions. -/
def types (p : Program) : List Ty :=
  p.records.flatMap (fun r => r.members.map (·.type)) ++ p.globals.flatMap Variable.types ++
    p.functions.flatMap Function.types

/-- The expressions that stand in a program by themselves, not as operands of others. -/
def roots (p : Program) : List Expr :=
  p.globals.flatMap (·.initializer.toList) ++
    p.functions.flatMap fun f => f.body.collect (·.initializer.toList) fun e => [e]

end Program

end CTyping
