import CTyping.Checker.Expr
import CTyping.Tree.Program

/-!
# Checking statements and programs

Statements are checked from the inside: what a condition governs is looked at before the condition
is asked to be a scalar. The variables of a program are checked before its functions.
-/

namespace CTyping

/-- Checks the initializer of a variable, which is an assignment to it. -/
def Variable.check (d : Declarations) (v : Variable) : Traced Variable := do
  match v.initializer with
  | none => return v
  | some e =>
    let e ← e.resolve d
    if v.type.isAggregate then
      Traced.report v.span (.variableType v.type)
      return { v with initializer := some e }
    let stored ← Check.store v.span v.type e
    return { v with initializer := some (stored.getD e) }

/-- Checks variables one after the other. -/
def Variable.checkList (d : Declarations) : List Variable → Traced (List Variable)
  | [] => return []
  | v :: vs => do
    let v ← v.check d
    return v :: (← checkList d vs)

/-- Checks what a function with a given result returns. -/
def Check.returned (span : Span) (result : Ty) : Option Expr → Traced (Option Expr)
  | none => do
    Traced.reportUnless result.isVoid span .missingValue
    return none
  | some e => do
    if result.isVoid then
      Traced.report span .valueFromVoid
      return some e
    if e.type = result then return some e
    if e.type.compatible result then return some (← Check.convert result e)
    Traced.report span (.returnType e.type)
    return some e

mutual

/-- Checks a statement in a function with a given result. -/
def Stmt.check (d : Declarations) (result : Ty) : Stmt → Traced Stmt
  | .block s b => return .block s (← b.check d result)
  | .expr s e => return .expr s (← e.resolve d)
  | .ifElse s c t none => do
    let c ← c.resolve d
    let t ← t.check d result
    let _ ← Check.scalar c
    return .ifElse s c t none
  | .ifElse s c t (some e) => do
    let c ← c.resolve d
    let t ← t.check d result
    let e ← e.check d result
    let _ ← Check.scalar c
    return .ifElse s c t (some e)
  | .whileLoop s c b => do
    let c ← c.resolve d
    let b ← b.check d result
    let _ ← Check.scalar c
    return .whileLoop s c b
  | .doWhile s b c => do
    let b ← b.check d result
    let c ← c.resolve d
    let _ ← Check.scalar c
    return .doWhile s b c
  | .forLoop s i c n b => do
    let i ← Expr.resolve? d i
    let c ← Expr.resolve? d c
    let n ← Expr.resolve? d n
    let b ← b.check d result
    Check.scalar? c
    return .forLoop s i c n b
  | .switch s e cs => do
    let e ← e.resolve d
    let cs ← Stmt.checkCases d result cs
    let _ ← Check.scalar e
    return .switch s e cs
  | .returns s e => do
    let e ← Expr.resolve? d e
    return .returns s (← Check.returned s result e)
  | .breaks s => return .breaks s
  | .continues s => return .continues s
  | .goto s l => return .goto s l
  | .label s n b => return .label s n (← b.check d result)
  | .empty s => return .empty s

/-- Checks statements one after the other. -/
def Stmt.checkList (d : Declarations) (result : Ty) : List Stmt → Traced (List Stmt)
  | [] => return []
  | s :: ss => do
    let s ← s.check d result
    return s :: (← Stmt.checkList d result ss)

/-- Checks the arms of a `switch` one after the other. -/
def Stmt.checkCases (d : Declarations) (result : Ty) : List Case → Traced (List Case)
  | [] => return []
  | c :: cs => do
    let c ← c.check d result
    return c :: (← Stmt.checkCases d result cs)

/-- Checks the values of an arm of a `switch`, then its body. -/
def Case.check (d : Declarations) (result : Ty) : Case → Traced Case
  | ⟨values, body⟩ => do
    let values ← Expr.resolveList d values
    return ⟨values, ← body.check d result⟩

/-- Checks the variables of a block, then its statements. -/
def Block.check (d : Declarations) (result : Ty) : Block → Traced Block
  | ⟨vars, stmts⟩ => do
    let vars ← Variable.checkList d vars
    return ⟨vars, ← Stmt.checkList d result stmts⟩

end

namespace Function

/-- The problem with a result type: arrays and records are not returned. -/
def resultProblem? (f : Function) : Option Problem :=
  match f.result with
  | .array _ _ => some (.returnsArray f.name)
  | .struct _ => some (.returnsStruct f.name)
  | .union _ => some (.returnsUnion f.name)
  | _ => none

/-- Reports the problems with the types that a function declares: its result, then its
parameters. -/
def checkSignature (f : Function) : Traced Unit :=
  ⟨(), (f.resultProblem?.map (Event.found · f.span)).toList ++
    (f.params.filter (·.type.isAggregate)).map fun p => .found (.parameterType p.type) p.span⟩

/-- Checks a function. -/
def check (d : Declarations) (f : Function) : Traced Function := do
  Traced.note (.entered f.name)
  f.checkSignature
  return { f with body := ← f.body.check d f.result }

/-- Checks functions one after the other. -/
def checkList (d : Declarations) : List Function → Traced (List Function)
  | [] => return []
  | f :: fs => do
    let f ← f.check d
    return f :: (← checkList d fs)

end Function

/-- Checks the variables and the functions of a program against given declarations. -/
def Program.check (d : Declarations) (p : Program) : Traced Program := do
  let globals ← Variable.checkList d p.globals
  let functions ← Function.checkList d p.functions
  return { p with globals, functions }

end CTyping
