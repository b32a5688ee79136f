import CTyping.Proofs.Checker.Statements
import CTyping.Proofs.Ty.Lookup

/-!
# What a check asks of the declarations

A check asks the declarations for their data model and for the types of members, and for nothing
else. Interchangeable declarations therefore lead to the same check, step by step
(`CTyping.Declarations.Interchangeable.check`).
-/

namespace CTyping

/-- A list is checked alike in two ways if each of its members is. -/
theorem Traced.mapM_congr {α β : Type} {f g : α → Traced β} {as : List α}
    (h : ∀ a ∈ as, f a = g a) : as.mapM f = as.mapM g := by
  induction as with
  | nil => rfl
  | cons a as ih =>
    obtain ⟨ha, has⟩ := List.forall_mem_cons.mp h
    rw [List.mapM_cons, List.mapM_cons, ha, ih has]

/-- Arguments are resolved alike against two lists of declarations if each of them is. -/
theorem Expr.resolveArgs_congr {d d' : Declarations} {as : List Expr}
    (h : ∀ a ∈ as, a.resolve d = a.resolve d') (params : List Ty) :
    resolveArgs d params as = resolveArgs d' params as := by
  induction as generalizing params with
  | nil => rfl
  | cons a as ih =>
    obtain ⟨ha, has⟩ := List.forall_mem_cons.mp h
    cases params with
    | nil => simp only [resolveArgs, ha, ih has]
    | cons t ts => simp only [resolveArgs, ha, ih has]

namespace Declarations.Interchangeable

variable {d d' : Declarations} (h : d.Interchangeable d')

include h

/-- Members are found in interchangeable declarations alike. -/
theorem member : Check.member d = Check.member d' := by
  funext s t n
  rw [Check.member, Check.member, h.memberType?]

theorem arrow : Check.arrow d = Check.arrow d' := by
  funext s t n
  unfold Check.arrow
  rw [h.member]

/-- An expression is checked in interchangeable declarations alike. -/
theorem resolve (e : Expr) : e.resolve d = e.resolve d' := by
  induction e with
  | intLit i v t => rfl
  | strLit i s => rw [Expr.resolve, Expr.resolve, h.model]
  | var i n t => rfl
  | unary i op e ih => simp only [Expr.resolve, ih, h.model]
  | step i op e ih => simp only [Expr.resolve, ih]
  | addressOf i e ih => simp only [Expr.resolve, ih]
  | deref i e ih => simp only [Expr.resolve, ih]
  | binary i op l r ihl ihr => simp only [Expr.resolve, ihl, ihr, h.model]
  | assign i op l r ihl ihr => simp only [Expr.resolve, ihl, ihr]
  | cond i c a b ihc iha ihb => simp only [Expr.resolve, ihc, iha, ihb]
  | call i f as ihf ihas => simp only [Expr.resolve, ihf, Expr.resolveArgs_congr ihas]
  | index i b x ihb ihx => simp only [Expr.resolve, ihb, ihx]
  | member i b n ih => simp only [Expr.resolve, ih, h.member]
  | arrow i b n ih => simp only [Expr.resolve, ih, h.arrow]
  | cast i t e m ih => simp only [Expr.resolve, ih]
  | sizeofType i t => rw [Expr.resolve, Expr.resolve, h.model]
  | sizeofExpr i e ih => simp only [Expr.resolve, ih, h.model]

theorem resolve? (e : Option Expr) : Expr.resolve? d e = Expr.resolve? d' e := by
  cases e with
  | none => rfl
  | some e => rw [Expr.resolve?, Expr.resolve?, h.resolve]

/-- So is a variable. -/
theorem checkVariable (v : Variable) : v.check d = v.check d' := by
  simp only [Variable.check, h.resolve]

variable {result : Ty}

/-- So is a block, if its statements are. -/
theorem checkBlock_of {b : Block} (hb : ∀ s ∈ b.stmts, s.check d result = s.check d' result) :
    b.check d result = b.check d' result := by
  have hvars : b.vars.mapM (Variable.check d) = b.vars.mapM (Variable.check d') :=
    Traced.mapM_congr fun v _ => h.checkVariable v
  rw [Block.check_eq, Block.check_eq, hvars, Traced.mapM_congr hb]

/-- So is a statement. -/
theorem checkStmt (s : Stmt) : s.check d result = s.check d' result := by
  induction s with
  | block s b ih => rw [Stmt.check, Stmt.check, h.checkBlock_of ih]
  | expr s e => rw [Stmt.check, Stmt.check, h.resolve]
  | ifThen s c t iht => simp only [Stmt.check, h.resolve, iht]
  | ifElse s c t e iht ihe => simp only [Stmt.check, h.resolve, iht, ihe]
  | whileLoop s c b ih => simp only [Stmt.check, h.resolve, ih]
  | doWhile s b c ih => simp only [Stmt.check, h.resolve, ih]
  | forLoop s i c n b ih => simp only [Stmt.check, h.resolve?, ih]
  | switch s e cs ih =>
    have hcs : cs.mapM (Case.check d result) = cs.mapM (Case.check d' result) := by
      refine Traced.mapM_congr fun c hc => ?_
      have hvalues : c.values.mapM (Expr.resolve d) = c.values.mapM (Expr.resolve d') :=
        Traced.mapM_congr fun e _ => h.resolve e
      rw [Case.check_eq, Case.check_eq, hvalues, h.checkBlock_of (ih c hc)]
    simp only [Stmt.check, Stmt.checkCases_eq, h.resolve, hcs]
  | returns s e => simp only [Stmt.check, h.resolve?]
  | breaks s => rfl
  | continues s => rfl
  | goto s l => rfl
  | label s n b ih => rw [Stmt.check, Stmt.check, ih]
  | empty s => rfl

/-- So is a function. -/
theorem checkFunction (f : Function) : f.check d = f.check d' := by
  have hb : f.body.check d f.result = f.body.check d' f.result :=
    h.checkBlock_of fun s _ => h.checkStmt s
  simp only [Function.check, hb]

/-- **Interchangeable declarations lead to the same check.** -/
theorem check (p : Program) : p.check d = p.check d' := by
  have hglobals : p.globals.mapM (Variable.check d) = p.globals.mapM (Variable.check d') :=
    Traced.mapM_congr fun v _ => h.checkVariable v
  have hfunctions : p.functions.mapM (Function.check d) = p.functions.mapM (Function.check d') :=
    Traced.mapM_congr fun f _ => h.checkFunction f
  simp only [Program.check, Variable.checkList_eq, Function.checkList_eq, hglobals, hfunctions]

end Declarations.Interchangeable

end CTyping
