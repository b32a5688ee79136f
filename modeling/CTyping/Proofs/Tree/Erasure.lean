import CTyping.Proofs.Tree.Map
import CTyping.Proofs.Tree.Nodes

/-!
# What the checker adds to a tree

The checker adds two things to a tree, conversions and types in slots. `CTyping.Expr.unconvert`
takes the conversions out of an expression, and `CTyping.Expr.untyped` empties its slots; both are
done to every expression of a program by `CTyping.Program.mapExprs`.
-/

namespace CTyping

/-! ### Expressions -/

/-- The same place, without a type. -/
def Info.untyped (i : Info) : Info := { i with ty := none }

namespace Expr

mutual

/-- An expression without the conversions in it; the operand of each stays. -/
def unconvert : Expr → Expr
  | intLit i v t => intLit i v t
  | strLit i s => strLit i s
  | var i n t => var i n t
  | unary i op e => unary i op (unconvert e)
  | step i op e => step i op (unconvert e)
  | addressOf i e => addressOf i (unconvert e)
  | deref i e => deref i (unconvert e)
  | binary i op l r => binary i op (unconvert l) (unconvert r)
  | assign i op l r => assign i op (unconvert l) (unconvert r)
  | cond i c a b => cond i (unconvert c) (unconvert a) (unconvert b)
  | call i f as => call i (unconvert f) (unconvertList as)
  | index i b x => index i (unconvert b) (unconvert x)
  | member i b n => member i (unconvert b) n
  | arrow i b n => arrow i (unconvert b) n
  | cast i t e implicit => if implicit then unconvert e else cast i t (unconvert e) false
  | sizeofType i t => sizeofType i t
  | sizeofExpr i e => sizeofExpr i (unconvert e)

/-- The expressions of a list without the conversions in them. -/
def unconvertList : List Expr → List Expr
  | [] => []
  | e :: es => unconvert e :: unconvertList es

end

mutual

/-- An expression with all slots empty. -/
def untyped : Expr → Expr
  | intLit i v t => intLit i.untyped v t
  | strLit i s => strLit i.untyped s
  | var i n t => var i.untyped n t
  | unary i op e => unary i.untyped op (untyped e)
  | step i op e => step i.untyped op (untyped e)
  | addressOf i e => addressOf i.untyped (untyped e)
  | deref i e => deref i.untyped (untyped e)
  | binary i op l r => binary i.untyped op (untyped l) (untyped r)
  | assign i op l r => assign i.untyped op (untyped l) (untyped r)
  | cond i c a b => cond i.untyped (untyped c) (untyped a) (untyped b)
  | call i f as => call i.untyped (untyped f) (untypedList as)
  | index i b x => index i.untyped (untyped b) (untyped x)
  | member i b n => member i.untyped (untyped b) n
  | arrow i b n => arrow i.untyped (untyped b) n
  | cast i t e implicit => cast i.untyped t (untyped e) implicit
  | sizeofType i t => sizeofType i.untyped t
  | sizeofExpr i e => sizeofExpr i.untyped (untyped e)

/-- The expressions of a list with all slots empty. -/
def untypedList : List Expr → List Expr
  | [] => []
  | e :: es => untyped e :: untypedList es

end

@[simp] theorem unconvertList_eq (es : List Expr) : unconvertList es = es.map unconvert := by
  induction es with
  | nil => rfl
  | cons e es ih => rw [unconvertList, ih, List.map_cons]

@[simp] theorem untypedList_eq (es : List Expr) : untypedList es = es.map untyped := by
  induction es with
  | nil => rfl
  | cons e es ih => rw [untypedList, ih, List.map_cons]

/-- An expression without conversions is left alone. -/
theorem unconvert_eq_self {e : Expr} (h : e.Everywhere fun n => n.isConversion = false) :
    e.unconvert = e := by
  induction e using inductionOnChildren with
  | node e ih =>
    obtain ⟨here, below⟩ := everywhere_iff.mp h
    have ih : ∀ c ∈ e.children, c.unconvert = c := fun c hc => ih c hc (below c hc)
    cases e with
    | call i f as =>
      have has := list_map_eq_self fun a ha => ih a (List.mem_cons_of_mem f ha)
      rw [unconvert, unconvertList_eq, ih f List.mem_cons_self, has]
    | cast i t e m =>
      -- a cast that is written in the program stays
      obtain rfl : m = false := here
      rw [unconvert, if_neg Bool.false_ne_true, ih e List.mem_cons_self]
    | cond i c a b =>
      obtain ⟨hc, hab⟩ := List.forall_mem_cons.mp ih
      obtain ⟨ha, hb⟩ := List.forall_mem_cons.mp hab
      rw [unconvert, hc, ha, hb b List.mem_cons_self]
    | binary i op l r | assign i op l r | index i l r =>
      obtain ⟨hl, hr⟩ := List.forall_mem_cons.mp ih
      rw [unconvert, hl, hr r List.mem_cons_self]
    | unary i op e | step i op e | addressOf i e | deref i e | member i e n | arrow i e n
    | sizeofExpr i e => rw [unconvert, ih e List.mem_cons_self]
    | intLit | strLit | var | sizeofType => rfl

/-- Taking conversions out keeps what other nodes carry. -/
theorem info_unconvert {e : Expr} (h : e.isConversion = false) : e.unconvert.info = e.info := by
  cases e with
  | cast i t e m =>
    obtain rfl : m = false := h
    rfl
  | _ => rfl

/-- The operands of what is no conversion are those that it had, without conversions. -/
theorem children_unconvert {e : Expr} (h : e.isConversion = false) :
    e.unconvert.children = e.children.map unconvert := by
  cases e with
  | cast i t e m =>
    obtain rfl : m = false := h
    rfl
  | _ => simp [unconvert, children]

/-- What the places and the slots of all nodes have in common stays when conversions are taken
out. -/
theorem Everywhere.unconvert {Q : Info → Prop} {e : Expr} (h : e.Everywhere fun n => Q n.info) :
    e.unconvert.Everywhere fun n => Q n.info := by
  induction e using inductionOnChildren with
  | node e ih =>
    obtain ⟨here, below⟩ := everywhere_iff.mp h
    cases hc : e.isConversion with
    | true =>
      -- the node goes, and what is left is its operand
      cases e with
      | cast i t e m =>
        obtain rfl : m = true := hc
        exact ih e List.mem_cons_self (below e List.mem_cons_self)
      | _ => cases hc
    | false =>
      refine .node _ ?_ ?_
      · rw [info_unconvert hc]
        exact here
      · rw [children_unconvert hc]
        exact List.forall_mem_map.mpr fun c hm => ih c hm (below c hm)

end Expr

/-! ### Programs -/

/-- A variable with its initializer changed. -/
def Variable.mapExpr (g : Expr → Expr) (v : Variable) : Variable :=
  { v with initializer := v.initializer.map g }

/-- A program with its expressions changed, and nothing else. -/
def Program.mapExprs (g : Expr → Expr) (p : Program) : Program :=
  { p with
    globals := p.globals.map (Variable.mapExpr g)
    functions := p.functions.map fun f => { f with body := f.body.map (Variable.mapExpr g) g } }

/-- A program without the conversions in it. -/
def Program.unconvert : Program → Program := mapExprs Expr.unconvert

/-- A program with all slots empty. -/
def Program.untyped : Program → Program := mapExprs Expr.untyped

variable {g h : Expr → Expr}

/-- Two changes of the initializer are one. -/
theorem Variable.mapExpr_mapExpr (v : Variable) :
    (v.mapExpr h).mapExpr g = v.mapExpr (g ∘ h) := by
  simp [mapExpr]

/-- Two changes of the expressions in a block are one, if this holds of its statements. -/
theorem Block.map_map_of {b : Block}
    (hs : ∀ s ∈ b.stmts, (s.map (Variable.mapExpr h) h).map (Variable.mapExpr g) g =
      s.map (Variable.mapExpr (g ∘ h)) (g ∘ h)) :
    (b.map (Variable.mapExpr h) h).map (Variable.mapExpr g) g =
      b.map (Variable.mapExpr (g ∘ h)) (g ∘ h) := by
  simp only [Block.map_eq, List.map_map, Function.comp_def, Variable.mapExpr_mapExpr] at hs ⊢
  rw [List.map_congr_left hs]

/-- Changing the expressions of a statement twice is changing them once. -/
theorem Stmt.map_map (s : Stmt) :
    (s.map (Variable.mapExpr h) h).map (Variable.mapExpr g) g =
      s.map (Variable.mapExpr (g ∘ h)) (g ∘ h) := by
  induction s with
  | block s b ih => simp only [Stmt.map, Block.map_map_of ih]
  | switch s e cs ih =>
    have hcs : (cs.map (Case.map (Variable.mapExpr h) h)).map (Case.map (Variable.mapExpr g) g) =
        cs.map (Case.map (Variable.mapExpr (g ∘ h)) (g ∘ h)) := by
      rw [List.map_map]
      refine List.map_congr_left fun c hc => ?_
      simp only [Function.comp_apply, Case.map_eq, Block.map_map_of (ih c hc), List.map_map]
    simp only [Stmt.map, Stmt.mapCases_eq, hcs, Function.comp_apply]
  | forLoop s i c n b ih => simp only [Stmt.map, Option.map_map, ih]
  | ifElse s c t e iht ihe => simp only [Stmt.map, iht, ihe, Function.comp_apply]
  | ifThen s c b ih | whileLoop s c b ih | doWhile s b c ih =>
    simp only [Stmt.map, ih, Function.comp_apply]
  | returns s e => simp only [Stmt.map, Option.map_map]
  | label s n b ih => simp only [Stmt.map, ih]
  | expr | breaks | continues | goto | empty => rfl

/-- Two changes of all expressions in a program are one. -/
theorem Program.mapExprs_mapExprs (p : Program) :
    (p.mapExprs h).mapExprs g = p.mapExprs (g ∘ h) := by
  have hb : ∀ f : Function, (f.body.map (Variable.mapExpr h) h).map (Variable.mapExpr g) g =
      f.body.map (Variable.mapExpr (g ∘ h)) (g ∘ h) :=
    fun f => Block.map_map_of fun s _ => s.map_map
  simp only [mapExprs, List.map_map, Function.comp_def, Variable.mapExpr_mapExpr] at hb ⊢
  simp only [hb]

/-- A program without conversions is left alone. -/
theorem Program.unconvert_eq_self {p : Program}
    (hp : ∀ e ∈ p.expressions, e.isConversion = false) : p.unconvert = p := by
  obtain ⟨hglobals, hbodies⟩ := forall_mem_expressions_iff.mp hp
  have hopt : ∀ {e : Option Expr}, (∀ x ∈ e, x.Everywhere fun n => n.isConversion = false) →
      e.map Expr.unconvert = e :=
    fun he => option_map_eq_self fun x hx => Expr.unconvert_eq_self (he x hx)
  have hvar : ∀ v : Variable, (Demands.nodes fun n => n.isConversion = false).var v →
      v.mapExpr Expr.unconvert = v := by
    intro v hv
    rw [Variable.mapExpr, hopt hv]
  have hv := list_map_eq_self fun v hm => hvar v (hglobals v hm)
  have hf : (p.functions.map fun f =>
      { f with body := f.body.map (Variable.mapExpr Expr.unconvert) Expr.unconvert }) =
      p.functions := by
    refine list_map_eq_self fun f hm => ?_
    have hb : f.body.Meets (.fixed (Variable.mapExpr Expr.unconvert) Expr.unconvert) :=
      (hbodies f hm).imp hvar (fun _ => Expr.unconvert_eq_self) (fun _ => Expr.unconvert_eq_self)
        fun _ => hopt
    rw [hb.map_eq_self]
  rw [unconvert, mapExprs, hv, hf]

/-- What the places and the slots of all nodes of a program have in common stays when conversions
are taken out. -/
theorem Program.forall_mem_unconvert {Q : Info → Prop} {p : Program}
    (hp : ∀ e ∈ p.expressions, Q e.info) : ∀ e ∈ p.unconvert.expressions, Q e.info := by
  have hopt : ∀ e : Option Expr, (∀ x ∈ e, x.Everywhere fun n => Q n.info) →
      ∀ x ∈ e.map Expr.unconvert, x.Everywhere fun n => Q n.info :=
    fun _ => forall_mem_option_map fun _ => Expr.Everywhere.unconvert
  obtain ⟨hglobals, hbodies⟩ := forall_mem_expressions_iff.mp hp
  refine (forall_mem_expressions_iff (P := fun n => Q n.info)).mpr ⟨?_, ?_⟩
  · simp only [unconvert, mapExprs, List.forall_mem_map]
    exact fun v hv => hopt v.initializer (hglobals v hv)
  · simp only [unconvert, mapExprs, List.forall_mem_map]
    intro f hf
    exact (hbodies f hf).map (fun v => hopt v.initializer) (fun _ => Expr.Everywhere.unconvert)
      (fun _ => Expr.Everywhere.unconvert) hopt

end CTyping
