import CTyping.Checker.Program
import CTyping.Proofs.Tree.Outline

/-!
# Checks that go alike

Two checks go alike (`CTyping.Traced.Alike`) if they give related results and note the same events
one by one, at related places. This is kept by sequences, choices and lists; and each rule goes
alike on operands of one outline, since it asks for their types only, and the places that it notes
are those of its operands and of the node.
-/

namespace CTyping

/-- The same event, at places that are related. -/
inductive Event.Alike (Q : Span → Span → Prop) : Event → Event → Prop
  | entered {f : String} : Alike Q (.entered f) (.entered f)
  | found {p : Problem} {s s' : Span} (hs : Q s s') : Alike Q (.found p s) (.found p s')
  | converted {s t : Ty} : Alike Q (.converted s t) (.converted s t)

/-- Related results, reached through the same events. -/
structure Traced.Alike {α β : Type} (Q : Span → Span → Prop) (R : α → β → Prop) (x : Traced α)
    (y : Traced β) : Prop where
  value : R x.value y.value
  events : List.Forall₂ (Event.Alike Q) x.events y.events

/-! ### Sequences -/

namespace Traced.Alike

variable {α β γ δ : Type} {Q : Span → Span → Prop} {R : α → β → Prop} {S : γ → δ → Prop}

/-- Results that are alike are, with nothing reported. -/
theorem pure {a : α} {b : β} (h : R a b) : Traced.Alike Q R (Pure.pure a) (Pure.pure b) :=
  ⟨h, .nil⟩

/-- Steps that are alike, one after the other, are alike. -/
theorem bind {x : Traced α} {y : Traced β} {f : α → Traced γ} {g : β → Traced δ}
    (h : x.Alike Q R y) (hf : ∀ a b, R a b → (f a).Alike Q S (g b)) :
    (x >>= f).Alike Q S (y >>= g) :=
  ⟨(hf _ _ h.value).value, List.rel_append h.events (hf _ _ h.value).events⟩

/-- Results that are equal need not be told apart in what follows. -/
theorem bind_same {x y : Traced α} {f : α → Traced γ} {g : α → Traced δ} (h : x.Alike Q Eq y)
    (hf : ∀ a, (f a).Alike Q S (g a)) : (x >>= f).Alike Q S (y >>= g) := by
  refine h.bind fun a b hab => ?_
  rw [← hab]
  exact hf a

/-- Branches that are alike are, if both sides take the same one. -/
theorem ite {c : Prop} [Decidable c] {x x' : Traced α} {y y' : Traced β} (h : x.Alike Q R y)
    (h' : x'.Alike Q R y') : (if c then x else x').Alike Q R (if c then y else y') := by
  by_cases hc : c
  · rwa [if_pos hc, if_pos hc]
  · rwa [if_neg hc, if_neg hc]

/-- Reports of one problem are alike if their places are. -/
theorem report {s s' : Span} (h : Q s s') (p : Problem) :
    (report s p).Alike Q Eq (report s' p) :=
  ⟨rfl, .cons (.found h) .nil⟩

theorem reportUnless {s s' : Span} (h : Q s s') (well : Bool) (p : Problem) :
    (reportUnless well s p).Alike Q Eq (reportUnless well s' p) :=
  ite (pure rfl) (report h p)

/-- A rule that finds a problem gives some result all the same. -/
theorem report_pure {s s' : Span} {a : α} {b : β} (hs : Q s s') (h : R a b) {p : Problem} :
    (Traced.report s p >>= fun _ => Pure.pure a).Alike Q R
      (Traced.report s' p >>= fun _ => Pure.pure b) :=
  (report hs p).bind_same fun _ => pure h

/-- Lists that are alike one by one are checked alike. -/
theorem mapM {f : α → Traced γ} {g : β → Traced δ} {as : List α} {bs : List β}
    (h : List.Forall₂ R as bs) (hf : ∀ a b, R a b → (f a).Alike Q S (g b)) :
    (as.mapM f).Alike Q (List.Forall₂ S) (bs.mapM g) := by
  induction h with
  | nil => exact pure .nil
  | cons hab _ ih =>
    rw [List.mapM_cons, List.mapM_cons]
    exact (hf _ _ hab).bind fun _ _ hc => ih.bind fun _ _ hcs => pure (.cons hc hcs)

end Traced.Alike

/-! ### Rules -/

namespace Check

open Traced (note)

variable {Q : Span → Span → Prop} {s s' : Span} {e e' l l' r r' : Expr}

/-- Conversions of alike operands are alike, and announced at alike places. -/
theorem convert_alike (h : e.Alike (.outline Q) e') (t : Ty) :
    (convert t e).Alike Q (Expr.Alike (.outline Q)) (convert t e') := by
  have hnote : (note (.converted e.type t)).Alike Q Eq (note (.converted e'.type t)) := by
    rw [h.type_eq]
    exact ⟨rfl, .cons .converted .nil⟩
  exact hnote.bind_same fun _ => .pure (h.convert t)

theorem integer_alike (h : e.Alike (.outline Q) e') : (integer e).Alike Q Eq (integer e') := by
  rw [integer, integer, h.type_eq]
  exact .ite (.pure rfl) (.report_pure h.span rfl)

theorem scalar_alike (h : e.Alike (.outline Q) e') : (scalar e).Alike Q Eq (scalar e') := by
  rw [scalar, scalar, h.type_eq]
  exact .ite (.pure rfl) (.report_pure h.span rfl)

theorem scalar?_alike {o o' : Option Expr} (h : Option.Rel (Expr.Alike (.outline Q)) o o') :
    (scalar? o).Alike Q Eq (scalar? o') := by
  cases h with
  | none => exact .pure rfl
  | some h => exact (scalar_alike h).bind_same fun _ => .pure rfl

theorem integers_alike (hl : l.Alike (.outline Q) l') (hr : r.Alike (.outline Q) r') :
    (integers l r).Alike Q Eq (integers l' r') :=
  (integer_alike hl).bind_same fun _ => (integer_alike hr).bind_same fun _ => .pure rfl

theorem scalars_alike (hl : l.Alike (.outline Q) l') (hr : r.Alike (.outline Q) r') :
    (scalars l r).Alike Q Eq (scalars l' r') :=
  (scalar_alike hl).bind_same fun _ => (scalar_alike hr).bind_same fun _ => .pure rfl

theorem unary_alike (m : DataModel) (op : UnaryOp) (h : e.Alike (.outline Q) e') :
    (unary m op e).Alike Q Eq (unary m op e') := by
  cases op with
  | logicalNot => exact (scalar_alike h).bind_same fun _ => .ite (.pure rfl) (.pure rfl)
  | _ => exact (integer_alike h).bind_same fun _ => .ite (.pure h.type_eq) (.pure rfl)

theorem step_alike (h : e.Alike (.outline Q) e') : (step e).Alike Q Eq (step e') :=
  (scalar_alike h).bind_same fun _ => .ite (.pure h.type_eq) (.pure rfl)

theorem addressOf_alike (hs : Q s s') (h : e.Alike (.outline Q) e') :
    (addressOf s e).Alike Q Eq (addressOf s' e') := by
  rw [addressOf, addressOf, h.isAssignable_eq, h.type_eq]
  exact (Traced.Alike.reportUnless hs _ _).bind_same fun _ => .pure rfl

theorem deref_alike (hs : Q s s') (h : e.Alike (.outline Q) e') :
    (deref s e).Alike Q Eq (deref s' e') := by
  rw [deref, deref, h.type_eq]
  cases e'.type.base? with
  | some t => exact .pure rfl
  | none => exact .report_pure hs rfl

/-- Two operands of one outline each. -/
def OperandsAlike (Q : Span → Span → Prop) (x y : Expr × Expr) : Prop :=
  x.1.Alike (.outline Q) y.1 ∧ x.2.Alike (.outline Q) y.2

/-- Two operands of one outline each, and the same type. -/
def ResultAlike (Q : Span → Span → Prop) (x y : Expr × Expr × Ty) : Prop :=
  x.1.Alike (.outline Q) y.1 ∧ x.2.1.Alike (.outline Q) y.2.1 ∧ x.2.2 = y.2.2

/-- Operands that are alike are joined to the same type. -/
theorem unify_alike (hs : Q s s') (hl : l.Alike (.outline Q) l') (hr : r.Alike (.outline Q) r') :
    (unify s l r).Alike Q (Option.Rel (OperandsAlike Q)) (unify s' l' r') := by
  rw [unify, unify, hl.type_eq, hr.type_eq]
  refine .ite (.pure (.some ⟨hl, hr⟩)) (.ite ?_ (.ite ?_ ?_))
  · exact (convert_alike hr _).bind fun _ _ hr => .pure (.some ⟨hl, hr⟩)
  · exact (convert_alike hl _).bind fun _ _ hl => .pure (.some ⟨hl, hr⟩)
  · exact .report_pure hs .none

theorem arithmetic_alike (hs : Q s s') (hl : l.Alike (.outline Q) l')
    (hr : r.Alike (.outline Q) r') :
    (arithmetic s l r).Alike Q (ResultAlike Q) (arithmetic s' l' r') := by
  refine (integers_alike hl hr).bind_same fun _ => .ite ?_ (.pure ⟨hl, hr, rfl⟩)
  refine (unify_alike hs hl hr).bind fun x y h => ?_
  cases h with
  | none => exact .pure ⟨hl, hr, rfl⟩
  | some h => exact .pure ⟨h.1, h.2, h.1.type_eq⟩

theorem comparison_alike (m : DataModel) (hs : Q s s') (hl : l.Alike (.outline Q) l')
    (hr : r.Alike (.outline Q) r') :
    (comparison m s l r).Alike Q (ResultAlike Q) (comparison m s' l' r') := by
  refine (scalars_alike hl hr).bind_same fun _ => .ite ?_ (.pure ⟨hl, hr, rfl⟩)
  refine (unify_alike hs hl hr).bind fun x y h => ?_
  cases h with
  | none => exact .pure ⟨hl, hr, rfl⟩
  | some h => exact .pure ⟨h.1, h.2, rfl⟩

theorem additive_alike (hs : Q s s') (hl : l.Alike (.outline Q) l') (hr : r.Alike (.outline Q) r') :
    (additive s l r).Alike Q (ResultAlike Q) (additive s' l' r') := by
  rw [additive, additive, hl.type_eq, hr.type_eq]
  refine .ite ?_ (.ite ?_ (arithmetic_alike hs hl hr))
  · exact (integer_alike hr).bind_same fun _ => .pure ⟨hl, hr, rfl⟩
  · exact (integer_alike hl).bind_same fun _ => .pure ⟨hl, hr, rfl⟩

theorem shift_alike (hl : l.Alike (.outline Q) l') (hr : r.Alike (.outline Q) r') :
    (shift l r).Alike Q (ResultAlike Q) (shift l' r') := by
  rw [shift, shift, hl.type_eq]
  exact (integers_alike hl hr).bind_same fun _ => .pure ⟨hl, hr, rfl⟩

/-- A binary operator does with alike operands what is alike. -/
theorem binary_alike (m : DataModel) (op : BinaryOp) (hs : Q s s') (hl : l.Alike (.outline Q) l')
    (hr : r.Alike (.outline Q) r') :
    (binary m s op l r).Alike Q (ResultAlike Q) (binary m s' op l' r') := by
  rw [binary, binary]
  cases op.operatorClass with
  | additive => exact additive_alike hs hl hr
  | multiplicative => exact arithmetic_alike hs hl hr
  | shift => exact shift_alike hl hr
  | comparison => exact comparison_alike m hs hl hr

theorem store_alike (hs : Q s s') (t : Ty) (h : e.Alike (.outline Q) e') :
    (store s t e).Alike Q (Option.Rel (Expr.Alike (.outline Q))) (store s' t e') := by
  rw [store, store, h.type_eq]
  refine .ite (.pure (.some h)) (.ite ?_ ?_)
  · refine (Traced.Alike.reportUnless hs _ _).bind_same fun _ => ?_
    exact (convert_alike h t).bind fun _ _ h => .pure (.some h)
  · exact .report_pure hs .none

/-- So does an assignment with alike sides. -/
theorem assign_alike (op : AssignOp) (hs : Q s s') (hl : l.Alike (.outline Q) l')
    (hr : r.Alike (.outline Q) r') :
    (assign s op l r).Alike Q (fun x y => x.1.Alike (.outline Q) y.1 ∧ x.2 = y.2)
      (assign s' op l' r') := by
  rw [assign, assign, hl.isAssignable_eq, hl.type_eq]
  refine .ite (.ite ?_ (.ite ?_ ?_)) ?_
  · exact .report_pure hs ⟨hr, rfl⟩
  · exact (integer_alike hr).bind_same fun _ => .pure ⟨hr, rfl⟩
  · refine (store_alike hs _ hr).bind fun x y h => ?_
    cases h with
    | none => exact .pure ⟨hr, rfl⟩
    | some h => exact .pure ⟨h, rfl⟩
  · exact .report_pure hs ⟨hr, rfl⟩

/-- So does a conditional with alike branches. -/
theorem cond_alike (hs : Q s s') (he : e.Alike (.outline Q) e') (hl : l.Alike (.outline Q) l')
    (hr : r.Alike (.outline Q) r') :
    (cond s e l r).Alike Q (ResultAlike Q) (cond s' e' l' r') := by
  rw [cond, cond, hl.type_eq, hr.type_eq]
  refine (scalar_alike he).bind_same fun _ => .ite (.pure ⟨hl, hr, rfl⟩) (.ite ?_ (.ite ?_ ?_))
  · exact (convert_alike hl _).bind fun _ _ hl => .pure ⟨hl, hr, rfl⟩
  · exact (convert_alike hr _).bind fun _ _ hr => .pure ⟨hl, hr, rfl⟩
  · exact .report_pure hs ⟨hl, hr, rfl⟩

theorem call_alike (hs : Q s s') (h : e.Alike (.outline Q) e') (count : Nat) :
    (call s e count).Alike Q Eq (call s' e' count) := by
  rw [call, call, h.type_eq]
  cases e'.type.prototype? with
  | none => exact .report_pure hs rfl
  | some p =>
    exact .ite (.pure rfl) (.report_pure hs rfl)

theorem argument_alike (t : Ty) (h : e.Alike (.outline Q) e') :
    (argument t e).Alike Q (Expr.Alike (.outline Q)) (argument t e') := by
  rw [argument, argument, h.type_eq]
  refine .ite ?_ (.ite (.pure h) (.ite ?_ ?_))
  · exact .report_pure h.span h
  · exact (convert_alike h t).bind fun _ _ h => .pure h
  · exact .report_pure h.span h

theorem element_alike (hs : Q s s') (h : e.Alike (.outline Q) e') :
    (element s e).Alike Q Eq (element s' e') := by
  rw [element, element, h.type_eq]
  cases e'.type.base? with
  | some t => exact .pure rfl
  | none => exact .report_pure hs rfl

theorem index_alike (o : Option Ty) (h : e.Alike (.outline Q) e') :
    (index o e).Alike Q Eq (index o e') := by
  cases o with
  | none => exact .pure rfl
  | some t => exact (integer_alike h).bind_same fun _ => .ite (.pure rfl) (.pure rfl)

/-- A member is found alike, wherever it is named. -/
theorem member_alike (d : Declarations) (hs : Q s s') (t : Ty) (name : String) :
    (member d s t name).Alike Q Eq (member d s' t name) := by
  rw [member, member]
  refine .ite ?_ (.report_pure hs rfl)
  cases d.memberType? t name with
  | some m => exact .pure rfl
  | none => exact .report_pure hs rfl

theorem arrow_alike (d : Declarations) (hs : Q s s') (t : Ty) (name : String) :
    (arrow d s t name).Alike Q Eq (arrow d s' t name) := by
  cases t with
  | ptr base => exact member_alike d hs base name
  | _ => exact .report_pure hs rfl

theorem cast_alike (hs : Q s s') (t : Ty) (implicit : Bool) (h : e.Alike (.outline Q) e') :
    (cast s t e implicit).Alike Q Eq (cast s' t e' implicit) := by
  rw [cast, cast, h.type_eq]
  refine .ite ?_ (.report_pure hs rfl)
  exact (Traced.Alike.reportUnless hs _ _).bind_same fun _ => .pure rfl

/-- What is returned is alike if it was. -/
theorem returned_alike (hs : Q s s') (result : Ty) {o o' : Option Expr}
    (h : Option.Rel (Expr.Alike (.outline Q)) o o') :
    (returned s result o).Alike Q (Option.Rel (Expr.Alike (.outline Q)))
      (returned s' result o') := by
  cases h with
  | none => exact (Traced.Alike.reportUnless hs _ _).bind_same fun _ => .pure .none
  | some h =>
    rw [returned, returned, h.type_eq]
    refine .ite ?_ (.ite (.pure (.some h)) (.ite ?_ ?_))
    · exact .report_pure hs (.some h)
    · exact (convert_alike h result).bind fun _ _ h => .pure (.some h)
    · exact .report_pure hs (.some h)

end Check

end CTyping
