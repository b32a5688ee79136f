import CTyping.Proofs.Checker.Statements
import CTyping.Proofs.Tree.Map
import CTyping.Proofs.Ty.Layout

/-!
# Checking keeps the layout

A tree is *sized* for a data model if all types in it are, the types in its slots included. The
types that the checker puts into a tree are taken from the tree, from the declarations and from the
data model. So if the tree and the declarations are sized for the model, then what a check leaves is
(`CTyping.Program.Sized.check`).
-/

namespace CTyping

/-! ### Sized expressions -/

namespace Expr

/-- An expression all of whose types are sized for a data model. -/
def Sized (m : DataModel) (e : Expr) : Prop :=
  e.Everywhere fun n => ∀ t ∈ n.ownTypes, t.Sized m

variable {m : DataModel}

namespace Sized

/-- A node is sized by the type in its slot, the type written in it, and its operands. -/
theorem mk {e : Expr} {t : Ty} (hs : e.ty? = some t) (ht : t.Sized m)
    (hw : ∀ t ∈ e.written?, t.Sized m) (hc : ∀ c ∈ e.children, c.Sized m) : e.Sized m := by
  refine .node e (fun u hu => ?_) hc
  rw [ownTypes, hs, List.mem_append, Option.mem_toList, Option.mem_toList] at hu
  rcases hu with hu | hu
  · exact Option.some.inj hu ▸ ht
  · exact hw u hu

/-- A node in which no type is written. -/
theorem of_unwritten {e : Expr} {t : Ty} (hs : e.ty? = some t) (ht : t.Sized m)
    (hw : e.written? = none) (hc : ∀ c ∈ e.children, c.Sized m) : e.Sized m := by
  refine mk hs ht (fun u hu => ?_) hc
  rw [hw] at hu
  exact absurd hu (Option.not_mem_none u)

/-- A node in which a type is written. -/
theorem of_written {e : Expr} {t u : Ty} (hs : e.ty? = some t) (ht : t.Sized m)
    (hw : e.written? = some u) (hu : u.Sized m) (hc : ∀ c ∈ e.children, c.Sized m) :
    e.Sized m := by
  refine mk hs ht (fun v hv => ?_) hc
  rw [hw] at hv
  exact Option.some.inj hv ▸ hu

/-- The type that is written at a node of a sized tree is sized. -/
theorem written {e : Expr} (h : e.Sized m) {t : Ty} (ht : e.written? = some t) : t.Sized m :=
  h.here t (List.mem_append_right _ (Option.mem_toList.mpr ht))

/-- The operands of a sized tree are sized. -/
theorem child {e c : Expr} (h : e.Sized m) (hc : c ∈ e.children) : c.Sized m :=
  (everywhere_iff.mp h).2 c hc

/-- The type of a sized tree is sized. -/
theorem type {e : Expr} (h : e.Sized m) : e.type.Sized m := by
  cases hs : e.ty? with
  | none =>
    rw [Expr.type, hs]
    exact Ty.sized_void
  | some t =>
    rw [Expr.type, hs]
    exact h.here t (List.mem_append_left _ (Option.mem_toList.mpr hs))

/-- A conversion to a sized type keeps a tree sized. -/
theorem adapt {e : Expr} {t : Ty} (he : e.Sized m) (ht : t.Sized m) : (e.adapt t).Sized m := by
  by_cases h : e.type = t
  · rw [adapt_of_eq h]
    exact he
  · rw [adapt_of_ne h]
    exact of_written rfl ht rfl ht (List.forall_mem_singleton.mpr he)

end Sized

theorem mapTypesList_eq (f : Ty → Ty) (es : List Expr) :
    mapTypesList f es = es.map (mapTypes f) := by
  induction es with
  | nil => rfl
  | cons e es ih => rw [mapTypesList, ih, List.map_cons]

/-- The types of a node are changed one by one. -/
theorem ownTypes_mapTypes (f : Ty → Ty) (e : Expr) :
    (e.mapTypes f).ownTypes = e.ownTypes.map f := by
  cases e <;> simp [mapTypes, ownTypes, ty?, info, written?, Info.mapTy, Option.toList_map]

/-- The operands of a node are changed one by one. -/
theorem children_mapTypes (f : Ty → Ty) (e : Expr) :
    (e.mapTypes f).children = e.children.map (mapTypes f) := by
  cases e <;> simp [mapTypes, children, mapTypesList_eq]

/-- Filling in the widths leaves a tree that is sized. -/
theorem sized_mapTypes (m : DataModel) (e : Expr) : (e.mapTypes m.normalize).Sized m := by
  induction e using inductionOnChildren with
  | node e ih =>
    refine .node _ ?_ ?_
    · rw [ownTypes_mapTypes]
      simp [Ty.sized_normalize]
    · rw [children_mapTypes, List.forall_mem_map]
      exact ih

/-- There is nothing to fill in at a node of a sized tree. -/
theorem Sized.info {e : Expr} (h : e.Sized m) : e.info.mapTy m.normalize = e.info := by
  have hty : e.info.ty.map m.normalize = e.info.ty := by
    cases hs : e.info.ty with
    | none => rfl
    | some t => exact congrArg some (h.here t (List.mem_append_left _ (Option.mem_toList.mpr hs)))
  rw [Info.mapTy, hty]

/-- An expression that is sized is left alone. -/
theorem Sized.mapTypes_eq {e : Expr} (h : e.Sized m) : e.mapTypes m.normalize = e := by
  induction e using inductionOnChildren with
  | node e ih =>
    have ih : ∀ c ∈ e.children, c.mapTypes m.normalize = c := fun c hc => ih c hc (h.child hc)
    have hw : ∀ t ∈ e.written?, m.normalize t = t := fun t ht => h.written ht
    have hi : ∀ i, e.info = i → i.mapTy m.normalize = i := by
      rintro _ rfl
      exact h.info
    cases e with
    | intLit i _ t | var i _ t | sizeofType i t => rw [mapTypes, hi i rfl, hw t rfl]
    | strLit i s => rw [mapTypes, hi i rfl]
    | unary i _ e | step i _ e | addressOf i e | deref i e | member i e _ | arrow i e _
    | sizeofExpr i e => rw [mapTypes, hi i rfl, ih e List.mem_cons_self]
    | binary i _ l r | assign i _ l r | index i l r =>
      obtain ⟨hl, hr⟩ := List.forall_mem_cons.mp ih
      rw [mapTypes, hi i rfl, hl, hr r List.mem_cons_self]
    | cond i c a b =>
      obtain ⟨hc, hab⟩ := List.forall_mem_cons.mp ih
      obtain ⟨ha, hb⟩ := List.forall_mem_cons.mp hab
      rw [mapTypes, hi i rfl, hc, ha, hb b List.mem_cons_self]
    | call i f as =>
      have has : as.map (mapTypes m.normalize) = as :=
        list_map_eq_self fun a ha => ih a (List.mem_cons_of_mem f ha)
      rw [mapTypes, mapTypesList_eq, hi i rfl, has, ih f List.mem_cons_self]
    | cast i t e _ => rw [mapTypes, hi i rfl, hw t rfl, ih e List.mem_cons_self]

end Expr

/-! ### The types that rules give -/

namespace Check

variable {d : Declarations} {m : DataModel} {l r : Expr} (s : Span)

/-- The result of a unary operator is sized if its operand is. -/
theorem sized_unary {op : UnaryOp} (h : l.type.Sized m) : (unary m op l).value.Sized m := by
  rcases unary_cases m op l with ⟨-, hx⟩ | ⟨-, hx⟩
  · rw [hx]
    cases op with
    | logicalNot => exact Ty.sized_integer m .int true
    | _ => exact h
  · rw [hx.value]
    exact Ty.sized_void

theorem sized_step (h : l.type.Sized m) : (step l).value.Sized m := by
  rcases step_cases l with ⟨-, hx⟩ | ⟨-, hx⟩
  · rw [hx]
    exact h
  · rw [hx.value]
    exact Ty.sized_void

theorem sized_deref (h : l.type.Sized m) : (deref s l).value.Sized m := by
  rcases deref_cases s l with ⟨t, ht, hx⟩ | ⟨-, hx⟩
  · rw [hx]
    exact h.base ht
  · rw [hx.value]
    exact Ty.sized_void

/-- A binary operator leaves operands and a result that are sized if its operands were. -/
theorem sized_binary (op : BinaryOp) (hl : l.Sized m) (hr : r.Sized m) :
    (binary m s op l r).value.1.Sized m ∧ (binary m s op l r).value.2.1.Sized m ∧
      (binary m s op l r).value.2.2.Sized m := by
  have hjoin : ∀ {u t : Ty}, Ty.join l.type r.type = some u → (u.Sized m → t.Sized m) →
      (bring u l r t).value.1.Sized m ∧ (bring u l r t).value.2.1.Sized m ∧
        (bring u l r t).value.2.2.Sized m := by
    intro u t hu ht
    have hs : u.Sized m := Ty.of_join hu hl.type hr.type
    rw [value_bring]
    exact ⟨hl.adapt hs, hr.adapt hs, ht hs⟩
  have hx := binary_outcome m s op l r
  generalize binary m s op l r = x at hx ⊢
  cases hx with
  | arithmetic hop _ _ hu => exact hjoin hu id
  | pointerLeft hop _ _ => exact ⟨hl, hr, hl.type⟩
  | pointerRight hop _ _ => exact ⟨hl, hr, hr.type⟩
  | shift hop _ _ => exact ⟨hl, hr, hl.type⟩
  | comparison hop _ _ hu => exact hjoin hu fun _ => Ty.sized_integer m .int true
  | refused h =>
    rw [h.value]
    exact ⟨hl, hr, Ty.sized_void⟩

/-- An assignment leaves a right side and a result that are sized if its sides were. -/
theorem sized_assign (op : AssignOp) (hl : l.Sized m) (hr : r.Sized m) :
    (assign s op l r).value.1.Sized m ∧ (assign s op l r).value.2.Sized m := by
  have hx := assign_outcome s op l r
  generalize assign s op l r = x at hx ⊢
  cases hx with
  | moved _ _ _ _ => exact ⟨hr, hl.type⟩
  | stored _ _ _ _ =>
    rw [Traced.value_map, value_put]
    exact ⟨hr.adapt hl.type, hl.type⟩
  | refused h =>
    rw [h.value]
    exact ⟨hr, Ty.sized_void⟩

/-- A conditional leaves branches and a result that are sized if its branches were. -/
theorem sized_cond (c : Expr) (hl : l.Sized m) (hr : r.Sized m) :
    (cond s c l r).value.1.Sized m ∧ (cond s c l r).value.2.1.Sized m ∧
      (cond s c l r).value.2.2.Sized m := by
  rcases cond_cases s c l r with ⟨u, hu, hx⟩ | ⟨-, hx⟩
  · have hs : u.Sized m := Ty.of_join hu hr.type hl.type
    rw [hx, Traced.value_bind, value_bring]
    exact ⟨hl.adapt hs, hr.adapt hs, hs⟩
  · rw [hx.value]
    exact ⟨hl, hr, Ty.sized_void⟩

/-- What a sized function takes and gives is sized. -/
theorem sized_call (n : Nat) (h : l.type.Sized m) :
    (∀ t ∈ (call s l n).value.1, t.Sized m) ∧ (call s l n).value.2.Sized m := by
  rcases call_cases s l n with ⟨p, hp, -, hx⟩ | hx
  · rw [hx]
    exact ⟨(h.prototype hp).2, (h.prototype hp).1⟩
  · rw [hx.value]
    exact ⟨by simp, Ty.sized_void⟩

/-- An argument of a sized parameter stays sized. -/
theorem sized_argument {p : Ty} (hp : p.Sized m) (h : l.Sized m) :
    (argument p l).value.Sized m := by
  rcases argument_cases p l with ⟨-, -, hx⟩ | hx
  · rw [hx, value_adapt]
    exact h.adapt hp
  · rw [hx.value]
    exact h

/-- The element of a sized pointer or array is sized. -/
theorem sized_index (h : l.type.Sized m) : (index (element s l).value r).value.Sized m := by
  rcases element_cases s l with ⟨t, ht, hx⟩ | ⟨-, hx⟩
  · rw [hx, Traced.value_pure]
    rcases index_cases t r with ⟨-, hy⟩ | ⟨-, hy⟩
    · rw [hy]
      exact h.base ht
    · rw [hy.value]
      exact Ty.sized_void
  · rw [hx.value]
    exact Ty.sized_void

/-- A member has a sized type if the declarations are sized. -/
theorem sized_member (hd : d.Sized) {t : Ty} {n : String} :
    (member d s t n).value.Sized d.model := by
  rcases member_cases d s t n with ⟨b, -, hb, hx⟩ | ⟨-, hx⟩
  · rw [hx]
    exact hd.memberType? hb
  · rw [hx.value]
    exact Ty.sized_void

/-- The same for a member behind a pointer. -/
theorem sized_arrow (hd : d.Sized) {t : Ty} {n : String} :
    (arrow d s t n).value.Sized d.model := by
  rcases arrow_cases d s t n with ⟨t, b, -, -, hb, hx⟩ | ⟨-, hx⟩
  · rw [hx]
    exact hd.memberType? hb
  · rw [hx.value]
    exact Ty.sized_void

theorem sized_cast {t : Ty} {i : Bool} (ht : t.Sized m) : (cast s t l i).value.Sized m := by
  rcases cast_cases s t l i with ⟨-, hx⟩ | ⟨-, hx⟩
  · rw [hx]
    exact ht
  · rw [hx.value]
    exact Ty.sized_void

end Check

/-! ### Resolving expressions -/

namespace Expr

variable {d : Declarations}

/-- Arguments stay sized if the parameters are. -/
theorem Sized.resolveArgs {as : List Expr}
    (has : ∀ a ∈ as, (a.resolve d).value.Sized d.model) {ps : List Ty}
    (hps : ∀ p ∈ ps, p.Sized d.model) :
    ∀ a ∈ (Expr.resolveArgs d ps as).value, a.Sized d.model := by
  induction as generalizing ps with
  | nil => cases ps <;> exact List.forall_mem_nil _
  | cons a as ih =>
    have ihas := @ih fun x hx => has x (List.mem_cons_of_mem a hx)
    have ha := has a List.mem_cons_self
    cases ps with
    | nil => exact List.forall_mem_cons.mpr ⟨ha, ihas hps⟩
    | cons p ps =>
      obtain ⟨hp, hps⟩ := List.forall_mem_cons.mp hps
      exact List.forall_mem_cons.mpr ⟨Check.sized_argument hp ha, ihas hps⟩

/-- **Resolving keeps the layout.** -/
theorem Sized.resolve (hd : d.Sized) {e : Expr} (h : e.Sized d.model) :
    (e.resolve d).value.Sized d.model := by
  -- the types that are written stay; the one in the slot is new and comes from the rule of the form
  induction e with
  | intLit i v t =>
    have ht : t.Sized d.model := h.written rfl
    exact .of_written rfl ht rfl ht (List.forall_mem_nil _)
  | strLit i s =>
    exact .of_unwritten rfl (Ty.sized_integer d.model .char true).ptr rfl (List.forall_mem_nil _)
  | var i n t =>
    have ht : t.Sized d.model := h.written rfl
    exact .of_written rfl ht rfl ht (List.forall_mem_nil _)
  | unary i op e ih =>
    have he := ih (h.child List.mem_cons_self)
    exact .of_unwritten rfl (Check.sized_unary he.type) rfl (List.forall_mem_singleton.mpr he)
  | step i op e ih =>
    have he := ih (h.child List.mem_cons_self)
    exact .of_unwritten rfl (Check.sized_step he.type) rfl (List.forall_mem_singleton.mpr he)
  | addressOf i e ih =>
    have he := ih (h.child List.mem_cons_self)
    exact .of_unwritten rfl he.type.ptr rfl (List.forall_mem_singleton.mpr he)
  | deref i e ih =>
    have he := ih (h.child List.mem_cons_self)
    exact .of_unwritten rfl (Check.sized_deref i.span he.type) rfl
      (List.forall_mem_singleton.mpr he)
  | binary i op l r ihl ihr =>
    have hl := ihl (h.child (by simp [children]))
    have hr := ihr (h.child (by simp [children]))
    obtain ⟨hl, hr, ht⟩ := Check.sized_binary i.span op hl hr
    exact .of_unwritten rfl ht rfl (forall_mem_pair hl hr)
  | assign i op l r ihl ihr =>
    have hl := ihl (h.child (by simp [children]))
    have hr := ihr (h.child (by simp [children]))
    obtain ⟨hr, ht⟩ := Check.sized_assign i.span op hl hr
    exact .of_unwritten rfl ht rfl (forall_mem_pair hl hr)
  | cond i c a b ihc iha ihb =>
    have hc := ihc (h.child (by simp [children]))
    have ha := iha (h.child (by simp [children]))
    have hb := ihb (h.child (by simp [children]))
    obtain ⟨ha, hb, ht⟩ := Check.sized_cond i.span (c.resolve d).value ha hb
    refine .of_unwritten rfl ht rfl (List.forall_mem_cons.mpr ⟨hc, ?_⟩)
    exact forall_mem_pair ha hb
  | call i f as ihf ihas =>
    have hf := ihf (h.child List.mem_cons_self)
    have has := fun a ha => ihas a ha (h.child (List.mem_cons_of_mem f ha))
    obtain ⟨hps, ht⟩ := Check.sized_call i.span as.length hf.type
    exact .of_unwritten rfl ht rfl (List.forall_mem_cons.mpr ⟨hf, Sized.resolveArgs has hps⟩)
  | index i b x ihb ihx =>
    have hb := ihb (h.child (by simp [children]))
    have hx := ihx (h.child (by simp [children]))
    refine .of_unwritten rfl (Check.sized_index i.span hb.type) rfl ?_
    exact forall_mem_pair hb hx
  | member i b n ih =>
    have hb := ih (h.child List.mem_cons_self)
    exact .of_unwritten rfl (Check.sized_member i.span hd) rfl (List.forall_mem_singleton.mpr hb)
  | arrow i b n ih =>
    have hb := ih (h.child List.mem_cons_self)
    exact .of_unwritten rfl (Check.sized_arrow i.span hd) rfl (List.forall_mem_singleton.mpr hb)
  | cast i t e m ih =>
    have ht : t.Sized d.model := h.written rfl
    have he := ih (h.child List.mem_cons_self)
    exact .of_written rfl (Check.sized_cast i.span ht) rfl ht
      (List.forall_mem_singleton.mpr he)
  | sizeofType i t =>
    have ht : t.Sized d.model := h.written rfl
    exact .of_written rfl (Ty.sized_integer d.model .long false) rfl ht
      (List.forall_mem_nil _)
  | sizeofExpr i e ih =>
    have he := ih (h.child List.mem_cons_self)
    exact .of_unwritten rfl (Ty.sized_integer d.model .long false) rfl
      (List.forall_mem_singleton.mpr he)

end Expr

/-! ### Statements and programs -/

section Programs

variable (m : DataModel)

/-- A variable that is sized, its initializer included. -/
structure Variable.Sized (v : Variable) : Prop where
  type : v.type.Sized m
  initializer : ∀ e ∈ v.initializer, e.Sized m

/-- The demand that all types in a statement be sized. -/
def Demands.sized : Demands where
  var := Variable.Sized m
  expr := Expr.Sized m
  test := Expr.Sized m
  returned e := ∀ x ∈ e, x.Sized m

/-- A function all of whose types are sized. -/
structure Function.Sized (f : Function) : Prop where
  result : f.result.Sized m
  params : ∀ p ∈ f.params, p.type.Sized m
  body : f.body.Meets (.sized m)

/-- A program all of whose types are sized. -/
structure Program.Sized (p : Program) : Prop where
  records : ∀ r ∈ p.records, r.mapTypes m.normalize = r
  globals : ∀ v ∈ p.globals, v.Sized m
  functions : ∀ f ∈ p.functions, f.Sized m

end Programs

variable {m : DataModel}

/-- What holds of an optional expression whose types are normalized. -/
theorem Expr.sized_map_mapTypes (e : Option Expr) :
    ∀ x ∈ e.map (Expr.mapTypes m.normalize), x.Sized m :=
  forall_mem_option_map (P := fun _ => True) (fun x _ => Expr.sized_mapTypes m x)
    fun _ _ => trivial

/-- There is nothing to fill in in what is sized. -/
theorem Expr.map_mapTypes_eq {e : Option Expr} (h : ∀ x ∈ e, x.Sized m) :
    e.map (Expr.mapTypes m.normalize) = e :=
  option_map_eq_self fun x hx => (h x hx).mapTypes_eq

/-- Filling in the widths leaves a variable that is sized. -/
theorem Variable.sized_mapTypes (v : Variable) : (v.mapTypes m.normalize).Sized m :=
  ⟨Ty.sized_normalize m v.type, Expr.sized_map_mapTypes v.initializer⟩

/-- There is nothing to fill in in a variable that is sized. -/
theorem Variable.Sized.mapTypes_eq {v : Variable} (h : v.Sized m) :
    v.mapTypes m.normalize = v := by
  rw [mapTypes, show m.normalize v.type = v.type from h.type, Expr.map_mapTypes_eq h.initializer]

/-- Filling in the widths leaves a function that is sized. -/
theorem Function.sized_mapTypes (f : Function) : (f.mapTypes m.normalize).Sized m where
  result := Ty.sized_normalize m f.result
  params := by
    intro p hp
    obtain ⟨q, -, rfl⟩ := List.mem_map.mp hp
    exact Ty.sized_normalize m q.type
  body := by
    refine f.body.meets_vacuous.map ?_ ?_ ?_ ?_
    · exact fun v _ => v.sized_mapTypes
    · exact fun e _ => e.sized_mapTypes m
    · exact fun e _ => e.sized_mapTypes m
    · exact fun e _ => Expr.sized_map_mapTypes e

/-- There is nothing to fill in in a function that is sized. -/
theorem Function.Sized.mapTypes_eq {f : Function} (h : f.Sized m) :
    f.mapTypes m.normalize = f := by
  have hb : f.body.Meets (.fixed (Variable.mapTypes m.normalize) (Expr.mapTypes m.normalize)) :=
    h.body.imp (fun _ => Variable.Sized.mapTypes_eq) (fun _ => Expr.Sized.mapTypes_eq)
      (fun _ => Expr.Sized.mapTypes_eq) (fun _ => Expr.map_mapTypes_eq)
  have hp : (f.params.map fun p => { p with type := m.normalize p.type }) = f.params := by
    refine list_map_eq_self fun p hm => ?_
    rw [show m.normalize p.type = p.type from h.params p hm]
  rw [mapTypes, hb.map_eq_self, hp, show m.normalize f.result = f.result from h.result]

/-- Filling in the widths leaves a program that is sized. -/
theorem Program.sized_mapTypes (p : Program) : (p.mapTypes m.normalize).Sized m where
  records := by simpa [mapTypes] using fun r _ => Record.mapTypes_normalize m r
  globals := by simpa [mapTypes] using fun v _ => Variable.sized_mapTypes v
  functions := by simpa [mapTypes] using fun f _ => Function.sized_mapTypes f

/-- **A program that is sized is left alone.** -/
theorem Program.Sized.mapTypes_eq {p : Program} (h : p.Sized m) : p.mapTypes m.normalize = p := by
  have hv := list_map_eq_self fun v hv => (h.globals v hv).mapTypes_eq
  have hf := list_map_eq_self fun f hf => (h.functions f hf).mapTypes_eq
  rw [mapTypes, list_map_eq_self h.records, hv, hf]

variable {d : Declarations}

/-- A check keeps a variable sized. -/
theorem Variable.Sized.check (hd : d.Sized) {v : Variable} (h : v.Sized d.model) :
    (v.check d).value.Sized d.model := by
  cases hi : v.initializer with
  | none =>
    rw [Variable.check_none hi]
    exact h
  | some e =>
    have he : (e.resolve d).value.Sized d.model := (h.initializer e hi).resolve hd
    rw [Variable.check_some hi, Traced.value_bind]
    rcases Check.initial_cases v (e.resolve d).value with ⟨-, -, hx⟩ | ⟨-, hx⟩
    · rw [hx, Traced.value_map, Check.value_put]
      refine ⟨h.type, ?_⟩
      rintro _ ⟨⟩
      exact he.adapt h.type
    · rw [hx.value]
      refine ⟨h.type, ?_⟩
      rintro _ ⟨⟩
      exact he

/-- What is returned stays sized if the result of the function is. -/
theorem Demands.sized_returned {result : Ty} (hd : d.Sized) (hr : result.Sized d.model) (s : Span)
    {e : Option Expr} (h : ∀ x ∈ e, x.Sized d.model) :
    ∀ x ∈ (Check.returned s result (Expr.resolve? d e).value).value, x.Sized d.model := by
  cases e with
  | none => simp [Expr.resolve?]
  | some e =>
    have he : (e.resolve d).value.Sized d.model := (h e rfl).resolve hd
    rcases Check.returned_some_cases s result (e.resolve d).value with ⟨-, -, hx⟩ | ⟨-, hx⟩
    · simpa [Expr.resolve?, hx] using he.adapt hr
    · simpa [Expr.resolve?, hx.value] using he

/-- A check keeps a function sized. -/
theorem Function.Sized.check (hd : d.Sized) {f : Function} (h : f.Sized d.model) :
    (f.check d).value.Sized d.model where
  result := h.result
  params := h.params
  body := by
    refine h.body.check (fun _ => Variable.Sized.check hd) (fun _ => Expr.Sized.resolve hd)
      (fun _ => Expr.Sized.resolve hd) fun s _ => ?_
    exact Demands.sized_returned hd h.result s

/-- **A check keeps the layout.** -/
theorem Program.Sized.check (hd : d.Sized) {p : Program} (h : p.Sized d.model) :
    (p.check d).value.Sized d.model := by
  rw [Program.value_check]
  refine ⟨h.records, ?_, ?_⟩
  · simpa using fun v hv => (h.globals v hv).check hd
  · exact List.forall_mem_map.mpr fun f hf => (h.functions f hf).check hd

end CTyping
