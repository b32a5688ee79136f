import CTyping.Proofs.Checker.Statements
import CTyping.Proofs.Tree.Induction

/-!
# Checking again

A tree that has been checked is left alone by a second check. The second check gives the same tree,
and it meets the events of the first that last (`CTyping.Traced.settled`): nothing is converted a
second time, and every error is found again.

This holds rule by rule. A rule either leaves its operands alone, and then it does the same the
second time; or it brings them to a type by conversions (`CTyping.Expr.Brought`), and then the
second time they have that type already. A conversion itself is checked without a word, since only
those are made that can be made.
-/

namespace CTyping

namespace Check

/-! ### Rules that leave their operands alone -/

/-- A unary operator is checked the second time with the events of the first. -/
theorem settled_unary (m : DataModel) (op : UnaryOp) (e : Expr) :
    (unary m op e).settled = unary m op e := by
  rcases unary_cases m op e with ⟨-, h⟩ | ⟨-, h⟩
  · rw [h, Traced.settled_pure]
  · exact h.settled

theorem settled_step (e : Expr) : (step e).settled = step e := by
  rcases step_cases e with ⟨-, h⟩ | ⟨-, h⟩
  · rw [h, Traced.settled_pure]
  · exact h.settled

theorem settled_addressOf (s : Span) (e : Expr) : (addressOf s e).settled = addressOf s e := by
  rcases addressOf_cases s e with ⟨-, h⟩ | ⟨-, h⟩
  · rw [h, Traced.settled_pure]
  · exact h.settled

theorem settled_deref (s : Span) (e : Expr) : (deref s e).settled = deref s e := by
  rcases deref_cases s e with ⟨t, -, h⟩ | ⟨-, h⟩
  · rw [h, Traced.settled_pure]
  · exact h.settled

theorem settled_call (s : Span) (f : Expr) (n : Nat) : (call s f n).settled = call s f n := by
  rcases call_cases s f n with ⟨p, -, -, h⟩ | h
  · rw [h, Traced.settled_pure]
  · exact h.settled

theorem settled_element (s : Span) (b : Expr) : (element s b).settled = element s b := by
  rcases element_cases s b with ⟨t, -, h⟩ | ⟨-, h⟩
  · rw [h, Traced.settled_pure]
  · exact h.settled

theorem settled_index (t : Option Ty) (x : Expr) : (index t x).settled = index t x := by
  cases t with
  | none => rfl
  | some t =>
    rcases index_cases t x with ⟨-, h⟩ | ⟨-, h⟩
    · rw [h, Traced.settled_pure]
    · exact h.settled

theorem settled_member (d : Declarations) (s : Span) (t : Ty) (n : String) :
    (member d s t n).settled = member d s t n := by
  rcases member_cases d s t n with ⟨m, -, -, h⟩ | ⟨-, h⟩
  · rw [h, Traced.settled_pure]
  · exact h.settled

theorem settled_arrow (d : Declarations) (s : Span) (t : Ty) (n : String) :
    (arrow d s t n).settled = arrow d s t n := by
  rcases arrow_cases d s t n with ⟨b, m, -, -, -, h⟩ | ⟨-, h⟩
  · rw [h, Traced.settled_pure]
  · exact h.settled

/-- The doubt about a cast that is written in the program stays. -/
theorem settled_cast (s : Span) (t : Ty) (e : Expr) (m : Bool) :
    (cast s t e m).settled = cast s t e m := by
  rcases cast_cases s t e m with ⟨-, h⟩ | ⟨-, h⟩
  · rw [h, Traced.settled_bind, Traced.settled_reportUnless (by simp)]
    rfl
  · exact h.settled

/-! ### Rules that bring their operands to a type -/

/-- What a binary operator makes of its operands is brought to types, and checking it again meets
the events of the first check that last. -/
theorem binary_again (m : DataModel) (s : Span) (op : BinaryOp) (l r : Expr) :
    l.Brought (binary m s op l r).value.1 ∧ r.Brought (binary m s op l r).value.2.1 ∧
      binary m s op (binary m s op l r).value.1 (binary m s op l r).value.2.1 =
        (binary m s op l r).settled := by
  have hx := binary_outcome m s op l r
  generalize hb : binary m s op l r = x at hx ⊢
  cases hx with
  | @arithmetic u hop hl hr hu =>
    -- the second time both operands have the common type, which is an integer like theirs
    have hi : u.isInteger = true := Ty.of_join (P := (·.isInteger = true)) hu hl hr
    obtain ⟨hlu, hru⟩ := Expr.Brought.join hu
    rw [value_bring]
    refine ⟨hlu, hru, ?_⟩
    rw [binary_of_arithmetic (u := u) hop (by simpa using hi) (by simpa using hi) (by simp),
      bring_adapt, settled_bring]
  | pointerLeft hop hl hr => exact ⟨.refl l, .refl r, hb⟩
  | pointerRight hop hl hr => exact ⟨.refl l, .refl r, hb⟩
  | shift hop hl hr => exact ⟨.refl l, .refl r, hb⟩
  | @comparison u hop hl hr hu =>
    have hs : u.isScalar = true := Ty.of_join (P := (·.isScalar = true)) hu hl hr
    obtain ⟨hlu, hru⟩ := Expr.Brought.join hu
    rw [value_bring]
    refine ⟨hlu, hru, ?_⟩
    rw [binary_of_comparison (u := u) hop (by simpa using hs) (by simpa using hs) (by simp),
      bring_adapt, settled_bring]
  | refused h =>
    rw [h.value, h.settled]
    exact ⟨.refl l, .refl r, hb⟩

/-- The same for an assignment and its right side. -/
theorem assign_again (s : Span) (op : AssignOp) (l r : Expr) :
    r.Brought (assign s op l r).value.1 ∧
      assign s op l (assign s op l r).value.1 = (assign s op l r).settled := by
  have hx := assign_outcome s op l r
  generalize hb : assign s op l r = x at hx ⊢
  cases hx with
  | moved hl hm hp hr => exact ⟨.refl r, hb⟩
  | stored hl ha hm hr =>
    rw [Traced.value_map, value_put]
    refine ⟨.adapt hr, ?_⟩
    -- the right side has the type of the left one by now, and is put there as it is
    rw [assign_of_stored hl ha hm (by simp [Ty.castable_self]), put_adapt, Traced.settled_map,
      settled_put]
  | refused h =>
    rw [h.value, h.settled]
    exact ⟨.refl r, hb⟩

/-- The branches are brought to one type, whatever the condition is. -/
theorem cond_again (s : Span) (c a b : Expr) :
    a.Brought (cond s c a b).value.1 ∧ b.Brought (cond s c a b).value.2.1 ∧
      cond s c (cond s c a b).value.1 (cond s c a b).value.2.1 = (cond s c a b).settled := by
  rcases cond_cases s c a b with ⟨u, hu, hx⟩ | ⟨-, hx⟩
  · -- the condition is not looked at here: refused or not, it is so again
    obtain ⟨hb, ha⟩ := Expr.Brought.join hu
    have hv : (cond s c a b).value = (a.adapt u, b.adapt u, u) := by simp [hx]
    rw [hv]
    refine ⟨ha, hb, ?_⟩
    rw [cond_of (u := u) (by simp), bring_adapt, hx, Traced.settled_bind, settled_scalar,
      settled_bring]
  · rw [hx.value, hx.settled]
    exact ⟨.refl a, .refl b, rfl⟩

/-- The same for an argument and its parameter. -/
theorem argument_again (p : Ty) (e : Expr) :
    e.Brought (argument p e).value ∧ argument p (argument p e).value = (argument p e).settled := by
  rcases argument_cases p e with ⟨hr, ht, hx⟩ | hx
  · -- the second time the argument has the type of the parameter, so that must not be a record
    have hp : p.isRecord = false := Ty.isRecord_of_eq_or_compatible ht hr
    rw [hx, value_adapt]
    refine ⟨.adapt (Ty.castable_of_eq_or_compatible ht), ?_⟩
    rw [argument_of (by simpa using hp) (Or.inl (Expr.type_adapt p e)), adapt_adapt, settled_adapt]
  · rw [hx.value, hx.settled]
    exact ⟨.refl e, rfl⟩

/-- Only the initializer of a variable is brought to a type. -/
theorem initial_again (v : Variable) (e : Expr) :
    ∃ e', (initial v e).value = { v with initializer := some e' } ∧ e.Brought e' ∧
      initial { v with initializer := some e' } e' = (initial v e).settled := by
  rcases initial_cases v e with ⟨ha, hc, hx⟩ | ⟨-, hx⟩
  · have hv : (initial v e).value = { v with initializer := some (e.adapt v.type) } := by simp [hx]
    refine ⟨e.adapt v.type, hv, .adapt hc, ?_⟩
    have hc : (e.adapt v.type).type.castable v.type = true := by simp [Ty.castable_self]
    rw [hx, Traced.settled_map, settled_put]
    refine (initial_of (v := { v with initializer := some (e.adapt v.type) }) ha hc).trans ?_
    rw [put_adapt]
  · refine ⟨e, hx.value, .refl e, ?_⟩
    rw [hx.settled]
    rfl

/-- What is returned is brought to the type of the result. -/
theorem returned_again (s : Span) (result : Ty) (e : Expr) :
    ∃ e', (returned s result (some e)).value = some e' ∧ e.Brought e' ∧
      returned s result (some e') = (returned s result (some e)).settled := by
  rcases returned_some_cases s result e with ⟨hv, ht, hx⟩ | ⟨-, hx⟩
  · refine ⟨e.adapt result, by simp [hx], .adapt (Ty.castable_of_eq_or_compatible ht), ?_⟩
    rw [returned_some_of hv (Or.inl (Expr.type_adapt result e)), hx, adapt_adapt,
      Traced.settled_map, settled_adapt]
  · exact ⟨e, hx.value, .refl e, hx.settled.symm⟩

end Check

/-! ### Expressions -/

namespace Expr

variable {d : Declarations}

/-- What a rule makes of an operand is left alone if the operand is: a conversion that can be made
is checked without a word. -/
theorem Brought.resolve {x : Traced Expr} (hx : x.value.resolve d = x.settled) {e : Expr}
    (h : x.value.Brought e) : e.resolve d = (fun _ => e) <$> x.settled := by
  obtain ⟨t, hc, rfl⟩ := h
  by_cases ht : x.value.type = t
  · rw [adapt_of_eq ht, hx, map_eq_pure_bind]
    exact (bind_pure x.settled).symm.trans (Traced.bind_congr_value rfl)
  · -- a new conversion is resolved after its operand, and fills its slot with the type it had
    rw [adapt_of_ne ht, convert, Expr.resolve, hx, map_eq_pure_bind]
    refine Traced.bind_congr_value ?_
    rw [Traced.value_settled, Check.cast_implicit hc, pure_bind]
    rfl

/-- The same for arguments, given that it holds of each of them by itself. -/
theorem resolveArgs_again {as : List Expr}
    (has : ∀ a ∈ as, (a.resolve d).value.resolve d = (a.resolve d).settled) (ps : List Ty) :
    resolveArgs d ps (resolveArgs d ps as).value = (resolveArgs d ps as).settled := by
  induction as generalizing ps with
  | nil => cases ps <;> rfl
  | cons a as ih =>
    have iha := has a List.mem_cons_self
    have ihas := ih fun x hx => has x (List.mem_cons_of_mem a hx)
    cases ps with
    | nil =>
      simp only [resolveArgs, Traced.value_bind, Traced.value_pure, iha, ihas, Traced.settled_bind,
        Traced.settled_pure]
    | cons p ps =>
      obtain ⟨ha, hp⟩ := Check.argument_again p (a.resolve d).value
      simp only [resolveArgs, Traced.value_bind, Traced.value_pure, ha.resolve iha, bind_map_left,
        ihas, Traced.settled_bind, Traced.settled_pure]
      exact Traced.bind_congr_value (by rw [hp]; rfl)

/-- **A resolved expression is left alone**: it is resolved to itself, and what is found on the way
is what lasts of what was found before. -/
theorem resolve_again (d : Declarations) (e : Expr) :
    (e.resolve d).value.resolve d = (e.resolve d).settled := by
  induction e with
  | intLit i v t => rfl
  | strLit i s => rfl
  | var i n t => rfl
  | unary i op e ih =>
    simp only [resolve, Traced.value_bind, Traced.value_pure, ih, Traced.settled_bind,
      Check.settled_unary]
    rfl
  | step i op e ih =>
    simp only [resolve, Traced.value_bind, Traced.value_pure, ih, Traced.settled_bind,
      Check.settled_step]
    rfl
  | addressOf i e ih =>
    simp only [resolve, Traced.value_bind, Traced.value_pure, ih, Traced.settled_bind,
      Check.settled_addressOf]
    rfl
  | deref i e ih =>
    simp only [resolve, Traced.value_bind, Traced.value_pure, ih, Traced.settled_bind,
      Check.settled_deref]
    rfl
  | binary i op l r ihl ihr =>
    -- the rule sees the operands as it left them, for they are resolved to themselves
    obtain ⟨hl, hr, hb⟩ :=
      Check.binary_again d.model i.span op (l.resolve d).value (r.resolve d).value
    simp only [resolve, Traced.value_bind, Traced.value_pure, hl.resolve ihl, hr.resolve ihr,
      bind_map_left, Traced.settled_bind]
    refine Traced.bind_congr_value (Traced.bind_congr_value ?_)
    exact congrArg (· >>= _) hb
  | assign i op l r ihl ihr =>
    obtain ⟨hr, ha⟩ := Check.assign_again i.span op (l.resolve d).value (r.resolve d).value
    simp only [resolve, Traced.value_bind, Traced.value_pure, ihl, hr.resolve ihr,
      bind_map_left, Traced.settled_bind]
    refine Traced.bind_congr_value (Traced.bind_congr_value ?_)
    exact congrArg (· >>= _) ha
  | cond i c a b ihc iha ihb =>
    obtain ⟨ha, hb, hc⟩ :=
      Check.cond_again i.span (c.resolve d).value (a.resolve d).value (b.resolve d).value
    simp only [resolve, Traced.value_bind, Traced.value_pure, ihc, ha.resolve iha, hb.resolve ihb,
      bind_map_left, Traced.settled_bind]
    refine Traced.bind_congr_value (Traced.bind_congr_value (Traced.bind_congr_value ?_))
    exact congrArg (· >>= _) hc
  | call i f as ihf ihas =>
    -- as many arguments as before, so the same parameters are found for them
    simp only [resolve, Traced.value_bind, Traced.value_pure, ihf, length_resolveArgs,
      Traced.settled_bind, Check.settled_call]
    refine Traced.bind_congr_value (Traced.bind_congr_value ?_)
    exact congrArg (· >>= _) (resolveArgs_again ihas _)
  | index i b x ihb ihx =>
    simp only [resolve, Traced.value_bind, Traced.value_pure, ihb, ihx, Traced.settled_bind,
      Check.settled_element, Check.settled_index]
    rfl
  | member i b n ih =>
    simp only [resolve, Traced.value_bind, Traced.value_pure, ih, Traced.settled_bind,
      Check.settled_member]
    rfl
  | arrow i b n ih =>
    simp only [resolve, Traced.value_bind, Traced.value_pure, ih, Traced.settled_bind,
      Check.settled_arrow]
    rfl
  | cast i t e m ih =>
    simp only [resolve, Traced.value_bind, Traced.value_pure, ih, Traced.settled_bind,
      Check.settled_cast]
    rfl
  | sizeofType i t => rfl
  | sizeofExpr i e ih =>
    simp only [resolve, Traced.value_bind, Traced.value_pure, ih, Traced.settled_bind]
    rfl

end Expr

/-! ### Statements and programs -/

variable {d : Declarations} {result : Ty}

/-- The same for an expression that may be missing. -/
theorem Expr.resolve?_again (d : Declarations) (e : Option Expr) :
    Expr.resolve? d (Expr.resolve? d e).value = (Expr.resolve? d e).settled := by
  cases e with
  | none => rfl
  | some e =>
    simp only [Expr.resolve?, Traced.value_bind, Traced.value_pure, Expr.resolve_again,
      Traced.settled_bind]
    rfl

/-- That a condition is a scalar is asked the second time with the same events. -/
theorem Check.settled_scalar? (e : Option Expr) : (Check.scalar? e).settled = Check.scalar? e := by
  cases e with
  | none => rfl
  | some e => simp [Check.scalar?]

/-- A checked variable is left alone by a second check. -/
theorem Variable.check_again (d : Declarations) (v : Variable) :
    (v.check d).value.check d = (v.check d).settled := by
  cases hi : v.initializer with
  | none => rw [check_none hi, Traced.value_pure, check_none hi, Traced.settled_pure]
  | some e =>
    obtain ⟨e', hv, he, hx⟩ := Check.initial_again v (e.resolve d).value
    have hv' : (v.check d).value = { v with initializer := some e' } := by
      rw [check_some hi, Traced.value_bind, hv]
    rw [hv', check_some (e := e') rfl, he.resolve (e.resolve_again d), bind_map_left, hx,
      check_some hi, Traced.settled_bind]
    exact Traced.bind_congr_value rfl

/-- A checked `return` is left alone by a second check. -/
theorem Stmt.check_returns_again (s : Span) (e : Option Expr) :
    ((Stmt.returns s e).check d result).value.check d result =
      ((Stmt.returns s e).check d result).settled := by
  cases e with
  | none =>
    rcases Check.returned_none_cases s result with ⟨-, h⟩ | ⟨-, h⟩
    · simp [Stmt.check, Expr.resolve?, h]
    · simp [Stmt.check, Expr.resolve?, h.value, h.settled]
  | some e =>
    obtain ⟨e', hv, he, hx⟩ := Check.returned_again s result (e.resolve d).value
    simp only [Stmt.check, Expr.resolve?, Traced.value_bind, Traced.value_pure, hv, bind_assoc,
      pure_bind, he.resolve (e.resolve_again d), bind_map_left, hx, Traced.settled_bind,
      Traced.settled_pure]
    exact Traced.bind_congr_value rfl

/-- A checked block is left alone if its statements are. -/
theorem Block.check_again_of {b : Block}
    (h : ∀ s ∈ b.stmts, (s.check d result).value.check d result = (s.check d result).settled) :
    (b.check d result).value.check d result = (b.check d result).settled := by
  have hv := Traced.mapM_again fun v (_ : v ∈ b.vars) => Variable.check_again d v
  have hs := Traced.mapM_again h
  rw [Block.check_eq, Block.value_check, hv, hs, Block.check_eq]
  simp only [Traced.settled_bind, Traced.settled_pure]

/-- A checked arm is left alone if its block is. -/
theorem Case.check_again_of {c : Case}
    (h : (c.body.check d result).value.check d result = (c.body.check d result).settled) :
    (c.check d result).value.check d result = (c.check d result).settled := by
  have he := Traced.mapM_again fun e (_ : e ∈ c.values) => Expr.resolve_again d e
  rw [Case.check_eq, Case.value_check, he, h, Case.check_eq]
  simp only [Traced.settled_bind, Traced.settled_pure]

/-- **A checked statement is left alone.** -/
theorem Stmt.check_again (d : Declarations) (result : Ty) (s : Stmt) :
    (s.check d result).value.check d result = (s.check d result).settled := by
  induction s with
  | block s b ih =>
    simp only [Stmt.check, Traced.value_bind, Traced.value_pure, Block.check_again_of ih,
      Traced.settled_bind, Traced.settled_pure]
  | expr s e =>
    simp only [Stmt.check, Traced.value_bind, Traced.value_pure, Expr.resolve_again,
      Traced.settled_bind, Traced.settled_pure]
  | ifThen s c t iht =>
    simp only [Stmt.check, Traced.value_bind, Traced.value_pure, Expr.resolve_again, iht,
      Check.settled_scalar, Traced.settled_bind, Traced.settled_pure]
  | ifElse s c t e iht ihe =>
    simp only [Stmt.check, Traced.value_bind, Traced.value_pure, Expr.resolve_again, iht, ihe,
      Check.settled_scalar, Traced.settled_bind, Traced.settled_pure]
  | whileLoop s c b ih =>
    simp only [Stmt.check, Traced.value_bind, Traced.value_pure, Expr.resolve_again, ih,
      Check.settled_scalar, Traced.settled_bind, Traced.settled_pure]
  | doWhile s b c ih =>
    simp only [Stmt.check, Traced.value_bind, Traced.value_pure, Expr.resolve_again, ih,
      Check.settled_scalar, Traced.settled_bind, Traced.settled_pure]
  | forLoop s i c n b ih =>
    simp only [Stmt.check, Traced.value_bind, Traced.value_pure, Expr.resolve?_again, ih,
      Check.settled_scalar?, Traced.settled_bind, Traced.settled_pure]
  -- the arms are checked as a list, each of them a block
  | switch s e cs ih =>
    have hcs := Traced.mapM_again fun c hc => Case.check_again_of (Block.check_again_of (ih c hc))
    simp only [Stmt.check, Traced.value_bind, Traced.value_pure, Expr.resolve_again,
      Stmt.checkCases_eq, Traced.value_mapM, hcs, Check.settled_scalar, Traced.settled_bind,
      Traced.settled_pure]
  | returns s e => exact Stmt.check_returns_again s e
  | breaks s => rfl
  | continues s => rfl
  | goto s l => rfl
  | label s n b ih =>
    simp only [Stmt.check, Traced.value_bind, Traced.value_pure, ih, Traced.settled_bind,
      Traced.settled_pure]
  | empty s => rfl

/-- Whatever is wrong with a signature is wrong the second time. -/
theorem Function.settled_checkSignature (f : Function) :
    f.checkSignature.settled = f.checkSignature := by
  have hr : (f.resultProblem?.map (Event.found · f.span)).toList.filter Event.lasting =
      (f.resultProblem?.map (Event.found · f.span)).toList := by
    cases h : f.result <;> simp [resultProblem?, h, Event.lasting]
  rw [checkSignature, Traced.settled, List.filter_append, hr, List.filter_map]
  simp [Function.comp_def, Event.lasting]

/-- A checked function is left alone by a second check. -/
theorem Function.check_again (d : Declarations) (f : Function) :
    (f.check d).value.check d = (f.check d).settled := by
  have hb := Block.check_again_of fun s (_ : s ∈ f.body.stmts) => Stmt.check_again d f.result s
  rw [Function.value_check, Function.check, hb, Function.check]
  simp only [Traced.settled_bind, Traced.settled_note, settled_checkSignature, Traced.settled_pure]
  rfl

/-- **A checked program is left alone.** -/
theorem Program.check_again (d : Declarations) (p : Program) :
    (p.check d).value.check d = (p.check d).settled := by
  have hv := Traced.mapM_again fun v (_ : v ∈ p.globals) => Variable.check_again d v
  have hf := Traced.mapM_again fun f (_ : f ∈ p.functions) => Function.check_again d f
  rw [Program.value_check]
  simp only [Program.check, Variable.checkList_eq, Function.checkList_eq, hv, hf,
    Traced.settled_bind, Traced.settled_pure]

end CTyping
