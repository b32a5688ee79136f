import CTyping.Proofs.Checker.Statements
import CTyping.Proofs.Typing.Expr

/-!
# Checked programs are the well typed ones

What the checker accepts in the parts of a program is what typing demands of them, so a check is
clean exactly when the program is well typed (`CTyping.Program.clean_check_iff`).
-/

namespace CTyping

variable {d : Declarations}

/-! ### Signatures -/

/-- The check of a signature finds nothing if and only if the signature is sound. -/
theorem Function.clean_checkSignature_iff {f : Function} :
    f.checkSignature.clean = true ↔ f.Sound := by
  have hr : (f.resultProblem?.map (Event.found · f.span)).toList.all (fun e => !e.isError) = true ↔
      f.result.isArray = false ∧ f.result.isRecord = false := by
    cases h : f.result <;>
      simp [resultProblem?, h, Event.isError, Problem.severity, Ty.isArray, Ty.isRecord,
        Ty.isStruct, Ty.isUnion]
  have hp : ((f.params.filter (·.type.isAggregate)).map fun p =>
      Event.found (.parameterType p.type) p.span).all (fun e => !e.isError) = true ↔
      ∀ p ∈ f.params, p.type.isAggregate = false := by
    simp [List.all_eq_true, Event.isError, Problem.severity]
  rw [Traced.clean, checkSignature, List.all_append, Bool.and_eq_true, hr, hp]
  exact ⟨fun h => ⟨h.1, h.2⟩, fun h => ⟨h.1, h.2⟩⟩

/-! ### Programs -/

/-- The check of a variable finds nothing if and only if the variable is well typed. -/
theorem Variable.clean_check_iff_wellTyped {v : Variable} :
    (v.check d).clean = true ↔ v.WellTyped d := by
  rw [Variable.clean_check_iff, Variable.WellTyped]
  refine forall₂_congr fun e _ => ⟨?_, ?_⟩
  · rintro ⟨he, ha, hc⟩
    exact ⟨_, Expr.hasType_of_clean he, ha, hc⟩
  · rintro ⟨t, ht, ha, hc⟩
    obtain ⟨he, rfl⟩ := ht.resolves
    exact ⟨he, ha, hc⟩

/-- What the checker accepts is what typing demands. -/
theorem Block.meets_accepted_iff {result : Ty} {b : Block} :
    b.Meets (.accepted d result) ↔ b.Meets (.typing d result) := by
  constructor
  · refine Block.Meets.imp (fun v => Variable.clean_check_iff_wellTyped.mp) ?_ ?_ ?_
    · exact fun e he => ⟨_, Expr.hasType_of_clean he⟩
    · exact fun e he => ⟨_, Expr.hasType_of_clean he.1, he.2⟩
    · rintro (_ | e) he
      · exact he
      · exact ⟨he.1, _, Expr.hasType_of_clean he.2.1, he.2.2⟩
  · refine Block.Meets.imp (fun v => Variable.clean_check_iff_wellTyped.mpr) ?_ ?_ ?_
    · rintro e ⟨t, ht⟩
      exact ht.resolves.1
    · rintro e ⟨t, ht, hs⟩
      obtain ⟨he, rfl⟩ := ht.resolves
      exact ⟨he, hs⟩
    · rintro (_ | e) he
      · exact he
      · obtain ⟨hv, t, ht, hc⟩ := he
        obtain ⟨he, rfl⟩ := ht.resolves
        exact ⟨hv, he, hc⟩

/-- The check of a function finds nothing if and only if the function is well typed. -/
theorem Function.clean_check_iff {f : Function} : (f.check d).clean = true ↔ f.WellTyped d := by
  rw [clean_check, clean_checkSignature_iff, Block.clean_check_iff, Block.meets_accepted_iff]
  exact ⟨fun h => ⟨h.1, h.2⟩, fun h => ⟨h.1, h.2⟩⟩

/-- The check of a program finds nothing if and only if the program is well typed. -/
theorem Program.clean_check_iff {p : Program} : (p.check d).clean = true ↔ p.WellTyped d := by
  simp only [clean_check, Variable.clean_check_iff_wellTyped, Function.clean_check_iff]
  exact ⟨fun h => ⟨h.1, h.2⟩, fun h => ⟨h.1, h.2⟩⟩

end CTyping
