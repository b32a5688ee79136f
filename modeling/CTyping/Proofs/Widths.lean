import CTyping.Proofs.Checker.Slots
import CTyping.Proofs.Recheck
import CTyping.Proofs.Tree.Nodes

/-!
# Widths after an analysis

An analysis for a data model leaves no integer type of another width than that of its kind, wherever
in the program and however deep in a type it stands. That a type is sized is said of the integer
types that it contains (`CTyping.Ty.sized_iff`); here it is said of all types that a program lists
(`CTyping.Program.sized_iff_types`).
-/

namespace CTyping

variable {m : DataModel}

/-! ### Types in a program -/

section Types

variable {P : Ty → Prop}

theorem Expr.typesList_eq (es : List Expr) : typesList es = es.flatMap types := by
  induction es with
  | nil => rfl
  | cons e es ih => rw [typesList, ih, List.flatMap_cons]

/-- The types of an expression are those of the node and those of its operands. -/
theorem Expr.types_eq (e : Expr) : e.types = e.ownTypes ++ e.children.flatMap types := by
  cases e <;> simp [types, children, typesList_eq]

/-- What holds of all types of an expression holds of those of every node. -/
theorem Expr.forall_mem_types_iff (e : Expr) :
    (∀ t ∈ e.types, P t) ↔ e.Everywhere fun n => ∀ t ∈ n.ownTypes, P t := by
  induction e using inductionOnChildren with
  | node e ih =>
    rw [types_eq, everywhere_iff, List.forall_mem_append, List.forall_mem_flatMap]
    exact and_congr Iff.rfl (forall₂_congr ih)

/-- An expression is sized if and only if all types in it are. -/
theorem Expr.sized_iff_types (e : Expr) : e.Sized m ↔ ∀ t ∈ e.types, t.Sized m :=
  e.forall_mem_types_iff.symm

/-- A variable is sized if and only if all types in it are. -/
theorem Variable.sized_iff_types (v : Variable) : v.Sized m ↔ ∀ t ∈ v.types, t.Sized m := by
  have hinit : (∀ t ∈ v.initializer.toList.flatMap Expr.types, t.Sized m) ↔
      ∀ e ∈ v.initializer, e.Sized m := by
    rw [List.forall_mem_flatMap]
    simp only [Option.mem_toList, Option.mem_def, ← Expr.sized_iff_types]
  rw [types, List.forall_mem_cons, hinit]
  exact ⟨fun h => ⟨h.type, h.initializer⟩, fun h => ⟨h.1, h.2⟩⟩

theorem Demands.listed_types_eq :
    Demands.listed Variable.types Expr.types (Ty.Sized m) = .sized m := by
  rw [Demands.listed, Demands.sized]
  congr 1
  · funext v
    exact propext v.sized_iff_types.symm
  · funext e
    exact propext e.sized_iff_types.symm
  · funext e
    exact propext e.sized_iff_types.symm
  · funext o
    exact propext (forall₂_congr fun e _ => e.sized_iff_types.symm)

/-- A function is sized if and only if all types in it are. -/
theorem Function.sized_iff_types (f : Function) : f.Sized m ↔ ∀ t ∈ f.types, t.Sized m := by
  rw [types, List.cons_append, List.forall_mem_cons, List.forall_mem_append, List.forall_mem_map,
    Block.forall_mem_collect_iff, Demands.listed_types_eq]
  exact ⟨fun h => ⟨h.result, h.params, h.body⟩, fun h => ⟨h.1, h.2.1, h.2.2⟩⟩

/-- There is nothing to fill in in a record if and only if the types of its members are sized. -/
theorem Record.sized_iff_types (r : Record) :
    r.mapTypes m.normalize = r ↔ ∀ t ∈ r.members.map (·.type), t.Sized m := by
  rw [List.forall_mem_map]
  constructor
  · intro h x hx
    -- the members are changed one by one, and none is changed
    have hmembers : r.members.map (fun x => { x with type := m.normalize x.type }) = r.members :=
      congrArg Record.members h
    have hx' := List.map_inj_left.mp (hmembers.trans (List.map_id r.members).symm) x hx
    exact congrArg Member.type hx'
  · intro h
    have hmembers : r.members.map (fun x => { x with type := m.normalize x.type }) = r.members := by
      refine list_map_eq_self fun x hx => ?_
      rw [show m.normalize x.type = x.type from h x hx]
    rw [mapTypes, hmembers]

/-- A program is sized if all types that it lists are. -/
theorem Program.sized_iff_types (p : Program) : p.Sized m ↔ ∀ t ∈ p.types, t.Sized m := by
  rw [types, List.forall_mem_append, List.forall_mem_append, List.forall_mem_flatMap,
    List.forall_mem_flatMap, List.forall_mem_flatMap, and_assoc]
  simp only [← Record.sized_iff_types, ← Variable.sized_iff_types, ← Function.sized_iff_types]
  exact ⟨fun h => ⟨h.records, h.globals, h.functions⟩, fun h => ⟨h.1, h.2.1, h.2.2⟩⟩

/-- Normalizing leaves exactly those programs alone that are sized. -/
theorem Program.mapTypes_eq_self_iff (p : Program) : p.mapTypes m.normalize = p ↔ p.Sized m :=
  ⟨fun h => h ▸ p.sized_mapTypes, Sized.mapTypes_eq⟩

end Types

/-! ### Analyses -/

/-- What an analysis leaves is sized, unless it found its input invalid. -/
theorem Program.sized_analyze {p : Program} {j : Journal}
    (h : ∀ text, (p.analyze m j).outcome ≠ .error (.invalidInput text)) :
    (p.analyze m j).program.Sized m := by
  cases hd : Declarations.ofRecords m p.records with
  | error fault =>
    obtain ⟨text, ht⟩ := analyze_invalidInput_iff (j := j).mpr ⟨fault, hd⟩
    exact absurd ht (h text)
  | ok d =>
    obtain ⟨rfl, hs, -⟩ := Declarations.ofRecords_eq_ok hd
    rw [(analyze_of_ofRecords hd j).1]
    exact p.sized_mapTypes.check hs

/-- **An analysis leaves the widths of its data model.** Unless the input is found invalid, every
integer type in any type of the program that is left has the width that the model gives to its kind.
For any program this is to say that normalizing its types changes nothing. -/
theorem analysis_leaves_widths_of_model {m : DataModel} {p : Program} {j : Journal}
    (h : ∀ text, (p.analyze m j).outcome ≠ .error (.invalidInput text)) :
    (∀ t ∈ (p.analyze m j).program.types, t.HasWidths m) ∧
      (p.analyze m j).program.mapTypes m.normalize = (p.analyze m j).program ∧
      ∀ q : Program, q.mapTypes m.normalize = q ↔ ∀ t ∈ q.types, t.HasWidths m := by
  have hiff : ∀ q : Program, q.mapTypes m.normalize = q ↔ ∀ t ∈ q.types, t.HasWidths m := by
    intro q
    rw [q.mapTypes_eq_self_iff, q.sized_iff_types]
    exact forall₂_congr fun t _ => t.sized_iff
  have hleft : (p.analyze m j).program.mapTypes m.normalize = (p.analyze m j).program :=
    (Program.sized_analyze h).mapTypes_eq
  exact ⟨(hiff _).mp hleft, hleft, hiff⟩

/-- All integers of this program have no width at all, also those in its slots. Of what is left, the
result of the function has 8 bytes, and so has what the member gives that is called, for which it
takes an array of single bytes. -/
theorem analysis_leaves_widths_of_model_uniform :
    let p := uniform 0 (some (.int ⟨.long, true, 0⟩))
    let left := (p.analyze .lp64 .empty).program
    (∀ text, (p.analyze .lp64 .empty).outcome ≠ .error (.invalidInput text)) ∧
      ¬p.mapTypes DataModel.lp64.normalize = p ∧ (∀ t ∈ left.types, t.HasWidths .lp64) ∧
      left.functions.map (·.result) = [.int ⟨.long, false, 8⟩] ∧
      left.records = [⟨0, "s", false, [⟨"m", .ptr (.func (.int ⟨.long, false, 8⟩)
        [.array (.int ⟨.char, true, 1⟩) none] false)⟩]⟩] ∧
      .int ⟨.long, false, 8⟩ ∈ left.types := by
  intro p left
  have h : ∀ text, (p.analyze .lp64 .empty).outcome ≠ .error (.invalidInput text) := by
    intro text ht
    obtain ⟨fault, hf⟩ := Program.analyze_invalidInput_iff.mp ⟨text, ht⟩
    cases hf
  obtain ⟨hleft, -, hiff⟩ := analysis_leaves_widths_of_model h
  have hchanged : ¬p.mapTypes DataModel.lp64.normalize = p := by
    intro he
    have hchar : (Ty.int ⟨.char, true, 0⟩).HasWidths .lp64 := (hiff p).mp he _ (by decide)
    exact absurd (hchar _ .int) (by decide)
  exact ⟨h, hchanged, hleft, rfl, rfl, by decide⟩

end CTyping
