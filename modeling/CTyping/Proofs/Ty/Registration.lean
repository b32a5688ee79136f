import CTyping.Proofs.Ty.Fresh
import CTyping.Proofs.Ty.Layout

/-!
# Registering a list of declarations

A registration takes the declarations of a list one after the other and ends at the first that it
has to refuse. Which one that is can be read off the list and the declarations that are there
before (`CTyping.Declarations.Stops`): the first whose id is taken, by one of these or by an earlier
one of the list, or is the largest id. What comes before it is taken as if it were the whole list,
and what a list that is taken as a whole changes is `CTyping.Declarations.ExtendedBy`.

The declarations before may be any; it does not matter how they came about.
-/

namespace CTyping.Declarations

variable {d d₁ d' : Declarations} {r s : Record} {rs before : List Record} {k : Nat}

/-! ### Where a registration ends -/

/-- The id of a declaration is taken: by a declaration that is there, or by one that comes before it
in its list. -/
def Clashes (d : Declarations) (before : List Record) (r : Record) : Prop :=
  (d.find? r.id).isSome = true ∨ ∃ s ∈ before, s.id = r.id

/-- A position in a list whose declaration is refused once those before it are taken. -/
def Stops (d : Declarations) (rs : List Record) (k : Nat) : Prop :=
  ∃ r, rs[k]? = some r ∧ (d.Clashes (rs.take k) r ∨ r.id = maxId)

instance : Decidable (d.Clashes before r) :=
  inferInstanceAs (Decidable ((d.find? r.id).isSome = true ∨ ∃ s ∈ before, s.id = r.id))

instance : Decidable (d.Stops rs k) :=
  inferInstanceAs (Decidable (∃ r ∈ rs[k]?, d.Clashes (rs.take k) r ∨ r.id = maxId))

/-- Where no record was given before, a clash is one with what was declared already. -/
theorem clashes_nil : d.Clashes [] r ↔ (d.find? r.id).isSome = true := by
  simp [Clashes]

/-- What stops a registration of the first declarations of a list stops that of the list. -/
theorem Stops.of_take {i : Nat} (h : d.Stops (rs.take k) i) : i < k ∧ d.Stops rs i := by
  obtain ⟨r, hr, hbad⟩ := h
  rw [List.getElem?_take] at hr
  split at hr
  · rename_i hi
    rw [List.take_take, Nat.min_eq_left (Nat.le_of_lt hi)] at hbad
    exact ⟨hi, r, hr, hbad⟩
  · cases hr

/-! ### One declaration -/

/-- A record that clashes is a duplicate. -/
theorem add_of_clashes (h : d.Clashes [] r) : d.add r = .error (.duplicate r) := by
  rw [add, if_pos (clashes_nil.mp h)]

/-- The largest id is looked at only if it is not taken. -/
theorem add_of_maxId (h : ¬d.Clashes [] r) (hmax : r.id = maxId) :
    d.add r = .error (.outOfRange r) := by
  rw [add, if_neg fun hid => h (clashes_nil.mpr hid), if_pos hmax]

/-- A record that does not clash is added, unless its id is the largest one. -/
theorem add_of_not_clashes (h : ¬d.Clashes [] r) (hmax : r.id ≠ maxId) :
    ∃ d', d.add r = .ok d' := by
  have hid : d.find? r.id = none := by
    rw [clashes_nil, Bool.not_eq_true, Option.isSome_eq_false_iff, Option.isNone_iff_eq_none] at h
    exact h
  obtain ⟨d', hadd, -, -⟩ := add_of_new hid hmax
  exact ⟨d', hadd⟩

/-! ### Lists that are taken as a whole -/

/-- **What a list of declarations that is taken changes**: each of them is found under its id, with
its members in their order and under their names, their types the same but for the widths, which are
those of the data model; under other ids the same is found as before; and the next id is above all
of theirs. -/
structure ExtendedBy (d : Declarations) (rs : List Record) (d' : Declarations) : Prop where
  model : d'.model = d.model
  found : ∀ r ∈ rs, ∃ s, d'.find? r.id = some s ∧ r.LaidOut d.model s
  kept : ∀ id, (∀ r ∈ rs, r.id ≠ id) → d'.find? id = d.find? id
  onward : d.nextId ≤ d'.nextId
  above : ∀ r ∈ rs, r.id < d'.nextId

/-- No records extend the declarations by nothing. -/
theorem extendedBy_nil (d : Declarations) : d.ExtendedBy [] d where
  model := rfl
  found := List.forall_mem_nil _
  kept _ _ := rfl
  onward := UInt32.le_refl _
  above := List.forall_mem_nil _

/-- A list is taken by taking its first declaration and then the others, which have other ids. -/
theorem ExtendedBy.cons (hadd : d.add s = .ok d₁) (h : d₁.ExtendedBy rs d')
    (hne : ∀ r ∈ rs, r.id ≠ s.id) : d.ExtendedBy (s :: rs) d' := by
  obtain ⟨hlt, hle⟩ := nextId_add hadd
  obtain ⟨-, -, hd₁⟩ := add_eq_ok_iff.mp hadd
  have hmodel : d₁.model = d.model := by rw [hd₁]
  -- only the id of `s` is looked up differently after `s` is added
  have hfind : ∀ id, d₁.find? id =
      if s.id = id then some (s.mapTypes d.model.normalize) else d.find? id :=
    find?_of_records (r := s.mapTypes d.model.normalize) (by rw [hd₁])
  refine ⟨h.model.trans hmodel, ?_, ?_, UInt32.le_trans hle h.onward, ?_⟩
  · refine List.forall_mem_cons.mpr ⟨?_, fun r hr => ?_⟩
    · -- `s` is not hidden by what is added after it
      rw [h.kept s.id hne, hfind, if_pos rfl]
      exact ⟨_, rfl, Record.laidOut_iff.mpr rfl⟩
    · rw [← hmodel]
      exact h.found r hr
  · intro id hid
    obtain ⟨hs, hrs⟩ := List.forall_mem_cons.mp hid
    rw [h.kept id hrs, hfind, if_neg hs]
  · exact List.forall_mem_cons.mpr ⟨UInt32.lt_of_lt_of_le hlt h.onward, h.above⟩

/-- Declarations that are taken count among those that are there. -/
theorem ExtendedBy.clashes_iff (h : d.ExtendedBy rs d') :
    d'.Clashes before r ↔ d.Clashes (rs ++ before) r := by
  by_cases hid : ∃ s ∈ rs, s.id = r.id
  · -- the id is that of one of them, so it is taken on either side
    obtain ⟨s, hs, he⟩ := hid
    refine iff_of_true (Or.inl ?_) (Or.inr ⟨s, List.mem_append_left before hs, he⟩)
    obtain ⟨s', hfound, -⟩ := h.found s hs
    rw [← he, hfound]
    rfl
  · have hne : ∀ s ∈ rs, s.id ≠ r.id := fun s hs he => hid ⟨s, hs, he⟩
    rw [Clashes, Clashes, h.kept r.id hne]
    refine or_congr_right ⟨?_, ?_⟩
    · rintro ⟨s, hs, he⟩
      exact ⟨s, List.mem_append_right rs hs, he⟩
    · rintro ⟨s, hs, he⟩
      rcases List.mem_append.mp hs with hs | hs
      · exact absurd he (hne s hs)
      · exact ⟨s, hs, he⟩

/-- Once the first declaration is taken, a registration goes on as that of the others. -/
theorem stops_cons_iff (hadd : d.add s = .ok d₁) :
    d₁.Stops rs k ↔ d.Stops (s :: rs) (k + 1) := by
  have hone : d.ExtendedBy [s] d₁ := (extendedBy_nil d₁).cons hadd (List.forall_mem_nil _)
  rw [Stops, Stops, List.getElem?_cons_succ, List.take_succ_cons]
  refine exists_congr fun r => and_congr_right fun _ => or_congr_left ?_
  exact hone.clashes_iff

/-- **A list is taken as a whole if no position stops the registration.** -/
theorem register_of_not_stops (h : ∀ k, ¬d.Stops rs k) :
    ∃ d', d.register rs = (d', none) ∧ d.ExtendedBy rs d' := by
  induction rs generalizing d with
  | nil => exact ⟨d, rfl, extendedBy_nil d⟩
  | cons s rs ih =>
    have hfirst : ¬d.Clashes [] s ∧ s.id ≠ maxId := by
      rw [← not_or]
      exact fun hbad => h 0 ⟨s, rfl, hbad⟩
    obtain ⟨d₁, hadd⟩ := add_of_not_clashes hfirst.1 hfirst.2
    obtain ⟨d', hreg, hext⟩ := ih fun k hk => h (k + 1) ((stops_cons_iff hadd).mp hk)
    refine ⟨d', ?_, hext.cons hadd ?_⟩
    · rw [register, hadd]
      exact hreg
    · -- one with the id of the first would have stopped the registration
      intro r hr he
      obtain ⟨k, hk⟩ := List.mem_iff_getElem?.mp hr
      refine h (k + 1) ⟨r, hk, Or.inl (Or.inr ⟨s, ?_, he.symm⟩)⟩
      rw [List.take_succ_cons]
      exact List.mem_cons_self

/-! ### Lists that are taken in part -/

/-- What is taken is as if the rest were registered afterwards. -/
theorem register_append {ss : List Record} (h : d.register rs = (d', none)) :
    d.register (rs ++ ss) = d'.register ss := by
  induction rs generalizing d with
  | nil =>
    obtain ⟨rfl, -⟩ := Prod.mk.inj h
    rfl
  | cons r rs ih =>
    rw [List.cons_append, register]
    rw [register] at h
    cases hadd : d.add r with
    | ok d₁ =>
      rw [hadd] at h
      exact ih h
    | error fault =>
      rw [hadd] at h
      cases (Prod.mk.inj h).2

/-- What is said of the declaration at which a registration ends: first of all that its id is
taken. -/
theorem register_of_stops (hext : d.ExtendedBy rs d') (hreg : d.register rs = (d', none))
    (r : Record) (ss : List Record) :
    (d.Clashes rs r → d.register (rs ++ r :: ss) = (d', some (.duplicate r))) ∧
      (¬d.Clashes rs r → r.id = maxId →
        d.register (rs ++ r :: ss) = (d', some (.outOfRange r))) := by
  have hclash : d'.Clashes [] r ↔ d.Clashes rs r := by
    rw [hext.clashes_iff, List.append_nil]
  rw [register_append hreg, register]
  refine ⟨fun h => ?_, fun h hmax => ?_⟩
  · rw [add_of_clashes (hclash.mpr h)]
  · rw [add_of_maxId (fun hc => h (hclash.mp hc)) hmax]

/-- **A registration ends at the first declaration that it has to refuse, and keeps what comes
before it.** If there is none, all declarations of the list are taken. If there is one, those before
it are taken as they would be without it and what follows, and it is named in the words for an id
that is taken, or if it is not taken, for one that is out of range. -/
theorem registration_ends_at_the_first_fault (d : Declarations) (rs : List Record) :
    ((∀ k, ¬d.Stops rs k) → ∃ d', d.register rs = (d', none) ∧ d.ExtendedBy rs d') ∧
      ∀ k r, rs[k]? = some r → d.Stops rs k → (∀ i < k, ¬d.Stops rs i) →
        ∃ d' fault, d.register (rs.take k) = (d', none) ∧ d.ExtendedBy (rs.take k) d' ∧
          d.register rs = (d', some fault) ∧
          (d.Clashes (rs.take k) r → fault.message =
            "duplicate type definition id " ++ toString r.id.toNat ++ " (" ++ r.name ++ ")") ∧
          (¬d.Clashes (rs.take k) r → fault.message =
            "type definition id " ++ toString r.id.toNat ++
              " out of range (" ++ r.name ++ ")") := by
  refine ⟨register_of_not_stops, fun k r hr hstop hfirst => ?_⟩
  -- no declaration before the `k`th stops the registration
  obtain ⟨d', hreg, hext⟩ : ∃ d', d.register (rs.take k) = (d', none) ∧
      d.ExtendedBy (rs.take k) d' :=
    register_of_not_stops fun i hi => hfirst i hi.of_take.1 hi.of_take.2
  have hsplit : rs = rs.take k ++ r :: rs.drop (k + 1) := by
    obtain ⟨hk, rfl⟩ := List.getElem?_eq_some_iff.mp hr
    rw [List.getElem_cons_drop, List.take_append_drop]
  obtain ⟨hdup, hrange⟩ := register_of_stops hext hreg r (rs.drop (k + 1))
  rw [← hsplit] at hdup hrange
  -- that its id is taken is asked before whether it is in range
  by_cases hc : d.Clashes (rs.take k) r
  · exact ⟨d', .duplicate r, hreg, hext, hdup hc, fun _ => rfl, fun hn => absurd hc hn⟩
  · have hmax : r.id = maxId := by
      obtain ⟨r', hr', hbad⟩ := hstop
      obtain rfl : r' = r := Option.some.inj (hr'.symm.trans hr)
      exact hbad.resolve_left hc
    exact ⟨d', .outOfRange r, hreg, hext, hrange hc hmax, fun h => absurd h hc, fun _ => rfl⟩

/-- A union whose members have odd widths. -/
def oddUnion : Record :=
  ⟨7, "t", true, [⟨"n", .int ⟨.long, true, 2⟩⟩, ⟨"p", .ptr (.int ⟨.char, false, 9⟩)⟩]⟩

/-- After the largest id is taken, a list whose second declaration has it too: the id is taken and
out of range at once, and the former is said. The first declaration is found with its members in
their order, the long one now of 8 bytes and what is pointed to of one, and under the largest id
there is what was there before. The third declaration has the id of the first and is not looked
at. -/
theorem registration_ends_at_the_first_fault_exhausted :
    let d := (brimful.define "a" false []).2
    let rs : List Record := [oddUnion, ⟨maxId, "u", false, []⟩, ⟨7, "v", false, []⟩]
    (∀ i < 1, ¬d.Stops rs i) ∧ d.Stops rs 1 ∧
      ∃ d' fault, d.register (rs.take 1) = (d', none) ∧ d.ExtendedBy (rs.take 1) d' ∧
        d'.find? 7 = some ⟨7, "t", true,
          [⟨"n", .int ⟨.long, true, 8⟩⟩, ⟨"p", .ptr (.int ⟨.char, false, 1⟩)⟩]⟩ ∧
        d'.find? maxId = some ⟨maxId, "a", false, []⟩ ∧ d.register rs = (d', some fault) ∧
        fault.message = "duplicate type definition id " ++ toString maxId.toNat ++ " (u)" := by
  intro d rs
  have hfirst : ∀ i < 1, ¬d.Stops rs i := by decide
  have hstop : d.Stops rs 1 := by decide
  obtain ⟨d', fault, hreg, hext, hall, hdup, -⟩ :=
    (registration_ends_at_the_first_fault d rs).2 1 ⟨maxId, "u", false, []⟩ rfl hstop hfirst
  have hunion : d'.find? 7 = some ⟨7, "t", true,
      [⟨"n", .int ⟨.long, true, 8⟩⟩, ⟨"p", .ptr (.int ⟨.char, false, 1⟩)⟩]⟩ := by
    obtain ⟨s, hs, hlaid⟩ := hext.found oddUnion List.mem_cons_self
    obtain rfl := Record.laidOut_iff.mp hlaid
    exact hs
  have hbefore : d'.find? maxId = some ⟨maxId, "a", false, []⟩ :=
    hext.kept maxId (by decide)
  exact ⟨hfirst, hstop, d', fault, hreg, hext, hunion, hbefore, hall, hdup (by decide)⟩

end CTyping.Declarations
