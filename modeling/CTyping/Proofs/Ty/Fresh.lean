import CTyping.Proofs.Ty.Lookup

/-!
# Ids of new declarations

A definition takes the next id, and the next id moves on past every id that is taken, be it by a
definition or by a registration. As long as this goes on, all declarations have ids of their own
below the next one (`CTyping.Declarations.Ahead`), and a definition makes a new declaration beside
those that are there (`CTyping.Declarations.DefinesNew`).

The next id stops at the largest one. A registration refuses that id, a definition takes it; after
that there is no id left (`CTyping.Declarations.Exhausted`), and each further definition takes the
place of the one before. Declarations are always in one of these two states.
-/

namespace CTyping

/-- The type of a record refers to its id and its name. -/
theorem Record.record?_type (r : Record) : r.type.record? = some ⟨r.id, r.name⟩ := by
  unfold type
  split <;> rfl

namespace Declarations

variable {d d' : Declarations} {r : Record} {name : String} {isUnion : Bool} {members : List Member}

/-- Declarations as they come about: from none, by definitions and by registrations in any order. A
registration counts also where it stops at a declaration that is refused. -/
inductive Reached : Declarations → Prop
  | empty (model : DataModel) : Reached (empty model)
  | define {d : Declarations} (before : d.Reached) (name : String) (isUnion : Bool)
    (members : List Member) : Reached (d.define name isUnion members).2
  | register {d : Declarations} (before : d.Reached) (rs : List Record) : Reached (d.register rs).1

/-! ### Ids in order -/

/-- The largest id as a number. -/
theorem toNat_maxId : maxId.toNat = 4294967295 := rfl

/-- No id is above the largest one. -/
theorem le_maxId (id : UInt32) : id ≤ maxId := by
  have hlt := id.toNat_lt
  rw [UInt32.le_iff_toNat_le, toNat_maxId]
  omega

/-- The id after an id is above it, unless that was the largest. -/
theorem lt_add_one {id : UInt32} (h : id ≠ maxId) : id < id + 1 := by
  have hne : id.toNat ≠ maxId.toNat := fun he => h (UInt32.toNat_inj.mp he)
  have hlt := id.toNat_lt
  have hone : (1 : UInt32).toNat = 1 := rfl
  rw [toNat_maxId] at hne
  rw [UInt32.lt_iff_toNat_lt, UInt32.toNat_add]
  omega

/-- The greater of two ids, as it is computed. -/
theorem max_eq (a b : UInt32) : max a b = if a ≤ b then b else a := rfl

/-! ### The two states -/

/-- Each declaration has an id of its own below the next one. -/
structure Ahead (d : Declarations) : Prop where
  nodup : (d.records.map Record.id).Nodup
  below : ∀ r ∈ d.records, r.id < d.nextId

/-- The largest id is taken, and is still the next one. -/
structure Exhausted (d : Declarations) : Prop where
  nextId : d.nextId = maxId
  taken : (d.find? maxId).isSome = true

/-- As long as the next id is ahead of all others, nothing is declared under it. -/
theorem Ahead.find?_nextId (h : d.Ahead) : d.find? d.nextId = none := by
  refine List.find?_eq_none.mpr fun r hr he => ?_
  exact UInt32.lt_irrefl _ (beq_iff_eq.mp he ▸ h.below r hr)

/-- As long as the next id is ahead of all others, nothing is declared under the largest id. -/
theorem Ahead.find?_maxId (h : d.Ahead) : d.find? maxId = none := by
  refine List.find?_eq_none.mpr fun r hr he => ?_
  have hlt : maxId < d.nextId := beq_iff_eq.mp he ▸ h.below r hr
  exact UInt32.not_le.mpr hlt (le_maxId d.nextId)

/-- Where ids are not shared, each declaration is found under its own. -/
theorem Ahead.find?_id (h : d.Ahead) (hr : r ∈ d.records) : d.find? r.id = some r := by
  obtain ⟨s, hs⟩ : ∃ s, d.find? r.id = some s := by
    rw [← Option.isSome_iff_exists, find?, List.find?_isSome]
    exact ⟨r, hr, beq_self_eq_true _⟩
  have hid : s.id = r.id := by simpa using List.find?_some hs
  rw [hs, List.inj_on_of_nodup_map h.nodup (List.mem_of_find?_eq_some hs) hr hid]

/-- One more declaration, under an id that is not taken and below the next one. -/
theorem Ahead.cons (h : d.Ahead) (hrecords : d'.records = r :: d.records)
    (hnew : d.find? r.id = none) (hlt : r.id < d'.nextId) (hle : d.nextId ≤ d'.nextId) :
    d'.Ahead where
  nodup := by
    rw [hrecords, List.map_cons, List.nodup_cons]
    refine ⟨fun hmem => ?_, h.nodup⟩
    obtain ⟨s, hs, he⟩ := List.mem_map.mp hmem
    rw [← he, h.find?_id hs] at hnew
    cases hnew
  below := by
    rw [hrecords]
    exact List.forall_mem_cons.mpr ⟨hlt, fun s hs => UInt32.lt_of_lt_of_le (h.below s hs) hle⟩

/-- More declarations do not give the largest id back. -/
theorem Exhausted.cons (h : d.Exhausted) (hrecords : d'.records = r :: d.records)
    (hnext : d'.nextId = maxId) : d'.Exhausted where
  nextId := hnext
  taken := by
    rw [find?_of_records hrecords]
    split
    · rfl
    · exact h.taken

/-! ### Steps and histories -/

/-- A definition keeps the next id ahead, or takes the last one there is. -/
theorem Ahead.define (h : d.Ahead) (name : String) (isUnion : Bool) (members : List Member) :
    (d.define name isUnion members).2.Ahead ∨ (d.define name isUnion members).2.Exhausted := by
  have hrecords : (d.define name isUnion members).2.records =
      ⟨d.nextId, name, isUnion, members⟩ :: d.records := rfl
  by_cases hmax : d.nextId = maxId
  · -- the largest id is taken, and the next id stays where it is
    right
    have hnext : (d.define name isUnion members).2.nextId = maxId := if_pos hmax
    refine ⟨hnext, ?_⟩
    rw [find?_of_records hrecords, if_pos hmax]
    rfl
  · left
    have hnext : (d.define name isUnion members).2.nextId = d.nextId + 1 := if_neg hmax
    have hlt := lt_add_one hmax
    refine h.cons hrecords h.find?_nextId ?_ ?_
    · rw [hnext]
      exact hlt
    · rw [hnext]
      exact UInt32.le_of_lt hlt

/-- Once the ids have run out, a definition does not bring any back. -/
theorem Exhausted.define (h : d.Exhausted) (name : String) (isUnion : Bool)
    (members : List Member) : (d.define name isUnion members).2.Exhausted :=
  h.cons rfl (if_pos h.nextId)

/-- A declaration that is taken moves the next id past its own. -/
theorem nextId_add (ha : d.add r = .ok d') : r.id < d'.nextId ∧ d.nextId ≤ d'.nextId := by
  obtain ⟨-, hmax, rfl⟩ := add_eq_ok_iff.mp ha
  change r.id < max d.nextId (r.id + 1) ∧ d.nextId ≤ max d.nextId (r.id + 1)
  rw [max_eq]
  split
  · exact ⟨lt_add_one hmax, by assumption⟩
  · rename_i hle
    exact ⟨UInt32.lt_trans (lt_add_one hmax) (UInt32.not_le.mp hle), UInt32.le_refl _⟩

/-- Adding a record keeps the next id ahead. -/
theorem Ahead.add (h : d.Ahead) (ha : d.add r = .ok d') : d'.Ahead := by
  obtain ⟨hlt, hle⟩ := nextId_add ha
  obtain ⟨hnew, -, rfl⟩ := add_eq_ok_iff.mp ha
  exact h.cons rfl hnew hlt hle

/-- Once the ids have run out, adding a record does not bring any back. -/
theorem Exhausted.add (h : d.Exhausted) (ha : d.add r = .ok d') : d'.Exhausted := by
  obtain ⟨-, -, rfl⟩ := add_eq_ok_iff.mp ha
  refine h.cons rfl ?_
  change max d.nextId (r.id + 1) = maxId
  rw [h.nextId, max_eq]
  split
  · exact UInt32.le_antisymm (le_maxId _) (by assumption)
  · rfl

/-- What each declaration that is taken preserves, a registration preserves. -/
theorem register_induction {P : Declarations → Prop} (h : P d)
    (step : ∀ {d d' r}, d.add r = .ok d' → P d → P d') (rs : List Record) :
    P (d.register rs).1 := by
  induction rs generalizing d with
  | nil => exact h
  | cons r rs ih =>
    rw [register]
    cases ha : d.add r with
    | ok d₁ => exact ih (step ha h)
    | error fault => exact h

/-- **Ids are ahead of all declarations, or they have run out.** -/
theorem Reached.ahead_or_exhausted (h : d.Reached) : d.Ahead ∨ d.Exhausted := by
  induction h with
  | empty model => exact Or.inl ⟨List.nodup_nil, List.forall_mem_nil _⟩
  | define before name isUnion members ih =>
    rcases ih with h | h
    · exact h.define name isUnion members
    · exact Or.inr (h.define name isUnion members)
  | register before rs ih => exact register_induction ih (fun ha => Or.imp (·.add ha) (·.add ha)) rs

/-! ### New declarations -/

/-- The type of a record is looked up by its id alone. -/
theorem lookup_type (d : Declarations) (r : Record) : d.lookup r.type = d.find? r.id := by
  rw [lookup, Record.record?_type, Option.bind_some]

/-- The type that a definition gives has the next id. -/
theorem nextId_eq_of_type_define (h : (d.define name isUnion members).1 = r.type) :
    d.nextId = r.id := by
  have href := congrArg Ty.record? h
  rw [define, Record.record?_type, Record.record?_type, Option.some.injEq,
    RecordRef.mk.injEq] at href
  exact href.1

/-- A definition hides what had its id before, and nothing else. -/
theorem find?_define (d : Declarations) (name : String) (isUnion : Bool) (members : List Member)
    (id : UInt32) :
    (d.define name isUnion members).2.find? id =
      if d.nextId = id then some ⟨d.nextId, name, isUnion, members⟩ else d.find? id :=
  find?_of_records (r := ⟨d.nextId, name, isUnion, members⟩) rfl id

/-- **A definition makes a new declaration**: what it declares gets an id that none has yet, and its
type is that of no other; it is found under its type, and all others under theirs as before. -/
structure DefinesNew (d : Declarations) (name : String) (isUnion : Bool) (members : List Member) :
    Prop where
  made : ∃ r : Record, r.name = name ∧ r.isUnion = isUnion ∧ r.members = members ∧
    d.find? r.id = none ∧ (d.define name isUnion members).1 = r.type ∧
    (d.define name isUnion members).2.lookup r.type = some r
  other : ∀ r ∈ d.records, (d.define name isUnion members).1 ≠ r.type
  kept : ∀ r ∈ d.records, d.lookup r.type = some r ∧
    (d.define name isUnion members).2.lookup r.type = some r

/-- While the next id is ahead, a definition is new: it stands under an id of its own, and all
others stay. -/
theorem Ahead.definesNew (h : d.Ahead) (name : String) (isUnion : Bool) (members : List Member) :
    d.DefinesNew name isUnion members where
  made := by
    refine ⟨⟨d.nextId, name, isUnion, members⟩, rfl, rfl, rfl, h.find?_nextId, rfl, ?_⟩
    rw [lookup_type, find?_define, if_pos rfl]
  other r hr he := by
    have hid := nextId_eq_of_type_define he
    exact UInt32.lt_irrefl _ (hid ▸ h.below r hr)
  kept r hr := by
    have hid : d.nextId ≠ r.id := fun he => UInt32.lt_irrefl _ (he ▸ h.below r hr)
    rw [lookup_type, lookup_type, find?_define, if_neg hid]
    exact ⟨h.find?_id hr, h.find?_id hr⟩

/-- Once ids have run out, a definition takes the place of what has the largest id. -/
theorem Exhausted.lookup_define (h : d.Exhausted) {r : Record} (hr : r.id = maxId) (name : String)
    (isUnion : Bool) (members : List Member) :
    (d.define name isUnion members).2.lookup r.type = some ⟨maxId, name, isUnion, members⟩ := by
  rw [lookup_type, find?_define, h.nextId, if_pos hr.symm]

/-- Once the ids have run out, no definition is new. -/
theorem Exhausted.not_definesNew (h : d.Exhausted) : ¬d.DefinesNew name isUnion members := by
  rintro ⟨⟨r, -, -, -, hnew, htype, -⟩, -, -⟩
  -- the id of the type is the largest one, which is taken
  have htaken := h.taken
  rw [← h.nextId, nextId_eq_of_type_define htype, hnew] at htaken
  cases htaken

/-- **A definition makes a new declaration until the largest id is taken.** Whatever definitions and
registrations there were before, the next definition makes a declaration with an id of its own,
which is found under its type beside all earlier ones, if and only if no declaration has the largest
id. If one has, the next definition takes its place. -/
theorem definition_is_new_until_ids_run_out (h : d.Reached) (name : String) (isUnion : Bool)
    (members : List Member) :
    (d.DefinesNew name isUnion members ↔ d.find? maxId = none) ∧
      ∀ r, d.find? maxId = some r →
        (d.define name isUnion members).2.lookup r.type =
          some ⟨maxId, name, isUnion, members⟩ := by
  -- the next id is ahead of all others, or it is the largest one and taken
  rcases h.ahead_or_exhausted with h | h
  · refine ⟨iff_of_true (h.definesNew name isUnion members) h.find?_maxId, fun r hr => ?_⟩
    rw [h.find?_maxId] at hr
    cases hr
  · refine ⟨iff_of_false h.not_definesNew ?_, fun r hr => ?_⟩
    · exact Option.isSome_iff_ne_none.mp h.taken
    · have hid : r.id = maxId := by simpa using List.find?_some hr
      exact h.lookup_define hid name isUnion members

/-- One registered declaration with the last id that can be registered. -/
def brimful : Declarations := ((empty .lp64).register [⟨0xFFFFFFFE, "s", false, []⟩]).1

/-- Such declarations come about by registering. -/
theorem reached_brimful : brimful.Reached := .register (.empty .lp64) _

theorem definition_is_new_until_ids_run_out_brimful :
    brimful.Reached ∧ brimful.find? maxId = none ∧ brimful.DefinesNew "a" false [] := by
  have h : brimful.find? maxId = none := by decide
  obtain ⟨hiff, -⟩ := definition_is_new_until_ids_run_out reached_brimful "a" false []
  exact ⟨reached_brimful, h, hiff.mpr h⟩

/-- The second definition after `brimful` has the id of the first, and is found in its place. -/
theorem two_definitions_share_the_largest_id :
    let after := (brimful.define "a" false []).2
    after.Reached ∧ ¬after.DefinesNew "b" false [] ∧
      after.lookup (brimful.define "a" false []).1 = some ⟨maxId, "a", false, []⟩ ∧
      (after.define "b" false []).2.lookup (brimful.define "a" false []).1 =
        some ⟨maxId, "b", false, []⟩ := by
  intro after
  have h : after.Exhausted := ⟨by decide, by decide⟩
  exact ⟨reached_brimful.define "a" false [], h.not_definesNew, by decide, by decide⟩

end Declarations

end CTyping
