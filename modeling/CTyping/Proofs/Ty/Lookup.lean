import CTyping.Ty.Declarations
import Mathlib.Data.List.Nodup

/-!
# Looking up declarations

Declarations are looked up by their ids, so where no two have one id their order does not matter.
Declarations that give the same answers are *interchangeable*
(`CTyping.Declarations.Interchangeable`); a list of declarations is taken as a whole exactly if they
have different ids in range (`CTyping.Declarations.exists_ofRecords_iff`), and in any other order it
is taken as well and gives interchangeable declarations (`CTyping.Declarations.ofRecords_perm`).
-/

namespace CTyping

/-- Looking for the one element with a property gives the same whatever the order. -/
theorem find?_eq_of_perm {α : Type} {p : α → Bool} {xs ys : List α} (h : xs.Perm ys)
    (hone : ∀ a ∈ xs, ∀ b ∈ xs, p a → p b → a = b) : xs.find? p = ys.find? p := by
  cases hx : xs.find? p with
  | none =>
    symm
    rw [List.find?_eq_none] at hx ⊢
    exact fun a ha => hx a (h.mem_iff.mpr ha)
  | some a =>
    obtain ⟨b, hb⟩ : ∃ b, ys.find? p = some b := by
      rw [← Option.isSome_iff_exists, List.find?_isSome]
      exact ⟨a, h.mem_iff.mp (List.mem_of_find?_eq_some hx), List.find?_some hx⟩
    have hmem := h.mem_iff.mpr (List.mem_of_find?_eq_some hb)
    rw [hb, hone a (List.mem_of_find?_eq_some hx) b hmem (List.find?_some hx) (List.find?_some hb)]

namespace Declarations

variable {d d' : Declarations} {m : DataModel} {rs ss : List Record}

/-- Declarations for one data model that give the same answer for each id. -/
structure Interchangeable (d d' : Declarations) : Prop where
  model : d.model = d'.model
  find? : ∀ id, d.find? id = d'.find? id

/-- Members have the same types in interchangeable declarations. -/
theorem Interchangeable.memberType? (h : d.Interchangeable d') (t : Ty) (name : String) :
    d.memberType? t name = d'.memberType? t name := by
  simp only [Declarations.memberType?, lookup, h.find?]

/-! ### Lists that are taken as a whole -/

/-- Declarations of which each has an id of its own, and one with a next id after it. -/
structure Distinct (rs : List Record) : Prop where
  nodup : (rs.map Record.id).Nodup
  inRange : ∀ r ∈ rs, r.id ≠ maxId

/-- Whether ids are distinct does not depend on the order. -/
theorem Distinct.perm (h : Distinct rs) (hp : rs.Perm ss) : Distinct ss where
  nodup := (hp.map Record.id).nodup_iff.mp h.nodup
  inRange r hr := h.inRange r (hp.mem_iff.mpr hr)

theorem Distinct.tail {r : Record} (h : Distinct (r :: rs)) : Distinct rs where
  nodup := (List.nodup_cons.mp h.nodup).2
  inRange s hs := h.inRange s (List.mem_cons_of_mem r hs)

/-- What looking up finds where one declaration has been put before the others. -/
theorem find?_of_records {r : Record} (h : d'.records = r :: d.records) (id : UInt32) :
    d'.find? id = if r.id = id then some r else d.find? id := by
  rw [find?, h, List.find?_cons]
  by_cases hid : r.id = id
  · simp [hid]
  · simp [hid, find?, beq_false_of_ne hid]

/-- When a declaration is taken, and what that changes. -/
theorem add_eq_ok_iff {r : Record} :
    d.add r = .ok d' ↔ d.find? r.id = none ∧ r.id ≠ maxId ∧
      d' = { d with
        records := r.mapTypes d.model.normalize :: d.records
        nextId := max d.nextId (r.id + 1) } := by
  unfold add
  cases hfind : d.find? r.id with
  | some s => simp
  | none =>
    by_cases hmax : r.id = maxId
    · simp [hmax]
    · simp [hmax, eq_comm]

/-- A record under a new id is declared, with the widths of the data model filled in. -/
theorem add_of_new {r : Record} (hid : d.find? r.id = none) (hmax : r.id ≠ maxId) :
    ∃ d', d.add r = .ok d' ∧ d'.model = d.model ∧
      d'.records = r.mapTypes d.model.normalize :: d.records :=
  ⟨_, add_eq_ok_iff.mpr ⟨hid, hmax, rfl⟩, rfl, rfl⟩

/-- Declarations with ids of their own are all taken, if no earlier one has any of the ids. -/
theorem register_of_distinct (h : Distinct rs) (hnew : ∀ r ∈ rs, d.find? r.id = none) :
    ∃ d', d.register rs = (d', none) ∧ d'.model = d.model ∧
      d'.records = (rs.map (Record.mapTypes d.model.normalize)).reverse ++ d.records := by
  induction rs generalizing d with
  | nil => exact ⟨d, rfl, rfl, rfl⟩
  | cons r rs ih =>
    obtain ⟨d₁, hadd, hm, hr⟩ :=
      add_of_new (hnew r List.mem_cons_self) (h.inRange r List.mem_cons_self)
    -- what is added hides none of those that follow, which have other ids
    have hnew₁ : ∀ s ∈ rs, d₁.find? s.id = none := by
      intro s hs
      have hne : r.id ≠ s.id := fun he =>
        (List.nodup_cons.mp h.nodup).1 (List.mem_map.mpr ⟨s, hs, he.symm⟩)
      have hid : (r.mapTypes d.model.normalize).id ≠ s.id := hne
      rw [find?_of_records hr, if_neg hid]
      exact hnew s (List.mem_cons_of_mem r hs)
    obtain ⟨d₂, hreg, hm₂, hr₂⟩ := ih h.tail hnew₁
    refine ⟨d₂, ?_, hm₂.trans hm, ?_⟩
    · rw [register, hadd]
      exact hreg
    · rw [hr₂, hr, hm, List.map_cons, List.reverse_cons, List.append_assoc]
      rfl

/-- Records with distinct ids are declared, the last one first. -/
theorem ofRecords_of_distinct (h : Distinct rs) :
    ∃ d, ofRecords m rs = .ok d ∧ d.model = m ∧
      d.records = (rs.map (Record.mapTypes m.normalize)).reverse := by
  obtain ⟨d, hreg, hm, hr⟩ := register_of_distinct (d := empty m) h fun _ _ => rfl
  refine ⟨d, by rw [ofRecords, hreg], hm, ?_⟩
  rw [hr]
  exact List.append_nil _

/-- Declarations are all taken only if they have ids of their own that no earlier one has. -/
theorem distinct_of_register (h : d.register rs = (d', none)) :
    Distinct rs ∧ ∀ r ∈ rs, d.find? r.id = none := by
  induction rs generalizing d with
  | nil => exact ⟨⟨List.nodup_nil, List.forall_mem_nil _⟩, List.forall_mem_nil _⟩
  | cons r rs ih =>
    cases ha : d.add r with
    | error fault =>
      rw [register, ha] at h
      cases (Prod.mk.inj h).2
    | ok d₁ =>
      rw [register, ha] at h
      obtain ⟨hid, hmax, rfl⟩ := add_eq_ok_iff.mp ha
      obtain ⟨hrs, hnew⟩ := ih h
      -- a later declaration finds nothing under its id, neither this one nor an earlier one
      have hlater : ∀ s ∈ rs, r.id ≠ s.id ∧ d.find? s.id = none := by
        intro s hs
        have hs := hnew s hs
        rw [find?_of_records (d := d) rfl] at hs
        split at hs
        · cases hs
        · exact ⟨by assumption, hs⟩
      refine ⟨⟨?_, List.forall_mem_cons.mpr ⟨hmax, hrs.inRange⟩⟩,
        List.forall_mem_cons.mpr ⟨hid, fun s hs => (hlater s hs).2⟩⟩
      refine List.nodup_cons.mpr ⟨fun hmem => ?_, hrs.nodup⟩
      obtain ⟨s, hs, he⟩ := List.mem_map.mp hmem
      exact (hlater s hs).1 he.symm

/-- **The declarations of a list are taken exactly if each has an id of its own.** -/
theorem exists_ofRecords_iff : (∃ d, ofRecords m rs = .ok d) ↔ Distinct rs := by
  constructor
  · rintro ⟨d, h⟩
    unfold ofRecords at h
    split at h
    · rename_i hreg
      exact (distinct_of_register hreg).1
    · cases h
  · intro h
    obtain ⟨d, hd, -⟩ := ofRecords_of_distinct (m := m) h
    exact ⟨d, hd⟩

/-- **The order of declarations does not matter**, where each has an id of its own. -/
theorem ofRecords_perm (h : Distinct rs) (hp : rs.Perm ss) :
    ∃ d d', ofRecords m rs = .ok d ∧ ofRecords m ss = .ok d' ∧ d.Interchangeable d' := by
  obtain ⟨d, hd, hm, hr⟩ := ofRecords_of_distinct (m := m) h
  obtain ⟨d', hd', hm', hr'⟩ := ofRecords_of_distinct (m := m) (h.perm hp)
  refine ⟨d, d', hd, hd', hm.trans hm'.symm, fun id => ?_⟩
  rw [find?, find?, hr, hr']
  have hperm := hp.map (Record.mapTypes m.normalize)
  refine find?_eq_of_perm ((List.reverse_perm _).trans (hperm.trans (List.reverse_perm _).symm)) ?_
  simp only [List.mem_reverse, List.forall_mem_map, beq_iff_eq]
  intro r hr s hs hrid hsid
  rw [List.inj_on_of_nodup_map h.nodup hr hs (hrid.trans hsid.symm)]

end Declarations

end CTyping
