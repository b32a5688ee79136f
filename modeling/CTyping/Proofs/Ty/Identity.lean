import CTyping.Proofs.Ty.Conversion
import CTyping.Ty.Declarations
import Mathlib.Data.List.Forall2

/-!
# When two references are the same

A struct or union type refers to its declaration by an id, and carries the name to show for it.
Looking up goes by the id alone. Equality of types looks at the name as well, and both conversions
fall back on equality, for functions and records at once and for pointers and arrays when they get
there. So types that differ in nothing but names (`CTyping.Ty.Renamed`) refer to the same
declarations and are yet different types.

How far this goes: as soon as one name differs, however deep, neither type is compatible with the
other; but a scalar or an array can still be cast, since a cast looks only at what kind of type it
is given. Where every reference carries the name of its declaration (`CTyping.Declarations.Names`)
no names differ, and ids alone decide.
-/

namespace CTyping

/-- References are the same if their ids and their names are. -/
theorem RecordRef.eq_of_ids_of_names : ∀ {rs ss : List RecordRef}, rs.map id = ss.map id →
    rs.map name = ss.map name → rs = ss
  | [], [], _, _ => rfl
  | [], _ :: _, h, _ => by cases h
  | _ :: _, [], h, _ => by cases h
  | ⟨i, m⟩ :: rs, ⟨j, n⟩ :: ss, hid, hname => by
    obtain ⟨rfl, hids⟩ := List.cons.inj hid
    obtain ⟨rfl, hnames⟩ := List.cons.inj hname
    rw [eq_of_ids_of_names hids hnames]

namespace Ty

/-- Types that differ in nothing but the names that references carry. -/
inductive Renamed : Ty → Ty → Prop
  | void : Renamed .void .void
  | int {i : IntTy} : Renamed (.int i) (.int i)
  | ptr {a b : Ty} (h : Renamed a b) : Renamed (.ptr a) (.ptr b)
  | array {a b : Ty} {n : Option UInt64} (h : Renamed a b) : Renamed (.array a n) (.array b n)
  | func {r s : Ty} {ps qs : List Ty} {v : Bool} (hr : Renamed r s)
      (hps : List.Forall₂ Renamed ps qs) : Renamed (.func r ps v) (.func s qs v)
  | struct {id : UInt32} {m n : String} : Renamed (.struct ⟨id, m⟩) (.struct ⟨id, n⟩)
  | union {id : UInt32} {m n : String} : Renamed (.union ⟨id, m⟩) (.union ⟨id, n⟩)

mutual

/-- The references in a type, from left to right. -/
def refs : Ty → List RecordRef
  | .void => []
  | .int _ => []
  | .ptr base => base.refs
  | .array element _ => element.refs
  | .func result params _ => result.refs ++ refsList params
  | .struct ref => [ref]
  | .union ref => [ref]

/-- The references in the types of a list. -/
def refsList : List Ty → List RecordRef
  | [] => []
  | t :: ts => t.refs ++ refsList ts

end

/-! ### Names that agree -/

mutual

/-- Renaming can be undone. -/
theorem Renamed.symm : ∀ {a b : Ty}, a.Renamed b → b.Renamed a
  | _, _, .void => .void
  | _, _, .int => .int
  | _, _, .ptr h => .ptr h.symm
  | _, _, .array h => .array h.symm
  | _, _, .func hr hps => .func hr.symm (Renamed.symmList hps)
  | _, _, .struct => .struct
  | _, _, .union => .union

theorem Renamed.symmList : ∀ {as bs : List Ty}, List.Forall₂ Renamed as bs →
    List.Forall₂ Renamed bs as
  | _, _, .nil => .nil
  | _, _, .cons h hs => .cons h.symm (Renamed.symmList hs)

end

mutual

/-- The references of types that differ in names only have the same ids. -/
theorem Renamed.ids : ∀ {a b : Ty}, a.Renamed b →
    a.refs.map RecordRef.id = b.refs.map RecordRef.id
  | _, _, .void => rfl
  | _, _, .int => rfl
  | _, _, .ptr h => h.ids
  | _, _, .array h => h.ids
  | _, _, .func hr hps => by simp only [refs, List.map_append, hr.ids, Renamed.idsList hps]
  | _, _, .struct => rfl
  | _, _, .union => rfl

/-- Renaming leaves the ids of a list of types. -/
theorem Renamed.idsList : ∀ {as bs : List Ty}, List.Forall₂ Renamed as bs →
    (refsList as).map RecordRef.id = (refsList bs).map RecordRef.id
  | _, _, .nil => rfl
  | _, _, .cons h hs => by simp only [refsList, List.map_append, h.ids, Renamed.idsList hs]

end

/-- Renaming leaves the number of references. -/
theorem Renamed.length_refs {a b : Ty} (h : a.Renamed b) : a.refs.length = b.refs.length := by
  simpa using congrArg List.length h.ids

mutual

/-- Types that differ in nothing but the names of references are equal if the references are. -/
theorem Renamed.eq_of_refs : ∀ {a b : Ty}, a.Renamed b → a.refs = b.refs → a = b
  | _, _, .void, _ => rfl
  | _, _, .int, _ => rfl
  | _, _, .ptr h, he => by rw [h.eq_of_refs he]
  | _, _, .array h, he => by rw [h.eq_of_refs he]
  | _, _, .func hr hps, he => by
    obtain ⟨her, heps⟩ := List.append_inj he hr.length_refs
    rw [hr.eq_of_refs her, Renamed.eq_of_refsList hps heps]
  | _, _, .struct, he => by rw [List.head_eq_of_cons_eq he]
  | _, _, .union, he => by rw [List.head_eq_of_cons_eq he]

/-- The same for lists of types. -/
theorem Renamed.eq_of_refsList : ∀ {as bs : List Ty}, List.Forall₂ Renamed as bs →
    refsList as = refsList bs → as = bs
  | _, _, .nil, _ => rfl
  | _, _, .cons h hs, he => by
    obtain ⟨hea, heas⟩ := List.append_inj he h.length_refs
    rw [h.eq_of_refs hea, Renamed.eq_of_refsList hs heas]

end

/-- Types that differ in names only are equal if the names are. -/
theorem Renamed.eq_iff_names {a b : Ty} (h : a.Renamed b) :
    a = b ↔ a.refs.map RecordRef.name = b.refs.map RecordRef.name := by
  refine ⟨fun he => by rw [he], fun hnames => h.eq_of_refs ?_⟩
  exact RecordRef.eq_of_ids_of_names h.ids hnames

/-! ### Conversions between types that differ in names -/

/-- There is nothing to rename in `void`. -/
theorem Renamed.eq_of_isVoid {a b : Ty} (h : a.Renamed b)
    (hv : a.isVoid = true ∨ b.isVoid = true) : a = b := by
  cases h with
  | void => rfl
  | _ => exact absurd hv (by simp [isVoid])

/-- **A type is compatible with no other that differs from it in names only.** -/
theorem Renamed.eq_of_compatible {a b : Ty} (h : a.Renamed b) (hc : a.compatible b = true) :
    a = b := by
  cases h with
  | void | int => rfl
  | ptr h =>
    simp only [compatible, Bool.or_eq_true] at hc
    rcases hc with (hv | hv) | hc
    · rw [h.eq_of_isVoid (Or.inl hv)]
    · rw [h.eq_of_isVoid (Or.inr hv)]
    · rw [h.eq_of_compatible hc]
  | array h =>
    simp only [compatible, Bool.or_eq_true, Bool.and_eq_true] at hc
    rcases hc with hv | ⟨hc, -⟩
    · rw [h.eq_of_isVoid (Or.inr hv)]
    · rw [h.eq_of_compatible hc]
  | func | struct | union =>
    -- these are compared, names and all
    exact of_decide_eq_true hc

/-- Between types that differ in names only, one direction of compatibility is enough for
equality. -/
theorem Renamed.compatible_iff {a b : Ty} (h : a.Renamed b) :
    a.compatible b = true ∨ b.compatible a = true ↔ a = b := by
  constructor
  · rintro (hc | hc)
    · exact h.eq_of_compatible hc
    · exact (h.symm.eq_of_compatible hc).symm
  · rintro rfl
    exact Or.inl (compatible_self a)

/-- Renaming leaves functions functions and records records. -/
theorem Renamed.kinds {a b : Ty} (h : a.Renamed b) :
    b.isFunction = a.isFunction ∧ b.isRecord = a.isRecord := by
  cases h <;> exact ⟨rfl, rfl⟩

/-- Functions and records, which are cast to nothing but themselves, must be equal; other types are
cast whatever the names below them are. -/
theorem Renamed.castable_iff {a b : Ty} (h : a.Renamed b) :
    a.castable b = true ↔ (a.isFunction = true ∨ a.isRecord = true → a = b) := by
  cases h with
  | void | int | ptr | array =>
    simp [castable, isVoid, isScalar, isInteger, isPointer, isDereferable, base?, isFunction,
      isRecord, isStruct, isUnion]
  | func | struct | union =>
    simp [castable, isVoid, isFunction, isRecord, isStruct, isUnion]

/-- Between types that differ in names only, a cast in one direction asks for equality at functions
and records, and for nothing elsewhere. -/
theorem Renamed.castable_either_iff {a b : Ty} (h : a.Renamed b) :
    a.castable b = true ∨ b.castable a = true ↔
      (a.isFunction = true ∨ a.isRecord = true → a = b) := by
  constructor
  · rintro (hc | hc) hk
    · exact h.castable_iff.mp hc hk
    · rw [← h.kinds.1, ← h.kinds.2] at hk
      exact (h.symm.castable_iff.mp hc hk).symm
  · exact fun he => Or.inl (h.castable_iff.mpr he)

/-- A cast from or to a third type does not look at names either, unless it compares. -/
theorem Renamed.castable_eq {a b : Ty} (h : a.Renamed b)
    (he : a.isFunction = true ∨ a.isRecord = true → a = b) (c : Ty) :
    a.castable c = b.castable c ∧ c.castable a = c.castable b := by
  cases h with
  | void | int => exact ⟨rfl, rfl⟩
  | ptr | array =>
    -- a cast does not look below the star or the brackets
    refine ⟨rfl, ?_⟩
    cases c <;> simp [castable, isVoid, isScalar, isInteger, isPointer, isDereferable, base?]
  | func =>
    rw [he (Or.inl rfl)]
    exact ⟨rfl, rfl⟩
  | struct | union =>
    rw [he (Or.inr rfl)]
    exact ⟨rfl, rfl⟩

end Ty

/-! ### Declarations -/

namespace Declarations

/-- A reference carries the name of its declaration. -/
def Names (d : Declarations) (ref : RecordRef) : Prop :=
  ∃ r, d.find? ref.id = some r ∧ r.name = ref.name

/-- Names are not looked at when a declaration is looked up. -/
theorem lookup_eq_of_renamed (d : Declarations) {a b : Ty} (h : a.Renamed b) :
    d.lookup a = d.lookup b := by
  cases h <;> rfl

/-- Where references carry the names of their declarations, their ids alone decide. -/
theorem eq_of_renamed_of_names (d : Declarations) {a b : Ty} (h : a.Renamed b)
    (ha : ∀ ref ∈ a.refs, d.Names ref) (hb : ∀ ref ∈ b.refs, d.Names ref) : a = b := by
  let declared : UInt32 → String := fun id => ((d.find? id).map Record.name).getD ""
  have hnames : ∀ refs : List RecordRef, (∀ ref ∈ refs, d.Names ref) →
      refs.map RecordRef.name = (refs.map RecordRef.id).map declared := by
    intro refs hrefs
    rw [List.map_map]
    refine List.map_congr_left fun ref href => ?_
    obtain ⟨r, hr, hname⟩ := hrefs ref href
    simp [declared, hr, hname]
  rw [h.eq_iff_names, hnames _ ha, hnames _ hb, h.ids]

end Declarations

/-! ### What the names decide -/

/-- Types that a relation does not tell apart: each is related to the other, and both are related to
any third type alike. -/
structure Ty.Indistinct (rel : Ty → Ty → Bool) (a b : Ty) : Prop where
  forth : rel a b = true
  back : rel b a = true
  left : ∀ c, rel a c = rel b c
  right : ∀ c, rel c a = rel c b

/-- Compatibility does not tell two types apart only if they are equal. -/
theorem Ty.Renamed.indistinct_compatible_iff {a b : Ty} (h : a.Renamed b) :
    Indistinct compatible a b ↔ a = b := by
  constructor
  · exact fun hi => h.eq_of_compatible hi.forth
  · rintro rfl
    exact ⟨compatible_self a, compatible_self a, fun _ => rfl, fun _ => rfl⟩

/-- Casts do not tell two types apart only if they are equal or no functions and no records. -/
theorem Ty.Renamed.indistinct_castable_iff {a b : Ty} (h : a.Renamed b) :
    Indistinct castable a b ↔ (a.isFunction = true ∨ a.isRecord = true → a = b) := by
  constructor
  · exact fun hi => h.castable_iff.mp hi.forth
  · intro he
    have hback : b.castable a = true := (h.castable_eq he b).2.trans (castable_self b)
    exact ⟨h.castable_iff.mpr he, hback, fun c => (h.castable_eq he c).1,
      fun c => (h.castable_eq he c).2⟩

/-- **References are compared by id and by name.** Two types that differ in nothing but the names of
references look up the same declarations. They are equal if and only if the names are; if they are
not, then neither is compatible with the other, and compatibility tells them apart. A cast tells
them apart if they are functions or records, and then neither can be cast to the other; it does not
look at names below pointers and arrays. Where all references carry the names of their declarations,
the types are equal. -/
theorem references_compare_by_id_and_name {a b : Ty} (h : a.Renamed b) :
    (a = b ↔ a.refs.map RecordRef.name = b.refs.map RecordRef.name) ∧
      (a.compatible b = true ∨ b.compatible a = true ↔ a = b) ∧
      (Ty.Indistinct Ty.compatible a b ↔ a = b) ∧
      (a.castable b = true ∨ b.castable a = true ↔
        (a.isFunction = true ∨ a.isRecord = true → a = b)) ∧
      (Ty.Indistinct Ty.castable a b ↔ (a.isFunction = true ∨ a.isRecord = true → a = b)) ∧
      ∀ d : Declarations, d.lookup a = d.lookup b ∧
        ((∀ ref ∈ a.refs, d.Names ref) → (∀ ref ∈ b.refs, d.Names ref) → a = b) :=
  ⟨h.eq_iff_names, h.compatible_iff, h.indistinct_compatible_iff, h.castable_either_iff,
    h.indistinct_castable_iff, fun d => ⟨d.lookup_eq_of_renamed h, d.eq_of_renamed_of_names h⟩⟩

/-- Pointers to one struct under two names can be cast to each other, and are not compatible. -/
theorem references_compare_by_id_and_name_pointers :
    let a : Ty := .ptr (.struct ⟨0, "a"⟩)
    let b : Ty := .ptr (.struct ⟨0, "b"⟩)
    a.Renamed b ∧ ¬(a.compatible b = true ∨ b.compatible a = true) ∧
      Ty.Indistinct Ty.castable a b := by
  intro a b
  have h : a.Renamed b := .ptr .struct
  obtain ⟨-, hcompatible, -, -, hcastable, -⟩ := references_compare_by_id_and_name h
  exact ⟨h, fun hc => absurd (hcompatible.mp hc) (by decide), hcastable.mpr (by decide)⟩

/-- Two references to one declaration that cannot take each other's place: they are found to be the
same declaration, and are neither equal nor compatible nor castable. -/
theorem one_declaration_under_two_names :
    let d := ((Declarations.empty .lp64).register [⟨0, "a", false, []⟩]).1
    let a : Ty := .struct ⟨0, "a"⟩
    let b : Ty := .struct ⟨0, "b"⟩
    a.Renamed b ∧ d.lookup a = some ⟨0, "a", false, []⟩ ∧ d.lookup b = some ⟨0, "a", false, []⟩ ∧
      ¬a = b ∧ a.compatible b = false ∧ a.castable b = false :=
  ⟨.struct, by decide, by decide, by decide, by decide, by decide⟩

end CTyping
