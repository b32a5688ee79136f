import CTyping.Ty.Declarations
import Mathlib.Data.List.Forall2

/-!
# Types laid out for a data model

A type is *sized* for a data model if all widths in it are those of the model, that is, if
`CTyping.DataModel.normalize` leaves it alone. Normalized types are sized, and so is what is taken
out of a sized type: what it points to, and what a function takes and gives. Declarations that are
registered are sized (`CTyping.Declarations.ofRecords_eq_ok`), and registering them a second time,
now with sized members, gives the same.

All this can be said without normalizing. The integer types that a type contains have the widths of
the model (`CTyping.Ty.HasWidths`), and types that differ in widths only are `CTyping.Ty.Resized`;
the two together leave one way to lay out a type (`CTyping.Ty.resized_hasWidths_iff`) and so one way
to lay out a declaration (`CTyping.Record.laidOut_iff`).
-/

namespace CTyping

/-- A type all of whose widths are those of a data model. -/
def Ty.Sized (m : DataModel) (t : Ty) : Prop := m.normalize t = t

variable {m : DataModel}

/-! ### Types -/

namespace DataModel

theorem normalizeList_eq (m : DataModel) (ts : List Ty) :
    m.normalizeList ts = ts.map m.normalize := by
  induction ts with
  | nil => rfl
  | cons t ts ih => rw [normalizeList, ih, List.map_cons]

mutual

/-- Widths that are set anew are no longer those of another data model. -/
theorem normalize_after (m m' : DataModel) :
    ∀ t : Ty, m.normalize (m'.normalize t) = m.normalize t
  | .void => rfl
  | .int i => rfl
  | .ptr base => by simp only [normalize, normalize_after m m' base]
  | .array element length => by simp only [normalize, normalize_after m m' element]
  | .func result params variadic => by
    simp only [normalize, normalize_after m m' result, normalizeList_after m m' params]
  | .struct ref => rfl
  | .union ref => rfl

/-- The same for lists of types. -/
theorem normalizeList_after (m m' : DataModel) :
    ∀ ts : List Ty, m.normalizeList (m'.normalizeList ts) = m.normalizeList ts
  | [] => rfl
  | t :: ts => by
    simp only [normalizeList, normalize_after m m' t, normalizeList_after m m' ts]

end

/-- Widths that are set to those of the model are set to them once. -/
theorem normalize_normalize (m : DataModel) (t : Ty) :
    m.normalize (m.normalize t) = m.normalize t :=
  m.normalize_after m t

end DataModel

namespace Ty

/-- What a data model gives is sized for it. -/
theorem sized_normalize (m : DataModel) (t : Ty) : (m.normalize t).Sized m :=
  m.normalize_normalize t

theorem sized_void : Ty.void.Sized m := rfl

/-- The integer types of a data model are sized for it. -/
theorem sized_integer (m : DataModel) (kind : IntKind) (signed : Bool) :
    (m.integer kind signed).Sized m := rfl

theorem Sized.ptr {t : Ty} (h : t.Sized m) : (Ty.ptr t).Sized m := congrArg Ty.ptr h

/-- What a sized pointer or array is built from is sized. -/
theorem Sized.base {t b : Ty} (h : t.Sized m) (hb : t.base? = some b) : b.Sized m := by
  cases t with
  | ptr base =>
    obtain rfl := Option.some.inj hb
    exact Ty.ptr.inj h
  | array element length =>
    obtain rfl := Option.some.inj hb
    exact (Ty.array.inj h).1
  | _ => cases hb

/-- The result and the parameters of a sized function are sized. -/
theorem Sized.func {result : Ty} {params : List Ty} {variadic : Bool}
    (h : (Ty.func result params variadic).Sized m) :
    result.Sized m ∧ ∀ t ∈ params, t.Sized m := by
  obtain ⟨hr, hp, -⟩ := Ty.func.inj h
  rw [DataModel.normalizeList_eq] at hp
  refine ⟨hr, fun t ht => ?_⟩
  exact List.map_inj_left.mp (hp.trans (List.map_id params).symm) t ht

/-- The result and the parameters of what can be called are sized, also behind a pointer. -/
theorem Sized.prototype {t : Ty} {p : Prototype} (h : t.Sized m) (hp : t.prototype? = some p) :
    p.result.Sized m ∧ ∀ t ∈ p.params, t.Sized m := by
  cases t with
  | func result params variadic =>
    obtain rfl := Option.some.inj hp
    exact h.func
  | ptr base =>
    cases base with
    | func result params variadic =>
      obtain rfl := Option.some.inj hp
      exact (h.base rfl).func
    | _ => cases hp
  | _ => cases hp

end Ty

/-! ### Integer types in a type -/

namespace Ty

/-- The integer types in a type. Records are referred to and not entered. -/
inductive Contains (i : IntTy) : Ty → Prop
  | int : Contains i (.int i)
  | pointee {base : Ty} (h : Contains i base) : Contains i (.ptr base)
  | element {element : Ty} {length : Option UInt64} (h : Contains i element) :
      Contains i (.array element length)
  | result {result : Ty} {params : List Ty} {variadic : Bool} (h : Contains i result) :
      Contains i (.func result params variadic)
  | param {result p : Ty} {params : List Ty} {variadic : Bool} (hp : p ∈ params)
      (h : Contains i p) : Contains i (.func result params variadic)

/-- A type all of whose integer types have the widths of a data model. -/
def HasWidths (m : DataModel) (t : Ty) : Prop :=
  ∀ i, Contains i t → i.size = m.width i.kind

/-- An integer is sized if and only if its width is the one of its kind. -/
theorem sized_int_iff {i : IntTy} : (Ty.int i).Sized m ↔ i.size = m.width i.kind := by
  constructor
  · intro h
    exact (congrArg IntTy.size (Ty.int.inj h)).symm
  · intro h
    change Ty.int (m.resize i) = Ty.int i
    rw [DataModel.resize, ← h]

/-- A function is sized if and only if its result and its parameters are. -/
theorem sized_func_iff {result : Ty} {params : List Ty} {variadic : Bool} :
    (Ty.func result params variadic).Sized m ↔
      result.Sized m ∧ ∀ t ∈ params, t.Sized m := by
  refine ⟨Sized.func, fun ⟨hr, hps⟩ => ?_⟩
  change Ty.func (m.normalize result) (m.normalizeList params) variadic = _
  have hparams : params.map m.normalize = params := by
    rw [List.map_congr_left hps, List.map_id']
  rw [DataModel.normalizeList_eq, hparams, show m.normalize result = result from hr]

mutual

/-- **Normalizing leaves a type alone if and only if its integer types have the widths of the
model.** -/
theorem sized_iff : ∀ t : Ty, t.Sized m ↔ t.HasWidths m
  | .void => ⟨fun _ _ h => (nomatch h), fun _ => rfl⟩
  | .int i => by
    rw [sized_int_iff]
    refine ⟨fun h j hj => ?_, fun h => h i .int⟩
    cases hj with
    | int => exact h
  -- a pointer or an array contains what its base contains, and has no width of its own
  | .ptr base => by
    have hbase : (Ty.ptr base).Sized m ↔ base.Sized m := ⟨fun h => Ty.ptr.inj h, Sized.ptr⟩
    rw [hbase, sized_iff base]
    refine ⟨fun h i hi => ?_, fun h i hi => h i (.pointee hi)⟩
    cases hi with
    | pointee hi => exact h i hi
  | .array element length => by
    have helement : (Ty.array element length).Sized m ↔ element.Sized m :=
      ⟨fun h => (Ty.array.inj h).1, congrArg (Ty.array · length)⟩
    rw [helement, sized_iff element]
    refine ⟨fun h i hi => ?_, fun h i hi => h i (.element hi)⟩
    cases hi with
    | element hi => exact h i hi
  | .func result params variadic => by
    rw [sized_func_iff, sized_iff result, forall_sized_iff params]
    constructor
    · rintro ⟨hr, hps⟩ i hi
      cases hi with
      | result hi => exact hr i hi
      | param hp hi => exact hps _ hp i hi
    · intro h
      exact ⟨fun i hi => h i (.result hi), fun p hp i hi => h i (.param hp hi)⟩
  | .struct _ => ⟨fun _ _ h => (nomatch h), fun _ => rfl⟩
  | .union _ => ⟨fun _ _ h => (nomatch h), fun _ => rfl⟩

/-- The same for lists of types. -/
theorem forall_sized_iff : ∀ ts : List Ty, (∀ t ∈ ts, t.Sized m) ↔ ∀ t ∈ ts, t.HasWidths m
  | [] => by simp
  | t :: ts => by rw [List.forall_mem_cons, List.forall_mem_cons, sized_iff t, forall_sized_iff ts]

end

end Ty

/-! ### Types up to their widths -/

/-- Types that differ in nothing but the widths of integers. -/
inductive Ty.Resized : Ty → Ty → Prop
  | void : Resized .void .void
  | int {k : IntKind} {s : Bool} {m n : UInt8} : Resized (.int ⟨k, s, m⟩) (.int ⟨k, s, n⟩)
  | ptr {a b : Ty} (h : Resized a b) : Resized (.ptr a) (.ptr b)
  | array {a b : Ty} {n : Option UInt64} (h : Resized a b) : Resized (.array a n) (.array b n)
  | func {r s : Ty} {ps qs : List Ty} {v : Bool} (hr : Resized r s)
      (hps : List.Forall₂ Resized ps qs) : Resized (.func r ps v) (.func s qs v)
  | struct {r : RecordRef} : Resized (.struct r) (.struct r)
  | union {r : RecordRef} : Resized (.union r) (.union r)

mutual

/-- Types that differ in widths only are the same with the widths of one data model. -/
theorem Ty.Resized.normalize (m : DataModel) :
    ∀ {t u : Ty}, Resized t u → m.normalize t = m.normalize u
  | _, _, .void => rfl
  | _, _, .int => rfl
  | _, _, .ptr h => by rw [DataModel.normalize, DataModel.normalize, h.normalize m]
  | _, _, .array h => by rw [DataModel.normalize, DataModel.normalize, h.normalize m]
  | _, _, .func hr hps => by
    rw [DataModel.normalize, DataModel.normalize, hr.normalize m, Ty.Resized.normalizeList m hps]
  | _, _, .struct => rfl
  | _, _, .union => rfl

/-- The same for lists of types. -/
theorem Ty.Resized.normalizeList (m : DataModel) :
    ∀ {ts us : List Ty}, List.Forall₂ Resized ts us → m.normalizeList ts = m.normalizeList us
  | _, _, .nil => rfl
  | _, _, .cons h hs => by
    rw [DataModel.normalizeList, DataModel.normalizeList, h.normalize m,
      Ty.Resized.normalizeList m hs]

end

mutual

/-- Setting the widths in a type changes nothing else. -/
theorem Ty.resized_normalize (m : DataModel) : ∀ t : Ty, t.Resized (m.normalize t)
  | .void => .void
  | .int _ => .int
  | .ptr base => .ptr (Ty.resized_normalize m base)
  | .array element _ => .array (Ty.resized_normalize m element)
  | .func result params _ =>
    .func (Ty.resized_normalize m result) (Ty.resized_normalizeList m params)
  | .struct _ => .struct
  | .union _ => .union

/-- The same for lists of types. -/
theorem Ty.resized_normalizeList (m : DataModel) :
    ∀ ts : List Ty, List.Forall₂ Resized ts (m.normalizeList ts)
  | [] => .nil
  | t :: ts => .cons (Ty.resized_normalize m t) (Ty.resized_normalizeList m ts)

end

/-- **There is one way to lay a type out**: of the types that differ from it in widths only, one has
the widths of the data model. -/
theorem Ty.resized_hasWidths_iff {t u : Ty} :
    t.Resized u ∧ u.HasWidths m ↔ u = m.normalize t := by
  constructor
  · rintro ⟨hr, hw⟩
    have hsized : m.normalize u = u := (sized_iff u).mpr hw
    rw [← hsized, hr.normalize m]
  · rintro rfl
    exact ⟨resized_normalize m t, (sized_iff _).mp (sized_normalize m t)⟩

/-! ### Declarations that are laid out -/

/-- A member as it is laid out for a data model: under the same name, and with the same type up to
the widths, which are those of the model. -/
structure Member.LaidOut (m : DataModel) (x y : Member) : Prop where
  name : y.name = x.name
  type : x.type.Resized y.type
  widths : y.type.HasWidths m

/-- A declaration as it is laid out for a data model: the same but for its members, which are laid
out one by one in their order. -/
structure Record.LaidOut (m : DataModel) (r s : Record) : Prop where
  id : s.id = r.id
  name : s.name = r.name
  isUnion : s.isUnion = r.isUnion
  members : List.Forall₂ (Member.LaidOut m) r.members s.members

/-- A member is laid out in one way. -/
theorem Member.laidOut_iff {x y : Member} :
    x.LaidOut m y ↔ { x with type := m.normalize x.type } = y := by
  constructor
  · rintro ⟨hname, htype, hwidths⟩
    have hy : y.type = m.normalize x.type := Ty.resized_hasWidths_iff.mp ⟨htype, hwidths⟩
    rw [← hname, ← hy]
  · rintro rfl
    obtain ⟨htype, hwidths⟩ := Ty.resized_hasWidths_iff.mpr (rfl : _ = m.normalize x.type)
    exact ⟨rfl, htype, hwidths⟩

/-- **A declaration is laid out in one way**, which is by setting the widths of its members. -/
theorem Record.laidOut_iff {r s : Record} : r.LaidOut m s ↔ r.mapTypes m.normalize = s := by
  have hmembers : List.Forall₂ (Member.LaidOut m) r.members s.members ↔
      r.members.map (fun x => { x with type := m.normalize x.type }) = s.members := by
    rw [← List.forall₂_eq_eq_eq, List.forall₂_map_left_iff]
    exact ⟨.imp fun _ _ => Member.laidOut_iff.mp, .imp fun _ _ => Member.laidOut_iff.mpr⟩
  constructor
  · rintro ⟨hid, hname, hunion, hlaid⟩
    rw [mapTypes, hmembers.mp hlaid, ← hid, ← hname, ← hunion]
  · rintro rfl
    exact ⟨rfl, rfl, rfl, hmembers.mpr rfl⟩

/-! ### Declarations -/

/-- A declaration whose members are sized is left alone. -/
theorem Record.mapTypes_normalize (m : DataModel) (r : Record) :
    (r.mapTypes m.normalize).mapTypes m.normalize = r.mapTypes m.normalize := by
  simp [mapTypes, Function.comp_def, m.normalize_normalize]

namespace Declarations

/-- Declarations whose members are sized for the data model. -/
def Sized (d : Declarations) : Prop :=
  ∀ r ∈ d.records, ∀ x ∈ r.members, x.type.Sized d.model

variable {d d' : Declarations}

/-- The type of a member is sized if the declarations are. -/
theorem Sized.memberType? (h : d.Sized) {t b : Ty} {n : String}
    (hb : d.memberType? t n = some b) : b.Sized d.model := by
  obtain ⟨r, hr, hm⟩ := Option.bind_eq_some_iff.mp hb
  obtain ⟨x, hx, rfl⟩ := Option.map_eq_some_iff.mp hm
  obtain ⟨ref, -, hf⟩ := Option.bind_eq_some_iff.mp hr
  exact h r (List.mem_of_find?_eq_some hf) x (List.mem_of_find?_eq_some hx)

/-- What a declaration that is taken changes. -/
theorem add_eq_ok {r : Record} (h : d.add r = .ok d') :
    d'.model = d.model ∧ d'.records = r.mapTypes d.model.normalize :: d.records ∧
      d.add (r.mapTypes d.model.normalize) = .ok d' := by
  unfold add at h ⊢
  split at h
  · cases h
  · rename_i hid
    split at h
    · cases h
    · rename_i hmax
      obtain rfl := Except.ok.inj h
      refine ⟨rfl, rfl, ?_⟩
      have hr : (r.mapTypes d.model.normalize).id = r.id := rfl
      rw [hr, if_neg hid, if_neg hmax, Record.mapTypes_normalize]

/-- What a registration without a fault leaves is sized, and registering the records with their
widths filled in leaves the same. -/
theorem register_eq_none {rs : List Record} (h : d.register rs = (d', none)) (hd : d.Sized) :
    d'.model = d.model ∧ d'.Sized ∧
      d.register (rs.map (Record.mapTypes d.model.normalize)) = (d', none) := by
  induction rs generalizing d with
  | nil =>
    obtain ⟨rfl, -⟩ := Prod.mk.inj h
    exact ⟨rfl, hd, rfl⟩
  | cons r rs ih =>
    cases ha : d.add r with
    | error fault =>
      rw [register, ha] at h
      cases (Prod.mk.inj h).2
    | ok d₁ =>
      rw [register, ha] at h
      obtain ⟨hm, hr, ha'⟩ := add_eq_ok ha
      -- the record that is added is normalized, the others were before
      have hd₁ : d₁.Sized := by
        rw [Sized, hm, hr]
        intro r' hr' x hx
        rcases List.mem_cons.mp hr' with rfl | hr'
        · obtain ⟨y, -, rfl⟩ := List.mem_map.mp hx
          exact Ty.sized_normalize d.model y.type
        · exact hd r' hr' x hx
      obtain ⟨hm', hs, hreg⟩ := ih h hd₁
      rw [hm] at hm' hreg
      refine ⟨hm', hs, ?_⟩
      rw [List.map_cons, register, ha']
      exact hreg

/-- **The declarations of a program**: they are sized, and those of the program with sized members
are the same. -/
theorem ofRecords_eq_ok {rs : List Record} (h : ofRecords m rs = .ok d) :
    d.model = m ∧ d.Sized ∧ ofRecords m (rs.map (Record.mapTypes m.normalize)) = .ok d := by
  unfold ofRecords at h
  split at h
  · rename_i d' hreg
    obtain rfl := Except.ok.inj h
    obtain ⟨hm, hs, hreg'⟩ := register_eq_none hreg fun r hr => absurd hr List.not_mem_nil
    refine ⟨hm, hs, ?_⟩
    have he : (empty m).model = m := rfl
    rw [he] at hreg'
    rw [ofRecords, hreg']
  · cases h

end Declarations

end CTyping
