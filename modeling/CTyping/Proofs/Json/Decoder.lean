import CTyping.Json.Decoder

/-!
# Decoding what was encoded

A decoder *inverts* an encoding if it gives back what was encoded, provided that there are levels
enough for the encoded value, and refuses it if there are not (`CTyping.Decoder.Inverts`). A level
is used up where an array or an object is entered, so what a decoder does with some levels left
depends on what the decoders for the inner values do with fewer, and the lemmas here lead from those
to it:

* `CTyping.Gives.fields` for records and `CTyping.Gives.variant` for variants,
* `CTyping.Decoder.InvertsBelow.list` and `CTyping.Decoder.InvertsAt.nullable`,
* `CTyping.Decoder.inverts_fix` for recursive types, by induction on the levels.
-/

namespace CTyping

/-! ### Answers under a condition -/

/-- An answer that is given under a condition only. -/
structure Gives {α : Type} (answer : Option α) (P : Prop) (a : α) : Prop where
  eq_some : P → answer = some a
  eq_none : ¬P → answer = none

namespace Gives

variable {α β : Type} {o : Option α} {P Q : Prop} {a : α}

theorem of_eq (h : o = some a) (hP : P) : Gives o P a := ⟨fun _ => h, fun hn => absurd hP hn⟩

theorem pure : Gives (Pure.pure a : Option α) True a := of_eq rfl trivial

/-- A condition may be put in other words. -/
theorem congr (h : Gives o P a) (hPQ : P ↔ Q) : Gives o Q a :=
  ⟨fun hQ => h.eq_some (hPQ.mpr hQ), fun hQ => h.eq_none (mt hPQ.mp hQ)⟩

/-- What is made of a result is given whenever the result is. -/
theorem map {g : α → β} (h : Gives o P a) : Gives (o.map g) P (g a) where
  eq_some hP := by rw [h.eq_some hP]; rfl
  eq_none hP := by rw [h.eq_none hP]; rfl

/-- One result after another is given whenever both are. -/
theorem bind {k : α → Option β} {b : β} (h : Gives o P a) (hk : Gives (k a) Q b) :
    Gives (o >>= k) (P ∧ Q) b where
  eq_some hPQ := by
    rw [h.eq_some hPQ.1]
    exact hk.eq_some hPQ.2
  eq_none hPQ := by
    by_cases hP : P
    · rw [h.eq_some hP]
      exact hk.eq_none fun hQ => hPQ ⟨hP, hQ⟩
    · rw [h.eq_none hP]
      rfl

/-- A list is decoded whenever each of its values is. -/
theorem mapM {f : α → Json} {r : Json → Option α} {P : α → Prop} {as : List α}
    (h : ∀ a ∈ as, Gives (r (f a)) (P a) a) :
    Gives ((as.map f).mapM r) (∀ a ∈ as, P a) as := by
  induction as with
  | nil => exact of_eq rfl (List.forall_mem_nil _)
  | cons a as ih =>
    obtain ⟨ha, has⟩ := List.forall_mem_cons.mp h
    rw [List.map_cons, List.mapM_cons]
    refine congr (bind ha (bind (ih has) pure)) ?_
    rw [and_true, List.forall_mem_cons]

end Gives

/-! ### Levels -/

namespace Json

variable {d : Nat}

/-- The depth of a list is that of its deepest value. -/
theorem depthItems_le {js : List Json} : depthItems js ≤ d ↔ ∀ j ∈ js, j.depth ≤ d := by
  induction js with
  | nil => simp [depthItems]
  | cons j js ih => rw [depthItems, Nat.max_le, ih, List.forall_mem_cons]

/-- An array is one level deeper than its values. -/
theorem depth_arr_le {js : List Json} : (arr js).depth ≤ d + 1 ↔ ∀ j ∈ js, j.depth ≤ d := by
  rw [depth, Nat.add_le_add_iff_right, depthItems_le]

/-- Whether so many levels are enough for each of some fields. -/
def Fit (d : Nat) : List (String × Json) → Prop
  | [] => True
  | (_, j) :: fs => j.depth ≤ d ∧ Fit d fs

/-- A record is one level deeper than its fields. -/
theorem depth_record_le {fs : List (String × Json)} : (record fs).depth ≤ d + 1 ↔ Fit d fs := by
  rw [record, depth, Nat.add_le_add_iff_right]
  induction fs with
  | nil => simp [depthFields, Fit]
  | cons f fs ih => rw [List.map_cons, depthFields, Nat.max_le, ih, Fit]

/-- A tag adds one level. -/
theorem depth_tagged_le {tag : String} {j : Json} : (tagged tag j).depth ≤ d + 1 ↔ j.depth ≤ d := by
  rw [tagged, depth, Nat.add_le_add_iff_right, depthFields, depthFields, Nat.max_le]
  exact and_iff_left (Nat.zero_le d)

/-- Of an object whose keys are texts the fields are taken that are asked for. -/
theorem fields?_object (names : List String) (fs : List (String × Json)) :
    fields? names (d + 1) (record fs) =
      if ((fs.filter (names.contains ·.1)).map (·.1)).Nodup then
        some ⟨fs.filter (names.contains ·.1), d⟩
      else none := by
  have hmap : (fs.map fun f => (some f.1, f.2)).mapM (fun f => f.1.map (·, f.2)) = some fs := by
    induction fs with
    | nil => rfl
    | cons f fs ih => simp [ih]
  rw [record, fields?, hmap]
  rfl

/-- All fields of a record are found if they are those that are asked for. -/
theorem fields?_record {names : List String} {fs : List (String × Json)}
    (hnames : fs.map Prod.fst = names) (hnodup : names.Nodup) :
    fields? names (d + 1) (record fs) = some ⟨fs, d⟩ := by
  have hknown : fs.filter (names.contains ·.1) = fs := by
    rw [List.filter_eq_self]
    intro f hf
    rw [List.contains_iff_mem, ← hnames]
    exact List.mem_map_of_mem hf
  have hdistinct : (fs.map fun f => f.1).Nodup := hnames ▸ hnodup
  rw [fields?_object, hknown, if_pos hdistinct]

end Json

/-! ### Records and variants -/

namespace Gives

variable {α : Type} {P : Prop} {a : α} {d : Nat}

/-- A record is decoded field by field, with one level less. -/
theorem fields {names : List String} {fs : List (String × Json)} {k : Fields → Option α}
    (hnames : fs.map Prod.fst = names) (hnodup : names.Nodup)
    (hk : ∀ d' < d, Gives (k ⟨fs, d'⟩) (Json.Fit d' fs) a) :
    Gives (Json.fields? names d (.record fs) >>= k) ((Json.record fs).depth ≤ d) a := by
  cases d with
  | zero => exact ⟨fun h => absurd h (Nat.not_succ_le_zero _), fun _ => rfl⟩
  | succ d =>
    rw [Json.fields?_record hnames hnodup]
    exact (hk d (Nat.lt_succ_self d)).congr Json.depth_record_le.symm

/-- What a variant holds is decoded with one level less. -/
theorem variant {tag : String} {j : Json} {k : Variant → Option α}
    (hk : ∀ d' < d, Gives (k ⟨tag, some (d', j)⟩) (j.depth ≤ d') a) :
    Gives (Json.variant? d (.tagged tag j) >>= k) ((Json.tagged tag j).depth ≤ d) a := by
  cases d with
  | zero => exact ⟨fun h => absurd h (Nat.not_succ_le_zero _), fun _ => rfl⟩
  | succ d => exact (hk d (Nat.lt_succ_self d)).congr Json.depth_tagged_le.symm

variable {fs : Fields} {name : String} {r : Decoder α} {j : Json}

/-- What belongs to a tag is decoded on its own. -/
theorem holds {β : Type} {tag : String} {c : α → β} (h : Gives (r d j) P a) :
    Gives (Variant.holds ⟨tag, some (d, j)⟩ r >>= fun a => Pure.pure (c a)) P (c a) :=
  congr (bind (o := Variant.holds ⟨tag, some (d, j)⟩ r) h pure) (and_iff_left trivial)

/-- A field that has to be given is decoded if it is there. -/
theorem required (h : Gives (r fs.levels j) P a) (hj : fs.find? name = some j) :
    Gives (fs.required name r) P a := by
  rwa [Fields.required, hj, Option.bind_some]

/-- A field that may be left out is decoded if it is there. -/
theorem optional {default : α} (h : Gives (r fs.levels j) P a) (hj : fs.find? name = some j) :
    Gives (fs.optional name default r) P a := by
  rwa [Fields.optional, hj]

end Gives

/-! ### Decoders that invert encodings -/

namespace Decoder

variable {α : Type} {r : Decoder α} {f : α → Json} {d : Nat}

/-- With so many levels left, a decoder gives back what was encoded, if they are enough. -/
def InvertsAt (r : Decoder α) (f : α → Json) (d : Nat) : Prop :=
  ∀ a, Gives (r d (f a)) ((f a).depth ≤ d) a

/-- A decoder gives back what was encoded, or refuses it if there are not levels enough. -/
def Inverts (r : Decoder α) (f : α → Json) : Prop := ∀ d, r.InvertsAt f d

/-- With fewer than so many levels left, a decoder gives back what was encoded, if they are
enough. -/
def InvertsBelow (r : Decoder α) (f : α → Json) (d : Nat) : Prop := ∀ d' < d, r.InvertsAt f d'

/-- What is read back below some level is below any smaller one. -/
theorem InvertsBelow.mono {d' : Nat} (h : r.InvertsBelow f d) (hd : d' < d) :
    r.InvertsBelow f d' :=
  fun e he => h e (Nat.lt_trans he hd)

/-- What is read back at all levels is below each. -/
theorem Inverts.below (h : r.Inverts f) (d : Nat) : r.InvertsBelow f d := fun d' _ => h d'

/-- Values without arrays and objects need no levels. -/
theorem inverts_of_eq (hdepth : ∀ a, (f a).depth = 0) (h : ∀ d a, r d (f a) = some a) :
    r.Inverts f :=
  fun d a => .of_eq (h d a) (by rw [hdepth]; exact Nat.zero_le d)

theorem inverts_string : string.Inverts Json.text := inverts_of_eq (fun _ => rfl) fun _ _ => rfl

theorem inverts_bool : bool.Inverts Json.bool := inverts_of_eq (fun _ => rfl) fun _ _ => rfl

/-- A number below the bound is read back. -/
theorem natBelow_nat {bound n : Nat} (h : n < bound) (d : Nat) :
    natBelow bound d (.nat n) = some n := by
  have hn : (0 : Int) ≤ n ∧ (n : Int) < bound := by omega
  change (if (0 : Int) ≤ n ∧ (n : Int) < bound then some (n : Int).toNat else none) = some n
  rw [if_pos hn, Int.toNat_natCast]

theorem inverts_uint8 : uint8.Inverts fun n => .nat n.toNat :=
  inverts_of_eq (fun _ => rfl) fun d n => by
    rw [uint8, natBelow_nat n.toNat_lt_size, Option.map_some, UInt8.ofNat_toNat]

theorem inverts_uint32 : uint32.Inverts fun n => .nat n.toNat :=
  inverts_of_eq (fun _ => rfl) fun d n => by
    rw [uint32, natBelow_nat n.toNat_lt_size, Option.map_some, UInt32.ofNat_toNat]

theorem inverts_uint64 : uint64.Inverts fun n => .nat n.toNat :=
  inverts_of_eq (fun _ => rfl) fun d n => by
    rw [uint64, natBelow_nat n.toNat_lt_size, Option.map_some, UInt64.ofNat_toNat]

/-- An integer is read back from the numeral that is written for it. -/
theorem toInt?_ofInt (i : Int) : (Numeral.ofInt i).toInt? = some i := by
  cases i with
  | ofNat n => rfl
  | negSucc n => rfl

theorem inverts_int64 : int64.Inverts fun n => .int n.toInt :=
  inverts_of_eq (fun _ => rfl) fun d n => by
    have hrange : Int64.minValue.toInt ≤ n.toInt ∧ n.toInt ≤ Int64.maxValue.toInt :=
      ⟨n.minValue_le_toInt, n.toInt_le⟩
    have hint : int d (.int n.toInt) = some n.toInt := toInt?_ofInt n.toInt
    rw [int64, hint, Option.bind_some, if_pos hrange, Int64.ofInt_toInt]

/-- What is found under its name is read back from its name. -/
theorem inverts_named {name : α → String} {ofName? : String → Option α}
    (h : ∀ a, ofName? (name a) = some a) : (named ofName?).Inverts fun a => .text (name a) :=
  inverts_of_eq (fun _ => rfl) fun d a => by
    change (ofName? (name a) >>= fun b => some b) = some a
    rw [h]
    rfl

/-- What is not `null` is decoded as what it is. -/
theorem nullable_of_ne_null (r : Decoder α) (d : Nat) {j : Json} (h : j ≠ .null) :
    nullable r d j = (r d j).map some := by
  cases j with
  | null => exact absurd rfl h
  | _ => rfl

/-- What may be missing is read back, if nothing else is written as `null`. -/
theorem InvertsAt.nullable (h : r.InvertsAt f d) (hf : ∀ a, f a ≠ .null) :
    (nullable r).InvertsAt (Json.nullable f) d := by
  intro o
  cases o with
  | none => exact .of_eq rfl (Nat.zero_le d)
  | some a =>
    have hgives : Gives (Decoder.nullable r d (f a)) ((f a).depth ≤ d) (some a) := by
      rw [nullable_of_ne_null r d (hf a)]
      exact (h a).map
    exact hgives

/-- The items of an array are decoded with one level less. -/
theorem InvertsBelow.list (h : r.InvertsBelow f d) :
    (list r).InvertsAt (fun as => .arr (as.map f)) d := by
  intro as
  cases d with
  | zero => exact ⟨fun h => absurd h (Nat.not_succ_le_zero _), fun _ => rfl⟩
  | succ d =>
    refine (Gives.mapM fun a _ => h d (Nat.lt_succ_self d) a).congr ?_
    rw [Json.depth_arr_le, List.forall_mem_map]

/-- **Recursive types.** The levels bound the recursion: if a decoder is right as soon as those for
the inner values are right with fewer levels, then it is right. -/
theorem inverts_fix {step : Decoder α → Decoder α}
    (h : ∀ (r : Decoder α) (d : Nat), r.InvertsBelow f d → (step r).InvertsAt f d) :
    (fix step).Inverts f := by
  have hlevel : ∀ n, (fix.level step n).InvertsBelow f n := by
    intro n
    induction n with
    | zero => exact fun d hd => absurd hd (Nat.not_lt_zero d)
    | succ n ih =>
      intro d hd
      exact h _ d fun d' hd' => ih d' (Nat.lt_of_lt_of_le hd' (Nat.le_of_lt_succ hd))
  exact fun d => hlevel (d + 1) d (Nat.lt_succ_self d)

end Decoder

end CTyping
