import CTyping.Proofs.Document.Format
import CTyping.Proofs.Json.Decoder
import Mathlib.Data.List.Nodup

/-!
# Decoders that do not see the presentation

A decoder *respects* a shape (`CTyping.Decoder.Respects`) if it gives of a value in another
presentation whatever it gave of the value. It is enough to look at one change, and what a change
does to a record is said once, for all records (`CTyping.Shape.Restyled.fields?`): each field is
found as before, or changed within, or it is missing and was the default. From there the lemmas
follow the way decoders are put together:

* `CTyping.Keeps.fields` for records, with `CTyping.Keeps.required` and `CTyping.Keeps.optional`
  for their fields,
* `CTyping.Decoder.Respects.variant` for variants,
* `CTyping.Decoder.Respects.list` and `CTyping.Decoder.Respects.nullable`,
* `CTyping.Decoder.respects_fix` for recursive types, by induction on the levels.

No change makes a value deeper where it is looked at, so the number of levels that are left is of no
importance here.
-/

namespace CTyping

/-! ### Answers that stay -/

/-- Whatever the first answer gives is given by the second. -/
def Keeps {α : Type} (o o' : Option α) : Prop := ∀ a, o = some a → o' = some a

namespace Keeps

variable {α β : Type} {o o' : Option α}

theorem refl (o : Option α) : Keeps o o := fun _ h => h

/-- What is kept twice is kept. -/
theorem trans {o'' : Option α} (h : Keeps o o') (h' : Keeps o' o'') : Keeps o o'' :=
  fun a ha => h' a (h a ha)

/-- What is made of a result is kept if the result is. -/
theorem bind {k k' : α → Option β} (h : Keeps o o') (hk : ∀ a, Keeps (k a) (k' a)) :
    Keeps (o >>= k) (o' >>= k') := by
  intro b hb
  obtain ⟨a, ha, hb⟩ := Option.bind_eq_some_iff.mp hb
  exact Option.bind_eq_some_iff.mpr ⟨a, h a ha, hk a b hb⟩

/-- A result that is kept is kept under a function. -/
theorem map (f : α → β) (h : Keeps o o') : Keeps (o.map f) (o'.map f) := by
  intro b hb
  obtain ⟨a, ha, rfl⟩ := Option.map_eq_some_iff.mp hb
  rw [h a ha, Option.map_some]

/-- Of a list one member is changed. -/
theorem mapM {r : β → Option α} {j j' : β} (h : Keeps (r j) (r j')) (js js' : List β) :
    Keeps ((js ++ j :: js').mapM r) ((js ++ j' :: js').mapM r) := by
  rw [List.mapM_append, List.mapM_append, List.mapM_cons, List.mapM_cons]
  exact bind (refl _) fun _ => bind (bind h fun _ => refl _) fun _ => refl _

end Keeps

/-! ### Records -/

/-- What a change of presentation may do to a field: nothing, a change within it, or leave it
out. -/
inductive Shape.Field.Alike (f : Shape.Field Shape) : Option Json → Option Json → Prop
  | same (o : Option Json) : f.Alike o o
  | changed {j j' : Json} (h : f.shape.Restyled j j') : f.Alike (some j) (some j')
  | omitted {v : Default} (hv : f.default? = some v) {j : Json} (hj : v.Written j) :
    f.Alike (some j) none

namespace Json

variable {names : List String} {d : Nat} {fs : Fields}

/-- The fields of an object that are among given ones. -/
def known (names : List String) (es : List (String × Json)) : List (String × Json) :=
  es.filter (names.contains ·.1)

/-- A known field is kept. -/
theorem known_cons_of_mem {key : String} (h : key ∈ names) (j : Json) (es : List (String × Json)) :
    known names ((key, j) :: es) = (key, j) :: known names es :=
  List.filter_cons_of_pos (List.contains_iff_mem.mpr h)

/-- An unknown field is dropped. -/
theorem known_cons_of_not_mem {key : String} (h : key ∉ names) (j : Json)
    (es : List (String × Json)) : known names ((key, j) :: es) = known names es :=
  List.filter_cons_of_neg (mt List.contains_iff_mem.mp h)

/-- The order of fields does not matter for which are known. -/
theorem known_perm (names : List String) {es es' : List (String × Json)} (h : es.Perm es') :
    (known names es).Perm (known names es') :=
  h.filter _

/-- An object is a record if no known field is given twice. -/
theorem fields?_record_eq_some {es : List (String × Json)} :
    fields? names d (record es) = some fs ↔
      d = fs.levels + 1 ∧ fs.entries = known names es ∧ ((known names es).map Prod.fst).Nodup := by
  obtain ⟨entries, levels⟩ := fs
  cases d with
  | zero => exact ⟨nofun, nofun⟩
  | succ d =>
    rw [fields?_object, Option.ite_none_right_eq_some]
    constructor
    · rintro ⟨h, ⟨⟩⟩
      exact ⟨rfl, rfl, h⟩
    · rintro ⟨⟨⟩, rfl, h⟩
      exact ⟨h, rfl⟩

/-- An array is a record if it is not longer than that. -/
theorem fields?_arr_eq_some {js : List Json} :
    fields? names d (.arr js) = some fs ↔
      d = fs.levels + 1 ∧ fs.entries = names.zip js ∧ js.length ≤ names.length := by
  obtain ⟨entries, levels⟩ := fs
  cases d with
  | zero => exact ⟨nofun, nofun⟩
  | succ d =>
    rw [fields?, Option.ite_none_right_eq_some]
    constructor
    · rintro ⟨h, ⟨⟩⟩
      exact ⟨rfl, rfl, h⟩
    · rintro ⟨⟨⟩, rfl, h⟩
      exact ⟨h, rfl⟩

/-- Another field in front does not change what is found under a name. -/
theorem lookup_cons_of_ne {key key' : String} (h : key ≠ key') (j : Json)
    (es : List (String × Json)) : ((key', j) :: es).lookup key = es.lookup key := by
  rw [List.lookup_cons, beq_eq_false_iff_ne.mpr h]

/-- What is found under a name does not depend on the order of distinct names. -/
theorem lookup_eq_of_perm {es es' : List (String × Json)} (h : es.Perm es')
    (hn : (es.map Prod.fst).Nodup) (key : String) : es.lookup key = es'.lookup key := by
  induction h with
  | nil => rfl
  | cons e _ ih => rw [List.lookup_cons, List.lookup_cons, ih (List.nodup_cons.mp hn).2]
  | swap a b es =>
    have hab : b.1 ≠ a.1 := fun h => (List.nodup_cons.mp hn).1 (h ▸ List.mem_cons_self)
    rw [List.lookup_cons, List.lookup_cons, List.lookup_cons, List.lookup_cons]
    cases ha : key == a.1 with
    | false => rfl
    | true =>
      -- then it is not the other name
      obtain rfl := beq_iff_eq.mp ha
      rw [beq_eq_false_iff_ne.mpr hab.symm]
  | trans h _ ih ih' => exact (ih hn).trans (ih' ((h.map Prod.fst).nodup_iff.mp hn))

end Json

namespace Shape

variable {fields : List (Field Shape)} {f : Field Shape} {j j' : Json}

/-- If what is found under other names is the same, all fields are alike if one is. -/
theorem Field.forall_alike (hnodup : (fields.map Field.name).Nodup) (hf : f ∈ fields)
    {es es' : List (String × Json)} (halike : f.Alike (es.lookup f.name) (es'.lookup f.name))
    (hsame : ∀ key, key ≠ f.name → es.lookup key = es'.lookup key) :
    ∀ g ∈ fields, g.Alike (es.lookup g.name) (es'.lookup g.name) := by
  intro g hg
  by_cases hgf : g.name = f.name
  · obtain rfl : g = f := List.inj_on_of_nodup_map hnodup hg hf hgf
    exact halike
  · rw [hsame g.name hgf]
    exact .same _

/-- **What a change does to a record.** The record is found again, with as many levels left, and
each of its fields is alike. -/
theorem Restyled.fields? {d : Nat} {fs : Fields} (hnodup : (fields.map Field.name).Nodup)
    (h : (Shape.record fields).Restyled j j')
    (hfs : Json.fields? (fields.map Field.name) d j = some fs) :
    ∃ es, Json.fields? (fields.map Field.name) d j' = some ⟨es, fs.levels⟩ ∧
      ∀ f ∈ fields, f.Alike (fs.entries.lookup f.name) (es.lookup f.name) := by
  have hname : ∀ f ∈ fields, f.name ∈ fields.map Field.name := fun f hf => List.mem_map_of_mem hf
  cases h with
  | @permuted _ es es' h =>
    obtain ⟨hd, he, hn⟩ := Json.fields?_record_eq_some.mp hfs
    have hknown := Json.known_perm (fields.map Field.name) h
    refine ⟨Json.known _ es', Json.fields?_record_eq_some.mpr
      ⟨hd, rfl, (hknown.map Prod.fst).nodup_iff.mp hn⟩, fun g _ => ?_⟩
    rw [he, Json.lookup_eq_of_perm hknown hn]
    exact .same _
  | @omitted _ f hf v hv j hj es =>
    obtain ⟨hd, he, hn⟩ := Json.fields?_record_eq_some.mp hfs
    rw [Json.known_cons_of_mem (hname f hf)] at he hn
    obtain ⟨hmem, hn⟩ := List.nodup_cons.mp hn
    refine ⟨Json.known _ es, Json.fields?_record_eq_some.mpr ⟨hd, rfl, hn⟩, ?_⟩
    rw [he]
    refine Field.forall_alike hnodup hf ?_ fun key hkey => Json.lookup_cons_of_ne hkey j _
    have hnone : (Json.known (fields.map Field.name) es).lookup f.name = none := by
      refine List.lookup_eq_none_iff.mpr fun e he => bne_iff_ne.mpr ?_
      rintro h
      exact hmem (List.mem_map.mpr ⟨e, he, h.symm⟩)
    rw [List.lookup_cons_self, hnone]
    exact .omitted hv hj
  | @added _ key hkey j es =>
    obtain ⟨hd, he, hn⟩ := Json.fields?_record_eq_some.mp hfs
    have hkey : key ∉ fields.map Field.name := by
      rintro hmem
      obtain ⟨f, hf, rfl⟩ := List.mem_map.mp hmem
      exact hkey f hf rfl
    rw [← Json.known_cons_of_not_mem hkey j] at he hn
    refine ⟨_, Json.fields?_record_eq_some.mpr ⟨hd, he, hn⟩, fun g _ => .same _⟩
  | @field _ f hf j j' h es =>
    obtain ⟨hd, he, hn⟩ := Json.fields?_record_eq_some.mp hfs
    rw [Json.known_cons_of_mem (hname f hf)] at he hn
    have he' := Json.known_cons_of_mem (hname f hf) j' es
    refine ⟨(f.name, j') :: Json.known (fields.map Field.name) es,
      Json.fields?_record_eq_some.mpr ⟨hd, he'.symm, by rwa [he']⟩, ?_⟩
    rw [he]
    refine Field.forall_alike hnodup hf ?_ fun key hkey => ?_
    · rw [List.lookup_cons_self, List.lookup_cons_self]
      exact .changed h
    · rw [Json.lookup_cons_of_ne hkey, Json.lookup_cons_of_ne hkey]
  | @entry before after f js hjs j j' h js' =>
    obtain ⟨hd, he, hn⟩ := Json.fields?_arr_eq_some.mp hfs
    -- the names before the one that is changed stand for the entries before it
    have hzip : ∀ j, ((before ++ f :: after).map Field.name).zip (js ++ j :: js') =
        (before.map Field.name).zip js ++ (f.name, j) :: (after.map Field.name).zip js' := by
      intro j
      rw [List.map_append, List.map_cons, List.zip_append (by rw [List.length_map, hjs]),
        List.zip_cons_cons]
    have hn' : (js ++ j' :: js').length ≤ ((before ++ f :: after).map Field.name).length := by
      simpa using hn
    refine ⟨((before ++ f :: after).map Field.name).zip (js ++ j' :: js'),
      Json.fields?_arr_eq_some.mpr ⟨hd, rfl, hn'⟩, ?_⟩
    rw [he, hzip, hzip]
    refine Field.forall_alike hnodup (List.mem_append_right _ List.mem_cons_self) ?_ ?_
    · rw [List.lookup_append, List.lookup_append, List.lookup_cons_self, List.lookup_cons_self]
      cases ((before.map Field.name).zip js).lookup f.name with
      | none => exact .changed h
      | some j => exact .same _
    · intro key hkey
      rw [List.lookup_append, List.lookup_append, Json.lookup_cons_of_ne hkey,
        Json.lookup_cons_of_ne hkey]

/-- No change makes anything of `null`. -/
theorem Restyled.ne_null {s : Shape} (h : s.Restyled j j') : j ≠ .null ∧ j' ≠ .null := by
  induction h with
  | nullable _ ih | kind _ ih => exact ih
  | _ => exact ⟨nofun, nofun⟩

end Shape

/-- The fields of a record one by one, each of them alike. -/
def AllAlike (es es' : List (String × Json)) : List (Shape.Field Shape) → Prop
  | [] => True
  | f :: fs => f.Alike (es.lookup f.name) (es'.lookup f.name) ∧ AllAlike es es' fs

/-- That fields are alike is said of them one by one. -/
theorem allAlike_iff {es es' : List (String × Json)} {fields : List (Shape.Field Shape)} :
    AllAlike es es' fields ↔ ∀ f ∈ fields, f.Alike (es.lookup f.name) (es'.lookup f.name) := by
  induction fields with
  | nil => simp [AllAlike]
  | cons f fs ih => rw [AllAlike, ih, List.forall_mem_cons]

/-! ### Decoders -/

/-- A decoder gives of a value in another presentation whatever it gave of the value. -/
def Decoder.Respects {α : Type} (r : Decoder α) (s : Shape) : Prop :=
  ∀ ⦃d : Nat⦄ ⦃j j' : Json⦄, s.Restyled j j' → Keeps (r d j) (r d j')

/-- What a decoder makes of the values that say no more than a default is that default. -/
def Decoder.Takes {α : Type} (r : Decoder α) (v : Shape.Default) (default : α) : Prop :=
  ∀ ⦃d : Nat⦄ ⦃j : Json⦄ ⦃a : α⦄, v.Written j → r d j = some a → a = default

namespace Keeps

variable {α : Type} {r : Decoder α} {f : Shape.Field Shape} {es es' : List (String × Json)}
  {d : Nat}

/-- A record is decoded field by field. -/
theorem fields {fields : List (Shape.Field Shape)} {j j' : Json} {names : List String}
    {k : Fields → Option α} (h : (Shape.record fields).Restyled j j')
    (hnames : fields.map Shape.Field.name = names) (hnodup : names.Nodup)
    (hk : ∀ {es es' : List (String × Json)} {d : Nat},
      AllAlike es es' fields → Keeps (k ⟨es, d⟩) (k ⟨es', d⟩)) :
    Keeps (Json.fields? names d j >>= k) (Json.fields? names d j' >>= k) := by
  intro a ha
  subst hnames
  obtain ⟨fs, hfs, hka⟩ := Option.bind_eq_some_iff.mp ha
  obtain ⟨es', hfs', halike⟩ := h.fields? hnodup hfs
  exact Option.bind_eq_some_iff.mpr ⟨_, hfs', hk (allAlike_iff.mpr halike) a hka⟩

/-- What is decoded of a field that has to be given is kept if the field is alike. -/
theorem required (h : f.Alike (es.lookup f.name) (es'.lookup f.name)) (hf : f.default? = none)
    (hr : r.Respects f.shape) :
    Keeps (Fields.required ⟨es, d⟩ f.name r) (Fields.required ⟨es', d⟩ f.name r) := by
  simp only [Fields.required, Fields.find?]
  generalize es.lookup f.name = o, es'.lookup f.name = o' at h ⊢
  cases h with
  | same => exact refl _
  | changed h => exact hr h
  | omitted hv => rw [hf] at hv; cases hv

/-- So it is for a field that may be left out, if what is written for the default is decoded as
it. -/
theorem optional {v : Shape.Default} {default : α}
    (h : f.Alike (es.lookup f.name) (es'.lookup f.name)) (hf : f.default? = some v)
    (hv : r.Takes v default) (hr : r.Respects f.shape) :
    Keeps (Fields.optional ⟨es, d⟩ f.name default r)
      (Fields.optional ⟨es', d⟩ f.name default r) := by
  simp only [Fields.optional, Fields.find?]
  generalize es.lookup f.name = o, es'.lookup f.name = o' at h ⊢
  cases h with
  | same => exact refl _
  | changed h => exact hr h
  | omitted hv' hj =>
    obtain rfl := Option.some.inj (hf.symm.trans hv')
    intro a ha
    rw [hv hj ha]

end Keeps

namespace Decoder.Respects

variable {α : Type} {r : Decoder α} {s : Shape}

/-- What one change leaves as it is, any number of changes do. -/
theorem run (h : r.Respects s) {d : Nat} {j j' : Json}
    (hj : Relation.ReflTransGen s.Restyled j j') : Keeps (r d j) (r d j') := by
  induction hj with
  | refl => exact .refl _
  | tail _ hstep ih => exact ih.trans (h hstep)

/-- There is nothing to change in a value without records. -/
theorem simple (r : Decoder α) : r.Respects .simple := nofun

/-- The values of a list may change their presentation one by one. -/
theorem list (h : r.Respects s) : (list r).Respects (.list s) := by
  intro d _ _ hj
  cases hj with
  | item js hj js' =>
    cases d with
    | zero => exact .refl _
    | succ d => exact .mapM (h hj) js js'

/-- A value that may be `null` is respected as the value is. -/
theorem nullable (h : r.Respects s) : (nullable r).Respects (.nullable s) := by
  intro d _ _ hj
  cases hj with
  | nullable hj =>
    obtain ⟨hne, hne'⟩ := hj.ne_null
    rw [nullable_of_ne_null r d hne, nullable_of_ne_null r d hne']
    exact .map some (h hj)

/-- A record is respected if what is made of its fields stays whenever these are alike. -/
theorem record {fields : List (Shape.Field Shape)} {names : List String} {k : Fields → Option α}
    (hnames : fields.map Shape.Field.name = names) (hnodup : names.Nodup)
    (hk : ∀ {es es' : List (String × Json)} {d : Nat},
      AllAlike es es' fields → Keeps (k ⟨es, d⟩) (k ⟨es', d⟩)) :
    Decoder.Respects (fun d j => Json.fields? names d j >>= k) (.record fields) :=
  fun _ _ _ h => .fields h hnames hnodup hk

end Decoder.Respects

namespace Decoder

variable {α : Type}

/-- What may be missing is taken to be missing. -/
theorem takes_nullable (r : Decoder α) : (nullable r).Takes .null none := by
  rintro d _ a ⟨⟩ ha
  exact (Option.some.inj ha).symm

/-- A flag is taken not to be set. -/
theorem takes_bool : bool.Takes .no false := by
  rintro d _ a ⟨⟩ ha
  exact (Option.some.inj ha).symm

/-- A list is taken to be empty. -/
theorem takes_list (r : Decoder α) : (list r).Takes .emptyList [] := by
  rintro (_ | d) _ a ⟨⟩ ha
  · cases ha
  · exact (Option.some.inj ha).symm

end Decoder

/-- For each of given tags, what is made of a variant with that tag stays when there is a change in
what belongs to it. -/
def Variant.Covers {α : Type} (k : Variant → Option α) : List (String × Shape) → Prop
  | [] => True
  | (tag, s) :: forms =>
    (∀ {d : Nat} {j j' : Json}, s.Restyled j j' →
      Keeps (k ⟨tag, some (d, j)⟩) (k ⟨tag, some (d, j')⟩)) ∧ Covers k forms

/-- A change in what belongs to a tag that is covered is kept. -/
theorem Variant.Covers.of_mem {α : Type} {k : Variant → Option α} {forms : List (String × Shape)}
    (h : Covers k forms) {tag : String} {s : Shape} (hs : (tag, s) ∈ forms) {d : Nat} {j j' : Json}
    (hj : s.Restyled j j') : Keeps (k ⟨tag, some (d, j)⟩) (k ⟨tag, some (d, j')⟩) := by
  induction forms with
  | nil => cases hs
  | cons form forms ih =>
    rcases List.mem_cons.mp hs with rfl | hs
    · exact h.1 hj
    · exact ih h.2 hs

namespace Decoder

variable {α : Type}

/-- A variant is respected if it is, whatever its tag. -/
theorem Respects.variant {forms : List (String × Shape)} {k : Variant → Option α}
    (h : Variant.Covers k forms) :
    Decoder.Respects (fun d j => Json.variant? d j >>= k) (.variant forms) := by
  intro d _ _ hj
  cases hj with
  | payload hs hj =>
    cases d with
    | zero => exact .refl _
    | succ d => exact h.of_mem hs hj

/-- **Recursive types.** A decoder that respects a shape as soon as the decoder for the inner values
respects it does so. -/
theorem respects_fix {step : Decoder α → Decoder α} {k : Shape.Kind}
    (h : ∀ r : Decoder α, r.Respects (.kind k) → (step r).Respects k.shape) :
    (fix step).Respects (.kind k) := by
  have hlevel : ∀ n, (fix.level step n).Respects (.kind k) := by
    intro n
    induction n with
    | zero => exact fun _ _ _ _ => .refl _
    | succ n ih =>
      intro d j j' hj
      cases hj with
      | kind hj => exact h _ ih hj
  exact fun d _ _ hj => hlevel (d + 1) hj

end Decoder

end CTyping
