import CTyping.Proofs.Ty.Words
import Mathlib.Data.List.Induction

/-!
# The text of a type determines it

Diagnostics show types by their texts, which leave out widths and ids. Nothing else is lost: types
that are laid out for one data model and have the same text differ in ids only
(`CTyping.Ty.Renumbered`).

Where a type ends, in a list of parameters as at the start of a text, no type could go on
(`CTyping.Ty.Stops`). So it can be said of each type that it is read off the end of any text
(`CTyping.Ty.Reads`), and this is shown by recursion on the type.
-/

namespace CTyping

namespace Ty

variable {m : DataModel}

/-! ### Reading a list of parameters -/

/-- A type that can be read off the end of any text: whatever type the text ends with, it is the
same but for ids, and what stands before it is the same. -/
def Reads (m : DataModel) (t : Ty) : Prop :=
  ∀ ⦃u : Ty⦄ ⦃x y : List Char⦄, u.Legible m → Stops x → Stops y →
    t.backwards ++ x = u.backwards ++ y → t.Renumbered u ∧ x = y

/-- What is written between the parentheses of a function: its parameters, and nothing at all for
the dots after them. -/
def items (params : List Ty) (variadic : Bool) : List (Option Ty) :=
  params.map some ++ if variadic then [none] else []

/-- What stands between the commas of a parameter list: a type, or dots after the last one. -/
def itemText : Option Ty → String
  | none => "..."
  | some t => t.text

/-- The items of a parameter list from the last character to the first. -/
def itemsBackwards (is : List (Option Ty)) : List Char :=
  (", ".intercalate (is.map itemText)).toList.reverse

theorem textList_eq (ts : List Ty) : textList ts = ts.map text := by
  induction ts with
  | nil => rfl
  | cons t ts ih => rw [textList, ih, List.map_cons]

/-- The text between the parentheses of a function, from its end. -/
theorem paramsText_backwards (params : List Ty) (variadic : Bool) :
    (paramsText (textList params) variadic).toList.reverse =
      itemsBackwards (items params variadic) := by
  cases variadic <;>
    simp [paramsText, itemsBackwards, items, textList_eq, Function.comp_def, itemText]

/-- The last item comes first, and the others after a comma. -/
theorem itemsBackwards_concat (is : List (Option Ty)) (i : Option Ty) :
    itemsBackwards (is ++ [i]) = (itemText i).toList.reverse ++
      if is = [] then [] else ' ' :: ',' :: itemsBackwards is := by
  by_cases h : is = []
  · simp [h, itemsBackwards]
  · have hmap : is.map itemText ≠ [] := by simpa using h
    rw [if_neg h, itemsBackwards, List.map_append, List.map_singleton,
      String.intercalate_append_of_ne_nil hmap (List.cons_ne_nil _ _)]
    simp [itemsBackwards]

/-- Before an item stands a comma and a blank or the parenthesis, so that an item ends there. -/
theorem stops_itemsBackwards (is : List (Option Ty)) (x : List Char) :
    Stops ((if is = [] then [] else ' ' :: ',' :: itemsBackwards is) ++ '(' :: x) := by
  by_cases h : is = []
  · rw [if_pos h]
    exact .paren x
  · rw [if_neg h]
    exact .comma _

/-- Dots are not taken for a parameter. -/
theorem item_eq {i j : Option Ty} {x y : List Char} (hi : ∀ t ∈ i, t.Legible m ∧ t.Reads m)
    (hj : ∀ t ∈ j, t.Legible m) (hx : Stops x) (hy : Stops y)
    (h : (itemText i).toList.reverse ++ x = (itemText j).toList.reverse ++ y) :
    Option.Rel Renumbered i j ∧ x = y := by
  cases i with
  | none =>
    cases j with
    | none => exact ⟨.none, List.append_cancel_left h⟩
    | some u =>
      -- no type ends in a dot
      have ho := (hj u rfl).opening_eq y
      rw [backwards, ← itemText, ← h] at ho
      cases u <;> cases ho
  | some t =>
    obtain ⟨ht, hreads⟩ := hi t rfl
    cases j with
    | none =>
      have ho := ht.opening_eq x
      rw [backwards, ← itemText, h] at ho
      cases t <;> cases ho
    | some u =>
      obtain ⟨htu, hxy⟩ := hreads (hj u rfl) hx hy h
      exact ⟨.some htu, hxy⟩

/-- No item is taken for the end of the list. -/
theorem opening_item {i : Option Ty} (hi : ∀ t ∈ i, t.Legible m) (x : List Char) :
    opening ((itemText i).toList.reverse ++ x) ≠ some '(' := by
  intro h
  cases i with
  | none => cases h
  | some t =>
    have hmark : t.mark = some '(' := ((hi t rfl).opening_eq x).symm.trans h
    cases t <;> cases hmark

/-- **A list of parameters is read item by item, from the last one to the parenthesis.** -/
theorem items_eq {is js : List (Option Ty)} {x y : List Char}
    (his : ∀ i ∈ is, ∀ t ∈ i, t.Legible m ∧ t.Reads m) (hjs : ∀ j ∈ js, ∀ t ∈ j, t.Legible m)
    (h : itemsBackwards is ++ '(' :: x = itemsBackwards js ++ '(' :: y) :
    List.Forall₂ (Option.Rel Renumbered) is js ∧ x = y := by
  induction is using List.reverseRecOn generalizing js x y with
  | nil =>
    rcases List.eq_nil_or_concat' js with rfl | ⟨js, j, rfl⟩
    · exact ⟨.nil, (List.cons.inj h).2⟩
    · rw [itemsBackwards_concat, List.append_assoc] at h
      have hj := hjs j (List.mem_append_right _ List.mem_cons_self)
      exact absurd (congrArg opening h).symm (opening_item hj _)
  | append_singleton is i ih =>
    have hi := his i (List.mem_append_right _ List.mem_cons_self)
    rw [itemsBackwards_concat, List.append_assoc] at h
    rcases List.eq_nil_or_concat' js with rfl | ⟨js, j, rfl⟩
    · exact absurd (congrArg opening h) (opening_item (fun t ht => (hi t ht).1) _)
    · have hj := hjs j (List.mem_append_right _ List.mem_cons_self)
      rw [itemsBackwards_concat, List.append_assoc] at h
      obtain ⟨hij, hrest⟩ :=
        item_eq hi hj (stops_itemsBackwards is x) (stops_itemsBackwards js y) h
      -- before the last item there is either a comma in both lists or the parenthesis in both
      have hrest : List.Forall₂ (Option.Rel Renumbered) is js ∧ x = y := by
        by_cases his' : is = []
        · by_cases hjs' : js = []
          · subst his' hjs'
            exact ⟨.nil, (List.cons.inj hrest).2⟩
          · rw [if_pos his', if_neg hjs'] at hrest
            cases hrest
        · by_cases hjs' : js = []
          · rw [if_neg his', if_pos hjs'] at hrest
            cases hrest
          · rw [if_neg his', if_neg hjs'] at hrest
            exact ih (fun i hm => his i (List.mem_append_left _ hm))
              (fun j hm => hjs j (List.mem_append_left _ hm))
              (List.cons.inj (List.cons.inj hrest).2).2
      exact ⟨List.rel_append hrest.1 (.cons hij .nil), hrest.2⟩

/-- The items of a function are its parameters, and whether there are dots. -/
theorem params_of_items {R : Ty → Ty → Prop} {v w : Bool} : ∀ {ps qs : List Ty},
    List.Forall₂ (Option.Rel R) (items ps v) (items qs w) → List.Forall₂ R ps qs ∧ v = w
  | [], [], h => by
    have hlen : (if v then [none] else [] : List (Option Ty)).length =
        (if w then [none] else [] : List (Option Ty)).length := h.length_eq
    refine ⟨.nil, ?_⟩
    revert hlen
    cases v <;> cases w <;> decide
  -- dots are no parameter, so that both lists end at once
  | [], q :: qs, h => by
    cases v with
    | false => cases h
    | true =>
      cases h with
      | cons h _ => cases h
  | p :: ps, [], h => by
    cases w with
    | false => cases h
    | true =>
      cases h with
      | cons h _ => cases h
  | p :: ps, q :: qs, .cons (.some hpq) h => by
    obtain ⟨hps, hv⟩ := params_of_items h
    exact ⟨.cons hpq hps, hv⟩

/-! ### Reading a type -/

/-- The types among the items are the parameters. -/
theorem mem_items {ps : List Ty} {v : Bool} {i : Option Ty} (hi : i ∈ items ps v) :
    ∀ t ∈ i, t ∈ ps := by
  rintro t ⟨⟩
  rcases List.mem_append.mp hi with hi | hi
  · obtain ⟨u, hu, ⟨⟩⟩ := List.mem_map.mp hi
    exact hu
  · cases v with
    | false => cases hi
    | true => cases List.mem_singleton.mp hi

/-- The last character of a text tells how the type is built. -/
theorem Legible.mark_eq {t u : Ty} (ht : t.Legible m) (hu : u.Legible m) {x y : List Char}
    (h : t.backwards ++ x = u.backwards ++ y) : t.mark = u.mark := by
  rw [← ht.opening_eq x, h, hu.opening_eq y]

/-- A type that is built from no other is read back from its text, up to ids. -/
theorem Legible.reads_of_mark {t : Ty} (ht : t.Legible m) (hm : t.mark = none) : t.Reads m := by
  intro u x y hu hx hy h
  have hmu : u.mark = none := (ht.mark_eq hu h).symm.trans hm
  rw [backwards_of_mark hm, backwards_of_mark hmu, List.append_assoc, List.append_assoc] at h
  obtain ⟨hword, hlead⟩ := word_eq (fun c hc => ht.plain_lastWord c (List.mem_reverse.mp hc))
    (fun c hc => hu.plain_lastWord c (List.mem_reverse.mp hc)) (t.lead.head hx) (u.lead.head hy) h
  obtain ⟨hlead, hxy⟩ := Lead.eq_of_append hx hy hlead
  have hword : t.lastWord = u.lastWord := String.toList_inj.mp (List.reverse_inj.mp hword)
  exact ⟨renumbered_of_words hm hmu ht hu hword hlead, hxy⟩

mutual

/-- **Every type is read off the end of a text.** -/
theorem Legible.reads : ∀ {t : Ty}, t.Legible m → t.Reads m
  | .void, ht => ht.reads_of_mark rfl
  | .int _, ht => ht.reads_of_mark rfl
  | .struct _, ht => ht.reads_of_mark rfl
  | .union _, ht => ht.reads_of_mark rfl
  -- the last character tells how `u` is built; what is left of both texts is shorter
  | .ptr b, ht => by
    intro u x y hu hx hy h
    have hmark := ht.mark_eq hu h
    cases u with
    | ptr c =>
      rw [backwards_ptr, backwards_ptr] at h
      obtain ⟨hbc, hxy⟩ := (ht.base rfl).reads (hu.base rfl) hx hy (List.cons.inj h).2
      exact ⟨.ptr hbc, hxy⟩
    | _ => cases hmark
  | .array e n, ht => by
    intro u x y hu hx hy h
    have hmark := ht.mark_eq hu h
    cases u with
    | array e' n' =>
      rw [backwards_array, backwards_array] at h
      simp only [List.cons_append, List.append_assoc] at h
      have hbracket : ∀ l : List Char, ∀ c ∈ ('[' :: l).head?, c ∈ punctuation := by
        rintro l _ ⟨⟩
        decide
      -- the length is one word, which ends at the bracket before it
      obtain ⟨hn, hrest⟩ := word_eq (fun c hc => plain_lengthText n c (List.mem_reverse.mp hc))
        (fun c hc => plain_lengthText n' c (List.mem_reverse.mp hc)) (hbracket _) (hbracket _)
        (List.cons.inj h).2
      obtain rfl : n = n' := lengthText_inj (String.toList_inj.mp (List.reverse_inj.mp hn))
      obtain ⟨he, hxy⟩ := (ht.base rfl).reads (hu.base rfl) hx hy (List.cons.inj hrest).2
      exact ⟨.array he, hxy⟩
    | _ => cases hmark
  | .func r ps v, ht => by
    intro u x y hu hx hy h
    have hmark := ht.mark_eq hu h
    cases u with
    | func s qs w =>
      obtain ⟨hr, hps⟩ := ht.func
      obtain ⟨hs, hqs⟩ := hu.func
      rw [backwards_func, backwards_func, paramsText_backwards, paramsText_backwards] at h
      simp only [List.cons_append, List.append_assoc] at h
      have hreads := Legible.readsList hps
      -- the items are cut at the commas, and the result stands before the parenthesis
      obtain ⟨hitems, hrest⟩ := items_eq
        (fun i hi t ht => ⟨hps t (mem_items hi t ht), hreads t (mem_items hi t ht)⟩)
        (fun j hj t ht => hqs t (mem_items hj t ht)) (List.cons.inj h).2
      obtain ⟨hparams, rfl⟩ := params_of_items hitems
      obtain ⟨hresult, hxy⟩ := hr.reads hs hx hy hrest
      exact ⟨.func hresult hparams, hxy⟩
    | _ => cases hmark

/-- The same for all types of a list. -/
theorem Legible.readsList : ∀ {ts : List Ty}, (∀ t ∈ ts, t.Legible m) → ∀ t ∈ ts, t.Reads m
  | [], _ => nofun
  | _ :: _, hts =>
    List.forall_mem_cons.mpr ⟨(List.forall_mem_cons.mp hts).1.reads,
      Legible.readsList (List.forall_mem_cons.mp hts).2⟩

end

end Ty

/-- **The text of a type determines it.** Two types that are laid out for one data model and whose
records have plain names are shown alike if and only if they differ in ids only. -/
theorem text_determines_type {m : DataModel} {a b : Ty} (ha : a.Legible m) (hb : b.Legible m) :
    a.text = b.text ↔ a.Renumbered b := by
  refine ⟨fun h => ?_, Ty.Renumbered.text_eq⟩
  have hback : a.backwards ++ [] = b.backwards ++ [] := by rw [Ty.backwards, h, Ty.backwards]
  exact (ha.reads hb .start .start hback).1

/-- Two callbacks that take nodes of different declarations, and the dots that tell a third from
them. -/
theorem text_determines_type_callbacks :
    let callback (id : UInt32) (variadic : Bool) : Ty :=
      .ptr (.func .void [.ptr (.struct ⟨id, "node_1"⟩), .array (.int ⟨.char, false, 1⟩) (some 8)]
        variadic)
    (∀ id variadic, (callback id variadic).Legible .lp64) ∧
      (callback 1 true).Renumbered (callback 2 true) ∧
      ¬(callback 1 true).Renumbered (callback 1 false) := by
  intro callback
  have hname : ∀ c ∈ "node_1".toList, c.isAlphanum ∨ c = '_' :=
    forall_char_of_all (by decide)
  have hlegible : ∀ id variadic, (callback id variadic).Legible .lp64 := by
    refine fun id variadic => ⟨rfl, fun ref href => ?_⟩
    obtain rfl : ref = ⟨id, "node_1"⟩ := List.mem_singleton.mp href
    exact RecordRef.hasPlainName_of_alphanum hname
  refine ⟨hlegible, (text_determines_type (hlegible 1 true) (hlegible 2 true)).mp rfl, fun h => ?_⟩
  have htext := (text_determines_type (hlegible 1 true) (hlegible 1 false)).mpr h
  exact absurd htext (by decide)

end CTyping
