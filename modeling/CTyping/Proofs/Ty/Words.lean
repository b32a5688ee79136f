import CTyping.Proofs.Ty.Identity
import CTyping.Proofs.Ty.Layout

/-!
# Texts of types, from their end

Pointers, arrays and functions are written behind what they are built from, so the text of a type is
read from its end (`CTyping.Ty.backwards`). There the first character tells how the type is built
(`CTyping.Ty.mark`, `CTyping.Ty.Legible.opening_eq`), provided that the names of records contain
none of the characters with which texts are put together (`CTyping.Ty.punctuation`). A type that is
built from no other is known by its words (`CTyping.Ty.renumbered_of_words`): up to the ids in
references, that is (`CTyping.Ty.Renumbered`), for these are not shown.
-/

namespace CTyping

/-- What holds of the characters of a list is decided by going over the list, not over all
characters. -/
theorem forall_char_of_all {P : Char → Prop} [DecidablePred P] {cs : List Char}
    (h : (cs.all fun c => decide (P c)) = true) : ∀ c ∈ cs, P c :=
  fun c hc => of_decide_eq_true (List.all_eq_true.mp h c hc)

/-- The characters that texts of types consist of, besides words and numbers. -/
def Ty.punctuation : List Char := [' ', '*', '[', ']', '(', ')', ',', '.']

/-- A name that holds none of these, as one of letters, digits and underscores. -/
def RecordRef.HasPlainName (ref : RecordRef) : Prop := ∀ c ∈ ref.name.toList, c ∉ Ty.punctuation

/-- Names of letters, digits and underscores are plain. -/
theorem RecordRef.hasPlainName_of_alphanum {ref : RecordRef}
    (h : ∀ c ∈ ref.name.toList, c.isAlphanum ∨ c = '_') : ref.HasPlainName := by
  intro c hc hp
  have hnone : ∀ c ∈ Ty.punctuation, ¬(c.isAlphanum ∨ c = '_') :=
    forall_char_of_all (by decide)
  exact hnone c hp (h c hc)

/-- Two kinds of integers have different words. -/
theorem IntKind.text_inj {k k' : IntKind} (h : k.text = k'.text) : k = k' := by
  revert h
  cases k <;> cases k' <;> decide

/-- No kind of integer is called `void`. -/
theorem IntKind.text_ne_void (k : IntKind) : k.text ≠ "void" := by
  cases k <;> decide

namespace Ty

/-- Types that differ in nothing but the ids that references carry. -/
inductive Renumbered : Ty → Ty → Prop
  | void : Renumbered .void .void
  | int {i : IntTy} : Renumbered (.int i) (.int i)
  | ptr {a b : Ty} (h : Renumbered a b) : Renumbered (.ptr a) (.ptr b)
  | array {a b : Ty} {n : Option UInt64} (h : Renumbered a b) :
      Renumbered (.array a n) (.array b n)
  | func {r s : Ty} {ps qs : List Ty} {v : Bool} (hr : Renumbered r s)
      (hps : List.Forall₂ Renumbered ps qs) : Renumbered (.func r ps v) (.func s qs v)
  | struct {i j : UInt32} {name : String} : Renumbered (.struct ⟨i, name⟩) (.struct ⟨j, name⟩)
  | union {i j : UInt32} {name : String} : Renumbered (.union ⟨i, name⟩) (.union ⟨j, name⟩)

mutual

/-- Ids are not shown. -/
theorem Renumbered.text_eq : ∀ {a b : Ty}, a.Renumbered b → a.text = b.text
  | _, _, .void => rfl
  | _, _, .int => rfl
  | _, _, .ptr h => by rw [text, text, h.text_eq]
  | _, _, .array (n := some n) h => by rw [text, text, h.text_eq]
  | _, _, .array (n := none) h => by rw [text, text, h.text_eq]
  | _, _, .func hr hps => by rw [text, text, hr.text_eq, Renumbered.textList_eq hps]
  | _, _, .struct => rfl
  | _, _, .union => rfl

theorem Renumbered.textList_eq : ∀ {as bs : List Ty}, List.Forall₂ Renumbered as bs →
    textList as = textList bs
  | _, _, .nil => rfl
  | _, _, .cons h hs => by rw [textList, textList, h.text_eq, Renumbered.textList_eq hs]

end

/-- A type whose text can be read: it is laid out for a data model, and its names are plain. -/
structure Legible (m : DataModel) (t : Ty) : Prop where
  sized : t.Sized m
  names : ∀ ref ∈ t.refs, ref.HasPlainName

variable {m : DataModel}

/-- What a legible pointer or array is built from is legible. -/
theorem Legible.base {t b : Ty} (h : t.Legible m) (hb : t.base? = some b) : b.Legible m := by
  refine ⟨h.sized.base hb, ?_⟩
  cases t with
  | ptr base =>
    obtain rfl := Option.some.inj hb
    exact h.names
  | array element length =>
    obtain rfl := Option.some.inj hb
    exact h.names
  | _ => cases hb

/-- A reference in one type of a list is one in the list. -/
theorem mem_refsList {ts : List Ty} {t : Ty} (ht : t ∈ ts) {ref : RecordRef} (h : ref ∈ t.refs) :
    ref ∈ refsList ts := by
  induction ts with
  | nil => exact absurd ht List.not_mem_nil
  | cons u us ih =>
    rw [refsList, List.mem_append]
    rcases List.mem_cons.mp ht with rfl | ht
    · exact Or.inl h
    · exact Or.inr (ih ht)

/-- The result and the parameters of a legible function are legible. -/
theorem Legible.func {result : Ty} {params : List Ty} {variadic : Bool}
    (h : (Ty.func result params variadic).Legible m) :
    result.Legible m ∧ ∀ t ∈ params, t.Legible m := by
  obtain ⟨hr, hps⟩ := h.sized.func
  have hnames := List.forall_mem_append.mp h.names
  refine ⟨⟨hr, hnames.1⟩, fun t ht => ⟨hps t ht, fun ref href => ?_⟩⟩
  exact hnames.2 ref (mem_refsList ht href)

/-! ### Reading from the end -/

/-- The text of a type from its end. -/
def backwards (t : Ty) : List Char := t.text.toList.reverse

/-- What can stand before a type: nothing, the parenthesis of a list of parameters, or the comma
after another parameter. As everything here it is read from its end. -/
inductive Stops : List Char → Prop
  | start : Stops []
  | paren (cs : List Char) : Stops ('(' :: cs)
  | comma (cs : List Char) : Stops (' ' :: ',' :: cs)

/-- What a word stops at is punctuation, or the start of the text. -/
theorem Stops.head {cs : List Char} (h : Stops cs) : ∀ c ∈ cs.head?, c ∈ punctuation := by
  cases h with
  | start => exact nofun
  | paren cs | comma cs =>
    rintro _ ⟨⟩
    decide

/-- A word ends where the punctuation begins. -/
theorem word_eq {w w' l l' : List Char} (hw : ∀ c ∈ w, c ∉ punctuation)
    (hw' : ∀ c ∈ w', c ∉ punctuation) (hl : ∀ c ∈ l.head?, c ∈ punctuation)
    (hl' : ∀ c ∈ l'.head?, c ∈ punctuation) (h : w ++ l = w' ++ l') : w = w' ∧ l = l' := by
  -- the word is what is taken up to the first punctuation
  have htake : ∀ {w l : List Char}, (∀ c ∈ w, c ∉ punctuation) →
      (∀ c ∈ l.head?, c ∈ punctuation) →
      (w ++ l).takeWhile (fun c => decide (c ∉ punctuation)) = w := by
    intro w l hw hl
    have hrest : l.takeWhile (fun c => decide (c ∉ punctuation)) = [] := by
      cases l with
      | nil => rfl
      | cons c cs => simp [hl c rfl]
    rw [List.takeWhile_append_of_pos fun c hc => decide_eq_true (hw c hc), hrest, List.append_nil]
  have heq : w = w' := by rw [← htake hw hl, h, htake hw' hl']
  subst heq
  exact ⟨rfl, List.append_cancel_left h⟩

/-- The length of an array as it is shown. -/
def lengthText : Option UInt64 → String
  | none => ""
  | some n => toString n.toNat

/-- The length of an array is written without punctuation. -/
theorem plain_lengthText (n : Option UInt64) : ∀ c ∈ (lengthText n).toList, c ∉ punctuation := by
  cases n with
  | none => exact nofun
  | some n =>
    intro c hc
    have hdigit : c.isDigit = true :=
      Nat.isDigit_of_mem_toDigits (by decide) (by decide) (Nat.toList_repr ▸ hc)
    intro hp
    have hnone : ∀ c ∈ punctuation, c.isDigit = false := forall_char_of_all (by decide)
    rw [hnone c hp] at hdigit
    cases hdigit

/-- Two lengths of arrays are written differently. -/
theorem lengthText_inj {n k : Option UInt64} (h : lengthText n = lengthText k) : n = k := by
  have hsome : ∀ n : UInt64, (toString n.toNat).toList = Nat.toDigits 10 n.toNat :=
    fun n => Nat.toList_repr
  have h := congrArg String.toList h
  cases n with
  | none =>
    cases k with
    | none => rfl
    | some k => exact absurd ((hsome k).symm.trans h.symm) Nat.toDigits_ne_nil
  | some n =>
    cases k with
    -- a length that is known is written with at least one digit
    | none => exact absurd ((hsome n).symm.trans h) Nat.toDigits_ne_nil
    | some k =>
      have hdigits : Nat.toDigits 10 n.toNat = Nat.toDigits 10 k.toNat :=
        (hsome n).symm.trans (h.trans (hsome k))
      have hn : n.toNat = k.toNat := by
        rw [← Nat.ofDigitChars_ten_toDigits (n := n.toNat), hdigits, Nat.ofDigitChars_ten_toDigits]
      rw [UInt64.toNat_inj.mp hn]

/-- The text of a pointer ends in a star. -/
theorem backwards_ptr (b : Ty) : (Ty.ptr b).backwards = '*' :: b.backwards := by
  simp [backwards, text]

/-- The text of an array ends in its length. -/
theorem backwards_array (e : Ty) (n : Option UInt64) :
    (Ty.array e n).backwards = ']' :: ((lengthText n).toList.reverse ++ '[' :: e.backwards) := by
  cases n <;> simp [backwards, text, lengthText]

/-- The text of a function ends in its parameters. -/
theorem backwards_func (r : Ty) (ps : List Ty) (v : Bool) :
    (Ty.func r ps v).backwards =
      ')' :: ((paramsText (textList ps) v).toList.reverse ++ '(' :: r.backwards) := by
  simp [backwards, text]

/-! ### Types that are built from no other -/

/-- What can stand before the last word of a type that is built from no other. -/
inductive Lead where
  | none
  | unsigned
  | struct
  | union

/-- What is written for it, with the blank after it. -/
def Lead.text : Lead → String
  | .none => ""
  | .unsigned => "unsigned "
  | .struct => "struct "
  | .union => "union "

/-- What stands before the last word of a type: nothing, unless it is unsigned, a struct or a
union. -/
def lead : Ty → Lead
  | .int ⟨_, false, _⟩ => .unsigned
  | .struct _ => .struct
  | .union _ => .union
  | _ => .none

/-- The last word of a type that is built from no other. -/
def lastWord : Ty → String
  | .void => "void"
  | .int i => i.kind.text
  | .struct ref => ref.name
  | .union ref => ref.name
  | _ => ""

/-- There is no punctuation in the last word of a legible type. -/
theorem Legible.plain_lastWord {t : Ty} (h : t.Legible m) :
    ∀ c ∈ t.lastWord.toList, c ∉ punctuation := by
  cases t with
  | void => exact forall_char_of_all (by decide)
  | int i =>
    rw [lastWord]
    exact forall_char_of_all (by cases i.kind <;> decide)
  | struct ref | union ref => exact h.names ref List.mem_cons_self
  | ptr | array | func => exact nofun

/-- What stands before a last word, if anything, is set off by a blank. -/
theorem Lead.head (l : Lead) {x : List Char} (hx : Stops x) :
    ∀ c ∈ (l.text.toList.reverse ++ x).head?, c ∈ punctuation := by
  cases l with
  | none => exact hx.head
  | unsigned | struct | union =>
    rintro _ ⟨⟩
    decide

/-- Neither of these words could be taken for what stands before a type. -/
theorem Lead.eq_of_append {l l' : Lead} {x y : List Char} (hx : Stops x) (hy : Stops y)
    (h : l.text.toList.reverse ++ x = l'.text.toList.reverse ++ y) : l = l' ∧ x = y := by
  cases l <;> cases l'
  case none.none | unsigned.unsigned | struct.struct | union.union =>
    exact ⟨rfl, List.append_cancel_left h⟩
  all_goals cases hx <;> cases hy <;> simp [Lead.text] at h

/-! ### How a type is built -/

/-- How a text ends, if that tells how the type is built. -/
def mark : Ty → Option Char
  | .ptr _ => some '*'
  | .array _ _ => some ']'
  | .func _ _ _ => some ')'
  | _ => none

/-- What the end of a text tells: how a type is built, or that there is none. -/
def opening (cs : List Char) : Option Char := cs.head?.filter (· ∈ ['*', ']', ')', '(', '.'])

/-- The text of a type that is built from no other is its last word and what stands before it. -/
theorem backwards_of_mark {t : Ty} (h : t.mark = none) :
    t.backwards = t.lastWord.toList.reverse ++ t.lead.text.toList.reverse := by
  have htext : t.text = t.lead.text ++ t.lastWord := by
    cases t with
    | int i =>
      obtain ⟨k, s, z⟩ := i
      cases s <;> simp [text, IntTy.text, lead, Lead.text, lastWord]
    | void | struct | union => rfl
    | ptr | array | func => cases h
  rw [backwards, htext, String.toList_append, List.reverse_append]

/-- A word does not end in a mark. -/
theorem opening_word {w l : List Char} (hw : ∀ c ∈ w, c ∉ punctuation)
    (hl : w = [] → opening l = none) : opening (w ++ l) = none := by
  cases w with
  | nil => exact hl rfl
  | cons c cs =>
    have hmarks : ∀ d ∈ ['*', ']', ')', '(', '.'], d ∈ punctuation :=
      forall_char_of_all (by decide)
    have hc : c ∉ ['*', ']', ')', '(', '.'] := fun hm => hw c List.mem_cons_self (hmarks c hm)
    exact Option.filter_some_neg (decide_eq_false hc)

/-- What has no last word, as a record without a name, has a word before it. -/
theorem opening_lead {t : Ty} (hm : t.mark = none) (hw : t.lastWord.toList = []) (x : List Char) :
    opening (t.lead.text.toList.reverse ++ x) = none := by
  cases t with
  | void => cases hw
  | int i =>
    rw [lastWord] at hw
    cases hk : i.kind <;> rw [hk] at hw <;> cases hw
  | struct | union => rw [lead]; rfl
  | ptr | array | func => cases hm

/-- **The end of a text tells how the type is built.** -/
theorem Legible.opening_eq {t : Ty} (h : t.Legible m) (x : List Char) :
    opening (t.backwards ++ x) = t.mark := by
  cases hm : t.mark with
  | none =>
    rw [backwards_of_mark hm, List.append_assoc]
    refine opening_word (fun c hc => h.plain_lastWord c (List.mem_reverse.mp hc)) fun hw => ?_
    exact opening_lead hm (List.reverse_eq_nil_iff.mp hw) x
  | some c =>
    rw [← hm]
    cases t with
    | ptr b => rw [backwards_ptr]; rfl
    | array e n => rw [backwards_array]; rfl
    | func r ps v => rw [backwards_func]; rfl
    | void | int | struct | union => cases hm

/-- **A type that is built from no other is known by its words.** -/
theorem renumbered_of_words {a b : Ty} (ha : a.mark = none) (hb : b.mark = none)
    (hla : a.Legible m) (hlb : b.Legible m) (hw : a.lastWord = b.lastWord)
    (hl : a.lead = b.lead) : a.Renumbered b := by
  cases a with
  | void =>
    cases b with
    | void => exact .void
    | int j => exact absurd hw.symm (IntKind.text_ne_void j.kind)
    | struct | union => cases hl
    | ptr | array | func => cases hb
  | int i =>
    obtain ⟨k, s, z⟩ := i
    cases b with
    | void => exact absurd hw (IntKind.text_ne_void k)
    | int j =>
      obtain ⟨k', s', z'⟩ := j
      obtain rfl : k = k' := IntKind.text_inj hw
      obtain rfl : s = s' := by
        revert hl
        cases s <;> cases s' <;> simp [lead]
      -- the width, which is not shown, is that of the data model
      obtain rfl : m.width k = z := congrArg IntTy.size (Ty.int.inj hla.sized)
      obtain rfl : m.width k = z' := congrArg IntTy.size (Ty.int.inj hlb.sized)
      exact .int
    | struct | union => cases s <;> cases hl
    | ptr | array | func => cases hb
  | struct r =>
    cases b with
    | struct s =>
      obtain ⟨j, name⟩ := s
      obtain rfl : r.name = name := hw
      exact .struct
    | int j =>
      obtain ⟨k, s, z⟩ := j
      cases s <;> cases hl
    | void | union => cases hl
    | ptr | array | func => cases hb
  | union r =>
    cases b with
    | union s =>
      obtain ⟨j, name⟩ := s
      obtain rfl : r.name = name := hw
      exact .union
    | int j =>
      obtain ⟨k, s, z⟩ := j
      cases s <;> cases hl
    | void | struct => cases hl
    | ptr | array | func => cases hb
  | ptr | array | func => cases ha

end Ty

end CTyping
