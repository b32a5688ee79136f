import CTyping.Json.Printer
import CTyping.Json.Token

/-!
# Cutting what is written

What the printer writes is cut into the tokens that it means. A word has no end of its own, so a cut
is only settled by the character after it: `CTyping.Scan.Has` says what tokens a scan has if the
text ends there or goes on with a character that no word has. Two things are said of characters.

* `CTyping.Token.Written`: they are cut into given tokens, of which the last may be a word.
* `CTyping.Token.Closed`: they are cut into given tokens, and the last one has its end.

What is closed may be followed by anything; what is written by anything that begins with a character
that no word has.
-/

namespace CTyping

/-! ### Tokens that are complete -/

/-- The tokens that a scan has, the latest first, unless the word it is in goes on. -/
structure Scan.Has (s : Scan) (ts : List Token) : Prop where
  step : ∀ c, Token.isWordChar c = false → s.step c = Scan.enter ts c
  finish : s.finish = some ts.reverse

namespace Scan

/-- Between tokens all that was begun has ended. -/
theorem has_between (ts : List Token) : Has ⟨ts, .between⟩ ts := ⟨fun _ _ => rfl, rfl⟩

/-- A word ends where no word goes on. -/
theorem has_word {cs : List Char} {t : Token} (h : Token.ofWord? cs.reverse = some t)
    (ts : List Token) : Has ⟨ts, .word cs⟩ (t :: ts) where
  step c hc := by rw [Scan.step, hc, h]; rfl
  finish := by rw [Scan.finish, h]; rfl

/-- What has ended before a character is not changed by it. -/
theorem Has.run_cons {s : Scan} {ts : List Token} (h : s.Has ts) {c : Char}
    (hc : Token.isWordChar c = false) (cs : List Char) :
    s.run (c :: cs) = run ⟨ts, .between⟩ (c :: cs) := by
  rw [run, run, h.step c hc, Scan.step]

end Scan

namespace Token

/-- Characters that are cut into given tokens, whatever tokens are before them. -/
def Written (cs : List Char) (ts : List Token) : Prop :=
  ∀ before, ∃ s, Scan.run ⟨before, .between⟩ cs = some s ∧ s.Has (ts.reverse ++ before)

/-- Characters that are cut into given tokens, and after which a new token begins. -/
def Closed (cs : List Char) (ts : List Token) : Prop :=
  ∀ before, Scan.run ⟨before, .between⟩ cs = some ⟨ts.reverse ++ before, .between⟩

/-- What ends by itself needs nothing to end it. -/
theorem Closed.written {cs : List Char} {ts : List Token} (h : Closed cs ts) : Written cs ts :=
  fun before => ⟨_, h before, Scan.has_between _⟩

/-- What ends by itself may stand before anything. -/
theorem Closed.append_written {cs ds : List Char} {ts us : List Token} (hcs : Closed cs ts)
    (hds : Written ds us) : Written (cs ++ ds) (ts ++ us) := by
  intro before
  obtain ⟨s, hs, hhas⟩ := hds (ts.reverse ++ before)
  refine ⟨s, ?_, ?_⟩
  · rw [Scan.run_append, hcs before, Option.bind_some, hs]
  · rwa [List.reverse_append, List.append_assoc]

/-- What ends by itself, twice, ends by itself. -/
theorem Closed.append {cs ds : List Char} {ts us : List Token} (hcs : Closed cs ts)
    (hds : Closed ds us) : Closed (cs ++ ds) (ts ++ us) := by
  intro before
  rw [Scan.run_append, hcs before, Option.bind_some, hds, List.reverse_append, List.append_assoc]

/-- Nothing is written for no tokens. -/
theorem Written.eq_nil {ts : List Token} (h : Written [] ts) : ts = [] := by
  obtain ⟨s, hs, hhas⟩ := h []
  cases hs
  have hts : some [] = some (ts.reverse ++ []).reverse := hhas.finish
  simpa using hts

/-- **Tokens are written one after the other**, if no word runs into the next one. -/
theorem Written.append {cs ds : List Char} {ts us : List Token} (hcs : Written cs ts)
    (hds : Written ds us) (hword : ∀ c ∈ ds.head?, isWordChar c = false) :
    Written (cs ++ ds) (ts ++ us) := by
  cases ds with
  | nil =>
    rw [hds.eq_nil, List.append_nil, List.append_nil]
    exact hcs
  | cons d ds =>
    intro before
    -- the first character of `ds` ends the word at the end of `cs`, if there is one
    obtain ⟨s, hs, hhas⟩ := hcs before
    obtain ⟨s', hs', hhas'⟩ := hds (ts.reverse ++ before)
    refine ⟨s', ?_, ?_⟩
    · rw [Scan.run_append, hs, Option.bind_some, hhas.run_cons (hword d rfl), hs']
    · rwa [List.reverse_append, List.append_assoc]

/-! ### Marks, blanks and words -/

/-- A mark is a token by itself. -/
theorem closed_mark {c : Char} {t : Token}
    (h : ∀ before, Scan.enter before c = some ⟨t :: before, .between⟩) : Closed [c] [t] := by
  intro before
  rw [Scan.run, Scan.step, h]
  rfl

/-- A line break and the blanks after it are no token. -/
theorem closed_newline (indent : Nat) : Closed (Json.newline indent) [] := by
  have hblanks : ∀ (n : Nat) (before : List Token),
      Scan.run ⟨before, .between⟩ (List.replicate n ' ') = some ⟨before, .between⟩ := by
    intro n before
    induction n with
    | zero => rfl
    | succ n ih => exact ih
  exact hblanks (2 * indent)

/-- Characters and after them, on a line of its own, a mark that ends what they began. -/
theorem Written.close {cs : List Char} {ts : List Token} (h : Written cs ts) (indent : Nat)
    {c : Char} {t : Token} (hc : Closed [c] [t]) (hword : isWordChar c = false) :
    Written (cs ++ Json.newline indent ++ [c]) (ts ++ [t]) := by
  have hline := h.append (closed_newline indent).written (by rintro c ⟨⟩; rfl)
  rw [List.append_nil] at hline
  exact hline.append hc.written (by rintro c ⟨⟩; exact hword)

/-- The characters of a word are gathered, the last one first. -/
theorem run_word {cs : List Char} (h : ∀ c ∈ cs, isWordChar c = true) (ts : List Token)
    (begun : List Char) :
    Scan.run ⟨ts, .word begun⟩ cs = some ⟨ts, .word (cs.reverse ++ begun)⟩ := by
  induction cs generalizing begun with
  | nil => rfl
  | cons c cs ih =>
    obtain ⟨hc, hcs⟩ := List.forall_mem_cons.mp h
    rw [Scan.run, Scan.step, if_pos hc, Option.bind_some, ih hcs, List.reverse_cons,
      List.append_assoc]
    rfl

/-- No character of a word is blank. -/
theorem isBlank_of_isWordChar {c : Char} (h : isWordChar c = true) : isBlank c = false := by
  rw [Bool.eq_false_iff]
  intro hblank
  simp only [isBlank, Bool.or_eq_true, beq_iff_eq] at hblank
  rcases hblank with ((rfl | rfl) | rfl) | rfl <;> cases h

/-- The characters of a word are scanned as the token that the word is. -/
theorem written_word {cs : List Char} {t : Token} (hne : cs ≠ [])
    (hcs : ∀ c ∈ cs, isWordChar c = true) (ht : ofWord? cs = some t) : Written cs [t] := by
  intro before
  obtain ⟨c, cs, rfl⟩ := List.exists_cons_of_ne_nil hne
  obtain ⟨hc, hcs'⟩ := List.forall_mem_cons.mp hcs
  refine ⟨⟨before, .word (cs.reverse ++ [c])⟩, ?_, Scan.has_word ?_ before⟩
  · rw [Scan.run, Scan.step, Scan.enter, isBlank_of_isWordChar hc, hc]
    exact run_word hcs' before [c]
  · rw [List.reverse_append, List.reverse_reverse]
    exact ht

end Token

/-! ### Numbers -/

namespace Numeral

/-- Digits are characters of words. -/
theorem isWordChar_of_isDigit {c : Char} (h : c.isDigit = true) : Token.isWordChar c = true := by
  simp [Token.isWordChar, Char.isAlphanum, h]

/-- No number but zero is written with a zero in front. -/
theorem head?_toDigits_ne_zero {n : Nat} (hn : n ≠ 0) : (Nat.toDigits 10 n).head? ≠ some '0' := by
  induction n using Nat.strongRecOn with
  | ind n ih =>
    by_cases hlt : n < 10
    · have hdigit : ∀ k < 10, k ≠ 0 → Nat.digitChar k ≠ '0' := by decide
      rw [Nat.toDigits_of_lt_base hlt]
      simpa using hdigit n hlt hn
    · have hhead := ih (n / 10) (by omega) (by omega)
      obtain ⟨c, cs, hcs⟩ :=
        List.exists_cons_of_ne_nil (Nat.toDigits_ne_nil (n := n / 10) (b := 10))
      rw [Nat.toDigits_of_base_le (by decide) (by omega), hcs]
      rwa [hcs] at hhead

/-- Numbers are written in digits. -/
theorem isDigit_of_mem_toDigits {n : Nat} : ∀ c ∈ Nat.toDigits 10 n, c.isDigit = true :=
  fun _ hc => Nat.isDigit_of_mem_toDigits (by decide) (by decide) hc

/-- The digits of a number write a whole part. -/
theorem isWhole_toDigits (n : Nat) : isWhole (Nat.toDigits 10 n) = true := by
  have hdigits : isDigits (Nat.toDigits 10 n) = true := by
    simp only [isDigits, Bool.and_eq_true, Bool.not_eq_true', List.isEmpty_eq_false_iff,
      List.all_eq_true]
    exact ⟨Nat.toDigits_ne_nil, isDigit_of_mem_toDigits⟩
  rw [isWhole, hdigits, Bool.true_and, Bool.or_eq_true]
  by_cases hn : n = 0
  · subst hn
    exact .inr rfl
  · exact .inl (bne_iff_ne.mpr (head?_toDigits_ne_zero hn))

theorem isWordChar_of_isDigits {cs : List Char} (h : isDigits cs = true) :
    ∀ c ∈ cs, Token.isWordChar c = true := by
  simp only [isDigits, Bool.and_eq_true, List.all_eq_true] at h
  exact fun c hc => isWordChar_of_isDigit (h.2 c hc)

/-- An exponent is its letter, a sign or none, and digits. -/
theorem isExponent_cons {c : Char} {cs : List Char} (h : isExponent (c :: cs) = true) :
    (c = 'e' ∨ c = 'E') ∧
      ∃ ds, isDigits ds = true ∧ (cs = ds ∨ cs = '+' :: ds ∨ cs = '-' :: ds) := by
  unfold isExponent at h
  split at h
  · contradiction
  all_goals
    rename_i hcs
    obtain ⟨rfl, rfl⟩ := List.cons.inj hcs
    simp only [Bool.and_eq_true, Bool.or_eq_true, beq_iff_eq] at h
  · exact ⟨h.1, _, h.2, .inr (.inl rfl)⟩
  · exact ⟨h.1, _, h.2, .inr (.inr rfl)⟩
  · exact ⟨h.1, _, h.2, .inl rfl⟩

theorem isWordChar_of_isExponent {cs : List Char} (h : isExponent cs = true) :
    ∀ c ∈ cs, Token.isWordChar c = true := by
  cases cs with
  | nil => exact List.forall_mem_nil _
  | cons c cs =>
    obtain ⟨hc, ds, hds, hcs⟩ := isExponent_cons h
    have hdigits := isWordChar_of_isDigits hds
    refine List.forall_mem_cons.mpr ⟨by rcases hc with rfl | rfl <;> rfl, ?_⟩
    rcases hcs with rfl | rfl | rfl
    · exact hdigits
    · exact List.forall_mem_cons.mpr ⟨rfl, hdigits⟩
    · exact List.forall_mem_cons.mpr ⟨rfl, hdigits⟩

/-- What follows a whole part belongs to the word and does not begin with a digit. -/
theorem of_isFraction {cs : List Char} (h : isFraction cs = true) :
    (∀ c ∈ cs, Token.isWordChar c = true) ∧ ∀ c ∈ cs.head?, c.isDigit = false := by
  unfold isFraction at h
  split at h
  · rename_i cs
    simp only [Bool.and_eq_true] at h
    have hall : ∀ c ∈ cs.takeWhile Char.isDigit ++ cs.dropWhile Char.isDigit,
        Token.isWordChar c = true :=
      List.forall_mem_append.mpr ⟨isWordChar_of_isDigits h.1, isWordChar_of_isExponent h.2⟩
    rw [List.takeWhile_append_dropWhile] at hall
    exact ⟨List.forall_mem_cons.mpr ⟨rfl, hall⟩, by rintro c ⟨⟩; rfl⟩
  · refine ⟨isWordChar_of_isExponent h, ?_⟩
    cases cs with
    | nil => nofun
    | cons c cs =>
      rintro _ ⟨⟩
      rcases (isExponent_cons h).1 with rfl | rfl <;> rfl

/-- The number after its sign is read back. -/
theorem ofUnsigned?_toDigits (n : Numeral) :
    ofUnsigned? n.negative (Nat.toDigits 10 n.whole ++ n.fraction) = some n := by
  obtain ⟨negative, whole, fraction, hf⟩ := n
  have hhead := (of_isFraction hf).2
  have htake :
      fraction.takeWhile Char.isDigit = [] ∧ fraction.dropWhile Char.isDigit = fraction := by
    cases fraction with
    | nil => exact ⟨rfl, rfl⟩
    | cons c cs => simp [hhead c rfl]
  simp only [ofUnsigned?, List.takeWhile_append_of_pos isDigit_of_mem_toDigits,
    List.dropWhile_append_of_pos isDigit_of_mem_toDigits, htake, List.append_nil,
    isWhole_toDigits, hf, Nat.ofDigitChars_ten_toDigits, if_true, dite_true]

/-- A numeral starts with a sign or with a digit. -/
theorem head?_numeral (n : Numeral) :
    ∀ c ∈ (Json.numeral n).head?, c = '-' ∨ c.isDigit = true := by
  obtain ⟨d, ds, hds⟩ := List.exists_cons_of_ne_nil (Nat.toDigits_ne_nil (n := n.whole) (b := 10))
  have hd : d.isDigit = true := isDigit_of_mem_toDigits d (hds ▸ List.mem_cons_self)
  rw [Json.numeral, hds]
  cases n.negative with
  | true => rintro c ⟨⟩; exact .inl rfl
  | false => rintro c ⟨⟩; exact .inr hd

/-- A numeral is read back from its characters. -/
theorem ofChars?_numeral (n : Numeral) : ofChars? (Json.numeral n) = some n := by
  have hu := ofUnsigned?_toDigits n
  rw [Json.numeral, List.append_assoc]
  cases hn : n.negative with
  | true =>
    rw [hn] at hu
    exact hu
  | false =>
    rw [hn] at hu
    -- without a sign the first character is a digit, which is not taken for one
    obtain ⟨d, ds, hds⟩ := List.exists_cons_of_ne_nil (Nat.toDigits_ne_nil (n := n.whole) (b := 10))
    have hd : d.isDigit = true := isDigit_of_mem_toDigits d (hds ▸ List.mem_cons_self)
    have hminus : d ≠ '-' := by rintro rfl; cases hd
    rw [hds] at hu ⊢
    unfold ofChars?
    split
    · rename_i hcs
      exact absurd (List.cons.inj hcs).1 hminus
    · exact hu

/-- A numeral is one word. -/
theorem isWordChar_numeral (n : Numeral) : ∀ c ∈ Json.numeral n, Token.isWordChar c = true := by
  have hsign : ∀ c ∈ (if n.negative then ['-'] else []), Token.isWordChar c = true := by
    cases n.negative with
    | true => exact List.forall_mem_singleton.mpr rfl
    | false => exact List.forall_mem_nil _
  simp only [Json.numeral, List.forall_mem_append]
  exact ⟨⟨hsign, fun c hc => isWordChar_of_isDigit (isDigit_of_mem_toDigits c hc)⟩,
    (of_isFraction n.isFraction_fraction).1⟩

end Numeral

namespace Token

/-- The word of a numeral is that numeral. -/
theorem ofWord?_numeral (n : Numeral) : ofWord? (Json.numeral n) = some (.num n) := by
  have hhead := n.head?_numeral
  unfold ofWord?
  split
  -- the other words begin with letters
  · rename_i hcs
    rw [hcs] at hhead
    rcases hhead 'n' rfl with h | h <;> cases h
  · rename_i hcs
    rw [hcs] at hhead
    rcases hhead 't' rfl with h | h <;> cases h
  · rename_i hcs
    rw [hcs] at hhead
    rcases hhead 'f' rfl with h | h <;> cases h
  · rw [n.ofChars?_numeral]
    rfl

/-- A number is read as it is written. -/
theorem written_numeral (n : Numeral) : Written (Json.numeral n) [.num n] := by
  refine written_word ?_ n.isWordChar_numeral (ofWord?_numeral n)
  simp only [Json.numeral, ne_eq, List.append_eq_nil_iff, Nat.toDigits_ne_nil, and_false, false_and,
    not_false_eq_true]

/-! ### Strings -/

/-- A hexadecimal digit is read back. -/
theorem hexValue?_hexDigit (n : Nat) : hexValue? (Json.hexDigit n) = some (n % 16) := by
  have h : ∀ k < 16, hexValue? (Nat.digitChar k) = some k := by decide
  exact h (n % 16) (Nat.mod_lt n (by decide))

/-- A control character is read back from its number. -/
theorem run_unit {c : Char} (hc : c.toNat < 0x20) (ts : List Token) (ps : List Piece) :
    Scan.run ⟨ts, .string ps⟩
        ['\\', 'u', '0', '0', Json.hexDigit (c.toNat / 16), Json.hexDigit c.toNat] =
      some ⟨ts, .string (.char c :: ps)⟩ := by
  have hunit : (0 * 16 + c.toNat / 16 % 16) * 16 + c.toNat % 16 = c.toNat := by omega
  have hpiece : Piece.ofUnit c.toNat = .char c := by
    rw [Piece.ofUnit, if_neg (by omega), Char.ofNat_toNat]
  -- the first two digits are zeros
  change Scan.run ⟨ts, .unit ps 0 1⟩ [Json.hexDigit (c.toNat / 16), Json.hexDigit c.toNat] = _
  simp only [Scan.run, Scan.step, hexValue?_hexDigit, Option.map_some, Option.bind_some, hunit,
    hpiece]

/-- What stands for a character in a string is read as that character. -/
theorem run_escape (c : Char) (ts : List Token) (ps : List Piece) :
    Scan.run ⟨ts, .string ps⟩ (Json.escape c) = some ⟨ts, .string (.char c :: ps)⟩ := by
  unfold Json.escape
  split
  case h_8 hquote hslash _ _ _ _ _ =>
    split
    · rename_i hc
      exact run_unit hc ts ps
    · rename_i hc
      rw [Scan.run, Scan.step, if_neg hquote, if_neg hslash, if_neg hc]
      rfl
  all_goals rfl

/-- The escaped characters of a string are gathered as the characters that they stand for. -/
theorem run_flatMap_escape (cs : List Char) (ts : List Token) (ps : List Piece) :
    Scan.run ⟨ts, .string ps⟩ (cs.flatMap Json.escape) =
      some ⟨ts, .string ((cs.map Piece.char).reverse ++ ps)⟩ := by
  induction cs generalizing ps with
  | nil => rfl
  | cons c cs ih =>
    rw [List.flatMap_cons, Scan.run_append, run_escape, Option.bind_some, ih, List.map_cons,
      List.reverse_cons, List.append_assoc]
    rfl

/-- Plain characters are joined to themselves. -/
theorem join_map_char (cs : List Char) : Piece.join (cs.map Piece.char) = some cs := by
  induction cs with
  | nil => rfl
  | cons c cs ih => rw [List.map_cons, Piece.join, ih, Option.map_some]

/-- A string is read as it is written. -/
theorem closed_quote (s : Option String) : Closed (Json.quote s) [.str s] := by
  cases s with
  | none => exact fun before => rfl
  | some s =>
    intro before
    have htoken : ofPieces ((s.toList.map Piece.char).reverse ++ []).reverse = .str (some s) := by
      rw [ofPieces, List.append_nil, List.reverse_reverse, join_map_char, Option.map_some,
        String.ofList_toList]
    change Scan.run ⟨before, .string []⟩ (s.toList.flatMap Json.escape ++ ['"']) = _
    rw [Scan.run_append, run_flatMap_escape, ← htoken]
    rfl

end Token

end CTyping
