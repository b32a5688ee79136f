import CTyping.Json.Reader
import CTyping.Proofs.Json.Token

/-!
# Reading what is written

A value is written, cut into tokens and put together again. `CTyping.Json.tokens` stands between the
two halves: what the printer writes is cut into the tokens of the value
(`CTyping.Json.written_render`), and the tokens of a value are put together to the value
(`CTyping.Json.run_tokens`). So every value is read as it is written
(`CTyping.Json.parse?_pretty`).
-/

namespace CTyping.Json

open Token (Written Closed)

/-! ### The tokens of a value -/

mutual

/-- The tokens that write a value. -/
def tokens : Json → List Token
  | .null => [.null]
  | .bool b => [.bool b]
  | .num n => [.num n]
  | .str s => [.str s]
  | .arr [] => [.openBracket, .closeBracket]
  | .arr (j :: js) => [.openBracket] ++ tokens j ++ tokensItems js ++ [.closeBracket]
  | .obj [] => [.openBrace, .closeBrace]
  | .obj ((k, j) :: fs) =>
    [.openBrace, .str k, .colon] ++ tokens j ++ tokensFields fs ++ [.closeBrace]

/-- The tokens of the items of an array after the first. -/
def tokensItems : List Json → List Token
  | [] => []
  | j :: js => [.comma] ++ tokens j ++ tokensItems js

/-- The tokens of the fields of an object after the first. -/
def tokensFields : List (Option String × Json) → List Token
  | [] => []
  | (k, j) :: fs => [.comma, .str k, .colon] ++ tokens j ++ tokensFields fs

end

/-! ### Cutting -/

/-- No word goes on in what follows an item, so that a word before it ends there. -/
theorem head?_renderItems (indent : Nat) (js : List Json) :
    ∀ c ∈ (renderItems indent js).head?, Token.isWordChar c = false := by
  cases js with
  | nil => nofun
  | cons j js => rintro c ⟨⟩; rfl

/-- No word goes on in what follows a field. -/
theorem head?_renderFields (indent : Nat) (fs : List (Option String × Json)) :
    ∀ c ∈ (renderFields indent fs).head?, Token.isWordChar c = false := by
  cases fs with
  | nil => nofun
  | cons f fs => rintro c ⟨⟩; rfl

/-- An item on a line of its own, after the mark that stands before it. -/
theorem written_item {c : Char} {t : Token} (hc : Closed [c] [t]) (indent : Nat) {cs : List Char}
    {ts : List Token} (h : Written cs ts) : Written (c :: newline indent ++ cs) ([t] ++ ts) :=
  (hc.append (Token.closed_newline indent)).append_written h

/-- A field on a line of its own, after the mark that stands before it. -/
theorem written_field {c : Char} {t : Token} (hc : Closed [c] [t]) (indent : Nat)
    (k : Option String) {cs : List Char} {ts : List Token} (h : Written cs ts) :
    Written (c :: newline indent ++ quote k ++ ':' :: ' ' :: cs) ([t, .str k, .colon] ++ ts) := by
  have hkey : Closed (c :: newline indent ++ quote k) [t, .str k] :=
    (hc.append (Token.closed_newline indent)).append (Token.closed_quote k)
  have hcolon : Closed [':', ' '] [.colon] := fun _ => rfl
  rw [List.append_assoc]
  have hfield := (hkey.append hcolon).append_written h
  rwa [List.append_assoc, List.append_assoc] at hfield

mutual

/-- **What is written is cut into the tokens of the value.** -/
theorem written_render (indent : Nat) : ∀ j : Json, Written (render indent j) j.tokens
  | .null => fun before => ⟨_, rfl, Scan.has_word rfl before⟩
  | .bool true => fun before => ⟨_, rfl, Scan.has_word rfl before⟩
  | .bool false => fun before => ⟨_, rfl, Scan.has_word rfl before⟩
  | .num n => Token.written_numeral n
  | .str s => (Token.closed_quote s).written
  | .arr [] => fun _ => ⟨_, rfl, Scan.has_between _⟩
  | .arr (j :: js) =>
    have hfirst := written_item (Token.closed_mark fun _ => rfl) (indent + 1)
      (written_render (indent + 1) j)
    have hall := hfirst.append (written_renderItems (indent + 1) js) (head?_renderItems _ js)
    hall.close indent (Token.closed_mark fun _ => rfl) rfl
  | .obj [] => fun _ => ⟨_, rfl, Scan.has_between _⟩
  | .obj ((k, j) :: fs) =>
    have hfirst := written_field (Token.closed_mark fun _ => rfl) (indent + 1) k
      (written_render (indent + 1) j)
    have hall := hfirst.append (written_renderFields (indent + 1) fs) (head?_renderFields _ fs)
    hall.close indent (Token.closed_mark fun _ => rfl) rfl

/-- The items after the first one are scanned as their tokens. -/
theorem written_renderItems (indent : Nat) :
    ∀ js : List Json, Written (renderItems indent js) (tokensItems js)
  | [] => fun before => ⟨_, rfl, Scan.has_between before⟩
  | j :: js =>
    have hfirst := written_item (Token.closed_mark fun _ => rfl) indent (written_render indent j)
    hfirst.append (written_renderItems indent js) (head?_renderItems _ js)

/-- The fields after the first one are scanned as their tokens. -/
theorem written_renderFields (indent : Nat) :
    ∀ fs : List (Option String × Json), Written (renderFields indent fs) (tokensFields fs)
  | [] => fun before => ⟨_, rfl, Scan.has_between before⟩
  | (k, j) :: fs =>
    have hfirst := written_field (Token.closed_mark fun _ => rfl) indent k
      (written_render indent j)
    hfirst.append (written_renderFields indent fs) (head?_renderFields _ fs)

end

/-- A value is scanned as its tokens. -/
theorem scan?_render (j : Json) : Token.scan? (render 0 j) = some j.tokens := by
  obtain ⟨s, hs, hhas⟩ := written_render 0 j []
  have hfinish := hhas.finish
  rw [List.append_nil, List.reverse_reverse] at hfinish
  rw [Token.scan?, Scan.start, hs, Option.bind_some, hfinish]

/-! ### Putting together -/

/-- The first item of an array is read as any value is. -/
theorem run_firstItem (context : List Frame) (j : Json) (ts : List Token) :
    State.run (.firstItem context) (j.tokens ++ ts) =
      State.run (.value (.item [] :: context)) (j.tokens ++ ts) := by
  cases j with
  | null => rfl
  | bool b => rfl
  | num n => rfl
  | str s => rfl
  | arr js => cases js <;> rfl
  | obj fs => cases fs <;> rfl

mutual

/-- **The tokens of a value are put together to the value**, whatever it stands in. -/
theorem run_tokens : ∀ (j : Json) (context : List Frame) (ts : List Token),
    State.run (.value context) (j.tokens ++ ts) = State.run (.done j context) ts
  | .null, _, _ => rfl
  | .bool _, _, _ => rfl
  | .num _, _, _ => rfl
  | .str _, _, _ => rfl
  | .arr [], _, _ => rfl
  | .arr (j :: js), context, ts => by
    have hopen : State.run (.value context) ((.arr (j :: js) : Json).tokens ++ ts) =
        State.run (.firstItem context) (j.tokens ++ (tokensItems js ++ (.closeBracket :: ts))) := by
      simp [tokens, State.run, State.step, State.start]
    -- the first item is read in a state of its own, since the array may be empty
    rw [hopen, run_firstItem, run_tokens j, run_tokensItems js]
    rfl
  | .obj [], _, _ => rfl
  | .obj ((k, j) :: fs), context, ts => by
    have hopen : State.run (.value context) ((.obj ((k, j) :: fs) : Json).tokens ++ ts) =
        State.run (.value (.field [] k :: context))
          (j.tokens ++ (tokensFields fs ++ (.closeBrace :: ts))) := by
      simp [tokens, State.run, State.step, State.start]
    rw [hopen, run_tokens j, run_tokensFields fs]
    rfl

/-- From the tokens of the items left the array is completed with them. -/
theorem run_tokensItems : ∀ (js : List Json) (j : Json) (before : List Json)
    (context : List Frame) (ts : List Token),
    State.run (.done j (.item before :: context)) (tokensItems js ++ (.closeBracket :: ts)) =
      State.run (.done (.arr (before.reverse ++ j :: js)) context) ts
  | [], j, before, context, ts => by simp [tokensItems, State.run, State.step]
  | j' :: js, j, before, context, ts => by
    have hcomma : State.run (.done j (.item before :: context))
          (tokensItems (j' :: js) ++ (.closeBracket :: ts)) =
        State.run (.value (.item (j :: before) :: context))
          (j'.tokens ++ (tokensItems js ++ (.closeBracket :: ts))) := by
      simp [tokensItems, State.run, State.step]
    rw [hcomma, run_tokens j', run_tokensItems js, List.reverse_cons, List.append_assoc]
    rfl

/-- From the tokens of the fields left the object is completed with them. -/
theorem run_tokensFields : ∀ (fs : List (Option String × Json)) (k : Option String) (j : Json)
    (before : List (Option String × Json)) (context : List Frame) (ts : List Token),
    State.run (.done j (.field before k :: context)) (tokensFields fs ++ (.closeBrace :: ts)) =
      State.run (.done (.obj (before.reverse ++ (k, j) :: fs)) context) ts
  | [], k, j, before, context, ts => by simp [tokensFields, State.run, State.step]
  | (k', j') :: fs, k, j, before, context, ts => by
    have hcomma : State.run (.done j (.field before k :: context))
          (tokensFields ((k', j') :: fs) ++ (.closeBrace :: ts)) =
        State.run (.value (.field ((k, j) :: before) k' :: context))
          (j'.tokens ++ (tokensFields fs ++ (.closeBrace :: ts))) := by
      simp [tokensFields, State.run, State.step]
    rw [hcomma, run_tokens j', run_tokensFields fs, List.reverse_cons, List.append_assoc]
    rfl

end

/-- A value is read back from its tokens. -/
theorem ofTokens?_tokens (j : Json) : ofTokens? j.tokens = some j := by
  have h := run_tokens j [] []
  rw [List.append_nil] at h
  rw [ofTokens?, h]
  rfl

/-- **Every value is read as it is written.** -/
theorem parse?_pretty (j : Json) : parse? j.pretty = some j := by
  rw [parse?, pretty, String.toList_ofList, scan?_render, Option.bind_some, ofTokens?_tokens]

end CTyping.Json
