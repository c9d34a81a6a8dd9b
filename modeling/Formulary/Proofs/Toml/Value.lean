import Formulary.Proofs.Canonical.Numbers
import Formulary.Proofs.Toml.Text

/-!
# Values in TOML documents

A value stands behind its key up to the end of the line, or of several lines for a list
of two or more texts.

Main definitions:

- `Plain`: the values that stand behind their keys in documents of settings.

Main results:

- Theorem `readWord_natural`: the decimal text of a number is read as the number.
- Theorem `Plain.readValue`: a plain value is read back.
-/

namespace Formulary
namespace Toml

open Syntax (Digits digits_toDigits digitsValue_toDigits)

/-! ## White space and lines -/

/-- The character begins no white space, comment or new line. -/
def IsVisible (c : Char) : Prop :=
  isSpace c = false ∧ c ≠ '#' ∧ c ≠ '\n' ∧ c ≠ '\r'

instance (c : Char) : Decidable (IsVisible c) :=
  inferInstanceAs (Decidable (_ ∧ _))

/-- Nothing is skipped before a visible character. -/
theorem skipSpace_visible {c : Char} (h : IsVisible c) (s : List Char) :
    skipSpace (c :: s) = c :: s := by
  simp [skipSpace, h.1]

theorem skipComment_visible {c : Char} (h : IsVisible c) (s : List Char) :
    skipComment (c :: s) = c :: s := by
  unfold skipComment
  split
  · next heq => exact absurd (List.cons.inj heq).1 h.2.1
  · rfl

theorem skipLines_visible {c : Char} (h : IsVisible c) (fuel : Nat) (s : List Char) :
    skipLines fuel (c :: s) = c :: s := by
  cases fuel with
  | zero => rfl
  | succ fuel =>
    simp only [skipLines, skipSpace_visible h, skipComment_visible h,
      newline?_cons h.2.2.1 h.2.2.2]

/-- Line breaks are skipped. -/
theorem skipLines_newline (fuel : Nat) (s : List Char) :
    skipLines (fuel + 1) ('\n' :: s) = skipLines fuel s :=
  rfl

theorem skipLines_space (fuel : Nat) (s : List Char) :
    skipLines (fuel + 1) (' ' :: s) = skipLines (fuel + 1) s :=
  rfl

theorem visible_opening : IsVisible '[' := by
  decide

theorem visible_closing : IsVisible ']' := by
  decide

/-- A character of a key begins no white space, comment, new line or header. -/
theorem visible_of_bare {c : Char} (h : isBareKeyChar c = true) : IsVisible c ∧ c ≠ '[' := by
  have hne : ∀ d, isBareKeyChar d = false → c ≠ d := by
    rintro d hd rfl
    rw [h] at hd
    cases hd
  refine ⟨⟨?_, hne _ rfl, hne _ rfl, hne _ rfl⟩, hne _ rfl⟩
  simp [isSpace, hne ' ' rfl, hne '\t' rfl]

/-! ## Numbers and truth values -/

/-- No decimal text of a number but that of zero begins with a zero. -/
theorem head?_toDigits {n : Nat} (hn : 0 < n) : (Nat.toDigits 10 n).head? ≠ some '0' := by
  induction n using Nat.strongRecOn with
  | ind n ih =>
    rw [Nat.toDigits_eq_if (by decide)]
    split
    · next hlt =>
      have hdigit : ∀ k < 10, 0 < k → ([k.digitChar].head? ≠ some '0') := by decide
      exact hdigit n hlt hn
    · next hge =>
      have hfront := ih (n / 10) (by omega) (by omega)
      cases hdigits : Nat.toDigits 10 (n / 10) with
      | nil => exact absurd hdigits Nat.toDigits_ne_nil
      | cons c digits => rwa [hdigits] at hfront

/-- Digits without separators are read as they are. -/
theorem groupedDigits?_digits {digits : List Char} (h : Digits digits) :
    groupedDigits? Char.isDigit digits = some digits := by
  obtain ⟨hne, hall⟩ := h
  induction digits with
  | nil => exact absurd rfl hne
  | cons c digits ih =>
    rw [List.forall_mem_cons] at hall
    cases digits with
    | nil => simp [groupedDigits?, hall.1]
    | cons d digits =>
      have hrest := ih (List.cons_ne_nil _ _) hall.2
      have hline : ∀ rest, d :: digits = '_' :: rest → False := by
        intro rest heq
        cases heq
        exact absurd (hall.2 _ (List.mem_cons_self ..)) (by decide)
      rw [groupedDigits?, if_pos hall.1, hrest]
      · rfl
      · exact fun heq => List.cons_ne_nil _ _ heq
      · exact hline

/-- The decimal text of a number has no leading zero. -/
theorem wholeDigits?_toDigits (n : Nat) :
    wholeDigits? (Nat.toDigits 10 n) = some (Nat.toDigits 10 n) := by
  rw [wholeDigits?, groupedDigits?_digits (digits_toDigits n), Option.bind_eq_bind,
    Option.bind_some]
  split
  · next c t heq =>
    cases Nat.eq_zero_or_pos n with
    | inl hzero =>
      subst hzero
      rw [Nat.toDigits_zero] at heq
      cases heq
    | inr hpos => exact absurd (by rw [heq]; rfl) (head?_toDigits hpos)
  · rfl

/-- A fixed number of digits is read, or nothing. -/
theorem digits?_cases (count : Nat) (s : List Char) :
    digits? count s = none ∨ ∃ n, digits? count s = some (n, s.drop count) := by
  simp only [digits?]
  split
  · exact .inr ⟨_, rfl⟩
  · exact .inl rfl

/-- Digits alone are no date and no time. -/
theorem isMoment_digits {digits : List Char} (h : Digits digits) : isMoment digits = false := by
  have hno : ∀ {c : Char} {s : List Char} (n : Nat), digits.drop n = c :: s → c.isDigit = true := by
    intro c s n heq
    exact h.2 c (List.mem_of_mem_drop (heq ▸ List.mem_cons_self ..))
  have hdate : date? digits = none := by
    rcases digits?_cases 4 digits with hyear | ⟨year, hyear⟩
    · rw [date?, hyear]
      rfl
    · simp only [date?, hyear, Option.bind_eq_bind, Option.bind_some]
      split
      · next heq => exact absurd (hno 4 heq) (by decide)
      · rfl
  have htime : time? digits = none := by
    rcases digits?_cases 2 digits with hhour | ⟨hour, hhour⟩
    · rw [time?, hhour]
      rfl
    · simp only [time?, hhour, Option.bind_eq_bind, Option.bind_some]
      split
      · next heq => exact absurd (hno 2 heq) (by decide)
      · rfl
  rw [isMoment, hdate, htime]
  rfl

/-- The decimal text of a number is the number. -/
theorem number?_toDigits (n : Nat) : number? (Nat.toDigits 10 n) = some (.integer n) := by
  have hwhole := wholeDigits?_toDigits n
  have hvalue := digitsValue_toDigits n
  obtain ⟨hne, hall⟩ := digits_toDigits n
  generalize Nat.toDigits 10 n = digits at *
  have hsign : splitSign digits = (false, digits) := by
    unfold splitSign
    split
    · exact absurd (hall _ (List.mem_cons_self ..)) (by decide)
    · exact absurd (hall _ (List.mem_cons_self ..)) (by decide)
    · rfl
  have hbase : ∀ {c d : Char} {s : List Char}, digits = c :: d :: s → d.isDigit = true := by
    rintro c d s rfl
    exact hall d (List.mem_cons_of_mem _ (List.mem_cons_self ..))
  unfold number?
  split
  · exact absurd (hbase rfl) (by decide)
  · exact absurd (hbase rfl) (by decide)
  · exact absurd (hbase rfl) (by decide)
  · simp only [hsign, magnitude?, hwhole, hvalue]
    rfl

/-- A word ends before the end of the line. -/
theorem takeWord_line {word : List Char} (h : ∀ c ∈ word, isWordChar c = true) (rest : List Char) :
    takeWord (word ++ '\n' :: rest) = word := by
  have hword : (word ++ '\n' :: rest).takeWhile isWordChar = word := by
    rw [List.takeWhile_append_of_pos h]
    have hline : isWordChar '\n' = false := rfl
    simp [hline]
  have hrest : (word ++ '\n' :: rest).drop word.length = '\n' :: rest := by simp
  rw [takeWord, hword, hrest]
  rfl

/-- The decimal text of a number is read as the number. -/
theorem readWord_natural (n : Nat) (rest : List Char) :
    readWord (Nat.toDigits 10 n ++ '\n' :: rest) = some (.integer n, '\n' :: rest) := by
  have hdigits := digits_toDigits n
  have hword : ∀ c ∈ Nat.toDigits 10 n, isWordChar c = true := by
    intro c hc
    simp [isWordChar, isBareKeyChar, Char.isAlphanum, hdigits.2 c hc]
  have hrest : (Nat.toDigits 10 n ++ '\n' :: rest).drop (Nat.toDigits 10 n).length =
      '\n' :: rest := by simp
  have hne : ∀ {c : Char} {s : List Char}, String.ofList (Nat.toDigits 10 n) =
      String.ofList (c :: s) → c.isDigit = true := by
    intro c s heq
    rw [String.ofList_inj] at heq
    exact hdigits.2 c (heq ▸ List.mem_cons_self ..)
  have hnumber : number? (Nat.toDigits 10 n) = some (.integer n) := number?_toDigits n
  simp only [readWord, takeWord_line hword, hrest]
  split
  · next heq => exact absurd (@hne 't' ['r', 'u', 'e'] heq) (by decide)
  · next heq => exact absurd (@hne 'f' ['a', 'l', 's', 'e'] heq) (by decide)
  · rw [isMoment_digits hdigits, if_neg Bool.false_ne_true, hnumber]
    rfl

theorem readWord_bool (b : Bool) (rest : List Char) :
    readWord ((if b then "true" else "false").toList ++ '\n' :: rest) =
      some (.bool b, '\n' :: rest) := by
  cases b <;> rfl

/-! ## Values behind their keys -/

/-- The values that stand behind their keys in documents of settings. -/
inductive Plain : Toml → Prop where
  | text (s : String) : Plain (.text s)
  | natural (n : Nat) : Plain (.integer n)
  | bool (b : Bool) : Plain (.bool b)
  | texts (items : List String) : Plain (.list (items.map .text))

/-- A text begins with a quote. -/
theorem exists_writeText_eq (s : String) :
    ∃ quote body, (writeText s).toList = quote :: body ∧ (quote = '"' ∨ quote = '\'') := by
  simp only [writeText]
  cases formOf s.toList with
  | basic => exact ⟨'"', escapeAll false 0 0 s.toList ++ ['"'], by simp, .inl rfl⟩
  | literal => exact ⟨'\'', s.toList ++ ['\''], by simp, .inr rfl⟩
  | basicLines =>
    exact ⟨'"', '"' :: '"' :: '\n' :: (escapeAll true 2 0 s.toList ++ ['"', '"', '"']), by simp,
      .inl rfl⟩
  | literalLines =>
    exact ⟨'\'', '\'' :: '\'' :: '\n' :: (s.toList ++ ['\'', '\'', '\'']), by simp, .inr rfl⟩

/-- A written text is read back, unless a quote follows. -/
theorem readValue_text (s : String) {rest : List Char} (hdouble : rest.head? ≠ some '"')
    (hsingle : rest.head? ≠ some '\'') (depth : Nat) :
    readValue (depth + 1) ((writeText s).toList ++ rest) = some (.text s, rest) := by
  have hread := readText_writeText s hdouble hsingle
  rcases exists_writeText_eq s with ⟨quote, body, heq, rfl | rfl⟩
  · rw [heq, List.cons_append] at hread ⊢
    simp only [readValue, hread, Option.map_some]
  · rw [heq, List.cons_append] at hread ⊢
    simp only [readValue, hread, Option.map_some]

/-- What begins with no quote, bracket or brace is a word. -/
theorem readValue_word {c : Char} (hc : c ∉ ['"', '\'', '[', '\x7b']) (s : List Char)
    (depth : Nat) :
    readValue (depth + 1) (c :: s) = readWord (c :: s) := by
  simp only [List.mem_cons, List.not_mem_nil, or_false, not_or] at hc
  rw [readValue]
  · exact fun _ heq => hc.1 (List.cons.inj heq).1
  · exact fun _ heq => hc.2.1 (List.cons.inj heq).1
  · exact fun _ heq => hc.2.2.1 (List.cons.inj heq).1
  · exact fun _ heq => hc.2.2.2 (List.cons.inj heq).1

theorem visible_of_quote {c : Char} (h : c = '"' ∨ c = '\'') : IsVisible c := by
  rcases h with rfl | rfl <;> decide

/-- The front of a text is not skipped. -/
theorem skipLines_text (fuel : Nat) (s : String) (rest : List Char) :
    skipLines fuel ((writeText s).toList ++ rest) = (writeText s).toList ++ rest := by
  rcases exists_writeText_eq s with ⟨quote, body, heq, hquote⟩
  rw [heq, List.cons_append, skipLines_visible (visible_of_quote hquote)]

/-- Every item takes a character or more. -/
theorem length_le_writeLines (items : List String) :
    items.length ≤ (writeLines (items.map .text)).toList.length := by
  induction items with
  | nil => exact Nat.zero_le _
  | cons s items ih =>
    simp only [List.map_cons, writeLines, String.toList_append, List.length_append,
      List.length_cons]
    have hindent : "    ".toList.length = 4 := rfl
    omega

/-- New lines and indentation before a text are skipped. -/
theorem skipLines_line (s : String) (rest : List Char) :
    let front := '\n' :: ' ' :: ' ' :: ' ' :: ' ' :: ((writeText s).toList ++ rest)
    skipLines front.length front = (writeText s).toList ++ rest := by
  simp only [List.length_cons, skipLines_newline, skipLines_space, skipLines_text]

section Items

variable {item : List Char → Option (Toml × List Char)} {front s rest : List Char} {v : Toml}

/-- After an item with a comma behind it come the others. -/
theorem readItems_comma (hfront : skipLines front.length front = s) (hs : s.head? ≠ some ']')
    (hitem : item s = some (v, ',' :: rest)) (fuel : Nat) :
    readItems item (fuel + 1) front =
      (readItems item fuel rest).map fun p => (v :: p.1, p.2) := by
  have hcomma : IsVisible ',' := by decide
  rw [readItems, hfront]
  split
  · exact absurd rfl hs
  · simp only [hitem, Option.bind_eq_bind, Option.bind_some, skipLines_visible hcomma]
    cases readItems item fuel rest <;> rfl

/-- An item with the bracket behind it is the last one. -/
theorem readItems_last (hfront : skipLines front.length front = s) (hs : s.head? ≠ some ']')
    (hitem : item s = some (v, ']' :: rest)) (fuel : Nat) :
    readItems item (fuel + 1) front = some ([v], rest) := by
  rw [readItems, hfront]
  split
  · exact absurd rfl hs
  · simp only [hitem, Option.bind_eq_bind, Option.bind_some, skipLines_visible visible_closing]

end Items

/-- No text begins like the end of a list. -/
theorem head?_writeText (s : String) (rest : List Char) :
    ((writeText s).toList ++ rest).head? ≠ some ']' := by
  rcases exists_writeText_eq s with ⟨quote, body, heq, rfl | rfl⟩ <;> simp [heq]

/-- The items of a list over several lines are read up to its bracket. -/
theorem readItems_lines (depth : Nat) (items : List String) {fuel : Nat}
    (hfuel : items.length < fuel) (rest : List Char) :
    readItems (readValue (depth + 1)) fuel
        ('\n' :: ((writeLines (items.map .text)).toList ++ ']' :: rest)) =
      some (items.map .text, rest) := by
  induction items generalizing fuel with
  | nil =>
    obtain ⟨fuel, rfl⟩ : ∃ k, fuel = k + 1 := ⟨fuel - 1, by omega⟩
    simp [readItems, writeLines, skipLines_newline, skipLines_visible visible_closing]
  | cons s items ih =>
    obtain ⟨fuel, rfl⟩ : ∃ k, fuel = k + 1 := ⟨fuel - 1, by omega⟩
    have hrest := @ih fuel (by simpa using hfuel)
    let behind := '\n' :: ((writeLines (items.map .text)).toList ++ ']' :: rest)
    have hfront : '\n' :: ((writeLines ((s :: items).map .text)).toList ++ ']' :: rest) =
        '\n' :: ' ' :: ' ' :: ' ' :: ' ' :: ((writeText s).toList ++ ',' :: behind) := by
      simp [writeLines, writeValue, behind]
    have hitem := @readValue_text s (',' :: behind) (by simp) (by simp) depth
    rw [hfront, readItems_comma (skipLines_line s _) (head?_writeText s _) hitem, hrest]
    rfl

/-- A list is read item by item. -/
theorem readValue_list (depth : Nat) (s : List Char) :
    readValue (depth + 1) ('[' :: s) =
      (readItems (readValue depth) (s.length + 1) s).map fun p => (.list p.1, p.2) := by
  rw [readValue]

theorem writeValue_noTexts : (writeValue (.list [])).toList = ['[', ']'] := by
  simp [writeValue]

theorem writeValue_oneText (s : String) :
    (writeValue (.list [.text s])).toList = '[' :: ((writeText s).toList ++ [']']) := by
  simp [writeValue]

/-- The text of a list of several texts has a line for each. -/
theorem writeValue_manyTexts (s t : String) (items : List String) :
    (writeValue (.list ((s :: t :: items).map .text))).toList =
      '[' :: '\n' :: ((writeLines ((s :: t :: items).map .text)).toList ++ [']']) := by
  simp [writeValue]

/-- A list of texts begins with a bracket. -/
theorem exists_writeValue_texts_eq (items : List String) :
    ∃ inner, (writeValue (.list (items.map .text))).toList = '[' :: inner := by
  cases items with
  | nil => exact ⟨_, writeValue_noTexts⟩
  | cons s items =>
    cases items with
    | nil => exact ⟨_, writeValue_oneText s⟩
    | cons t items => exact ⟨_, writeValue_manyTexts s t items⟩

/-- A list of texts is read back. -/
theorem readValue_texts (depth : Nat) (items : List String) (rest : List Char) :
    readValue (depth + 2) ((writeValue (.list (items.map .text))).toList ++ rest) =
      some (.list (items.map .text), rest) := by
  match items with
  | [] =>
    rw [List.map_nil, writeValue_noTexts, List.cons_append, List.singleton_append, readValue_list,
      readItems, skipLines_visible visible_closing]
    rfl
  | [s] =>
    have hitem := @readValue_text s (']' :: rest) (by simp) (by simp) depth
    rw [List.map_singleton, writeValue_oneText, List.cons_append, List.append_assoc,
      List.singleton_append, readValue_list,
      readItems_last (skipLines_text _ s _) (head?_writeText s _) hitem]
    rfl
  | s :: t :: items =>
    have hlength := length_le_writeLines (s :: t :: items)
    rw [writeValue_manyTexts, List.cons_append, List.cons_append, List.append_assoc,
      List.singleton_append, readValue_list, readItems_lines]
    · rfl
    · simp only [List.length_cons, List.length_append] at hlength ⊢
      omega

/-- A natural number is written in digits. -/
theorem writeValue_natural (n : Nat) : (writeValue (.integer n)).toList = Nat.toDigits 10 n := by
  simp [writeValue, Text.integerText, Text.integerChars]

/-- A plain value is read back up to the end of its line. -/
theorem Plain.readValue {v : Toml} (h : Plain v) (depth : Nat) (rest : List Char) :
    readValue (depth + 2) ((writeValue v).toList ++ '\n' :: rest) = some (v, '\n' :: rest) := by
  cases h with
  | text s => exact readValue_text s (by simp) (by simp) (depth + 1)
  | natural n =>
    have hread := readWord_natural n rest
    rw [writeValue_natural]
    cases hdigits : Nat.toDigits 10 n with
    | nil => exact absurd hdigits Nat.toDigits_ne_nil
    | cons c digits =>
      have hc : c.isDigit = true := (digits_toDigits n).2 c (hdigits ▸ List.mem_cons_self ..)
      rw [hdigits] at hread
      rwa [List.cons_append, readValue_word]
      rintro hmem
      simp only [List.mem_cons, List.not_mem_nil, or_false] at hmem
      rcases hmem with rfl | rfl | rfl | rfl <;> exact absurd hc (by decide)
  | bool b =>
    have hread := readWord_bool b rest
    cases b with
    | true => exact (readValue_word (by decide) _ _).trans hread
    | false => exact (readValue_word (by decide) _ _).trans hread
  | texts items => exact readValue_texts depth items _

/-- No white space stands in front of a plain value. -/
theorem Plain.skipSpace {v : Toml} (h : Plain v) (rest : List Char) :
    skipSpace ((writeValue v).toList ++ rest) = (writeValue v).toList ++ rest := by
  cases h with
  | text s =>
    rcases exists_writeText_eq s with ⟨quote, body, heq, hquote⟩
    rw [writeValue, heq]
    exact skipSpace_visible (visible_of_quote hquote) _
  | natural n =>
    rw [writeValue_natural]
    cases hdigits : Nat.toDigits 10 n with
    | nil => exact absurd hdigits Nat.toDigits_ne_nil
    | cons c digits =>
      have hc : c.isDigit = true := (digits_toDigits n).2 c (hdigits ▸ List.mem_cons_self ..)
      have hbare : isBareKeyChar c = true := by simp [isBareKeyChar, Char.isAlphanum, hc]
      exact skipSpace_visible (visible_of_bare hbare).1 _
  | bool b => cases b <;> rfl
  | texts items =>
    rcases exists_writeValue_texts_eq items with ⟨inner, heq⟩
    rw [heq]
    exact skipSpace_visible visible_opening _

/-- A plain value stands behind its key. -/
theorem Plain.isPlainEntry {v : Toml} (h : Plain v) : isPlainEntry v = true := by
  cases h with
  | texts items => cases items <;> rfl
  | _ => rfl

end Toml
end Formulary
