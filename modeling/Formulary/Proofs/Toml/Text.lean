import Formulary.Toml.Reader
import Formulary.Toml.Writer

/-!
# Texts in TOML documents

A text is written in one of four forms, and read back from each of them whatever
characters it has.

Main definitions:

- `Escapes`: what behind a backslash stands for which character.
- `Spells`: the characters of a text over several lines, as they stand between its
  quotes.

Main results:

- Theorem `Spells.multilineBody`: a text over several lines is read up to its quotes.
- Theorem `readText_writeText`: a text is read back.
-/

namespace Formulary
namespace Toml

/-! ## Escapes -/

/-- Behind a backslash the characters stand for `c`, and not for the end of a line. -/
def Escapes (code : List Char) (c : Char) : Prop :=
  ∀ rest, escaped? (code ++ rest) = some (c, rest) ∧ continued? (code ++ rest) = none

/-- Only an end of a line is no character of a text. -/
theorem newline?_cons {c : Char} (hline : c ≠ '\n') (hreturn : c ≠ '\r') (s : List Char) :
    newline? (c :: s) = none := by
  unfold newline?
  split
  · next heq => exact absurd (List.cons.inj heq).1 hline
  · next heq => exact absurd (List.cons.inj heq).1 hreturn
  · rfl

/-- An escape stands for what it is read as, whatever follows. -/
theorem escapes_cons {d c : Char} {code : List Char} (hspace : isSpace d = false)
    (hline : d ≠ '\n') (hreturn : d ≠ '\r')
    (h : ∀ rest, escaped? (d :: code ++ rest) = some (c, rest)) : Escapes (d :: code) c := by
  intro rest
  refine ⟨h rest, ?_⟩
  have hskip : skipSpace (d :: (code ++ rest)) = d :: (code ++ rest) := by
    simp [skipSpace, hspace]
  rw [List.cons_append, continued?, hskip, newline?_cons hline hreturn]
  rfl

theorem escapes_quote : Escapes ['"'] '"' :=
  escapes_cons rfl (by decide) (by decide) fun _ => rfl

/-- The escapes of one letter stand for their characters. -/
theorem escapes_of_shortEscape? {lines : Bool} {c : Char} {escape : List Char}
    (h : shortEscape? lines c = some escape) :
    ∃ code, escape = '\\' :: code ∧ Escapes code c := by
  have hcode : ∀ d : Char, c.toNat = d.toNat → c = d := fun _ => Char.toNat_inj.1
  unfold shortEscape? at h
  split at h
  · next hc =>
    cases h
    subst hc
    exact ⟨['t'], rfl, escapes_cons rfl (by decide) (by decide) fun _ => rfl⟩
  split at h
  · next hc =>
    cases h
    subst hc
    exact ⟨['\\'], rfl, escapes_cons rfl (by decide) (by decide) fun _ => rfl⟩
  split at h
  · next hc =>
    cases h
    cases hcode '\x08' hc
    exact ⟨['b'], rfl, escapes_cons rfl (by decide) (by decide) fun _ => rfl⟩
  split at h
  · next hc =>
    split at h
    · cases h
    · cases h
      subst hc
      exact ⟨['n'], rfl, escapes_cons rfl (by decide) (by decide) fun _ => rfl⟩
  split at h
  · next hc =>
    cases h
    cases hcode '\x0c' hc
    exact ⟨['f'], rfl, escapes_cons rfl (by decide) (by decide) fun _ => rfl⟩
  split at h
  · next hc =>
    cases h
    subst hc
    exact ⟨['r'], rfl, escapes_cons rfl (by decide) (by decide) fun _ => rfl⟩
  · cases h

/-- A hexadecimal digit has its value. -/
theorem hexValue?_upperHexDigit (n : Nat) : Text.hexValue? (upperHexDigit n) = some (n % 16) := by
  have hdigit : ∀ k < 16, Text.hexValue? (Nat.digitChar k).toUpper = some k := by decide
  exact hdigit _ (Nat.mod_lt n (by decide))

/-- Two hexadecimal digits are enough for a character of one byte. -/
theorem escapes_hexadecimal {c : Char} (h : c.toNat < 256) :
    Escapes ['u', '0', '0', upperHexDigit (c.toNat / 16), upperHexDigit c.toNat] c := by
  refine escapes_cons rfl (by decide) (by decide) fun rest => ?_
  have hzero : Text.hexValue? '0' = some 0 := rfl
  have hvalue : 16 * (c.toNat / 16 % 16) + c.toNat % 16 = c.toNat := by omega
  have hscalar : scalar? c.toNat = some c := by
    rw [scalar?, if_pos (show c.toNat.isValidChar from c.valid), Char.ofNat_toNat]
  simp [escaped?, Text.hexNumber?, hzero, hexValue?_upperHexDigit, hvalue, hscalar]

/-- A character that needs no escape is plain or ends a line. -/
theorem plain_or_newline {c : Char} (h : needsEscape c = false) :
    isPlain c = true ∨ c = '\n' := by
  simp only [needsEscape, Bool.or_eq_false_iff, Bool.and_eq_false_iff, decide_eq_false_iff_not,
    bne_eq_false_iff_eq, beq_eq_false_iff_ne] at h
  rcases h with ⟨(hlarge | htab) | hline, hdelete⟩
  · left
    simp [isPlain, hdelete, Nat.le_of_not_lt hlarge]
  · left
    rw [isPlain, htab]
    rfl
  · exact .inr hline

/-- A character between double quotes stands there behind a backslash or as it is. -/
theorem escapeChar_cases (lines : Bool) (c : Char) :
    (∃ code, escapeChar lines c = '\\' :: code ∧ Escapes code c) ∨
    (escapeChar lines c = [c] ∧ c ≠ '\\' ∧ (isPlain c = true ∨ (lines = true ∧ c = '\n'))) := by
  unfold escapeChar
  cases hshort : shortEscape? lines c with
  | some escape =>
    rcases escapes_of_shortEscape? hshort with ⟨code, rfl, hcode⟩
    exact .inl ⟨code, rfl, hcode⟩
  | none =>
    by_cases hneeds : needsEscape c = true
    · refine .inl ⟨_, if_pos hneeds, escapes_hexadecimal ?_⟩
      simp only [needsEscape, Bool.or_eq_true, Bool.and_eq_true, decide_eq_true_eq,
        beq_iff_eq] at hneeds
      omega
    · refine .inr ⟨if_neg hneeds, ?_, ?_⟩
      · rintro rfl
        cases hshort
      · rw [Bool.not_eq_true] at hneeds
        refine (plain_or_newline hneeds).imp_right fun hline => ⟨?_, hline⟩
        subst hline
        cases lines with
        | false => cases hshort
        | true => rfl

/-! ## Texts of one line -/

/-- An escape in a text is read as its character. -/
theorem basicBody_escape {code : List Char} {c : Char} (h : Escapes code c) (fuel : Nat)
    (s : List Char) :
    basicBody (fuel + 1) ('\\' :: (code ++ s)) =
      (basicBody fuel s).map fun p => (c :: p.1, p.2) := by
  simp only [basicBody, (h s).1, Option.bind_eq_bind, Option.bind_some]
  cases basicBody fuel s <;> rfl

theorem basicBody_plain {c : Char} (hplain : isPlain c = true) (hquote : c ≠ '"')
    (hslash : c ≠ '\\') (fuel : Nat) (s : List Char) :
    basicBody (fuel + 1) (c :: s) = (basicBody fuel s).map fun p => (c :: p.1, p.2) := by
  rw [basicBody, if_pos hplain]
  · cases basicBody fuel s <;> rfl
  · exact hquote
  · exact hslash

/-- Every character takes a character or more. -/
theorem length_le_escapeAll (lines : Bool) (quotes run : Nat) (s : List Char) :
    s.length ≤ (escapeAll lines quotes run s).length := by
  induction s generalizing run with
  | nil => exact Nat.zero_le _
  | cons c s ih =>
    rw [escapeAll]
    split
    · split
      · exact Nat.succ_le_succ (ih _)
      · exact Nat.le_succ_of_le (Nat.succ_le_succ (ih _))
    · rw [List.length_append, List.length_cons]
      have hrest := ih 0
      rcases escapeChar_cases lines c with ⟨code, heq, -⟩ | ⟨heq, -, -⟩
      · rw [heq, List.length_cons]
        omega
      · rw [heq, List.length_singleton]
        omega

/-- Where every quote is escaped, none stands at the front. -/
theorem exists_escapeAll_eq (c : Char) (s : List Char) :
    ∃ d t, escapeAll false 0 0 (c :: s) = d :: t ∧ d ≠ '"' := by
  rw [escapeAll]
  split
  · exact ⟨'\\', _, if_neg (Nat.not_lt_zero 0), by decide⟩
  · next hc =>
    rcases escapeChar_cases false c with ⟨code, heq, -⟩ | ⟨heq, -, -⟩
    · exact ⟨'\\', _, by rw [heq]; rfl, by decide⟩
    · exact ⟨c, _, by rw [heq]; rfl, hc⟩

/-- A text between double quotes is read up to the closing one. -/
theorem basicBody_escapeAll (s : List Char) {fuel : Nat} (hfuel : s.length < fuel)
    (rest : List Char) :
    basicBody fuel (escapeAll false 0 0 s ++ '"' :: rest) = some (s, rest) := by
  induction s generalizing fuel with
  | nil =>
    obtain ⟨fuel, rfl⟩ : ∃ k, fuel = k + 1 := ⟨fuel - 1, by omega⟩
    rfl
  | cons c s ih =>
    obtain ⟨fuel, rfl⟩ : ∃ k, fuel = k + 1 := ⟨fuel - 1, by omega⟩
    have hrest := @ih fuel (by simpa using hfuel)
    by_cases hquote : c = '"'
    · subst hquote
      have hread := basicBody_escape escapes_quote fuel (escapeAll false 0 0 s ++ '"' :: rest)
      rw [hrest] at hread
      exact hread
    · rw [escapeAll, if_neg hquote, List.append_assoc]
      rcases escapeChar_cases false c with ⟨code, heq, hcode⟩ | ⟨heq, hslash, hplain⟩
      · rw [heq, List.cons_append, basicBody_escape hcode, hrest]
        rfl
      · have hplain : isPlain c = true := hplain.resolve_right (by simp)
        rw [heq, List.singleton_append, basicBody_plain hplain hquote hslash, hrest]
        rfl

/-- A text between single quotes is read up to the closing one. -/
theorem literalBody_append {s : List Char} (hplain : ∀ c ∈ s, isPlain c = true)
    (hquote : '\'' ∉ s) (rest : List Char) : literalBody (s ++ '\'' :: rest) = some (s, rest) := by
  have hbody : (s ++ '\'' :: rest).takeWhile (fun c => isPlain c && c != '\'') = s := by
    rw [List.takeWhile_append_of_pos]
    · simp
    · intro c hc
      have hne : c ≠ '\'' := fun heq => hquote (heq ▸ hc)
      simp [hplain c hc, hne]
  simp [literalBody, hbody]

/-! ## Texts over several lines -/

/-- The characters of a text over several lines, as they stand between its quotes and behind
`run` quotes that belong to the text. -/
inductive Spells (quote : Char) (escapes : Bool) : Nat → List Char → List Char → Prop where
  | nil (run : Nat) : Spells quote escapes run [] []
  | quote {run : Nat} {text spelled : List Char} (hrun : run < 2)
      (h : Spells quote escapes (run + 1) text spelled) :
      Spells quote escapes run (quote :: text) (quote :: spelled)
  | newline {run : Nat} {text spelled : List Char} (hquote : '\n' ≠ quote)
      (h : Spells quote escapes 0 text spelled) :
      Spells quote escapes run ('\n' :: text) ('\n' :: spelled)
  | plain {run : Nat} {c : Char} {text spelled : List Char} (hplain : isPlain c = true)
      (hquote : c ≠ quote) (hslash : escapes = true → c ≠ '\\')
      (h : Spells quote escapes 0 text spelled) :
      Spells quote escapes run (c :: text) (c :: spelled)
  | escape {run : Nat} {c : Char} {code text spelled : List Char} (hescapes : escapes = true)
      (hquote : '\\' ≠ quote) (hcode : Escapes code c)
      (h : Spells quote escapes 0 text spelled) :
      Spells quote escapes run (c :: text) ('\\' :: (code ++ spelled))

section Lines

variable {quote : Char} {escapes : Bool}

/-- What stands at the front is read as the text, with enough fuel for every character. -/
def LinesRead (quote : Char) (escapes : Bool) (s text rest : List Char) : Prop :=
  ∀ fuel, s.length < fuel → multilineBody quote escapes fuel s = some (text, rest)

/-- A run of quotes ends before another character. -/
theorem takeWhile_quotes {s : List Char} (hs : s.head? ≠ some quote) (n : Nat) :
    (List.replicate n quote ++ s).takeWhile (· == quote) = List.replicate n quote := by
  rw [List.takeWhile_append_of_pos fun c hc => by simp [List.eq_of_mem_replicate hc]]
  cases s with
  | nil => simp
  | cons c s =>
    have hc : c ≠ quote := fun heq => hs (by rw [heq]; rfl)
    simp [hc]

/-- The reader takes a whole run of quotes at once. -/
theorem multilineBody_quotes {s : List Char} (hs : s.head? ≠ some quote) {n : Nat} (hn : 0 < n)
    (fuel : Nat) :
    multilineBody quote escapes (fuel + 1) (List.replicate n quote ++ s) =
      match quoteRun n with
      | .inside count => (multilineBody quote escapes fuel s).map
          fun p => (List.replicate count quote ++ p.1, p.2)
      | .closing before => some (List.replicate before quote, s)
      | .tooMany => none := by
  have hrun := takeWhile_quotes hs n
  have hdrop : (List.replicate n quote ++ s).drop n = s := by simp
  obtain ⟨n, rfl⟩ : ∃ k, n = k + 1 := ⟨n - 1, by omega⟩
  rw [List.replicate_succ, List.cons_append] at hrun hdrop ⊢
  simp only [multilineBody, if_true, hrun, List.length_cons, List.length_replicate, hdrop]
  cases quoteRun (n + 1) with
  | inside count => cases multilineBody quote escapes fuel s <;> rfl
  | closing before => rfl
  | tooMany => rfl

/-- Fewer than three quotes belong to the text. -/
theorem LinesRead.quotes {s text rest : List Char} (h : LinesRead quote escapes s text rest)
    (hs : s.head? ≠ some quote) {run : Nat} (hrun : run < 3) :
    LinesRead quote escapes (List.replicate run quote ++ s) (List.replicate run quote ++ text)
      rest := by
  intro fuel hfuel
  cases Nat.eq_zero_or_pos run with
  | inl hzero =>
    subst hzero
    exact h fuel hfuel
  | inr hpos =>
    obtain ⟨fuel, rfl⟩ : ∃ k, fuel = k + 1 := ⟨fuel - 1, by omega⟩
    rw [List.length_append, List.length_replicate] at hfuel
    rw [multilineBody_quotes hs hpos, quoteRun, if_pos hrun, h fuel (by omega)]
    rfl

/-- Three quotes close the text, with up to two of its own before them. -/
theorem linesRead_closing {rest : List Char} (hrest : rest.head? ≠ some quote) {run : Nat}
    (hrun : run < 3) :
    LinesRead quote escapes (List.replicate (run + 3) quote ++ rest) (List.replicate run quote)
      rest := by
  intro fuel hfuel
  obtain ⟨fuel, rfl⟩ : ∃ k, fuel = k + 1 := ⟨fuel - 1, by omega⟩
  rw [multilineBody_quotes hrest (Nat.succ_pos _), quoteRun, if_neg (by omega), if_pos (by omega)]
  rfl

/-- A line break in a text of several lines is read as itself. -/
theorem LinesRead.newline {s text rest : List Char} (h : LinesRead quote escapes s text rest)
    (hquote : '\n' ≠ quote) : LinesRead quote escapes ('\n' :: s) ('\n' :: text) rest := by
  intro fuel hfuel
  obtain ⟨fuel, rfl⟩ : ∃ k, fuel = k + 1 := ⟨fuel - 1, by omega⟩
  have hslash : ¬('\n' = '\\' ∧ escapes = true) := by simp
  simp only [multilineBody, if_neg hquote, if_neg hslash, newline?,
    h fuel (Nat.lt_of_succ_lt_succ hfuel)]
  rfl

theorem LinesRead.plain {c : Char} {s text rest : List Char}
    (h : LinesRead quote escapes s text rest) (hplain : isPlain c = true) (hquote : c ≠ quote)
    (hslash : escapes = true → c ≠ '\\') :
    LinesRead quote escapes (c :: s) (c :: text) rest := by
  intro fuel hfuel
  obtain ⟨fuel, rfl⟩ : ∃ k, fuel = k + 1 := ⟨fuel - 1, by omega⟩
  have hne : ∀ d, isPlain d = false → c ≠ d := by
    rintro d hd rfl
    rw [hplain] at hd
    cases hd
  have hescape : ¬(c = '\\' ∧ escapes = true) := fun hboth => hslash hboth.2 hboth.1
  simp only [multilineBody, if_neg hquote, if_neg hescape,
    newline?_cons (hne '\n' rfl) (hne '\r' rfl), hplain, if_true,
    h fuel (Nat.lt_of_succ_lt_succ hfuel)]
  rfl

theorem LinesRead.escape {c : Char} {code s text rest : List Char}
    (h : LinesRead quote true s text rest) (hquote : '\\' ≠ quote) (hcode : Escapes code c) :
    LinesRead quote true ('\\' :: (code ++ s)) (c :: text) rest := by
  intro fuel hfuel
  obtain ⟨fuel, rfl⟩ : ∃ k, fuel = k + 1 := ⟨fuel - 1, by omega⟩
  rw [List.length_cons, List.length_append] at hfuel
  simp only [multilineBody, if_neg hquote, and_self, if_true, hcode s, Option.bind_eq_bind,
    Option.bind_some, h fuel (by omega)]

/-- A text over several lines is read up to its quotes. -/
theorem Spells.multilineBody {run : Nat} {text spelled : List Char}
    (h : Spells quote escapes run text spelled) (hrun : run < 3) {rest : List Char}
    (hrest : rest.head? ≠ some quote) :
    LinesRead quote escapes
      (List.replicate run quote ++ (spelled ++ (List.replicate 3 quote ++ rest)))
      (List.replicate run quote ++ text) rest := by
  induction h with
  | nil run =>
    have hclosing := @linesRead_closing quote escapes rest hrest run hrun
    rw [← List.replicate_append_replicate, List.append_assoc] at hclosing
    rwa [List.nil_append, List.append_nil]
  | quote hlimit _ ih =>
    have hnext := ih (by omega)
    rw [List.replicate_succ'] at hnext
    simpa using hnext
  | newline hquote _ ih =>
    refine ((ih (by omega)).newline hquote).quotes ?_ hrun
    simpa using hquote
  | plain hplain hquote hslash _ ih =>
    refine ((ih (by omega)).plain hplain hquote hslash).quotes ?_ hrun
    simpa using hquote
  | escape hescapes hquote hcode _ ih =>
    subst hescapes
    have hread := ((ih (by omega)).escape hquote hcode).quotes (by simpa using hquote) hrun
    simpa using hread

end Lines

/-- Where escapes count, quotes in a row beyond two are escaped. -/
theorem spells_escapeAll (s : List Char) (run : Nat) :
    Spells '"' true run s (escapeAll true 2 run s) := by
  induction s generalizing run with
  | nil => exact .nil run
  | cons c s ih =>
    by_cases hquote : c = '"'
    · subst hquote
      by_cases hrun : run < 2
      · rw [escapeAll, if_pos rfl, if_pos hrun]
        exact .quote hrun (ih (run + 1))
      · rw [escapeAll, if_pos rfl, if_neg hrun]
        exact .escape rfl (by decide) escapes_quote (ih 0)
    · rw [escapeAll, if_neg hquote]
      rcases escapeChar_cases true c with ⟨code, heq, hcode⟩ | ⟨heq, hslash, hplain⟩
      · rw [heq]
        exact .escape rfl (by decide) hcode (ih 0)
      · rw [heq]
        rcases hplain with hplain | ⟨-, rfl⟩
        · exact .plain hplain hquote (fun _ => hslash) (ih 0)
        · exact .newline (by decide) (ih 0)

/-- The longest run so far and the run at the end, after one more character. -/
def runStep (c : Char) (runs : Nat × Nat) (x : Char) : Nat × Nat :=
  if x = c then (max runs.1 (runs.2 + 1), runs.2 + 1) else (runs.1, 0)

/-- The longest run is found in one pass. -/
theorem longestRun_eq (c : Char) (s : List Char) :
    longestRun c s = (s.foldl (runStep c) (0, 0)).1 :=
  rfl

/-- The longest run does not get shorter along a text. -/
theorem le_foldl_runStep (c : Char) (s : List Char) (runs : Nat × Nat) :
    runs.1 ≤ (s.foldl (runStep c) runs).1 := by
  induction s generalizing runs with
  | nil => exact Nat.le_refl _
  | cons x s ih =>
    refine Nat.le_trans ?_ (ih (runStep c runs x))
    unfold runStep
    split
    · exact Nat.le_max_left _ _
    · exact Nat.le_refl _

/-- Without escapes a text stands as it is, if no run of quotes in it is too long. -/
theorem spells_self {s : List Char} (hplain : ∀ c ∈ s, needsEscape c = false)
    {runs : Nat × Nat} (hruns : (s.foldl (runStep '\'') runs).1 ≤ 2) :
    Spells '\'' false runs.2 s s := by
  induction s generalizing runs with
  | nil => exact .nil _
  | cons c s ih =>
    rw [List.forall_mem_cons] at hplain
    have hspells := ih hplain.2 hruns
    by_cases hquote : c = '\''
    · subst hquote
      have hlongest := Nat.le_trans (le_foldl_runStep '\'' s _) hruns
      rw [runStep, if_pos rfl] at hspells hlongest
      have hlast : runs.2 + 1 ≤ 2 := Nat.le_trans (Nat.le_max_right _ _) hlongest
      exact .quote (by omega) hspells
    · rw [runStep, if_neg hquote] at hspells
      rcases plain_or_newline hplain.1 with hc | rfl
      · exact .plain hc hquote (by simp) hspells
      · exact .newline (by decide) hspells

/-- Where the longest run is empty, the character is not there. -/
theorem not_mem_of_longestRun {c : Char} {s : List Char} (h : longestRun c s = 0) : c ∉ s := by
  intro hc
  obtain ⟨front, back, rfl⟩ := List.append_of_mem hc
  rw [longestRun_eq, List.foldl_append, List.foldl_cons] at h
  have hlongest := le_foldl_runStep c back (runStep c (front.foldl (runStep c) (0, 0)) c)
  rw [h, runStep, if_pos rfl] at hlongest
  omega

/-! ## All forms -/

/-- Only texts without escapes stand between single quotes, with no such quote and on one line,
or with few of them in a row. -/
theorem formOf_cases {s : List Char} {form : TextForm} (h : formOf s = form) :
    form = .basic ∨ form = .basicLines ∨
    (form = .literal ∧ (∀ c ∈ s, needsEscape c = false) ∧ longestRun '\'' s = 0 ∧ '\n' ∉ s) ∨
    (form = .literalLines ∧ (∀ c ∈ s, needsEscape c = false) ∧ longestRun '\'' s ≤ 2) := by
  simp only [formOf] at h
  split at h
  · exact .inl h.symm
  split at h
  · next hliteral =>
    exact .inr (.inr (.inl ⟨h.symm, by simpa [and_assoc] using hliteral⟩))
  split at h
  · exact .inr (.inl h.symm)
  split at h
  · next hliteral => exact .inr (.inr (.inr ⟨h.symm, by simpa using hliteral⟩))
  split at h
  · exact .inr (.inl h.symm)
  · exact .inl h.symm

/-- Without two more quotes behind its quote a text has one line. -/
theorem readText_of_line {quote : Char} {s : List Char} (h : ∀ t, s ≠ quote :: quote :: t) :
    readText (quote :: s) = readLineText (quote :: s) := by
  unfold readText
  split
  · next t heq =>
    cases heq
    exact absurd rfl (h t)
  · next t heq =>
    cases heq
    exact absurd rfl (h t)
  · rfl

/-- A text between double quotes is read back. -/
theorem readText_basic (s : List Char) {rest : List Char} (hrest : rest.head? ≠ some '"') :
    readText ('"' :: (escapeAll false 0 0 s ++ '"' :: rest)) = some (String.ofList s, rest) := by
  rw [readText_of_line]
  · rw [readLineText, basicBody_escapeAll s]
    · rfl
    · have hlength := length_le_escapeAll false 0 0 s
      rw [List.length_append]
      omega
  · intro t heq
    cases s with
    | nil =>
      cases heq
      exact hrest rfl
    | cons c s =>
      rcases exists_escapeAll_eq c s with ⟨d, body, hbody, hd⟩
      rw [hbody] at heq
      exact hd (List.cons.inj heq).1

/-- A text between single quotes is read back. -/
theorem readText_literal {s : List Char} (hplain : ∀ c ∈ s, isPlain c = true)
    (hquote : '\'' ∉ s) {rest : List Char} (hrest : rest.head? ≠ some '\'') :
    readText ('\'' :: (s ++ '\'' :: rest)) = some (String.ofList s, rest) := by
  rw [readText_of_line]
  · rw [readLineText, literalBody_append hplain hquote]
    rfl
  · intro t heq
    cases s with
    | nil =>
      cases heq
      exact hrest rfl
    | cons c s => exact hquote ((List.cons.inj heq).1 ▸ List.mem_cons_self ..)

/-- A text over several lines is read back. -/
theorem readMultiline_spells {quote : Char} {escapes : Bool} {text spelled : List Char}
    (h : Spells quote escapes 0 text spelled) {rest : List Char}
    (hrest : rest.head? ≠ some quote) :
    readMultiline quote escapes ('\n' :: (spelled ++ (List.replicate 3 quote ++ rest))) =
      some (String.ofList text, rest) := by
  have hread := h.multilineBody (by omega) hrest _ (Nat.lt_succ_self _)
  exact congrArg (Option.map fun p => (String.ofList p.1, p.2)) hread

/-- A text is read back, if no quote follows it. -/
theorem readText_writeText (text : String) {rest : List Char} (hdouble : rest.head? ≠ some '"')
    (hsingle : rest.head? ≠ some '\'') :
    readText ((writeText text).toList ++ rest) = some (text, rest) := by
  have htext : String.ofList text.toList = text := String.ofList_toList
  generalize hform : formOf text.toList = form
  rcases formOf_cases hform with rfl | rfl | ⟨rfl, hplain, hquote, hline⟩ | ⟨rfl, hplain, hquote⟩
  · have hread := readText_basic text.toList hdouble
    rw [htext] at hread
    simpa [writeText, hform] using hread
  · have hread := readMultiline_spells (spells_escapeAll text.toList 0) hdouble
    rw [htext] at hread
    simpa [writeText, hform, readText] using hread
  · have hread := readText_literal (fun c hc => ?_) (not_mem_of_longestRun hquote) hsingle
    · rw [htext] at hread
      simpa [writeText, hform] using hread
    · exact (plain_or_newline (hplain c hc)).resolve_right fun heq => hline (heq ▸ hc)
  · have hspells : Spells '\'' false 0 text.toList text.toList :=
      @spells_self text.toList hplain (0, 0) hquote
    have hread := readMultiline_spells hspells hsingle
    rw [htext] at hread
    simpa [writeText, hform, readText] using hread

end Toml
end Formulary
