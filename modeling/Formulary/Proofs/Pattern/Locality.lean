import Formulary.Pattern.Matching
import Formulary.Proofs.Result
import Mathlib.Data.List.TakeWhile

/-!
# Parts of patterns before a parenthesis

No part of a pattern reaches over a parenthesis that closes behind it: escapes, sets,
repetitions and the heads of groups are read from a text as they are read where `)` and
more follow.  What takes fuel is also read with more of it.

Main definitions:

- `Local`: a reader does not look behind a closing parenthesis.
- `LocalWithin`: nor does a reader with fuel, however much more it has.

Main results:

- Theorems `local_readTurns`, `local_readGroupHead`, `local_readEscape` and
  `local_readRange`: the parts in question.
- Theorem `localWithin_sets`: sets in brackets, with the sets inside.
-/

namespace Formulary

/-! ## Text before a parenthesis -/

section Stops

variable {p : Char → Bool} {c : Char} (hc : p c = false)

include hc

/-- A run of characters ends before a character that is not of the kind. -/
theorem takeWhile_append_stop (s more : List Char) :
    (s ++ c :: more).takeWhile p = s.takeWhile p := by
  induction s with
  | nil => simp [hc]
  | cons d s ih => by_cases hd : p d = true <;> simp [hd, ih]

/-- A run of characters ends where it did, whatever follows its end. -/
theorem dropWhile_append_stop (s more : List Char) :
    (s ++ c :: more).dropWhile p = s.dropWhile p ++ c :: more := by
  induction s with
  | nil => simp [hc]
  | cons d s ih => by_cases hd : p d = true <;> simp [hd, ih]

end Stops

/-- A run of characters that ends within a text ends there before other characters too. -/
theorem takeWhile_append_of_dropWhile {p : Char → Bool} {s rest : List Char} {c : Char}
    (h : s.dropWhile p = c :: rest) (more : List Char) :
    (s ++ more).takeWhile p = s.takeWhile p ∧ (s ++ more).dropWhile p = c :: rest ++ more := by
  induction s with
  | nil => cases h
  | cons d s ih =>
    by_cases hd : p d = true
    · rw [List.dropWhile_cons_of_pos hd] at h
      simp [hd, ih h]
    · rw [List.dropWhile_cons_of_neg hd] at h
      simp [hd, ← h]

/-- What is left behind a run of characters. -/
theorem drop_length_takeWhile (p : Char → Bool) (s : List Char) :
    s.drop (s.takeWhile p).length = s.dropWhile p := by
  induction s with
  | nil => rfl
  | cons c s ih => by_cases hc : p c = true <;> simp [hc, ih]

namespace Pattern

/-- What is read from a text is also read where a parenthesis closes behind the text. -/
def Local {α : Type} (read : List Char → Except PatternError (α × List Char)) : Prop :=
  ∀ {s rest : List Char} {a : α}, read s = .ok (a, rest) →
    ∀ more, read (s ++ ')' :: more) = .ok (a, rest ++ ')' :: more)

/-! ## Repetition -/

/-- Blanks are trimmed without looking behind a bracket. -/
theorem trimStart_append_close (s more : List Char) :
    Text.trimStart (s ++ ')' :: more) = Text.trimStart s ++ ')' :: more :=
  dropWhile_append_stop (by decide) s more

/-- Digits are taken without looking behind a bracket. -/
theorem takeDigits_append_close (s more : List Char) :
    Decimal.takeDigits (s ++ ')' :: more) =
      ((Decimal.takeDigits s).1, (Decimal.takeDigits s).2 ++ ')' :: more) := by
  rw [Decimal.takeDigits, takeWhile_append_stop (by decide), dropWhile_append_stop (by decide)]
  simp only [Decimal.takeDigits]

/-- A count is read without looking behind a bracket. -/
theorem local_readCount : Local readCount := by
  intro s rest n h more
  unfold readCount at h ⊢
  rw [trimStart_append_close, takeDigits_append_close]
  simp only at h ⊢
  split at h
  · cases h
  · next hcount =>
    rw [if_neg hcount, trimStart_append_close]
    cases h
    rfl

/-- A text that does not begin with some characters does not begin with them before a
parenthesis either. -/
theorem not_begins_append_close (front : List Char) (hfront : ')' ∉ front) {s : List Char}
    (h : ∀ rest, s = front ++ rest → False) (more : List Char) :
    ∀ rest, s ++ ')' :: more = front ++ rest → False := by
  intro rest heq
  rcases List.append_eq_append_iff.1 heq with ⟨a, ha, hclose⟩ | ⟨a, ha, -⟩
  · cases a with
    | nil => exact h [] (by rw [ha, List.append_nil, List.append_nil])
    | cons c a =>
      rw [(List.cons.inj hclose).1, ha] at hfront
      exact hfront (by simp)
  · exact h a ha

theorem local_readTurns : Local readTurns := by
  intro s rest turns h more
  unfold readTurns at h ⊢
  split at h
  · cases h
  · next hcount =>
    cases h
    rw [local_readCount hcount]
    simp
  · next hcount =>
    cases h
    rw [local_readCount hcount]
    simp
  · next least after hne hcount =>
    have hbrace : ∀ rest, after ++ ')' :: more = '\x7d' :: rest → False :=
      not_begins_append_close ['\x7d'] (by decide) hne more
    rw [local_readCount hcount]
    simp only [List.cons_append]
    split at h
    · next hcount =>
      rw [local_readCount hcount]
      split at h
      · next hle =>
        cases h
        simp [hle]
      · cases h
    · cases h
    · cases h
  · cases h

theorem readGreed_append_close (f : PatternFlags) (s more : List Char) :
    readGreed f (s ++ ')' :: more) = ((readGreed f s).1, (readGreed f s).2 ++ ')' :: more) := by
  cases s with
  | nil => simp [readGreed]
  | cons c s => by_cases hc : c = '?' <;> simp [readGreed, hc]

theorem local_readRepetition (d : Draft) (turns : Turns) : Local (readRepetition d turns) := by
  intro s rest d' h more
  unfold readRepetition at h ⊢
  rw [readGreed_append_close]
  simp only at h ⊢
  obtain ⟨repeated, hd, heq⟩ := map_eq_ok_iff.1 h
  cases heq
  exact map_eq_ok_iff.2 ⟨_, hd, rfl⟩

/-! ## Groups -/

theorem local_readFlags (f : PatternFlags) (value : Bool) (seen : List Char) :
    Local (readFlags f value seen) := by
  intro s rest head h more
  fun_induction readFlags f value seen s with
  | case1 | case2 | case4 | case7 | case8 | case10 => cases h
  | case3 f value seen rest hseen =>
    cases h
    simp [readFlags, hseen]
  | case5 f value seen rest hseen =>
    cases h
    simp [readFlags, hseen]
  | case6 f seen rest ih =>
    simp [readFlags, ih h]
  | case9 f value seen c rest hcolon hclose hminus f' hset hseen ih =>
    simp [readFlags, hset, hseen, ih h]

theorem local_readGroupName : Local readGroupName := by
  intro s rest head h more
  have hclose : continuesName ')' = false := by decide +kernel
  unfold readGroupName at h ⊢
  simp only [drop_length_takeWhile] at h ⊢
  rw [takeWhile_append_stop hclose, dropWhile_append_stop hclose]
  split at h
  · next after heq =>
    rw [heq]
    split at h
    · next hname =>
      cases h
      simp [hname]
    · cases h
  · cases h

theorem local_readGroupHead (f : PatternFlags) : Local (readGroupHead f) := by
  intro s rest head h more
  fun_cases readGroupHead f s with
  | case1 s => exact local_readGroupName h more
  | case2 | case3 => cases h
  | case4 s hlook hbehind =>
    have hnotLook : ∀ rest, s ++ ')' :: more = '=' :: rest → False :=
      not_begins_append_close ['='] (by decide) hlook more
    have hnotBehind : ∀ rest, s ++ ')' :: more = '!' :: rest → False :=
      not_begins_append_close ['!'] (by decide) hbehind more
    simp only [readGroupHead, List.cons_append] at h ⊢
    exact local_readGroupName h more
  | case5 s hnamed hlook hbehind hangle =>
    have hnotNamed : ∀ rest, s ++ ')' :: more = 'P' :: '<' :: rest → False :=
      not_begins_append_close ['P', '<'] (by decide) hnamed more
    have hnotLook : ∀ rest, s ++ ')' :: more = '<' :: '=' :: rest → False :=
      not_begins_append_close ['<', '='] (by decide) hlook more
    have hnotBehind : ∀ rest, s ++ ')' :: more = '<' :: '!' :: rest → False :=
      not_begins_append_close ['<', '!'] (by decide) hbehind more
    have hnotAngle : ∀ rest, s ++ ')' :: more = '<' :: rest → False :=
      not_begins_append_close ['<'] (by decide) hangle more
    simp only [readGroupHead, List.cons_append] at h ⊢
    exact local_readFlags f true [] h more
  | case6 s hnamed hlook hbehind hangle hmark =>
    cases s with
    | nil =>
      cases h
      simp [readGroupHead]
    | cons c s =>
      have hc : c ≠ '?' := fun hc => hmark s (by rw [hc])
      have hhead : ∀ s, readGroupHead f (c :: s) = .ok (.capturing none, c :: s) := by
        intro s
        simp [readGroupHead, hc]
      rw [hhead] at h
      cases h
      exact hhead _

/-! ## Escapes -/

/-- A hexadecimal number is read up to its last digit. -/
theorem hexNumber?_append {count n m : Nat} {s rest : List Char}
    (h : Text.hexNumber? count n s = some (m, rest)) (more : List Char) :
    Text.hexNumber? count n (s ++ more) = some (m, rest ++ more) := by
  fun_induction Text.hexNumber? count n s with
  | case1 n s =>
    cases h
    rw [Text.hexNumber?]
  | case2 => cases h
  | case3 count n c s ih =>
    rw [List.cons_append, Text.hexNumber?]
    cases hdigit : Text.hexValue? c with
    | none =>
      rw [hdigit] at h
      cases h
    | some digit =>
      rw [hdigit] at h
      exact ih digit h

theorem charOf_map_eq_ok {n : Nat} {s rest : List Char} {escape : Escape}
    (h : (charOf n).map (fun e => (e, s)) = .ok (escape, rest)) (more : List Char) :
    (charOf n).map (fun e => (e, s ++ more)) = .ok (escape, rest ++ more) := by
  obtain ⟨e, hchar, heq⟩ := map_eq_ok_iff.1 h
  cases heq
  exact map_eq_ok_iff.2 ⟨_, hchar, rfl⟩

theorem local_readCodePoint (count : Nat) : Local (readCodePoint count) := by
  intro s rest escape h more
  unfold readCodePoint at h ⊢
  split at h
  · next s =>
    simp only [List.cons_append, drop_length_takeWhile] at h ⊢
    split at h
    · next hdrop hnumber =>
      obtain ⟨htake, hrest⟩ := takeWhile_append_of_dropWhile hdrop (')' :: more)
      rw [htake, hrest, hnumber]
      split at h
      · cases h
      · next hdigits =>
        simp only [List.cons_append]
        rw [if_neg hdigits]
        exact charOf_map_eq_ok h (')' :: more)
    · cases h
  · next hbrace =>
    have hnotBrace : ∀ rest, s ++ ')' :: more = '\x7b' :: rest → False :=
      not_begins_append_close ['\x7b'] (by decide) hbrace more
    simp only
    split at h
    · next hnumber =>
      rw [hexNumber?_append hnumber]
      exact charOf_map_eq_ok h (')' :: more)
    · cases h

theorem local_readEdge : Local readEdge := by
  intro s rest escape h more
  unfold readEdge at h ⊢
  split at h
  · next s =>
    simp only [List.cons_append, drop_length_takeWhile] at h ⊢
    rw [takeWhile_append_stop (by decide), dropWhile_append_stop (by decide)]
    split at h
    · cases h
    · next hempty =>
      rw [if_neg (by simp)]
      split at h
      · next hname =>
        cases h
        rw [if_pos hname]
        simp
      · next hname =>
        rw [if_neg hname]
        split at h <;> cases h <;> simp_all
  · next hbrace =>
    have hnotBrace : ∀ rest, s ++ ')' :: more = '\x7b' :: rest → False :=
      not_begins_append_close ['\x7b'] (by decide) hbrace more
    cases h
    simp only

/-- An escape is read without looking behind a bracket. -/
theorem local_readEscape : Local readEscape := by
  intro s rest escape h more
  fun_cases readEscape s with
  | case1 => cases h
  | case14 s => exact local_readCodePoint 2 h more
  | case15 s => exact local_readCodePoint 4 h more
  | case16 s => exact local_readCodePoint 8 h more
  | case19 s => exact local_readEdge h more
  | case23 =>
    rename_i hescapable
    simp only [readEscape, List.cons_append, if_pos hescapable] at h ⊢
    cases h
    rfl
  | case24 =>
    rename_i hescapable
    simp [readEscape, hescapable] at h
  | _ =>
    cases h
    rfl

/-! ## Sets -/

theorem local_readMember : Local readMember := by
  intro s rest member h more
  cases s with
  | nil => cases h
  | cons c s =>
    rw [List.cons_append]
    by_cases hc : c = '\\'
    · subst hc
      rw [readMember] at h ⊢
      split at h
      · next hescape =>
        cases h
        rw [local_readEscape hescape]
      · next hescape =>
        cases h
        rw [local_readEscape hescape]
      · cases h
      · cases h
    · have hhead : ∀ s, readMember (c :: s) = .ok (.char c, s) := by
        intro s
        simp only [readMember]
      rw [hhead] at h ⊢
      cases h
      rfl

theorem local_readRange : Local readRange := by
  intro s rest set h more
  unfold readRange at h ⊢
  split at h
  · cases h
  · next first after hmember =>
    rw [local_readMember hmember]
    simp only at h ⊢
    split at h
    · cases h
      rfl
    · cases h
      rfl
    · next after hclose hminus =>
      have hnotClose : ∀ rest, after ++ ')' :: more = ']' :: rest → False :=
        not_begins_append_close [']'] (by decide) hclose more
      have hnotMinus : ∀ rest, after ++ ')' :: more = '-' :: rest → False :=
        not_begins_append_close ['-'] (by decide) hminus more
      split at h
      · cases h
      · next last behind hlast =>
        simp only [List.cons_append]
        rw [local_readMember hlast]
        simp only
        split at h
        · split at h
          · next hle =>
            cases h
            rw [if_pos hle]
          · cases h
        · cases h
    · next hclose hjoin hminus =>
      have hnotMinus : ∀ rest, after ++ ')' :: more = '-' :: rest → False :=
        not_begins_append_close ['-'] (by decide) hminus more
      have hnotClose : ∀ rest, after ++ ')' :: more = '-' :: ']' :: rest → False :=
        fun rest heq => hnotMinus _ heq
      have hnotJoin : ∀ rest, after ++ ')' :: more = '-' :: '-' :: rest → False :=
        fun rest heq => hnotMinus _ heq
      cases h
      simp only

/-- Names of classes have no parentheses. -/
theorem not_mem_of_namedClass? {name : String} {set : CharSet}
    (h : namedClass? name = some set) : ')' ∉ name.toList := by
  unfold namedClass? at h
  split at h
  case h_15 => cases h
  all_goals decide

/-- The class of the name at the front of a text, complemented or not. -/
def classBehind? (negated : Bool) (s : List Char) : Option (CharSet × List Char) :=
  match s.dropWhile (· != ':'), namedClass? (String.ofList (s.takeWhile (· != ':'))) with
  | ':' :: ']' :: rest, some set => some (if negated then .complement set else set, rest)
  | _, _ => none

/-- A named class may begin with the sign of a complement. -/
theorem readNamedClass?_complement (s : List Char) :
    readNamedClass? (':' :: '^' :: s) = classBehind? true s := by
  simp only [readNamedClass?, drop_length_takeWhile]
  rfl

theorem readNamedClass?_plain {s : List Char} (h : ∀ rest, s = '^' :: rest → False) :
    readNamedClass? (':' :: s) = classBehind? false s := by
  simp only [readNamedClass?, drop_length_takeWhile]
  rfl

/-- A named class is read without looking behind a bracket. -/
theorem classBehind?_append_close (negated : Bool) (s more : List Char) :
    classBehind? negated (s ++ ')' :: more) =
      (classBehind? negated s).map fun (set, rest) => (set, rest ++ ')' :: more) := by
  cases hdrop : s.dropWhile (· != ':') with
  | nil =>
    -- Without a colon the name goes on over the parenthesis, and no class has such a name.
    have hcolon : ∀ c ∈ s, (c != ':') = true := List.dropWhile_eq_nil_iff.1 hdrop
    have hname : namedClass? (String.ofList ((s ++ ')' :: more).takeWhile (· != ':'))) = none := by
      rw [List.takeWhile_append_of_pos hcolon, List.takeWhile_cons_of_pos (by decide)]
      refine Option.eq_none_iff_forall_ne_some.2 fun set hset => ?_
      have hclose := not_mem_of_namedClass? hset
      simp at hclose
    rw [classBehind?, classBehind?, hname, hdrop]
    simp
  | cons c rest =>
    obtain ⟨htake, hrest⟩ := takeWhile_append_of_dropWhile hdrop (')' :: more)
    rw [classBehind?, classBehind?, htake, hrest, hdrop]
    cases namedClass? (String.ofList (s.takeWhile (· != ':'))) with
    | none => simp
    | some set =>
      cases rest with
      | nil => simp
      | cons d rest =>
        by_cases hc : c = ':' <;> by_cases hd : d = ']' <;> simp [hc, hd]

/-- A class is read, or not, whether or not a parenthesis closes behind it. -/
theorem readNamedClass?_append_close (s more : List Char) :
    readNamedClass? (s ++ ')' :: more) =
      (readNamedClass? s).map fun (set, rest) => (set, rest ++ ')' :: more) := by
  cases s with
  | nil => simp [readNamedClass?]
  | cons c s =>
    rw [List.cons_append]
    by_cases hc : c = ':'
    · subst hc
      by_cases hcomplement : ∃ rest, s = '^' :: rest
      · obtain ⟨s, rfl⟩ := hcomplement
        rw [readNamedClass?_complement, List.cons_append, readNamedClass?_complement,
          classBehind?_append_close]
      · have hplain : ∀ rest, s = '^' :: rest → False :=
          fun rest heq => hcomplement ⟨rest, heq⟩
        rw [readNamedClass?_plain hplain, ← classBehind?_append_close, readNamedClass?_plain]
        exact not_begins_append_close ['^'] (by decide) hplain more
    · simp [readNamedClass?, hc]

/-- What is read with some fuel is also read with more fuel, and where a parenthesis closes
behind the text. -/
def LocalWithin {α : Type} (read : Nat → List Char → Except PatternError (α × List Char))
    (fuel : Nat) : Prop :=
  ∀ {s rest : List Char} {a : α}, read fuel s = .ok (a, rest) → ∀ more fuel', fuel ≤ fuel' →
    read fuel' (s ++ ')' :: more) = .ok (a, rest ++ ')' :: more)

/-- The members at the front of a set that have no meaning of their own there, and the rest. -/
def setFront (s : List Char) : CharSet × List Char :=
  let dashes := s.takeWhile (· == '-')
  let s := s.dropWhile (· == '-')
  let start : CharSet := if dashes.isEmpty then .none else .single '-'
  match s with
  | ']' :: rest => if dashes.isEmpty then (.single ']', rest) else (start, s)
  | _ => (start, s)

theorem setFront_append_close (s more : List Char) :
    setFront (s ++ ')' :: more) = ((setFront s).1, (setFront s).2 ++ ')' :: more) := by
  rw [setFront, setFront, takeWhile_append_stop (by decide), dropWhile_append_stop (by decide)]
  cases hrest : s.dropWhile (· == '-') with
  | nil => simp
  | cons c rest =>
    by_cases hc : c = ']'
    · by_cases hdashes : (s.takeWhile (· == '-')).isEmpty = true <;> simp [hc, hdashes]
    · simp [hc]

/-- Reads a set behind its circumflex, if it has one. -/
def readSetBody (fuel : Nat) (f : PatternFlags) (negated : Bool) (s : List Char) :
    Except PatternError (CharSet × List Char) :=
  match readMembers fuel f ⟨none, (setFront s).1⟩ (setFront s).2 with
  | .ok (set, rest) => .ok (if negated then .complement set else set, rest)
  | .error e => .error e

/-- A set may begin with the sign of a complement. -/
theorem readSet_complement (fuel : Nat) (f : PatternFlags) (s : List Char) :
    readSet (fuel + 1) f ('^' :: s) = readSetBody fuel f true s := by
  rw [readSet]
  rfl

theorem readSet_plain (fuel : Nat) (f : PatternFlags) {s : List Char}
    (h : ∀ rest, s = '^' :: rest → False) :
    readSet (fuel + 1) f s = readSetBody fuel f false s := by
  rw [readSet]
  · rfl
  · exact h

/-- A set is read without looking behind a bracket if its members are. -/
theorem localWithin_readSetBody {fuel : Nat} {f : PatternFlags}
    (h : ∀ d, LocalWithin (readMembers · f d) fuel) (negated : Bool) :
    LocalWithin (readSetBody · f negated) fuel := by
  intro s rest set hset more fuel' hfuel
  simp only [readSetBody] at hset ⊢
  rw [setFront_append_close]
  split at hset
  · next hmembers =>
    cases hset
    have hlonger := h _ hmembers more fuel' hfuel
    simp only at hlonger
    rw [hlonger]
  · cases hset

theorem localWithin_readSet {fuel : Nat} {f : PatternFlags}
    (h : ∀ d, LocalWithin (readMembers · f d) fuel) : LocalWithin (readSet · f) (fuel + 1) := by
  intro s rest set hset more fuel' hfuel
  obtain ⟨fuel', rfl⟩ : ∃ n, fuel' = n + 1 := ⟨fuel' - 1, by omega⟩
  simp only at hset ⊢
  by_cases hcomplement : ∃ rest, s = '^' :: rest
  · obtain ⟨s, rfl⟩ := hcomplement
    rw [readSet_complement] at hset
    rw [List.cons_append, readSet_complement]
    exact localWithin_readSetBody h true hset more fuel' (by omega)
  · have hplain : ∀ rest, s = '^' :: rest → False :=
      fun rest heq => hcomplement ⟨rest, heq⟩
    rw [readSet_plain _ _ hplain] at hset
    rw [readSet_plain _ _ (not_begins_append_close ['^'] (by decide) hplain more)]
    exact localWithin_readSetBody h false hset more fuel' (by omega)

/-- Members are read as they are read alone, if the sets inside are. -/
theorem localWithin_readMembers {fuel : Nat} {f : PatternFlags}
    (hset : LocalWithin (readSet · f) fuel) (h : ∀ d, LocalWithin (readMembers · f d) fuel)
    (d : SetDraft) : LocalWithin (readMembers · f d) (fuel + 1) := by
  intro s rest set hmembers more fuel' hfuel
  obtain ⟨fuel', rfl⟩ : ∃ n, fuel' = n + 1 := ⟨fuel' - 1, by omega⟩
  have hle : fuel ≤ fuel' := by omega
  simp only at hmembers ⊢
  rw [readMembers.eq_def] at hmembers
  simp only at hmembers
  split at hmembers
  · cases hmembers
  · cases hmembers
    simp only [readMembers, List.cons_append]
  · simp only [readMembers, List.cons_append]
    exact h _ hmembers more fuel' hle
  · simp only [readMembers, List.cons_append]
    exact h _ hmembers more fuel' hle
  · simp only [readMembers, List.cons_append]
    exact h _ hmembers more fuel' hle
  · simp only [readMembers, List.cons_append]
    rw [readNamedClass?_append_close]
    split at hmembers
    · next hclass =>
      rw [hclass]
      exact h _ hmembers more fuel' hle
    · next hclass =>
      rw [hclass]
      simp only [Option.map_none]
      split at hmembers
      · next hinner =>
        have hlonger := hset hinner more fuel' hle
        simp only at hlonger
        rw [hlonger]
        exact h _ hmembers more fuel' hle
      · cases hmembers
  · next hnil hclose hboth hwithout hone hopen =>
    have hnotNil : s ++ ')' :: more = [] → False := by simp
    have hnotClose : ∀ rest, s ++ ')' :: more = ']' :: rest → False :=
      not_begins_append_close [']'] (by decide) hclose more
    have hnotBoth : ∀ rest, s ++ ')' :: more = '&' :: '&' :: rest → False :=
      not_begins_append_close ['&', '&'] (by decide) hboth more
    have hnotWithout : ∀ rest, s ++ ')' :: more = '-' :: '-' :: rest → False :=
      not_begins_append_close ['-', '-'] (by decide) hwithout more
    have hnotOne : ∀ rest, s ++ ')' :: more = '~' :: '~' :: rest → False :=
      not_begins_append_close ['~', '~'] (by decide) hone more
    have hnotOpen : ∀ rest, s ++ ')' :: more = '[' :: rest → False :=
      not_begins_append_close ['['] (by decide) hopen more
    simp only [readMembers]
    split at hmembers
    · next hrange =>
      rw [local_readRange hrange]
      exact h _ hmembers more fuel' hle
    · cases hmembers

/-- Sets and their members are read as they are read alone. -/
theorem localWithin_sets (fuel : Nat) (f : PatternFlags) :
    LocalWithin (readSet · f) fuel ∧ ∀ d, LocalWithin (readMembers · f d) fuel := by
  induction fuel with
  | zero =>
    refine ⟨?_, fun d => ?_⟩ <;>
    · intro s rest set h
      simp [readSet, readMembers] at h
  | succ fuel ih =>
    exact ⟨localWithin_readSet ih.2, localWithin_readMembers ih.1 ih.2⟩

end Pattern
end Formulary
