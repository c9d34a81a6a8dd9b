import Formulary.Proofs.Grammar.Completeness
import Formulary.Proofs.Grammar.Shape
import Formulary.Proofs.Grammar.Soundness
import Mathlib.Logic.Function.Iterate

/-!
# The texts that are formulas

A text is read as a formula exactly if the grammar derives it without too many nesting
levels, and then the tree is the one that the grammar gives.  If the grammar derives it
only with more nesting levels, the error says so.

Main results:

- Theorem `parse_eq_ok_iff`: the texts that are formulas, and their trees.
- Theorem `parse_of_deep`: the texts that nest too deep.
- Theorem `parse_exact`: both in one statement.
-/

namespace Formulary
namespace Syntax

/-- Text without white space around it ends in no white space. -/
theorem eq_nil_of_trim_eq_append {s front rest : List Char}
    (h : Text.trim s = front ++ rest) (hrest : Text.trimStart rest = []) : rest = [] := by
  have hblank : ∀ c ∈ rest, Text.isBlank c = true := by
    simpa [Text.trimStart] using hrest
  have hreverse : (Text.trimStart s).reverse.dropWhile Text.isBlank =
      rest.reverse ++ front.reverse := by
    rw [← List.reverse_append, ← h, Text.trim, Text.trimEnd, List.reverse_reverse]
  have hhead := List.head?_dropWhile_not Text.isBlank (Text.trimStart s).reverse
  rw [hreverse] at hhead
  cases hr : rest.reverse with
  | nil => simpa using hr
  | cons c tail =>
    rw [hr] at hhead
    have hc := hblank c (by rw [← List.mem_reverse, hr]; exact List.mem_cons_self ..)
    simp [hc] at hhead

/-- White space between tokens counts as white space around a text. -/
theorem trimStart_eq_nil_of_tokenized {s : List Char} (h : Tokenized s []) :
    Text.trimStart s = [] := by
  have hspacing := tokenized_nil_iff.1 h
  rw [Text.skipSpacing, List.dropWhile_eq_nil_iff] at hspacing
  rw [Text.trimStart, List.dropWhile_eq_nil_iff]
  exact fun c hc => Text.isBlank_of_isSpacing (hspacing c hc)

/-- No derivation is of an empty text. -/
theorem ne_nil_of_derives {s : List Char} {ts : List Token} {l : Level} {n : Nat} {e : Expr}
    (hs : Tokenized s ts) (h : Derives l n ts e) : s ≠ [] := by
  rintro rfl
  rcases h.begins with ⟨t, us, rfl, -⟩
  rcases tokenized_cons_iff.1 hs with ⟨rest, hnext, -⟩
  cases hnext

/-- A derivation that opens any number of nesting levels is read, or goes past the
limit. -/
theorem formula_reads {s : List Char} {ts : List Token} {m : Nat} {e : Expr}
    (hs : Tokenized s ts) (h : Derives .disjunction m ts e) (n : Nat) :
    Reads (n < m) (formula n s) e [] := by
  refine h.completes n s [] ?_ (follows_nil _)
  rwa [List.append_nil]

/-- The texts that are formulas, and their trees. -/
theorem parse_eq_ok_iff {source : String} {e : Expr} :
    Expr.parse source = .ok e ↔
      ∃ ts, Tokenized (Text.trim source.toList) ts ∧ Derives .disjunction maxNesting ts e := by
  constructor
  · intro h
    simp only [Expr.parse] at h
    split at h
    · cases h
    · split at h
      · next e' rest hread =>
        split at h
        · next hempty =>
          cases h
          rcases sound_formula maxNesting _ _ _ hread with ⟨ts, hderives, hscans⟩
          rcases hscans.suffix with ⟨front, hsplit⟩
          have hrest := eq_nil_of_trim_eq_append hsplit (List.isEmpty_iff.1 hempty)
          subst hrest
          exact ⟨ts, hscans, hderives⟩
        · cases h
      · cases h
      · cases h
      · cases h
  · rintro ⟨ts, htokens, hderives⟩
    have hne := ne_nil_of_derives htokens hderives
    cases formula_reads htokens hderives maxNesting with
    | done hread hrest =>
      simp only [Expr.parse, hread, trimStart_eq_nil_of_tokenized hrest]
      rw [if_neg (by simpa using hne)]
      rfl
    | tooDeep hdeep => exact absurd hdeep (Nat.lt_irrefl _)

/-- The tree of a formula has the shape of parsed trees. -/
theorem shaped_of_parse {source : String} {e : Expr} (h : Expr.parse source = .ok e) :
    Expr.Everywhere Shaped e := by
  rcases parse_eq_ok_iff.1 h with ⟨ts, htokens, hderives⟩
  exact hderives.shaped (Scans.spelled htokens)

/-- The texts that nest too deep. -/
theorem parse_of_deep {source : String} {ts : List Token} {m : Nat} {e : Expr}
    (htokens : Tokenized (Text.trim source.toList) ts) (h : Derives .disjunction m ts e)
    (hdeep : ¬Derives .disjunction maxNesting ts e) :
    ∃ position, Expr.parse source = .error (.nestingTooDeep maxNesting position) := by
  have hne := ne_nil_of_derives htokens h
  cases formula_reads htokens h maxNesting with
  | done hread hrest =>
    rcases sound_formula maxNesting _ _ _ hread with ⟨us, hderives, hscans⟩
    have hsame : us ++ [] = ts := Tokenized.unique (hscans.append hrest) htokens
    rw [List.append_nil] at hsame
    exact absurd (hsame ▸ hderives) hdeep
  | tooDeep _ hread =>
    simp only [Expr.parse, hread]
    rw [if_neg (by simpa using hne)]
    exact ⟨_, rfl⟩

/-- A text is read as a formula exactly if the grammar derives it with at most
`maxNesting` nesting levels, with the tree of the derivation; if the grammar derives it
with more levels only, the error says so. -/
theorem parse_exact (source : String) :
    (∀ e, Expr.parse source = .ok e ↔
      ∃ ts, Tokenized (Text.trim source.toList) ts ∧ Derives .disjunction maxNesting ts e) ∧
    (∀ ts m e, Tokenized (Text.trim source.toList) ts → Derives .disjunction m ts e →
      ¬Derives .disjunction maxNesting ts e →
      ∃ position, Expr.parse source = .error (.nestingTooDeep maxNesting position)) :=
  ⟨fun _ => parse_eq_ok_iff, fun _ _ _ => parse_of_deep⟩

/-- Minus signs before a name, one token each. -/
theorem tokenized_minusSigns (n : Nat) :
    Tokenized (List.replicate n '-' ++ ['a'])
      (List.replicate n (.arith .sub) ++ [.word "a"]) := by
  induction n with
  | zero => exact tokenized_cons_iff.2 ⟨[], rfl, tokenized_nil_iff.2 rfl⟩
  | succ n ih =>
    rw [List.replicate_succ, List.replicate_succ]
    exact tokenized_cons_iff.2 ⟨_, rfl, ih⟩

/-- Minus signs before a name open one nesting level each. -/
theorem derives_minusSigns (n : Nat) :
    Derives .signed n (List.replicate n (.arith .sub) ++ [.word "a"])
      (negated^[n] (.name "a")) := by
  induction n with
  | zero => exact .ofPrimary (.name 0 (by decide))
  | succ n ih =>
    rw [List.replicate_succ, Function.iterate_succ_apply']
    exact .minus ih

/-- One minus sign more than the limit allows is derived, but not read. -/
theorem parse_exact_minusSigns :
    ∃ position, Expr.parse (String.ofList (List.replicate 33 '-' ++ ['a'])) =
      .error (.nestingTooDeep maxNesting position) := by
  have htokens : Tokenized
      (Text.trim (String.ofList (List.replicate 33 '-' ++ ['a'])).toList)
      (List.replicate 33 (.arith .sub) ++ [.word "a"]) := by
    rw [String.toList_ofList]
    exact tokenized_minusSigns 33
  apply (parse_exact _).2 _ 33 _ htokens ((derives_minusSigns 33).weaken (by decide))
  intro hderives
  have hread := parse_eq_ok_iff.2 ⟨_, htokens, hderives⟩
  have hdeep : Expr.parse (String.ofList (List.replicate 33 '-' ++ ['a'])) =
      .error (.nestingTooDeep 32 32) := rfl
  rw [hdeep] at hread
  cases hread

end Syntax
end Formulary
