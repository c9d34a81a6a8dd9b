import Formulary.Proofs.Pattern.Embedding
import Formulary.Proofs.Pattern.Execution
import Formulary.Variable.Resolver

/-!
# Variables that match whole names

The pattern of a variable is put between the two ends of a text.  If it is a pattern of its
own, whatever it finds begins at the beginning of the name and ends at its end: the variable
has no name of which only a part matches.  A text that is no pattern of its own, such as
`a)|(?:b`, may leave its group, and then the variable has names of which the pattern matches
only a part.

Main results:

- Theorem `search_anchored`: a pattern between the ends of a text finds the whole text.
- Theorem `PatternVariable.find?_whole`: what a variable finds in a name that it has.
-/

namespace Formulary

namespace Shape

/-- The instructions of a shape between the ends of a text. -/
theorem program_anchored {s : Shape} {k : Nat} {i : Instruction}
    (h : (Pattern.anchoredShape s).program.toArray[k]? = some i) :
    (k = 0 ∧ i = .require .textStart) ∨
    (0 < k ∧ k ≤ (s.code 1).length ∧ i.Within ((s.code 1).length + 1)) ∨
    (k = (s.code 1).length + 1 ∧ i = .require .textEnd) ∨
    (k = (s.code 1).length + 2 ∧ i = .accept) := by
  have hprogram : (Pattern.anchoredShape s).program =
      .require .textStart :: (s.code 1 ++ [.require .textEnd, .accept]) := by
    simp [Pattern.anchoredShape, program, code]
  rw [hprogram, List.getElem?_toArray] at h
  cases k with
  | zero =>
    simp at h
    simp [h]
  | succ k =>
    rw [List.getElem?_cons_succ] at h
    by_cases hk : k < (s.code 1).length
    · rw [List.getElem?_append_left hk] at h
      have hwithin := s.confined_code 1 i (List.mem_of_getElem? h)
      rw [Nat.add_comm] at hwithin
      exact .inr (.inl ⟨by omega, hk, hwithin⟩)
    · rw [List.getElem?_append_right (by omega)] at h
      cases hbehind : k - (s.code 1).length with
      | zero =>
        rw [hbehind] at h
        cases h
        exact .inr (.inr (.inl ⟨by omega, rfl⟩))
      | succ m =>
        rw [hbehind] at h
        cases m with
        | zero =>
          cases h
          exact .inr (.inr (.inr ⟨by omega, rfl⟩))
        | succ m => cases h

/-- What neither asks for an end of the text nor accepts stands between the ends. -/
theorem within_of_program_anchored {s : Shape} {k : Nat} {i : Instruction}
    (h : (Pattern.anchoredShape s).program.toArray[k]? = some i)
    (hrequire : ∀ condition, i ≠ .require condition) (haccept : i ≠ .accept) :
    0 < k ∧ k ≤ (s.code 1).length ∧ i.Within ((s.code 1).length + 1) := by
  obtain ⟨-, hi⟩ | hmiddle | ⟨-, hi⟩ | ⟨-, hi⟩ := program_anchored h
  · exact absurd hi (hrequire _)
  · exact hmiddle
  · exact absurd hi (hrequire _)
  · exact absurd hi haccept

end Shape

/-! ## Threads between the ends of a text -/

/-- The place behind the next character is as far from the end of the text. -/
theorem Place.position_next (p : Place) :
    p.next.position + p.next.rest.length = p.position + p.rest.length := by
  unfold next
  split
  · rfl
  · next c rest hrest =>
    rw [hrest]
    simp only [List.length_cons]
    omega

namespace Thread

/-- A thread that has begun at a place: it has passed the first anchor only at the beginning
of the text, and the last one, behind `n` instructions, only at its end. -/
structure Between (n : Nat) (p : Place) (t : Thread) : Prop where
  length : t.place.position + t.place.rest.length = p.position + p.rest.length
  begun : (t.counter = 0 ∧ t.place = p) ∨ p.before = none
  ended : t.counter ≤ n + 1 ∨ t.place.rest = []

/-- A thread behind the first anchor has begun at the beginning of the text. -/
theorem Between.before_eq_none {n : Nat} {p : Place} {t : Thread} (h : t.Between n p)
    (hpos : 0 < t.counter) : p.before = none := by
  rcases h.begun with ⟨hzero, -⟩ | hbefore
  · omega
  · exact hbefore

/-- A step in the middle leads no further than to the last anchor. -/
theorem Between.step_inside {n : Nat} {p : Place} {t t' : Thread} (h : t.Between n p)
    (hpos : 0 < t.counter) (hcounter : t'.counter ≤ n + 1)
    (hplace : t'.place = t.place ∨ t'.place = t.place.next) : t'.Between n p where
  length := by
    rcases hplace with heq | heq <;> rw [heq]
    · exact h.length
    · exact (Place.position_next _).trans h.length
  begun := .inr (h.before_eq_none hpos)
  ended := .inl hcounter

/-- Every step keeps a thread between the anchors. -/
theorem kept_between (s : Shape) (p : Place) :
    Kept (Pattern.anchoredShape s).program.toArray (Between (s.code 1).length p) := by
  intro t t' ht hstep
  cases hstep with
  | take hat hrest =>
    obtain ⟨hpos, hle, -⟩ := Shape.within_of_program_anchored hat (by simp) (by simp)
    exact ht.step_inside hpos (Nat.succ_le_succ hle) (.inr rfl)
  | require hat hholds =>
    obtain ⟨hzero, hi⟩ | ⟨hpos, hle, -⟩ | ⟨hlast, hi⟩ | ⟨-, hi⟩ := Shape.program_anchored hat
    · -- The first anchor holds only where no character comes before.
      cases hi
      refine ⟨ht.length, .inr ?_, .inl ?_⟩
      · rcases ht.begun with ⟨-, hplace⟩ | hbefore
        · rw [← hplace]
          exact Option.isNone_iff_eq_none.1 hholds
        · exact hbefore
      · simp only
        omega
    · exact ht.step_inside hpos (Nat.succ_le_succ hle) (.inl rfl)
    · -- The last anchor holds only where no character comes behind.
      cases hi
      refine ⟨ht.length, .inr (ht.before_eq_none (by omega)), .inr ?_⟩
      exact List.head?_eq_none_iff.1 (Option.isNone_iff_eq_none.1 hholds)
    · cases hi
  | mark hat =>
    obtain ⟨hpos, hle, -⟩ := Shape.within_of_program_anchored hat (by simp) (by simp)
    exact ht.step_inside hpos (Nat.succ_le_succ hle) (.inl rfl)
  | jump hat =>
    obtain ⟨hpos, -, hwithin⟩ := Shape.within_of_program_anchored hat (by simp) (by simp)
    exact ht.step_inside hpos hwithin (.inl rfl)
  | first hat =>
    obtain ⟨hpos, -, hwithin⟩ := Shape.within_of_program_anchored hat (by simp) (by simp)
    exact ht.step_inside hpos hwithin.1 (.inl rfl)
  | second hat =>
    obtain ⟨hpos, -, hwithin⟩ := Shape.within_of_program_anchored hat (by simp) (by simp)
    exact ht.step_inside hpos hwithin.2 (.inl rfl)

end Thread

namespace Pattern

/-- A pattern between the ends of a text finds the whole text. -/
theorem search_anchored {s : Shape} {text : List Char} {first : Nat} {t : Thread}
    (h : search (anchoredShape s).program.toArray 0 none text = some (first, t)) :
    first = 0 ∧ t.place.position = text.length := by
  obtain ⟨p, hp, hfirst, hbegins⟩ := search_begins h
  obtain ⟨ht, hat⟩ := runFrom_invariant (Thread.kept_between s p)
    ⟨rfl, .inl ⟨rfl, rfl⟩, .inl (Nat.zero_le _)⟩ hp
  obtain ⟨-, hi⟩ | ⟨-, -, hwithin⟩ | ⟨-, hi⟩ | ⟨hlast, -⟩ := Shape.program_anchored hat
  · cases hi
  · exact hwithin.elim
  · cases hi
  · have hbefore := ht.before_eq_none (by omega)
    have hrest : t.place.rest = [] := ht.ended.resolve_left (by omega)
    have hplace : p = ⟨0, none, text⟩ := hbegins.resolve_right fun hne => hne hbefore
    have hlength := ht.length
    rw [hplace, hrest] at hlength
    simp at hlength
    rw [hplace] at hfirst
    exact ⟨hfirst, hlength⟩

/-- What a pattern finds between the ends of a text is the text. -/
theorem whole_of_find? {p : Pattern} {s : Shape} (hshape : p.shape = anchoredShape s)
    {text : String} {c : Captures} (h : p.find? text = some c) : c.whole = text := by
  unfold find? at h
  rw [hshape] at h
  obtain ⟨⟨first, t⟩, hsearch, rfl⟩ := Option.map_eq_some_iff.1 h
  obtain ⟨rfl, hlast⟩ := search_anchored hsearch
  simp [slice, hlast]

end Pattern

namespace PatternVariable

/-- The variable has been made from a pattern, with a binder of its own or with one that
reads an element of its context value. -/
inductive MadeFrom (source : String) (v : PatternVariable) : Prop
  | withBinder {displayName contextKey : String} {binder : Captures → Except FormulaError Expr}
      (h : withBinder displayName source contextKey binder = .ok v)
  | make {displayName contextKey : String} {mode : BindMode}
      (h : make displayName source contextKey mode = .ok v)

/-- The pattern of a variable is its source between the ends of a text. -/
theorem MadeFrom.readAnchored {source : String} {v : PatternVariable} (h : v.MadeFrom source) :
    Pattern.readAnchored source = .ok v.pattern := by
  cases h with
  | withBinder h =>
    obtain ⟨pattern, hpattern, rfl⟩ := withBinder_eq_ok_iff.1 h
    exact hpattern
  | make h =>
    obtain ⟨binder, hbinder, -⟩ := exists_withBinder_of_make h
    obtain ⟨pattern, hpattern, rfl⟩ := withBinder_eq_ok_iff.1 hbinder
    exact hpattern

/-- If the source of a variable is a pattern of its own, the variable finds the whole of each
name that it has, and this is what its binder is given. -/
theorem find?_whole {source : String} {v : PatternVariable} {own : Pattern}
    (hmade : v.MadeFrom source) (hown : Pattern.read source = .ok own) {ident : String}
    (haccepts : v.accepts ident = true) :
    ∃ c, v.pattern.find? ident = some c ∧ c.whole = ident ∧ v.bind ident = v.binder c := by
  obtain ⟨c, hc⟩ := Option.isSome_iff_exists.1 haccepts
  have hshape := Pattern.shape_of_readAnchored hown hmade.readAnchored
  exact ⟨c, hc, Pattern.whole_of_find? hshape hc, by rw [bind, hc]⟩

/-- The pattern `a|ab`, which by itself finds only the first letter of `ab`. -/
def shorterFirst : Pattern :=
  ⟨"a|ab", .either (.one (.single 'a')) (.both (.one (.single 'a')) (.one (.single 'b')))⟩

/-- The variable of the pattern `a|ab`. -/
def shorterFirstVariable : PatternVariable :=
  ⟨"A", ⟨"^(?:a|ab)$", Pattern.anchoredShape shorterFirst.shape⟩, "source", bindKey "source"⟩

theorem find?_whole_shorterFirst :
    shorterFirstVariable.MadeFrom "a|ab" ∧ Pattern.read "a|ab" = .ok shorterFirst ∧
      shorterFirstVariable.accepts "ab" = true ∧
      (shorterFirst.find? "ab").map Captures.whole = some "a" ∧
      ∃ c, shorterFirstVariable.pattern.find? "ab" = some c ∧ c.whole = "ab" ∧
        shorterFirstVariable.bind "ab" = shorterFirstVariable.binder c := by
  have hmade : shorterFirstVariable.MadeFrom "a|ab" := by
    have h : make "A" "a|ab" "source" .key = .ok shorterFirstVariable := by rfl
    exact .make h
  have hown : Pattern.read "a|ab" = .ok shorterFirst := by rfl
  have haccepts : shorterFirstVariable.accepts "ab" = true := by decide +kernel
  have halone : (shorterFirst.find? "ab").map Captures.whole = some "a" := by decide +kernel
  exact ⟨hmade, hown, haccepts, halone, find?_whole hmade hown haccepts⟩

/-- A source that is no pattern of its own may leave its group: the variable finds a part of a
name that it has. -/
example : ((make "A" "a)|(?:b" "source" .key).toOption.bind fun v => v.pattern.find? "ax").map
    Captures.whole = some "a" := by
  decide +kernel

end PatternVariable
end Formulary
