import Formulary.Proofs.Pattern.Locality

/-!
# Patterns between the ends of a text

A text that is a pattern of its own stays this pattern when it is put into a group between
the two anchors of the ends: the group closes at the parenthesis put behind the text, and
not before.  Of other texts this does not hold, for a parenthesis in them may close the
group.

Main results:

- Theorem `readGroup_append_close`: a pattern is read as a group.
- Theorem `shape_of_readAnchored`: the shape of a pattern between the ends of a text.
-/

namespace Formulary
namespace Pattern

/-! ## Items -/

/-- An item is read without looking behind its end. -/
theorem local_readItem (d : Draft) (c : Char) : Local (readItem d c) := by
  intro s rest d' h more
  fun_cases readItem d c s with
  | case1 | case8 | case9 | case10 =>
    cases h
    rfl
  | case2 => exact local_readRepetition d ⟨0, none⟩ h more
  | case3 => exact local_readRepetition d ⟨1, none⟩ h more
  | case4 => exact local_readRepetition d ⟨0, some 1⟩ h more
  | case5 hitem turns behind hturns =>
    rw [readItem, if_pos hitem, hturns] at h
    rw [readItem, if_pos hitem, local_readTurns hturns]
    exact local_readRepetition d turns h more
  | case6 hitem e hturns =>
    rw [readItem, if_pos hitem, hturns] at h
    cases h
  | case7 hitem =>
    rw [readItem, if_neg hitem] at h
    cases h
  | case11 set behind hset =>
    have hlonger := (localWithin_sets _ _).1 hset more (2 * (s ++ ')' :: more).length + 2)
      (by simp only [List.length_append]; omega)
    simp only at hlonger
    rw [readItem, hset] at h
    rw [readItem, hlonger]
    cases h
    rfl
  | case12 e hset =>
    rw [readItem, hset] at h
    cases h
  | case13 c behind hescape | case14 set behind hescape | case15 a behind hescape =>
    rw [readItem, hescape] at h
    rw [readItem, local_readEscape hescape]
    cases h
    rfl
  | case16 e hescape =>
    rw [readItem, hescape] at h
    cases h
  | case17 =>
    simp only [readItem] at h ⊢
    cases h
    rfl

/-! ## Groups inside groups -/

/-- What is left behind a group that ends where a parenthesis closes behind the text. -/
def behindClose (top : Bool) (rest more : List Char) : List Char :=
  if top then more else rest ++ ')' :: more

/-- A group, or a whole pattern, is read as a group where a parenthesis closes behind the
text: a whole pattern ends at this parenthesis, a group at its own. -/
theorem readGroup_append_close {fuel : Nat} {top : Bool} {d d' : Draft} {s rest : List Char}
    (h : readGroup fuel top d s = .ok (d', rest)) (more : List Char) {fuel' : Nat}
    (hfuel : fuel ≤ fuel') :
    readGroup fuel' false d (s ++ ')' :: more) = .ok (d', behindClose top rest more) := by
  induction fuel generalizing top d s rest d' fuel' with
  | zero => cases h
  | succ fuel ih =>
    obtain ⟨fuel', rfl⟩ : ∃ n, fuel' = n + 1 := ⟨fuel' - 1, by omega⟩
    have hle : fuel ≤ fuel' := by omega
    rw [readGroup.eq_def] at h
    simp only at h
    split at h
    · -- The end of the text: only a whole pattern ends here.
      cases top with
      | false => cases h
      | true =>
        cases h
        simp [readGroup, behindClose]
    · cases top with
      | true => cases h
      | false =>
        cases h
        simp [readGroup, behindClose]
    · next s =>
      rw [List.cons_append, readGroup]
      split at h
      · cases h
      · next flags behind hhead =>
        rw [local_readGroupHead d.flags hhead]
        exact ih h hle
      · next flags behind hhead =>
        rw [local_readGroupHead d.flags hhead]
        simp only
        split at h
        · cases h
        · next inner behind hinner =>
          rw [ih hinner hle]
          exact ih h hle
      · next name behind hhead =>
        rw [local_readGroupHead d.flags hhead]
        simp only
        split at h
        · cases h
        · next hname =>
          rw [if_neg hname]
          split at h
          · cases h
          · next inner behind hinner =>
            rw [ih hinner hle]
            exact ih h hle
    · next c s hclose hopen =>
      rw [List.cons_append]
      simp only [readGroup]
      split at h
      · cases h
      · next hitem =>
        rw [local_readItem d c hitem]
        exact ih h hle

/-! ## Anchored patterns -/

/-- The shape of another one between the ends of a text. -/
def anchoredShape (s : Shape) : Shape :=
  .both (.anchor .textStart) (.both s (.anchor .textEnd))

/-- The characters of an anchored pattern. -/
theorem toList_anchoredText (source : String) :
    (anchoredText source).toList = '^' :: '(' :: '?' :: ':' :: (source.toList ++ [')', '$']) := by
  simp [anchoredText]

/-- A pattern in a group of its own, between the ends of a text. -/
theorem readGroup_anchored {fuel : Nat} {d : Draft} {s rest : List Char}
    (h : readGroup fuel true .start s = .ok (d, rest)) {fuel' : Nat} (hfuel : fuel + 4 ≤ fuel') :
    readGroup fuel' true .start ('^' :: '(' :: '?' :: ':' :: (s ++ [')', '$'])) =
      .ok (((Draft.start.add (.anchor .textStart)).close d id).add (.anchor .textEnd), []) := by
  obtain ⟨n, rfl⟩ : ∃ n, fuel' = n + 4 := ⟨fuel' - 4, by omega⟩
  have hgroup : readGroup (n + 2) false .start (s ++ [')', '$']) = .ok (d, ['$']) :=
    readGroup_append_close h ['$'] (by omega)
  have hhead : readGroupHead {} ('?' :: ':' :: (s ++ [')', '$'])) =
      .ok (.plain {}, s ++ [')', '$']) := rfl
  have hinside : (Draft.start.add (.anchor .textStart)).inside {} = .start := rfl
  have hflags : (Draft.start.add (.anchor .textStart)).flags = {} := rfl
  calc readGroup (n + 4) true .start ('^' :: '(' :: '?' :: ':' :: (s ++ [')', '$']))
      = readGroup (n + 3) true (Draft.start.add (.anchor .textStart))
          ('(' :: '?' :: ':' :: (s ++ [')', '$'])) := rfl
    _ = readGroup (n + 2) true ((Draft.start.add (.anchor .textStart)).close d id) ['$'] := by
      rw [readGroup, hflags, hhead]
      simp only [hinside, hgroup]
    _ = .ok (((Draft.start.add (.anchor .textStart)).close d id).add (.anchor .textEnd), []) :=
      rfl

/-- What is read between the ends of a text has the shape in the middle. -/
theorem shape_anchored (d : Draft) :
    (((Draft.start.add (.anchor .textStart)).close d id).add (.anchor .textEnd)).shape =
      anchoredShape d.shape :=
  rfl

end Pattern

/-- The shape of a pattern is the one of the group that is read. -/
theorem Shape.readGroup_of_read {s : List Char} {shape : Shape} (h : Shape.read s = .ok shape) :
    ∃ d rest, Pattern.readGroup (s.length + 1) true .start s = .ok (d, rest) ∧
      d.shape = shape := by
  unfold Shape.read at h
  split at h
  · cases h
  · next d rest hgroup =>
    split at h
    · cases h
    · split at h
      · cases h
      · cases h
        exact ⟨d, rest, hgroup, rfl⟩

/-- The shape of a pattern that is read. -/
theorem Pattern.shape_of_read {source : String} {p : Pattern} (h : Pattern.read source = .ok p) :
    Shape.read source.toList = .ok p.shape := by
  obtain ⟨shape, hshape, rfl⟩ := map_eq_ok_iff.1 h
  exact hshape

/-- A text that is a pattern of its own stays this pattern between the ends of a text. -/
theorem Pattern.shape_of_readAnchored {source : String} {p q : Pattern}
    (hown : Pattern.read source = .ok q) (h : Pattern.readAnchored source = .ok p) :
    p.shape = anchoredShape q.shape := by
  obtain ⟨d, rest, hd, hshape⟩ := Shape.readGroup_of_read (shape_of_read hown)
  obtain ⟨e, rest', he, hanchored⟩ := Shape.readGroup_of_read (shape_of_read h)
  rw [toList_anchoredText, readGroup_anchored hd (by simp)] at he
  cases he
  rw [← hanchored, shape_anchored, hshape]

end Formulary
