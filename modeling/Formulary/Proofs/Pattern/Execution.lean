import Formulary.Pattern.Matching

/-!
# Runs of programs

The code of a shape accepts nothing by itself and goes on within itself or right behind it.
What every step of a thread keeps holds of the thread that a run finds, and a search tries
the beginning of a text first and then places behind a character.

Main definitions:

- `Instruction.Within`: an instruction that does not accept and stays below a limit.

Main results:

- Theorem `Shape.confined_code`: the code of a shape stays within its own limits.
- Theorem `Pattern.run_invariant`: what steps keep holds of what is found.
- Theorem `Pattern.search_begins`: where a search finds a match.
-/

namespace Formulary

/-! ## Code within limits -/

/-- The instruction does not accept, and goes on below the limit or at it. -/
def Instruction.Within (limit : Nat) : Instruction → Prop
  | jump target => target ≤ limit
  | fork first second => first ≤ limit ∧ second ≤ limit
  | accept => False
  | take _ | require _ | mark _ => True

theorem Instruction.Within.mono {limit limit' : Nat} {i : Instruction} (h : i.Within limit)
    (hle : limit ≤ limit') : i.Within limit' := by
  cases i with
  | jump target => exact Nat.le_trans h hle
  | fork first second => exact ⟨Nat.le_trans h.1 hle, Nat.le_trans h.2 hle⟩
  | accept => exact h
  | take set | require condition | mark slot => trivial

theorem Instruction.within_enter {limit inside outside : Nat} {greedy : Bool}
    (hinside : inside ≤ limit) (houtside : outside ≤ limit) :
    (Instruction.enter greedy inside outside).Within limit := by
  cases greedy with
  | true => exact ⟨hinside, houtside⟩
  | false => exact ⟨houtside, hinside⟩

namespace Shape

/-- Code that begins at `start` and stays within its own limits. -/
def Confined (start : Nat) (code : List Instruction) : Prop :=
  ∀ i ∈ code, i.Within (start + code.length)

/-- Programs one after the other are confined. -/
theorem Confined.append {start : Nat} {first second : List Instruction}
    (hfirst : Confined start first) (hsecond : Confined (start + first.length) second) :
    Confined start (first ++ second) := by
  intro i hi
  rw [List.length_append, ← Nat.add_assoc]
  rcases List.mem_append.1 hi with hi | hi
  · exact (hfirst i hi).mono (by omega)
  · exact hsecond i hi

/-- An instruction in front of a program is confined if it leads into it. -/
theorem Confined.cons {start : Nat} {i : Instruction} {code : List Instruction}
    (hhead : i.Within (start + 1 + code.length)) (hcode : Confined (start + 1) code) :
    Confined start (i :: code) := by
  have hlimit : start + (i :: code).length = start + 1 + code.length := by
    rw [List.length_cons]
    omega
  intro j hj
  rw [hlimit]
  rcases List.mem_cons.1 hj with heq | hj
  · exact heq ▸ hhead
  · exact hcode j hj

theorem confined_nil (start : Nat) : Confined start [] := by
  intro i hi
  cases hi

section Repetition

variable {body : Nat → List Instruction} (hbody : ∀ start, Confined start (body start))

include hbody

theorem confined_copies (n start : Nat) : Confined start (copies body n start) := by
  induction n generalizing start with
  | zero => exact confined_nil start
  | succ n ih => exact (hbody start).append (ih _)

theorem confined_oneOrMore (greedy : Bool) (start : Nat) :
    Confined start (oneOrMore body greedy start) := by
  refine (hbody start).append (.cons ?_ (confined_nil _))
  apply Instruction.within_enter <;> simp only [List.length_nil] <;> omega

theorem confined_anyNumber (bodyMayBeEmpty greedy : Bool) (start : Nat) :
    Confined start (anyNumber body bodyMayBeEmpty greedy start) := by
  cases bodyMayBeEmpty with
  | true =>
    refine .cons ?_ (confined_oneOrMore hbody greedy _)
    apply Instruction.within_enter <;> omega
  | false =>
    refine .cons ?_ ((hbody _).append (.cons ?_ (confined_nil _)))
    · apply Instruction.within_enter <;>
      · simp only [List.length_append, List.length_cons, List.length_nil]
        omega
    · simp only [Instruction.Within, List.length_nil]
      omega

variable {size : Nat} (hsize : ∀ start, (body start).length = size)

include hsize

theorem confined_optionals (greedy : Bool) (n start : Nat) :
    Confined start (optionals body greedy (start + n * (size + 1)) n start) := by
  induction n generalizing start with
  | zero => exact confined_nil start
  | succ n ih =>
    have hfinish : start + (n + 1) * (size + 1) = start + 1 + size + n * (size + 1) := by
      rw [Nat.succ_mul]
      omega
    rw [hfinish, optionals, hsize]
    have hrest := ih (start + 1 + size)
    refine .cons ?_ ((hbody _).append ?_)
    · apply Instruction.within_enter <;>
      · simp only [List.length_append, length_optionals hsize, hsize]
        omega
    · rwa [hsize]

/-- Repetitions of a confined program are confined. -/
theorem confined_repetition (bodyMayBeEmpty : Bool) (least : Nat) (greatest : Option Nat)
    (greedy : Bool) (start : Nat) :
    Confined start (repetition body bodyMayBeEmpty least greatest greedy start) := by
  cases greatest with
  | none =>
    cases least with
    | zero => exact confined_anyNumber hbody bodyMayBeEmpty greedy start
    | succ n => exact (confined_copies hbody n start).append (confined_oneOrMore hbody greedy _)
  | some greatest =>
    refine (confined_copies hbody least start).append ?_
    simp only [hsize]
    exact confined_optionals hbody hsize greedy (greatest - least) _

omit hbody in
/-- How much code a repetition has does not depend on where it begins. -/
theorem length_repetition (bodyMayBeEmpty : Bool) (least : Nat) (greatest : Option Nat)
    (greedy : Bool) (start : Nat) :
    (repetition body bodyMayBeEmpty least greatest greedy start).length =
      (repetition body bodyMayBeEmpty least greatest greedy 0).length := by
  cases greatest with
  | none =>
    cases least with
    | zero => cases bodyMayBeEmpty <;> simp [repetition, anyNumber, oneOrMore, hsize]
    | succ n => simp [repetition, oneOrMore, length_copies hsize, hsize]
  | some greatest => simp [repetition, length_copies hsize, length_optionals hsize]

end Repetition

/-- How much code a shape has does not depend on where it begins. -/
theorem length_code (s : Shape) (start : Nat) : (s.code start).length = (s.code 0).length := by
  induction s generalizing start with
  | empty | one set | anchor condition => rfl
  | both a b iha ihb =>
    simp only [code, List.length_append]
    rw [iha start, ihb (start + _), ihb (0 + _)]
  | either a b iha ihb =>
    simp only [code, List.length_cons, List.length_append]
    rw [iha (start + 1), iha (0 + 1), ihb (start + _ + 2), ihb (0 + _ + 2)]
  | capture index s ih =>
    simp only [code, List.length_cons, List.length_append]
    rw [ih (start + 1), ih (0 + 1)]
  | turns s least greatest greedy ih =>
    exact length_repetition ih s.mayBeEmpty least greatest greedy start

/-- The code of a shape stays within its own limits. -/
theorem confined_code (s : Shape) (start : Nat) : Confined start (s.code start) := by
  induction s generalizing start with
  | empty => exact confined_nil start
  | one set => exact .cons trivial (confined_nil _)
  | anchor condition => exact .cons trivial (confined_nil _)
  | both a b iha ihb => exact (iha start).append (ihb _)
  | either a b iha ihb =>
    have hsecond : start + (a.code (start + 1)).length + 2 =
        start + 1 + (a.code (start + 1)).length + 1 := by omega
    rw [code]
    refine .cons ?_ ((iha (start + 1)).append (.cons ?_ (hsecond ▸ ihb _)))
    · simp only [Instruction.Within, List.length_append, List.length_cons]
      omega
    · simp only [Instruction.Within]
      omega
  | capture index s ih => exact .cons trivial ((ih _).append (.cons trivial (confined_nil _)))
  | turns s least greatest greedy ih =>
    exact confined_repetition ih (length_code s) s.mayBeEmpty least greatest greedy start

end Shape
/-! ## Steps and runs -/

/-- The threads that a thread goes on as. -/
inductive Thread.Steps (program : Array Instruction) (t : Thread) : Thread → Prop
  | take {set : CharSet} {c : Char} {rest : List Char}
      (hat : program[t.counter]? = some (.take set)) (hrest : t.place.rest = c :: rest) :
      Steps program t ⟨t.counter + 1, t.place.next, t.marks⟩
  | require {condition : Anchor} (hat : program[t.counter]? = some (.require condition))
      (hholds : condition.holds t.place.before t.place.rest.head? = true) :
      Steps program t { t with counter := t.counter + 1 }
  | mark {slot : Nat} (hat : program[t.counter]? = some (.mark slot)) :
      Steps program t
        { t with counter := t.counter + 1, marks := (slot, t.place.position) :: t.marks }
  | jump {target : Nat} (hat : program[t.counter]? = some (.jump target)) :
      Steps program t { t with counter := target }
  | first {first second : Nat} (hat : program[t.counter]? = some (.fork first second)) :
      Steps program t { t with counter := first }
  | second {first second : Nat} (hat : program[t.counter]? = some (.fork first second)) :
      Steps program t { t with counter := second }

namespace Thread

variable {program : Array Instruction} {t : Thread}

/-- What one step of a thread can do. -/
theorem steps_of_step {next : List Thread} (h : t.step program = .threads next) :
    ∀ t' ∈ next, Steps program t t' := by
  unfold step at h
  split at h
  · cases h
    simp
  · cases h
  · next set hat =>
    split at h
    · next c rest hrest =>
      split at h
      · cases h
        simpa using .take hat hrest
      · cases h
        simp
    · cases h
      simp
  · next condition hat =>
    split at h
    · next hholds =>
      cases h
      simpa using .require hat hholds
    · cases h
      simp
  · next slot hat =>
    cases h
    simpa using .mark hat
  · next target hat =>
    cases h
    simpa using .jump hat
  · next first second hat =>
    cases h
    simpa using ⟨.first hat, .second hat⟩

/-- A thread comes to its end where the program accepts. -/
theorem accept_of_step {t' : Thread} (h : t.step program = .found t') :
    t' = t ∧ program[t.counter]? = some .accept := by
  unfold step at h
  split at h
  · cases h
  · next hat =>
    cases h
    exact ⟨rfl, hat⟩
  · split at h
    · split at h <;> cases h
    · cases h
  · split at h <;> cases h
  · cases h
  · cases h
  · cases h

/-- The steps of a program keep what may be said of a thread. -/
def Kept (program : Array Instruction) (P : Thread → Prop) : Prop :=
  ∀ t t', P t → Steps program t t' → P t'

end Thread

namespace Pattern

variable {program : Array Instruction} {P : Thread → Prop}

/-- What steps keep holds of the thread that a run finds, which has come to its end. -/
theorem run_invariant (hkept : Thread.Kept program P) {width fuel visited : Nat}
    {stack : List Thread} {t : Thread} (hstack : ∀ t ∈ stack, P t)
    (h : run program width fuel visited stack = some t) :
    P t ∧ program[t.counter]? = some .accept := by
  induction fuel generalizing visited stack with
  | zero => cases h
  | succ fuel ih =>
    cases stack with
    | nil => cases h
    | cons u stack =>
      obtain ⟨hu, hrest⟩ := List.forall_mem_cons.1 hstack
      rw [run] at h
      split at h
      · exact ih hrest h
      · split at h
        · next hstep =>
          cases h
          obtain ⟨heq, hat⟩ := Thread.accept_of_step hstep
          subst heq
          exact ⟨hu, hat⟩
        · next next hstep =>
          refine ih (fun t ht => ?_) h
          rcases List.mem_append.1 ht with ht | ht
          · exact hkept u t hu (Thread.steps_of_step hstep t ht)
          · exact hrest t ht

/-- What holds of a thread at the beginning of a program, and is kept by steps, holds of the
thread that is found from there. -/
theorem runFrom_invariant (hkept : Thread.Kept program P) {p : Place} {t : Thread}
    (hstart : P ⟨0, p, []⟩) (h : runFrom program p = some t) :
    P t ∧ program[t.counter]? = some .accept := by
  refine run_invariant hkept (fun u hu => ?_) h
  rw [List.mem_singleton.1 hu]
  exact hstart

/-- A search finds a match where it begins, or behind some character. -/
theorem search_begins {s : List Char} {position first : Nat} {before : Option Char}
    {t : Thread} (h : search program position before s = some (first, t)) :
    ∃ p, runFrom program p = some t ∧ first = p.position ∧
      (p = ⟨position, before, s⟩ ∨ p.before ≠ none) := by
  induction s generalizing position before with
  | nil =>
    rw [search] at h
    obtain ⟨u, hu, heq⟩ := Option.map_eq_some_iff.1 h
    cases heq
    exact ⟨_, hu, rfl, .inl rfl⟩
  | cons c s ih =>
    rw [search] at h
    split at h
    · next u hu =>
      cases h
      exact ⟨_, hu, rfl, .inl rfl⟩
    · obtain ⟨p, hp, hfirst, hbegins⟩ := ih h
      refine ⟨p, hp, hfirst, .inr ?_⟩
      rcases hbegins with heq | hbehind
      · rw [heq]
        simp
      · exact hbehind

end Pattern
end Formulary
