import Formulary.Compilation.Engine

/-!
# Caches of evaluators

A cache keeps the evaluators of the texts that were looked up last, so that a text
is compiled again only after it has been pushed out by others.  Texts that do not
compile are not kept.

Look-ups are counted in natural numbers, which never wrap around.  Counters of 64 bits
agree with them for less than two to the power of 64 look-ups.

Main definitions:

- `EvaluatorCache`, whose entries are within its capacity, distinct, and what their
  texts compile to.
- `EvaluatorCache.lookup` and `EvaluatorCache.clear`.

Main results:

- Theorems `lookup_of_find`, `lookup_of_ok` and `lookup_of_error`: what a look-up comes to.
-/

namespace Formulary

/-- The number of evaluators that a cache keeps by default. -/
def defaultCacheSize : Nat := 128

/-- Evaluators by text, the last one used first. -/
structure EvaluatorCache where
  engine : Engine
  capacity : Nat
  entries : List (String × Evaluator)
  hits : Nat
  misses : Nat
  capacity_pos : 0 < capacity
  length_le : entries.length ≤ capacity
  distinct : (entries.map Prod.fst).Nodup
  compiled : ∀ entry ∈ entries, engine.compile entry.1 = .ok entry.2

namespace EvaluatorCache

/-- A cache without entries; no capacity stands for the default one. -/
def ofEngine (engine : Engine) (capacity : Nat) : EvaluatorCache where
  engine := engine
  capacity := if capacity = 0 then defaultCacheSize else capacity
  entries := []
  hits := 0
  misses := 0
  capacity_pos := by
    split
    · decide
    · omega
  length_le := Nat.zero_le _
  distinct := List.nodup_nil
  compiled := nofun

/-- The entries of the other texts. -/
def others (text : String) (entries : List (String × Evaluator)) : List (String × Evaluator) :=
  entries.filter fun entry => entry.1 != text

/-- The keys of the other entries are the other keys. -/
theorem keys_others (text : String) (entries : List (String × Evaluator)) :
    (others text entries).map Prod.fst = (entries.map Prod.fst).filter (· != text) := by
  rw [others, List.filter_map]
  rfl

/-- There are fewer entries of other texts if there is one of the text. -/
theorem length_others_lt {text : String} {e : Evaluator} {entries : List (String × Evaluator)}
    (h : findEntry text entries = some e) : (others text entries).length < entries.length := by
  refine List.length_filter_lt_length_iff_exists.2 ⟨(text, e), mem_of_findEntry h, ?_⟩
  simp

/-- What is kept under a text is what the text compiles to. -/
theorem compile_of_find {c : EvaluatorCache} {text : String} {e : Evaluator}
    (h : findEntry text c.entries = some e) : c.engine.compile text = .ok e :=
  c.compiled (text, e) (mem_of_findEntry h)

section Lookup

variable (c : EvaluatorCache) {text : String} {e : Evaluator}

/-- The cache after its evaluator of a text was used. -/
def promote (h : findEntry text c.entries = some e) : EvaluatorCache where
  engine := c.engine
  capacity := c.capacity
  entries := (text, e) :: others text c.entries
  hits := c.hits + 1
  misses := c.misses
  capacity_pos := c.capacity_pos
  length_le := Nat.le_trans (length_others_lt h) c.length_le
  distinct := by
    rw [List.map_cons, keys_others]
    exact List.nodup_cons.2 ⟨by simp, c.distinct.filter _⟩
  compiled := by
    intro entry hentry
    rcases List.mem_cons.1 hentry with rfl | hother
    · exact c.compiled _ (mem_of_findEntry h)
    · exact c.compiled entry (List.mem_filter.1 hother).1

/-- The cache after a text that it did not keep was compiled. -/
def store (h : findEntry text c.entries = none) (he : c.engine.compile text = .ok e) :
    EvaluatorCache where
  engine := c.engine
  capacity := c.capacity
  entries := ((text, e) :: c.entries).take c.capacity
  hits := c.hits
  misses := c.misses + 1
  capacity_pos := c.capacity_pos
  length_le := List.length_take_le ..
  distinct := by
    rw [List.map_take]
    refine List.Nodup.sublist (List.take_sublist ..) (List.nodup_cons.2 ⟨?_, c.distinct⟩)
    exact fun hkey => ne_none_of_mem_keys hkey h
  compiled := by
    intro entry hentry
    rcases List.mem_cons.1 (List.mem_of_mem_take hentry) with rfl | hother
    · exact he
    · exact c.compiled entry hother

/-- The cache after a text did not compile. -/
def miss : EvaluatorCache :=
  { c with misses := c.misses + 1 }

/-- The evaluator of a text, and the cache after the look-up. -/
def lookup (text : String) : Except FormulaError Evaluator × EvaluatorCache :=
  match h : findEntry text c.entries with
  | some e => (.ok e, c.promote h)
  | none =>
    match he : c.engine.compile text with
    | .ok e => (.ok e, c.store h he)
    | .error err => (.error err, c.miss)

variable {c}

/-- A text that is kept is promoted. -/
theorem lookup_of_find (h : findEntry text c.entries = some e) :
    c.lookup text = (.ok e, c.promote h) := by
  unfold lookup
  split
  · next e' h' =>
    cases h.symm.trans h'
    rfl
  · next h' => cases h.symm.trans h'

/-- A text that is not kept and compiles is stored. -/
theorem lookup_of_ok (h : findEntry text c.entries = none)
    (he : c.engine.compile text = .ok e) : c.lookup text = (.ok e, c.store h he) := by
  unfold lookup
  split
  · next e' h' => cases h.symm.trans h'
  · split
    · next e' he' =>
      cases he.symm.trans he'
      rfl
    · next err he' => cases he.symm.trans he'

/-- A text that does not compile is a miss. -/
theorem lookup_of_error {err : FormulaError} (herr : c.engine.compile text = .error err) :
    c.lookup text = (.error err, c.miss) := by
  unfold lookup
  split
  · next e' h' => cases herr.symm.trans (compile_of_find h')
  · split
    · next e' he' => cases herr.symm.trans he'
    · next err' he' =>
      cases herr.symm.trans he'
      rfl

end Lookup

/-- The cache without entries and with new counters. -/
def clear (c : EvaluatorCache) : EvaluatorCache :=
  { c with
    entries := [], hits := 0, misses := 0
    length_le := Nat.zero_le _, distinct := List.nodup_nil, compiled := nofun }

/-- Number of evaluators kept. -/
def size (c : EvaluatorCache) : Nat :=
  c.entries.length

/-- The part of the look-ups that found an evaluator; zero without look-ups. -/
def hitRate (c : EvaluatorCache) : Float :=
  if c.hits + c.misses = 0 then 0.0 else c.hits.toFloat / (c.hits + c.misses).toFloat

/-- What there is to report about a look-up. -/
def records (c : EvaluatorCache) (text : String) : List LogRecord :=
  match findEntry text c.entries with
  | some _ => [⟨.trace, .cache, "Cache hit for '" ++ text ++ "'"⟩]
  | none => c.engine.compileRecords text

end EvaluatorCache
end Formulary
