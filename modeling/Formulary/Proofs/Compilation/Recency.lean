import Formulary.Compilation.Cache
import Formulary.Proofs.Compilation.Registry

/-!
# What a cache of evaluators remembers

A cache answers every look-up as its engine does.  What it keeps depends on the history
of its use alone: of the texts that compile and were looked up since it was last cleared,
it keeps the ones that were used last, as many as it has places.  Texts that do not
compile leave no trace but in the count of misses.

Main definitions:

- `CacheRequest` and `EvaluatorCache.after`: a cache after a history of requests.
- `Engine.recency`: the texts of a history that compile, the last used first.
- `Engine.RecentlyUsed`: a text that was used so lately that it is still kept.
- `EvaluatorCache.Mirrors`: the invariant that links a cache to its history.

Main results:

- Theorem `Mirrors.perform`: every request keeps the invariant.
- Theorem `mem_take_recency_iff`: the texts used last are those that were used recently.
- Theorem `refines_after`: after any requests a cache answers like its engine, and what it
  keeps and counts is given by the history.
-/

namespace Formulary

/-! ## Names without repetition -/

/-- The order of the names does not matter to their number. -/
theorem length_eraseDups_reverse (names : List String) :
    names.reverse.eraseDups.length = names.eraseDups.length := by
  have hnodup : ∀ l : List String, l.eraseDups.Nodup := by
    intro l
    rw [← distinctNames_eq_eraseDups]
    exact nodup_distinctNames l
  apply List.Perm.length_eq
  rw [List.perm_ext_iff_of_nodup (hnodup _) (hnodup _)]
  simp

/-- A name whose first occurrence is known is among the first distinct names exactly if
there are fewer distinct names before it. -/
theorem mem_take_eraseDups_iff {before after : List String} {name : String} {n : Nat}
    (h : name ∉ before) :
    name ∈ ((before ++ name :: after).eraseDups).take n ↔ before.eraseDups.length < n := by
  have hkept : (name :: after).removeAll before = name :: after.removeAll before := by
    simp [List.removeAll, h]
  have hbefore : name ∉ before.eraseDups.take n :=
    fun hmem => h (List.mem_eraseDups.1 (List.mem_of_mem_take hmem))
  rw [List.eraseDups_append, hkept, List.eraseDups_cons, List.take_append, List.mem_append]
  simp only [hbefore, false_or]
  by_cases hn : before.eraseDups.length < n
  · have hpositive : n - before.eraseDups.length = n - before.eraseDups.length - 1 + 1 := by
      omega
    rw [hpositive]
    simp [hn]
  · have hzero : n - before.eraseDups.length = 0 := by omega
    simp [hzero, hn]

/-- What remains of the first names when one of them is taken out, or when another one
comes in before them. -/
theorem take_filter_ne {names : List String} (h : names.Nodup) (name : String) (n : Nat) :
    (names.filter (· != name)).take n =
      if name ∈ names.take (n + 1) then (names.take (n + 1)).filter (· != name)
      else names.take n := by
  induction names generalizing n with
  | nil => simp
  | cons a names ih =>
    rw [List.nodup_cons] at h
    by_cases ha : a = name
    · subst ha
      have hothers : names.filter (· != a) = names := by
        rw [List.filter_eq_self]
        intro b hb
        have hne : b ≠ a := fun heq => h.1 (heq ▸ hb)
        simpa using hne
      have htaken : (names.take n).filter (· != a) = names.take n := by
        rw [List.filter_eq_self]
        intro b hb
        have hne : b ≠ a := fun heq => h.1 (heq ▸ List.mem_of_mem_take hb)
        simpa using hne
      simp [hothers, htaken]
    · have hkeep : (a != name) = true := by simpa using ha
      have hne : name ≠ a := fun heq => ha heq.symm
      cases n with
      | zero => simp [hne]
      | succ n =>
        have hrest := ih h.2 n
        simp only [List.filter_cons, hkeep, if_true, List.take_succ_cons, List.mem_cons, hne,
          false_or, hrest]
        split <;> rfl

/-! ## Histories -/

/-- What can be asked of a cache. -/
inductive CacheRequest where
  | lookup (text : String)
  | clear

namespace CacheRequest

/-- The texts looked up since the last clearing, after one more request. -/
def track (texts : List String) : CacheRequest → List String
  | lookup text => texts ++ [text]
  | clear => []

/-- The texts that are looked up after the last clearing, in order. -/
def lookedUp (requests : List CacheRequest) : List String :=
  requests.foldl track []

end CacheRequest

namespace Engine

/-- Whether the text compiles. -/
def compiles (e : Engine) (text : String) : Bool :=
  (e.compile text).isOk

/-- The texts that compile, each one once, the last one used first. -/
def recency (e : Engine) (texts : List String) : List String :=
  (texts.filter e.compiles).reverse.eraseDups

/-- The text compiles and has been looked up, and fewer than `places` other texts that
compile were looked up after its last use. -/
def RecentlyUsed (e : Engine) (places : Nat) (text : String) (texts : List String) : Prop :=
  e.compiles text = true ∧ ∃ before after, texts = before ++ text :: after ∧ text ∉ after ∧
    (after.filter e.compiles).eraseDups.length < places

variable {e : Engine}

theorem compiles_of_ok {text : String} {evaluator : Evaluator}
    (h : e.compile text = .ok evaluator) : e.compiles text = true := by
  rw [compiles, h]
  rfl

theorem compiles_of_error {text : String} {err : FormulaError}
    (h : e.compile text = .error err) : e.compiles text = false := by
  rw [compiles, h]
  rfl

/-- No text is twice among the recent ones. -/
theorem nodup_recency (e : Engine) (texts : List String) : (e.recency texts).Nodup := by
  rw [recency, ← distinctNames_eq_eraseDups]
  exact nodup_distinctNames _

/-- A text that compiles comes to the front when it is used. -/
theorem recency_concat {texts : List String} {text : String} (h : e.compiles text = true) :
    e.recency (texts ++ [text]) = text :: (e.recency texts).filter (· != text) := by
  have hreverse : ((texts ++ [text]).filter e.compiles).reverse =
      text :: (texts.filter e.compiles).reverse := by
    simp [h]
  rw [recency, hreverse, List.eraseDups_cons, recency, filter_eraseDups]
  rfl

/-- A text that does not compile changes nothing. -/
theorem recency_concat_of_not_compiles {texts : List String} {text : String}
    (h : e.compiles text = false) : e.recency (texts ++ [text]) = e.recency texts := by
  simp [recency, h]

/-- The texts used last are those that were used recently. -/
theorem mem_take_recency_iff {texts : List String} {text : String} {places : Nat} :
    text ∈ (e.recency texts).take places ↔ e.RecentlyUsed places text texts := by
  have hsplit : ∀ before after : List String, e.compiles text = true → text ∉ after →
      (text ∈ (e.recency (before ++ text :: after)).take places ↔
        (after.filter e.compiles).eraseDups.length < places) := by
    intro before after hcompiles hlast
    have hreverse : ((before ++ text :: after).filter e.compiles).reverse =
        (after.filter e.compiles).reverse ++ text :: (before.filter e.compiles).reverse := by
      simp [hcompiles]
    have hfirst : text ∉ (after.filter e.compiles).reverse := by
      simp [hlast]
    rw [recency, hreverse, mem_take_eraseDups_iff hfirst, length_eraseDups_reverse]
  constructor
  · intro hmem
    have hused : text ∈ (texts.filter e.compiles).reverse :=
      List.mem_eraseDups.1 (List.mem_of_mem_take hmem)
    rw [List.mem_reverse, List.mem_filter] at hused
    obtain ⟨after, before, hreverse, hlast⟩ :=
      List.eq_append_cons_of_mem (List.mem_reverse.2 hused.1)
    have htexts : texts = before.reverse ++ text :: after.reverse := by
      rw [← List.reverse_reverse texts, hreverse]
      simp
    have hafter : text ∉ after.reverse := by simpa using hlast
    subst htexts
    exact ⟨hused.2, _, _, rfl, hafter, (hsplit _ _ hused.2 hafter).1 hmem⟩
  · rintro ⟨hcompiles, before, after, rfl, hlast, hfew⟩
    exact (hsplit before after hcompiles hlast).2 hfew

end Engine

/-! ## Caches and their histories -/

namespace EvaluatorCache

/-- The cache after a request. -/
def perform (c : EvaluatorCache) : CacheRequest → EvaluatorCache
  | .lookup text => (c.lookup text).2
  | .clear => c.clear

/-- The cache after some requests. -/
def after (c : EvaluatorCache) (requests : List CacheRequest) : EvaluatorCache :=
  requests.foldl perform c

/-- The number of evaluators that a cache of a capacity keeps; no capacity stands for 128. -/
def placesOf (capacity : Nat) : Nat :=
  if capacity = 0 then 128 else capacity

/-- The cache keeps the texts of a history that were used last, and has counted all
look-ups. -/
structure Mirrors (engine : Engine) (places : Nat) (texts : List String)
    (c : EvaluatorCache) : Prop where
  engine_eq : c.engine = engine
  capacity_eq : c.capacity = places
  keys_eq : c.entries.map Prod.fst = (engine.recency texts).take places
  counted : c.hits + c.misses = texts.length

variable {engine : Engine} {places : Nat} {texts : List String} {c : EvaluatorCache}

/-- A text is found exactly if it was used recently. -/
theorem Mirrors.find_iff (h : c.Mirrors engine places texts) {text : String} :
    (∃ evaluator, findEntry text c.entries = some evaluator) ↔
      engine.RecentlyUsed places text texts := by
  rw [← Engine.mem_take_recency_iff, ← h.keys_eq]
  constructor
  · rintro ⟨evaluator, hfind⟩
    exact List.mem_map_of_mem (f := Prod.fst) (mem_of_findEntry hfind)
  · intro hmem
    exact Option.ne_none_iff_exists'.1 (ne_none_of_mem_keys hmem)

/-- A text that is found comes to the front. -/
theorem Mirrors.promote (h : c.Mirrors engine (places + 1) texts) {text : String}
    {evaluator : Evaluator} (hfind : findEntry text c.entries = some evaluator) :
    (c.promote hfind).Mirrors engine (places + 1) (texts ++ [text]) := by
  have hcompile := compile_of_find hfind
  rw [h.engine_eq] at hcompile
  have hkept : text ∈ (engine.recency texts).take (places + 1) := by
    rw [Engine.mem_take_recency_iff, ← h.find_iff]
    exact ⟨evaluator, hfind⟩
  refine ⟨h.engine_eq, h.capacity_eq, ?_, ?_⟩
  · have hfront := take_filter_ne (engine.nodup_recency texts) text places
    rw [if_pos hkept] at hfront
    rw [Engine.recency_concat (Engine.compiles_of_ok hcompile), List.take_succ_cons, hfront]
    show text :: (others text c.entries).map Prod.fst = _
    rw [keys_others, h.keys_eq]
  · have hcount := h.counted
    simp only [EvaluatorCache.promote, List.length_append, List.length_singleton]
    omega

/-- A text that is compiled comes to the front, and what was used longest ago gives way. -/
theorem Mirrors.store (h : c.Mirrors engine (places + 1) texts) {text : String}
    {evaluator : Evaluator} (hfind : findEntry text c.entries = none)
    (hcompile : c.engine.compile text = .ok evaluator) :
    (c.store hfind hcompile).Mirrors engine (places + 1) (texts ++ [text]) := by
  have hfresh : text ∉ (engine.recency texts).take (places + 1) := by
    rw [Engine.mem_take_recency_iff, ← h.find_iff]
    simp [hfind]
  refine ⟨h.engine_eq, h.capacity_eq, ?_, ?_⟩
  · have hfront := take_filter_ne (engine.nodup_recency texts) text places
    rw [if_neg hfresh] at hfront
    rw [h.engine_eq] at hcompile
    rw [Engine.recency_concat (Engine.compiles_of_ok hcompile), List.take_succ_cons, hfront]
    show (((text, evaluator) :: c.entries).take c.capacity).map Prod.fst = _
    rw [h.capacity_eq, List.take_succ_cons, List.map_cons, List.map_take, h.keys_eq,
      List.take_take, Nat.min_eq_left (Nat.le_succ places)]
  · have hcount := h.counted
    simp only [EvaluatorCache.store, List.length_append, List.length_singleton]
    omega

/-- A text that does not compile is counted, and nothing else changes. -/
theorem Mirrors.miss (h : c.Mirrors engine places texts) {text : String} {err : FormulaError}
    (hcompile : c.engine.compile text = .error err) :
    c.miss.Mirrors engine places (texts ++ [text]) := by
  refine ⟨h.engine_eq, h.capacity_eq, ?_, ?_⟩
  · rw [h.engine_eq] at hcompile
    rw [Engine.recency_concat_of_not_compiles (Engine.compiles_of_error hcompile)]
    exact h.keys_eq
  · have hcount := h.counted
    simp only [EvaluatorCache.miss, List.length_append, List.length_singleton]
    omega

/-- Every request keeps a cache in line with its history. -/
theorem Mirrors.perform (h : c.Mirrors engine (places + 1) texts) (request : CacheRequest) :
    (c.perform request).Mirrors engine (places + 1) (CacheRequest.track texts request) := by
  cases request with
  | clear =>
    refine ⟨h.engine_eq, h.capacity_eq, ?_, rfl⟩
    simp [EvaluatorCache.perform, clear, CacheRequest.track, Engine.recency]
  | lookup text =>
    show (c.lookup text).2.Mirrors engine (places + 1) (texts ++ [text])
    cases hfind : findEntry text c.entries with
    | some evaluator =>
      rw [lookup_of_find hfind]
      exact h.promote hfind
    | none =>
      cases hcompile : c.engine.compile text with
      | ok evaluator =>
        rw [lookup_of_ok hfind hcompile]
        exact h.store hfind hcompile
      | error err =>
        rw [lookup_of_error hcompile]
        exact h.miss hcompile

/-- A cache that was in line with its history is so after any further requests. -/
theorem Mirrors.after (h : c.Mirrors engine (places + 1) texts) (requests : List CacheRequest) :
    (c.after requests).Mirrors engine (places + 1)
      (requests.foldl CacheRequest.track texts) := by
  induction requests generalizing c texts with
  | nil => exact h
  | cons request requests ih => exact ih (h.perform request)

theorem exists_placesOf (capacity : Nat) : ∃ n, placesOf capacity = n + 1 := by
  unfold placesOf
  split
  · exact ⟨127, rfl⟩
  · exact ⟨capacity - 1, by omega⟩

/-- A cache that was used in any way mirrors how it was used. -/
theorem mirrors_after (engine : Engine) (capacity : Nat) (requests : List CacheRequest) :
    ((ofEngine engine capacity).after requests).Mirrors engine (placesOf capacity)
      (CacheRequest.lookedUp requests) := by
  have hempty : (ofEngine engine capacity).Mirrors engine (placesOf capacity) [] :=
    ⟨rfl, rfl, by simp [ofEngine, Engine.recency], rfl⟩
  obtain ⟨n, hn⟩ := exists_placesOf capacity
  rw [hn] at hempty ⊢
  exact hempty.after requests

/-! ## What a cache answers -/

/-- What a cache owes to an engine, if some texts were looked up since it was cleared. -/
structure Refines (engine : Engine) (places : Nat) (texts : List String)
    (c : EvaluatorCache) : Prop where
  /-- Each text has the evaluator, or the error, that the engine compiles it to. -/
  answers : ∀ text, (c.lookup text).1 = engine.compile text
  /-- A look-up is a hit exactly if its text was used recently. -/
  hits_iff : ∀ text, (c.lookup text).2.hits = c.hits + 1 ↔ engine.RecentlyUsed places text texts
  /-- The texts that are kept are the distinct ones that were used last. -/
  keys_eq : c.entries.map Prod.fst = (engine.recency texts).take places
  /-- A text that does not compile changes neither the texts that are kept nor their order. -/
  entries_of_error : ∀ text err, engine.compile text = .error err →
    (c.lookup text).2.entries = c.entries
  /-- Each look-up is either a hit or a miss. -/
  counted : c.hits + c.misses = texts.length

/-- A look-up answers as the engine does. -/
theorem answer_lookup (c : EvaluatorCache) (text : String) :
    (c.lookup text).1 = c.engine.compile text := by
  cases hfind : findEntry text c.entries with
  | some evaluator =>
    rw [lookup_of_find hfind]
    exact (compile_of_find hfind).symm
  | none =>
    cases hcompile : c.engine.compile text with
    | ok evaluator => rw [lookup_of_ok hfind hcompile]
    | error err => rw [lookup_of_error hcompile]

/-- A look-up is a hit exactly if its text is kept. -/
theorem hits_lookup_iff (c : EvaluatorCache) (text : String) :
    (c.lookup text).2.hits = c.hits + 1 ↔ ∃ evaluator, findEntry text c.entries = some evaluator := by
  cases hfind : findEntry text c.entries with
  | some evaluator =>
    rw [lookup_of_find hfind]
    exact iff_of_true rfl ⟨evaluator, rfl⟩
  | none =>
    have hsame : (c.lookup text).2.hits = c.hits := by
      cases hcompile : c.engine.compile text with
      | ok evaluator => rw [lookup_of_ok hfind hcompile]; rfl
      | error err => rw [lookup_of_error hcompile]; rfl
    simp [hsame]

/-- Whatever was asked of a cache, every look-up answers as the engine does.  It is a hit
exactly if the text compiles and was looked up since the last clearing, and fewer other
texts that compile than the cache has places were looked up after that.  The cache keeps
as many of the texts that compile as it has places, those used last, and texts that do
not compile change nothing; and the hits and misses are all the look-ups. -/
theorem refines_after (engine : Engine) (capacity : Nat) (requests : List CacheRequest) :
    ((ofEngine engine capacity).after requests).Refines engine (placesOf capacity)
      (CacheRequest.lookedUp requests) := by
  have hmirrors := mirrors_after engine capacity requests
  refine ⟨fun text => ?_, fun text => ?_, hmirrors.keys_eq, fun text err hcompile => ?_,
    hmirrors.counted⟩
  · rw [answer_lookup, hmirrors.engine_eq]
  · rw [hits_lookup_iff, hmirrors.find_iff]
  · rw [← hmirrors.engine_eq] at hcompile
    rw [lookup_of_error hcompile]
    rfl

end EvaluatorCache
end Formulary
