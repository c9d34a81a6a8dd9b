import Formulary.Proofs.Compilation.Lockstep
import Formulary.Proofs.Evaluation.Chain

/-!
# Groups at the front of chains

A chain that begins with a chain of the same connective in parentheses has the value of the
chain without them, whatever its operands come to: the inner chain ends in a column or in the
truth of a scalar, and so does the outer one after as many operands.  A chain of a single
operand is different, for the truth of a text combines with a column and the text does not.

Main definitions:

- `Phrase.joined` and `Phrase.grouped`: chains and groups as they are written.

Main results:

- Theorem `chain_append`: a chain goes on from what its front came to.
- Theorem `evaluate_regrouped`: the value of a chain does not depend on the group.
- Theorem `evaluate_leftGroup`: nor does the value of a text under an engine that compiles it.
-/

namespace Formulary

open Formulary.Expr

/-! ## Chains -/

section Chains

variable {op : Connective}

/-- What two values are connected to would conclude the chain as it is. -/
theorem conclude_of_connect {v w u : Value} (h : Value.connect op v w = .ok u) :
    op.conclude (some u) = u := by
  unfold Value.connect at h
  split at h
  · next operands _ =>
    cases operands with
    | error err => cases h
    | ok pair =>
      simp only [Value.overColumns, Except.bind] at h
      cases hcolumn : Column.connect? op pair.1 pair.2 with
      | none =>
        rw [hcolumn] at h
        cases h
      | some c =>
        rw [hcolumn] at h
        cases h
        rfl
  · cases h
    rfl

/-- The chain goes on from what its front came to.  Unless the front is empty, the truth of
what it came to counts only. -/
theorem chain_append {v : Value} {ms : List Meaning}
    (h : ms ≠ [] ∨ op.conclude (some v) = v) (ns : List Meaning) :
    chain op (some v) (ms ++ ns) = chain op (some v) ms >>= fun u => chain op (some u) ns := by
  induction ms generalizing v with
  | nil =>
    rw [List.nil_append, chain, h.resolve_left (fun hne => hne rfl)]
    rfl
  | cons m ms ih =>
    rw [List.cons_append, chain, chain]
    cases hdecides : op.decides v with
    | true =>
      -- what is decided stays decided
      have hrest : chain op (some (.bool !op.unit)) ns = .ok (.bool !op.unit) :=
        chain_decided rfl (by simp [Value.isTruthy]) ns
      rw [if_pos rfl, if_pos rfl]
      exact hrest.symm
    | false =>
      simp only [Bool.false_eq_true, if_false]
      cases m with
      | error err => rfl
      | ok w =>
        show (evaluated (Value.connect op v w) >>= fun u => chain op (some u) (ms ++ ns)) =
          (evaluated (Value.connect op v w) >>= fun u => chain op (some u) ms) >>= _
        cases hconnect : Value.connect op v w with
        | error err => rfl
        | ok u => exact ih (.inr (conclude_of_connect hconnect))

/-- A chain of at least two operands in front of others may be taken as an operand. -/
theorem chain_group {ms : List Meaning} (h : 2 ≤ ms.length) (ns : List Meaning) :
    chain op none (chain op none ms :: ns) = chain op none (ms ++ ns) := by
  match ms, h with
  | m :: m' :: ms, _ =>
    cases m with
    | error err => rfl
    | ok v =>
      have happend : chain op (some v) (m' :: ms ++ ns) =
          chain op (some v) (m' :: ms) >>= fun u => chain op (some u) ns :=
        chain_append (.inl (List.cons_ne_nil m' ms)) ns
      exact happend.symm

/-- The truth of a text combines with a column, and the text does not. -/
example :
    chain .and none [chain .and none [.ok (.text "x")], .ok (.column ⟨"c", .bools [some true]⟩)] =
        .ok (.column ⟨"c", .bools [some true]⟩) ∧
      chain .and none [.ok (.text "x"), .ok (.column ⟨"c", .bools [some true]⟩)] =
        .error (.evaluation .columnMismatch) :=
  ⟨rfl, rfl⟩

end Chains

/-! ## Formulas -/

/-- A chain that begins with a chain of at least two operands has the value, or the error, of
the chain of all operands. -/
theorem evaluate_regrouped (s : Scope) (op : Connective) {xs : List Expr} (h : 2 ≤ xs.length)
    (ys : List Expr) :
    s.evaluate (.logic op (.logic op xs :: ys)) = s.evaluate (.logic op (xs ++ ys)) := by
  have hevaluate : ∀ es, s.evaluate (.logic op es) = chain op none (es.map s.evaluate) :=
    fun es => by rw [Scope.evaluate, evaluateChain_eq]
  rw [hevaluate, hevaluate, List.map_cons, List.map_append, hevaluate,
    chain_group (by rwa [List.length_map])]

/-! ## The compiler -/

namespace Whitelist

variable {w : Whitelist} {limit : Nat}

/-- The walk through the operands of a chain, the first ones with fewer levels left. -/
def operands (w : Whitelist) (limit inner outer : Nat) (xs ys : List Expr) :
    Walk (List Expr × List Expr) := do
  let xs' ← Walk.each (w.visit limit inner) xs
  let ys' ← Walk.each (w.visit limit outer) ys
  return (xs', ys')

/-- A visit of a grouped chain visits the inner operands one level deeper. -/
theorem visit_group (budget : Nat) (op : Connective) (xs ys : List Expr) :
    w.visit limit (budget + 2) (.logic op (.logic op xs :: ys)) = do
      let (xs', ys') ← w.operands limit budget (budget + 1) xs ys
      return .logic op (.logic op xs' :: ys') := by
  simp [visit, Walk.each, operands]

theorem visit_flat (budget : Nat) (op : Connective) (xs ys : List Expr) :
    w.visit limit (budget + 1) (.logic op (xs ++ ys)) = do
      let (xs', ys') ← w.operands limit budget budget xs ys
      return .logic op (xs' ++ ys') := by
  simp [visit, Walk.each_append, operands]

/-- There are as many operands behind the walk as before it. -/
theorem length_operands {inner outer : Nat} {xs ys : List Expr} {p : List Expr × List Expr}
    (h : (w.operands limit inner outer xs ys).outcome = .ok p) : p.1.length = xs.length := by
  simp only [operands, Walk.outcome_bind, Walk.outcome_pure, bind_eq_ok_iff] at h
  obtain ⟨xs', hxs, ys', -, hp⟩ := h
  cases hp
  obtain ⟨pairs, rfl, rfl, -⟩ := Walk.each_eq_ok hxs
  rw [List.length_map, List.length_map]

/-- With one level more for the first operands the walk is the same, unless it fails for the
depth. -/
theorem follows_operands (inner outer : Nat) (xs ys : List Expr) :
    (w.operands limit inner outer xs ys).Follows (· = .nestingTooDeep limit)
      (w.operands limit (inner + 1) outer xs ys) := by
  have hparallel : w.Parallel (· = .nestingTooDeep limit) w := .refl w
  have hxs : (Walk.each (w.visit limit inner) xs).Follows (· = .nestingTooDeep limit)
      (Walk.each (w.visit limit (inner + 1)) xs) :=
    .each fun x _ => hparallel.visit rfl (Nat.le_succ inner) x
  exact hxs.bind fun xs' => .refl _

end Whitelist

/-- A chain with a group in front is rewritten as the chain without it, and the same keys are
touched, or both are refused for the same reason; unless the group makes it too deep. -/
theorem rewrite_regrouped {w : Whitelist} {limit : Nat} {op : Connective} {xs ys : List Expr}
    (h : w.rewrite limit (.logic op (.logic op xs :: ys)) ≠ .error (.nestingTooDeep limit)) :
    (∃ err, w.rewrite limit (.logic op (.logic op xs :: ys)) = .error err ∧
      w.rewrite limit (.logic op (xs ++ ys)) = .error err) ∨
    ∃ xs' ys' touched, xs'.length = xs.length ∧
      w.rewrite limit (.logic op (.logic op xs :: ys)) =
        .ok ⟨.logic op (.logic op xs' :: ys'), touched⟩ ∧
      w.rewrite limit (.logic op (xs ++ ys)) = .ok ⟨.logic op (xs' ++ ys'), touched⟩ := by
  match limit with
  | 0 => exact absurd rfl h
  | 1 => exact absurd rfl h
  | budget + 2 =>
    simp only [Whitelist.rewrite, Whitelist.walk, Whitelist.visit_group,
      Whitelist.visit_flat] at h ⊢
    rcases w.follows_operands budget (budget + 1) xs ys with ⟨_, rfl, houtcome⟩ | hsame
    · refine absurd ?_ h
      rw [Walk.outcome_bind, houtcome]
      rfl
    · rw [hsame]
      have hlength := fun p => @Whitelist.length_operands w (budget + 2) budget (budget + 1) xs ys p
      generalize w.operands (budget + 2) budget (budget + 1) xs ys = walked at hlength ⊢
      obtain ⟨trail, outcome⟩ := walked
      cases outcome with
      | error err => exact .inl ⟨err, rfl, rfl⟩
      | ok p => exact .inr ⟨p.1, p.2, Whitelist.touchedKeys (trail ++ []), hlength p rfl, rfl, rfl⟩

/-! ## Engines -/

/-- An evaluator has the functions that its tree calls, so that trees with the same calls have
the same ones. -/
theorem call_evaluator_congr {c c' : CompiledFormula} (hrequired : c'.required = c.required)
    (hcalls : ∀ f, c'.expr.calls f = c.expr.calls f)
    (hevaluate : ∀ s : Scope, s.evaluate c'.expr = s.evaluate c.expr)
    (functions : FunctionRegistry) (context : Context) :
    (c'.evaluator functions).call context = (c.evaluator functions).call context := by
  have hfunctions : (c'.evaluator functions).functions = (c.evaluator functions).functions := by
    simp only [CompiledFormula.evaluator, CompiledFormula.evaluatorWith, hcalls]
  have hmissing : c'.missingKeys context = c.missingKeys context := by
    rw [CompiledFormula.missingKeys, CompiledFormula.missingKeys, hrequired]
  have hcompiled : ∀ d : CompiledFormula, (d.evaluator functions).compiled = d := fun _ => rfl
  rw [Evaluator.call, Evaluator.call, hcompiled, hcompiled, hmissing, hfunctions, hevaluate]

/-- A chain calls what it calls with a group in front. -/
theorem calls_regrouped (op : Connective) (xs ys : List Expr) (f : String) :
    (Expr.logic op (xs ++ ys)).calls f = (Expr.logic op (.logic op xs :: ys)).calls f := by
  simp [calls, any, anyOf_eq, isCallOf]

/-- Two texts, the one with a group at the front of its chain and the other one without, have
the same value or the same error under every engine and in every context, unless the engine
refuses the first one for its depth. -/
theorem evaluate_of_parse_regrouped {engine : Engine} {grouped flat : String} {op : Connective}
    {xs ys : List Expr} (hlength : 2 ≤ xs.length)
    (hgrouped : Expr.parse grouped = .ok (.logic op (.logic op xs :: ys)))
    (hflat : Expr.parse flat = .ok (.logic op (xs ++ ys)))
    (hdeep : engine.compileFormula grouped ≠ .error (.nestingTooDeep engine.options.maxDepth))
    (context : Context) : engine.evaluate grouped context = engine.evaluate flat context := by
  simp only [Engine.evaluate, Engine.compile, Engine.compileFormula, hgrouped, hflat,
    Engine.compileTree] at hdeep ⊢
  have hrewrite : engine.whitelist.rewrite engine.options.maxDepth
      (.logic op (.logic op xs :: ys)) ≠ .error (.nestingTooDeep engine.options.maxDepth) := by
    intro hrefused
    rw [hrefused] at hdeep
    exact hdeep rfl
  rcases rewrite_regrouped hrewrite with ⟨err, h, h'⟩ | ⟨xs', ys', touched, hxs, h, h'⟩
  · rw [h, h']
  · rw [h, h']
    let out : Rewritten := ⟨.logic op (.logic op xs' :: ys'), touched⟩
    let out' : Rewritten := ⟨.logic op (xs' ++ ys'), touched⟩
    have hvalue : ∀ s : Scope, s.evaluate out.expr = s.evaluate out'.expr :=
      fun s => evaluate_regrouped s op (hxs ▸ hlength) ys'
    have hcalls : ∀ f, out.expr.calls f = out'.expr.calls f :=
      fun f => (calls_regrouped op xs' ys' f).symm
    exact @call_evaluator_congr ⟨flat, out'.expr, engine.required out'⟩
      ⟨grouped, out.expr, engine.required out⟩ rfl hcalls hvalue engine.functions context

/-! ## Texts -/

namespace Syntax

/-- The strength of the operands of a chain. -/
def chainLevel : Connective → Level
  | .and => .negation
  | .or => .conjunction

/-- Phrases with a connective between them. -/
def Phrase.joined (op : Connective) (first : Phrase) (rest : List Phrase) : Phrase where
  tokens := first.tokens ++ eachAfter (.word op.symbol) rest
  tree := .logic op (first.tree :: rest.map Phrase.tree)

/-- A phrase in parentheses. -/
def Phrase.grouped (p : Phrase) : Phrase where
  tokens := .opening :: (p.tokens ++ [.closing])
  tree := p.tree

/-- Joined phrases are derived as a chain. -/
theorem derives_joined {op : Connective} {n : Nat} {first : Phrase} {rest : List Phrase}
    (hrest : rest ≠ [])
    (h : ∀ p ∈ first :: rest, Derives (chainLevel op) n p.tokens p.tree) :
    Derives .disjunction n (first.joined op rest).tokens (first.joined op rest).tree := by
  rw [List.forall_mem_cons] at h
  cases op with
  | and => exact .ofConjunction (.conjunction hrest h.1 h.2)
  | or => exact .disjunction hrest h.1 h.2

/-- A phrase in parentheses has any strength and opens one level more. -/
theorem derives_grouped {n : Nat} {p : Phrase} (h : Derives .disjunction n p.tokens p.tree)
    (l : Level) : Derives l (n + 1) p.grouped.tokens p.grouped.tree := by
  refine Derives.weaken (l := .primary) (.group h) ?_
  cases l <;> decide

/-- A text that is scanned as a derived phrase is parsed to its tree. -/
theorem parse_of_phrase {source : String} {p : Phrase} {n : Nat}
    (htokens : Tokenized (Text.trim source.toList) p.tokens)
    (h : Derives .disjunction n p.tokens p.tree) (hle : n ≤ maxNesting) :
    Expr.parse source = .ok p.tree :=
  parse_eq_ok_iff.2 ⟨p.tokens, htokens, h.mono hle⟩

end Syntax

open Syntax in
/-- A chain that begins with a chain of at least two operands in parentheses has the value, or
the error, of the chain of all operands.  The two are read as different trees, if there is one
nesting level to spare, and come to the same under every engine and in every context, unless
the engine refuses the first one for its depth. -/
theorem evaluate_leftGroup (op : Connective) :
    (∀ (s : Scope) (xs ys : List Expr), 2 ≤ xs.length →
      s.evaluate (.logic op (.logic op xs :: ys)) = s.evaluate (.logic op (xs ++ ys))) ∧
    ∀ (n : Nat) (first : Phrase) (inner outer : List Phrase), n < maxNesting →
      inner ≠ [] → outer ≠ [] →
      (∀ p ∈ first :: (inner ++ outer), Derives (chainLevel op) n p.tokens p.tree) →
      ∀ grouped flat : String,
        Tokenized (Text.trim grouped.toList)
          ((first.joined op inner).grouped.joined op outer).tokens →
        Tokenized (Text.trim flat.toList) (first.joined op (inner ++ outer)).tokens →
        Expr.parse grouped = .ok (.logic op (.logic op (first.tree :: inner.map Phrase.tree) ::
          outer.map Phrase.tree)) ∧
        Expr.parse flat = .ok (.logic op (first.tree :: (inner ++ outer).map Phrase.tree)) ∧
        Expr.parse grouped ≠ Expr.parse flat ∧
        ∀ engine : Engine,
          engine.compileFormula grouped ≠ .error (.nestingTooDeep engine.options.maxDepth) →
          ∀ context, engine.evaluate grouped context = engine.evaluate flat context := by
  refine ⟨fun s xs ys h => evaluate_regrouped s op h ys, ?_⟩
  intro n first inner outer hn hinner houter hall grouped flat hgrouped hflat
  have hgroup : ∀ p ∈ first :: inner, Derives (chainLevel op) n p.tokens p.tree := by
    intro p hp
    exact hall p (by simp only [List.mem_cons, List.mem_append] at hp ⊢; tauto)
  have hothers : ∀ p ∈ outer, Derives (chainLevel op) (n + 1) p.tokens p.tree := by
    intro p hp
    exact (hall p (by simp [hp])).mono (Nat.le_succ n)
  have hread : Expr.parse grouped = .ok (.logic op
      (.logic op (first.tree :: inner.map Phrase.tree) :: outer.map Phrase.tree)) := by
    refine parse_of_phrase hgrouped (derives_joined houter ?_) hn
    exact List.forall_mem_cons.2 ⟨derives_grouped (derives_joined hinner hgroup) _, hothers⟩
  have hread' : Expr.parse flat =
      .ok (.logic op (first.tree :: (inner ++ outer).map Phrase.tree)) :=
    parse_of_phrase hflat (derives_joined (by simp [hinner]) hall) (Nat.le_of_lt hn)
  have hlength : 0 < inner.length := List.length_pos_iff.2 hinner
  refine ⟨hread, hread', ?_, ?_⟩
  · rw [hread, hread']
    intro hsame
    simp only [Except.ok.injEq, Expr.logic.injEq, true_and] at hsame
    have hcount := congrArg List.length hsame
    simp only [List.length_cons, List.length_map, List.length_append] at hcount
    omega
  · intro engine hdeep context
    rw [List.map_append, ← List.cons_append] at hread'
    refine evaluate_of_parse_regrouped ?_ hread hread' hdeep context
    rw [List.length_cons, List.length_map]
    omega

open Syntax in
/-- Three names, with the first two in parentheses and without. -/
theorem evaluate_leftGroup_names :
    ∃ engine, Engine.build {} [.simple (anyKey "data")] [] = .ok engine ∧
      Expr.parse "(a and b) and c" =
        .ok (.logic .and [.logic .and [.name "a", .name "b"], .name "c"]) ∧
      Expr.parse "a and b and c" = .ok (.logic .and [.name "a", .name "b", .name "c"]) ∧
      ∀ context, engine.evaluate "(a and b) and c" context =
        engine.evaluate "a and b and c" context := by
  obtain ⟨engine, compiled, hbuild, hcompile⟩ : ∃ engine compiled,
      Engine.build {} [.simple (anyKey "data")] [] = .ok engine ∧
        engine.compileFormula "(a and b) and c" = .ok compiled :=
    ⟨_, _, rfl, rfl⟩
  let name (ident : String) : Phrase := ⟨[.word ident], .name ident⟩
  have hnames : ∀ p ∈ [name "a", name "b", name "c"],
      Derives (chainLevel .and) 0 p.tokens p.tree := by
    simp only [List.forall_mem_cons, List.not_mem_nil, false_imp_iff, implies_true, and_true]
    refine ⟨?_, ?_, ?_⟩
    all_goals exact Derives.weaken (l := .primary) (.name 0 (by decide)) (by decide)
  have hgrouped : Tokenized (Text.trim "(a and b) and c".toList)
      (((name "a").joined .and [name "b"]).grouped.joined .and [name "c"]).tokens := by
    show Tokenized _ [.opening, .word "a", .word "and", .word "b", .closing, .word "and",
      .word "c"]
    iterate 7 refine tokenized_cons_iff.2 ⟨_, rfl, ?_⟩
    exact tokenized_nil_iff.2 rfl
  have hflat : Tokenized (Text.trim "a and b and c".toList)
      ((name "a").joined .and [name "b", name "c"]).tokens := by
    show Tokenized _ [.word "a", .word "and", .word "b", .word "and", .word "c"]
    iterate 5 refine tokenized_cons_iff.2 ⟨_, rfl, ?_⟩
    exact tokenized_nil_iff.2 rfl
  obtain ⟨hread, hread', -, hsame⟩ := (evaluate_leftGroup .and).2 0 (name "a") [name "b"]
    [name "c"] (by decide) (by simp) (by simp) hnames _ _ hgrouped hflat
  refine ⟨engine, hbuild, hread, hread', hsame engine ?_⟩
  rw [hcompile]
  simp

end Formulary
