import Formulary.Command.Session
import Formulary.Proofs.Toml.Deletion

/-!
# Settings with fields deleted

Every section of a document of settings has a default, and so has every field of a
section but those that say what a variable is.  A document from which some of these are
deleted is read as the settings that have the defaults in their places.

Main definitions:

- `IsOptional`: the paths of what has a default.
- `Settings.without`: the settings with the defaults in some places.

Main results:

- Theorem `Settings.sectioned_entries`: settings are a document of sections.
- Theorem `Settings.ofToml?_prune`: how a document of settings is read from which what is
  optional may be deleted.
- Theorem `Settings.ofText_of_isTextOf`: how a text of such a document is read.
-/

namespace Formulary

open Toml

/-! ## Fields -/

section Fields

variable {α : Type} {gone : Path → Bool} {entries : List (String × Toml)} {name : String}
  {v : Toml} (hfind : findEntry name entries = some v) {read : Toml → Option α} {value : α}
  (hread : read (prune (inside gone (.key name)) v) = some value)

include hfind hread

/-- A field that is gone has its default, and any other field what it had. -/
theorem fieldOr_pruneEntries (default : α) :
    fieldOr (pruneEntries gone entries) name read default =
      some (if gone [.key name] then default else value) := by
  rw [fieldOr, findEntry_pruneEntries, hfind]
  cases gone [.key name] with
  | true => rfl
  | false => exact hread

/-- A required field is found if it is not gone. -/
theorem requiredField_pruneEntries (hkept : gone [.key name] = false) :
    requiredField (pruneEntries gone entries) name read = some value := by
  rw [requiredField, findEntry_pruneEntries, hfind, hkept]
  exact hread

end Fields

/-- The section of a single field. -/
theorem readField_prune {α : Type} {v : Toml} (hplain : Toml.Plain v) {read : Toml → Option α}
    {value : α} (hread : read v = some value) (name : String) (gone : Path → Bool)
    (default : α) :
    (do
      let entries ← (prune gone (.table [(name, v)])).fields? [name]
      fieldOr entries name read default) =
      some (if gone [.key name] then default else value) := by
  have hfind : findEntry name [(name, v)] = some v := if_pos rfl
  refine fieldOr_pruneEntries hfind ?_ default
  rwa [hplain.prune_eq]

/-! ## Values -/

/-- A natural number below a bound is read back. -/
theorem natural?_integer {bound n : Nat} (h : n < bound) :
    (Toml.integer n).natural? bound = some n := by
  simp [natural?, h]

theorem texts?_texts (items : List String) :
    (Toml.list (items.map .text)).texts? = some items := by
  rw [texts?]
  induction items with
  | nil => rfl
  | cons s items ih =>
    rw [List.map_cons, List.mapM_cons, ih]
    rfl

/-- The name of a requirement is read back. -/
theorem ContextRequirement.ofToml?_label (r : ContextRequirement) :
    ContextRequirement.ofToml? (.text r.label) = some r := by
  cases r <;> rfl

theorem BindMode.ofToml?_label (mode : BindMode) :
    BindMode.ofToml? (.text mode.label) = some mode := by
  cases mode <;> rfl

/-! ## Sections -/

/-- The fields of the engine's section. -/
def EngineOptions.fields (o : EngineOptions) : List (String × Toml) :=
  [("context_requirement", .text o.requirement.label), ("max_depth", .integer o.maxDepth)]

/-- Options without some fields have their defaults there. -/
theorem EngineOptions.ofToml?_prune {o : EngineOptions} (h : o.maxDepth < Settings.naturalBound)
    (gone : Path → Bool) :
    ofToml? (prune gone (.table o.fields)) =
      some ⟨if gone [.key "context_requirement"] then .matched else o.requirement,
        if gone [.key "max_depth"] then defaultMaxDepth else o.maxDepth⟩ := by
  have hrequirement := @fieldOr_pruneEntries _ gone o.fields "context_requirement" _ rfl
    ContextRequirement.ofToml? _ o.requirement.ofToml?_label .matched
  have hdepth := @fieldOr_pruneEntries _ gone o.fields "max_depth" _ rfl
    (natural? Settings.naturalBound) _ (natural?_integer h) defaultMaxDepth
  simp only [ofToml?, prune, fields?, Option.bind_eq_bind, Option.bind_some, hrequirement, hdepth]

/-- The fields of options have no fields of their own. -/
theorem EngineOptions.flat_fields (o : EngineOptions) : Flat o.fields := by
  refine @flat_of_keys ["context_requirement", "max_depth"] (by decide) _ rfl ?_
  rw [fields, List.forall_mem_cons, List.forall_mem_singleton]
  exact ⟨.text _, .natural _⟩

/-- The fields of the section of tables. -/
def CsvSettings.fields (c : CsvSettings) : List (String × Toml) :=
  [("separator", .text c.separator), ("has_header", .bool c.hasHeader)]

/-- Settings of tables without some fields have their defaults there. -/
theorem CsvSettings.ofToml?_prune (c : CsvSettings) (gone : Path → Bool) :
    ofToml? (prune gone (.table c.fields)) =
      some ⟨if gone [.key "separator"] then "," else c.separator,
        if gone [.key "has_header"] then true else c.hasHeader⟩ := by
  have hseparator := @fieldOr_pruneEntries _ gone c.fields "separator" _ rfl text? _ rfl ","
  have hheader := @fieldOr_pruneEntries _ gone c.fields "has_header" _ rfl bool? _ rfl true
  simp only [ofToml?, prune, fields?, Option.bind_eq_bind, Option.bind_some, hseparator, hheader]

theorem CsvSettings.flat_fields (c : CsvSettings) : Flat c.fields := by
  refine @flat_of_keys ["separator", "has_header"] (by decide) _ rfl ?_
  rw [fields, List.forall_mem_cons, List.forall_mem_singleton]
  exact ⟨.text _, .bool _⟩

namespace VariableSetting

/-- The fields of a variable's section. -/
def fields : VariableSetting → List (String × Toml)
  | pattern name source contextKey mode =>
      [("kind", .text "pattern"), ("name", .text name), ("pattern", .text source),
        ("context", .text contextKey), ("bind", .text mode.label)]
  | attributes name contextKey =>
      [("kind", .text "attribute"), ("name", .text name), ("context", .text contextKey)]

theorem toml_eq (v : VariableSetting) : v.toml = .table v.fields := by
  cases v <;> rfl

theorem flat_fields (v : VariableSetting) : Flat v.fields := by
  cases v with
  | pattern name source contextKey mode =>
    refine @flat_of_keys ["kind", "name", "pattern", "context", "bind"] (by decide) _ rfl ?_
    simp [fields, Toml.Plain.text]
  | attributes name contextKey =>
    refine @flat_of_keys ["kind", "name", "context"] (by decide) _ rfl ?_
    simp [fields, Toml.Plain.text]

/-- The variable with the default way to bind. -/
def withoutBind : VariableSetting → VariableSetting
  | pattern name source contextKey _ => pattern name source contextKey .index
  | attributes name contextKey => attributes name contextKey

/-- Only the way to bind may be deleted from the section of a variable. -/
theorem ofToml?_prune {gone : Path → Bool} (h : ∀ name, gone [.key name] = true → name = "bind")
    (v : VariableSetting) :
    ofToml? (prune gone v.toml) = some (if gone [.key "bind"] then v.withoutBind else v) := by
  have htext : ∀ name, name ≠ "bind" → ∀ {s}, findEntry name v.fields = some (.text s) →
      requiredField (pruneEntries gone v.fields) name text? = some s := by
    intro name hname s hfind
    have hkept : gone [.key name] = false := Bool.eq_false_iff.2 fun hgone => hname (h name hgone)
    exact requiredField_pruneEntries hfind rfl hkept
  rw [toml_eq, ofToml?, prune, entries?]
  cases v with
  | pattern name source contextKey mode =>
    have hkind := htext "kind" (by decide) rfl
    have hname := htext "name" (by decide) rfl
    have hpattern := htext "pattern" (by decide) rfl
    have hcontext := htext "context" (by decide) rfl
    have hmode := @fieldOr_pruneEntries _ gone (pattern name source contextKey mode).fields "bind" _
      rfl BindMode.ofToml? _ mode.ofToml?_label .index
    simp only [Option.bind_eq_bind, Option.bind_some, hkind, ofPatternFields?, hname, hpattern,
      hcontext, hmode]
    cases gone [.key "bind"] <;> rfl
  | attributes name contextKey =>
    have hkind := htext "kind" (by decide) rfl
    have hname := htext "name" (by decide) rfl
    have hcontext := htext "context" (by decide) rfl
    simp only [Option.bind_eq_bind, Option.bind_some, hkind, ofAttributeFields?, hname, hcontext]
    cases gone [.key "bind"] <;> rfl

end VariableSetting

namespace Settings

/-- Sections of variables from which only the way to bind may be deleted. -/
theorem mapM_pruneItems {gone : Path → Bool}
    (h : ∀ i name, gone [.item i, .key name] = true → name = "bind")
    (settings : List VariableSetting) (number : Nat) :
    (pruneItems gone number (settings.map VariableSetting.toml)).mapM VariableSetting.ofToml? =
      some (settings.mapIdx fun i v =>
        if gone [.item (number + i), .key "bind"] then v.withoutBind else v) := by
  induction settings generalizing number with
  | nil => rfl
  | cons v settings ih =>
    have hv := @VariableSetting.ofToml?_prune (inside gone (.item number)) (h number) v
    rw [List.map_cons, pruneItems, List.mapM_cons, hv, ih, List.mapIdx_cons]
    simp only [Option.bind_eq_bind, Option.bind_some, Nat.add_zero, Nat.add_assoc, Nat.add_comm 1]
    rfl

/-! ## Documents -/

/-- What has a default: every section, every field of the sections other than the variables,
and the way that a variable binds. -/
inductive IsOptional : Path → Prop where
  | part {part : String}
      (h : part ∈ ["engine", "functions", "cache", "csv", "debug", "variables"]) :
      IsOptional [.key part]
  | field {part name : String}
      (h : (part, name) ∈ [("engine", "context_requirement"), ("engine", "max_depth"),
        ("functions", "standard"), ("cache", "size"), ("csv", "separator"), ("csv", "has_header"),
        ("debug", "verbosity")]) :
      IsOptional [.key part, .key name]
  | bind (index : Nat) : IsOptional [.key "variables", .item index, .key "bind"]

/-- The settings with the defaults in the places of the fields that are gone, alone or with
their sections. -/
def without (s : Settings) (gone : Path → Bool) : Settings :=
  let default : Settings := {}
  let kept {α : Type} (part name : String) (field : Settings → α) : α :=
    if gone [.key part] || gone [.key part, .key name] then field default else field s
  { engine :=
      ⟨kept "engine" "context_requirement" (·.engine.requirement),
        kept "engine" "max_depth" (·.engine.maxDepth)⟩
    functions := kept "functions" "standard" (·.functions)
    cacheSize := kept "cache" "size" (·.cacheSize)
    csv := ⟨kept "csv" "separator" (·.csv.separator), kept "csv" "has_header" (·.csv.hasHeader)⟩
    verbosity := kept "debug" "verbosity" (·.verbosity)
    variableSettings :=
      if gone [.key "variables"] then default.variableSettings
      else s.variableSettings.mapIdx fun i v =>
        if gone [.key "variables", .item i, .key "bind"] then v.withoutBind else v }

/-- Settings without nothing are the settings. -/
theorem without_nothing (s : Settings) : s.without (fun _ => false) = s := by
  have hvariables : (s.variableSettings.mapIdx fun _ v => v) = s.variableSettings :=
    List.ext_getElem (by simp) (by simp)
  exact congrArg (fun v => { s with variableSettings := v }) hvariables

/-- A document of settings from which something optional was deleted is read as the settings
with the defaults in the places of what was deleted. -/
theorem ofToml?_prune {s : Settings} (hdepth : s.engine.maxDepth < naturalBound)
    (hcache : s.cacheSize < naturalBound) {gone : Path → Bool}
    (hgone : ∀ path, gone path = true → IsOptional path) :
    ofToml? (.table (pruneEntries gone s.entries)) = some (s.without gone) := by
  let default : Settings := {}
  have hengine := @fieldOr_pruneEntries _ gone s.entries "engine" _ rfl EngineOptions.ofToml? _
    (EngineOptions.ofToml?_prune hdepth _) default.engine
  have hfunctions := @fieldOr_pruneEntries _ gone s.entries "functions" _ rfl functionsOfToml? _
    (readField_prune (.texts s.functions) (texts?_texts _) "standard" _ []) default.functions
  have hsize := @fieldOr_pruneEntries _ gone s.entries "cache" _ rfl cacheSizeOfToml? _
    (readField_prune (.natural s.cacheSize) (natural?_integer hcache) "size" _ defaultCacheSize)
    default.cacheSize
  have hcsv := @fieldOr_pruneEntries _ gone s.entries "csv" _ rfl CsvSettings.ofToml? _
    (s.csv.ofToml?_prune _) default.csv
  have hlevel : ((Toml.integer s.verbosity.toNat).natural? 256).map UInt8.ofNat =
      some s.verbosity := by
    have hbound : s.verbosity.toNat < 256 := s.verbosity.toNat_lt
    rw [natural?_integer hbound, Option.map_some, UInt8.ofNat_toNat]
  have hverbosity := @fieldOr_pruneEntries _ gone s.entries "debug" _ rfl verbosityOfToml? _
    (@readField_prune _ _ (.natural s.verbosity.toNat)
      (fun v => (v.natural? 256).map UInt8.ofNat) _ hlevel "verbosity" _ 0) default.verbosity
  have hbind : ∀ i name, gone [.key "variables", .item i, .key name] = true → name = "bind" := by
    intro i name h
    cases hgone _ h
    rfl
  have hvariables := @fieldOr_pruneEntries _ gone s.entries "variables" _ rfl variablesOfToml? _
    (@mapM_pruneItems (inside gone (.key "variables")) hbind s.variableSettings 0)
    default.variableSettings
  simp only [ofToml?, entries?, Option.bind_eq_bind, Option.bind_some, hengine, hfunctions, hsize,
    hcsv, hverbosity, hvariables, default]
  simp only [without, Option.some.injEq, Settings.mk.injEq]
  refine ⟨?_, ?_, ?_, ?_, ?_, ?_⟩
  · cases gone [.key "engine"] <;> rfl
  · cases gone [.key "functions"] <;> rfl
  · cases gone [.key "cache"] <;> rfl
  · cases gone [.key "csv"] <;> rfl
  · cases gone [.key "debug"] <;> rfl
  · simp only [inside, Nat.zero_add]

/-- A section of one field can be written. -/
theorem part_field {name : String} (hname : IsBareKey name) {v : Toml} (hv : Toml.Plain v) :
    Part (.table [(name, v)]) := by
  refine .table (@flat_of_keys [name] ⟨?_, List.pairwise_singleton _ name⟩ _ rfl ?_)
  · exact List.forall_mem_singleton.2 hname
  · exact List.forall_mem_singleton.2 hv

theorem part_variables (settings : List VariableSetting) :
    Part (.list (settings.map VariableSetting.toml)) := by
  cases settings with
  | nil => exact .plain (.texts [])
  | cons v settings =>
    have hitems : (v :: settings).map VariableSetting.toml =
        ((v :: settings).map VariableSetting.fields).map .table := by
      rw [List.map_map]
      exact List.map_congr_left fun v _ => v.toml_eq
    rw [hitems]
    exact .tables (by simp) (List.forall_mem_map.2 fun v _ => v.flat_fields)

/-- Settings are a document of sections. -/
theorem sectioned_entries (s : Settings) : Sectioned s.entries := by
  obtain ⟨hbare, hdistinct⟩ := @bare_and_distinct
    ["engine", "functions", "cache", "csv", "debug", "variables"] (by decide) s.entries rfl
  refine ⟨hbare, hdistinct, ?_⟩
  simp only [entries, List.forall_mem_cons, List.not_mem_nil]
  refine ⟨.table s.engine.flat_fields, part_field (by decide) (.texts _),
    part_field (by decide) (.natural _), .table s.csv.flat_fields,
    part_field (by decide) (.natural _), part_variables _, by simp⟩

/-! ## Texts -/

/-- The settings of a document are those of every document with the same under its keys. -/
theorem ofToml?_congr {entries others : List (String × Toml)}
    (h : ∀ key, findEntry key entries = findEntry key others) :
    ofToml? (.table entries) = ofToml? (.table others) := by
  simp only [ofToml?, entries?, Option.bind_eq_bind, Option.bind_some, fieldOr, h]

/-- Every text of such a document is read as these settings. -/
theorem ofText_of_isTextOf {s : Settings} (hdepth : s.engine.maxDepth < naturalBound)
    (hcache : s.cacheSize < naturalBound) {gone : Path → Bool}
    (hgone : ∀ path, gone path = true → IsOptional path) {content : String}
    (h : IsTextOf content (pruneEntries gone s.entries)) :
    ofText content = .ok (s.without gone) := by
  rcases h with ⟨document, hread, hperm⟩
  have hdistinct := (s.sectioned_entries.pruneEntries gone).distinct
  have hsettings := ofToml?_congr (findEntry_perm hperm hdistinct)
  rw [ofToml?_prune hdepth hcache hgone] at hsettings
  rw [ofText, hread]
  simp only [hsettings]

end Settings
end Formulary
