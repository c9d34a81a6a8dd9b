import Formulary.Proofs.Settings.Defaults

/-!
# Settings files

A settings file that is loaded after the settings were saved gives them back.  Whoever
deletes something optional from such a file gets its default when the file is loaded, and
everything else as it was saved.

Main definitions:

- `World.KeepsFiles`: a file has the content that was written last.
- `World.described`: a disk that is described by what its files hold.

Main results:

- Theorem `World.described_keepsFiles`: a described disk keeps its files.
- Theorem `Settings.load_saved`: what is loaded after settings were saved, and after
  something optional was deleted from the file.
-/

namespace Formulary

open Toml

/-! ## Disks -/

/-- After a file was written, its content is what was written. -/
structure World.KeepsFiles {m : Type → Type} [Monad m] (w : World m) : Prop where
  read_written {α : Type} (path content : String) (next : Option String → m α) (refused : m α) :
    (do if ← w.write path content then next (← w.read path) else refused) =
      (do if ← w.write path content then next (some content) else refused)

/-- A disk that is described by what its files hold.  Some of them may be write-protected. -/
def World.described (isWritable : String → Bool) : World (StateM (String → Option String)) where
  read := fun path files => (files path, files)
  isThere := fun path files => ((files path).isSome, files)
  write := fun path content files =>
    (isWritable path,
      if isWritable path then fun other => if other = path then some content else files other
      else files)
  directory := return "/"
  environment? := fun _ => return none
  report := fun _ => return ()

/-- A described world keeps its files. -/
theorem World.described_keepsFiles (isWritable : String → Bool) :
    (described isWritable).KeepsFiles := by
  refine ⟨fun path content next refused => ?_⟩
  funext files
  cases hpath : isWritable path <;> simp [described, hpath, bind, StateT.bind]

/-! ## Settings files -/

namespace Settings

variable {m : Type → Type} [Monad m]

/-- Saves settings and loads the file. -/
def saveAndLoad (w : World m) (s : Settings) (path : String) :
    m (Except SessionError Settings) := do
  match ← save w s path with
  | .error e => return .error e
  | .ok () => ofFile w path

/-- Writes a text into a file and loads the settings in it. -/
def writeAndLoad (w : World m) (content path : String) : m (Except SessionError Settings) := do
  if ← w.write path content then ofFile w path
  else return .error (.unwritableSettings path)

/-- Saving and loading settings writes and reads their text. -/
theorem saveAndLoad_eq [LawfulMonad m] (w : World m) {s : Settings} {content : String}
    (h : s.write? = some content) (path : String) :
    saveAndLoad w s path = writeAndLoad w content path := by
  simp only [saveAndLoad, save, writeAndLoad, h, bind_assoc]
  refine bind_congr fun written => ?_
  cases written <;> simp

/-- The settings that are loaded are those of the text that was written. -/
theorem writeAndLoad_eq {w : World m} (hw : w.KeepsFiles) {content : String} {s : Settings}
    (h : ofText content = .ok s) (path : String) :
    writeAndLoad w content path = (do
      if ← w.write path content then return .ok s
      else return .error (.unwritableSettings path)) := by
  refine (hw.read_written path content _ _).trans ?_
  simp only [h]
  rfl

/-- Settings whose numbers fit into a document are loaded as they were saved, unless the file
cannot be written.  When something optional is deleted from their document, what is left has
a text, and a file with any text of it is loaded as the settings with the defaults in the
places of what was deleted. -/
theorem load_saved [LawfulMonad m] {w : World m} (hw : w.KeepsFiles) {s : Settings}
    (hdepth : s.engine.maxDepth < integerBound) (hcache : s.cacheSize < integerBound)
    (path : String) :
    saveAndLoad w s path = (do
      if ← w.write path (Toml.write s.entries) then return .ok s
      else return .error (.unwritableSettings path)) ∧
    ∀ gone : Path → Bool, (∀ place, gone place = true → IsOptional place) →
      IsTextOf (Toml.write (pruneEntries gone s.entries)) (pruneEntries gone s.entries) ∧
      ∀ content, IsTextOf content (pruneEntries gone s.entries) →
        writeAndLoad w content path = (do
          if ← w.write path content then return .ok (s.without gone)
          else return .error (.unwritableSettings path)) := by
  have hbound : integerBound ≤ naturalBound := by decide
  have htext := @ofText_of_isTextOf s (Nat.lt_of_lt_of_le hdepth hbound)
    (Nat.lt_of_lt_of_le hcache hbound)
  constructor
  · have hwrite : s.write? = some (Toml.write s.entries) := if_pos ⟨hdepth, hcache⟩
    have hnone := @htext (fun _ => false) (by simp) (Toml.write s.entries)
    rw [pruneEntries_nothing, without_nothing] at hnone
    rw [saveAndLoad_eq w hwrite]
    exact writeAndLoad_eq hw (hnone s.sectioned_entries.isTextOf_write) path
  · intro gone hgone
    refine ⟨(s.sectioned_entries.pruneEntries gone).isTextOf_write, fun content hcontent => ?_⟩
    exact writeAndLoad_eq hw (htext hgone hcontent) path

/-- Settings with quotes and backslashes in their texts, the same without a section, a field
and the way that a variable binds, and a file that is write-protected. -/
theorem load_saved_quotes :
    let disk := World.described (· != "/etc/parseo.toml")
    let pattern := VariableSetting.pattern "it's" "(\\d)|\"'" "m" .key
    let s : Settings :=
      { engine := ⟨.registered, 9223372036854775807⟩, functions := ["max", "*"], cacheSize := 7,
        csv := ⟨"\"\n\\", false⟩, verbosity := 3,
        variableSettings := [.attributes "a" "b", pattern] }
    let gone : Path → Bool := fun place =>
      place ∈ [[.key "csv"], [.key "engine", .key "max_depth"],
        [.key "variables", .item 1, .key "bind"]]
    (saveAndLoad disk s "parseo.toml" fun _ => none).1 = .ok s ∧
    (saveAndLoad disk s "/etc/parseo.toml" fun _ => none).1 =
      .error (.unwritableSettings "/etc/parseo.toml") ∧
    (writeAndLoad disk (Toml.write (pruneEntries gone s.entries)) "parseo.toml" fun _ => none).1 =
      .ok { s with
        engine := ⟨.registered, defaultMaxDepth⟩, csv := {}
        variableSettings := [.attributes "a" "b", .pattern "it's" "(\\d)|\"'" "m" .index] } := by
  intro disk pattern s gone
  have hdisk : disk.KeepsFiles := World.described_keepsFiles _
  have hgone : ∀ place, gone place = true → IsOptional place := by
    intro place hplace
    simp only [gone, decide_eq_true_eq, List.mem_cons, List.not_mem_nil, or_false] at hplace
    rcases hplace with rfl | rfl | rfl
    · exact .part (by decide)
    · exact .field (by decide)
    · exact .bind 1
  have hdepth : s.engine.maxDepth < integerBound := by decide
  have hcache : s.cacheSize < integerBound := by decide
  obtain ⟨hsaved, hdeleted⟩ := load_saved hdisk hdepth hcache "parseo.toml"
  obtain ⟨hrefused, -⟩ := load_saved hdisk hdepth hcache "/etc/parseo.toml"
  obtain ⟨hwrite, hload⟩ := hdeleted gone hgone
  refine ⟨?_, ?_, ?_⟩
  · rw [hsaved]
    rfl
  · rw [hrefused]
    rfl
  · rw [hload _ hwrite]
    rfl

end Settings
end Formulary
