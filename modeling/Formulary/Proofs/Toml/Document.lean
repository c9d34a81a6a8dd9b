import Formulary.Proofs.Toml.Value
import Formulary.Proofs.Value.Entries

/-!
# Documents of sections

A document of settings has plain entries, tables of plain entries, and lists of such
tables.  It is written line by line, and each line that is read back adds to the draft
what it was written for.

Main definitions:

- `Flat` and `Sectioned`: tables of plain entries, and documents of them.
- `Leads`: reading some lines leads from one draft to another.
- `Opens`: the table that a header leads to.

Main results:

- Theorem `leads_flat`: the lines of plain entries add them to the table of the header.
- Theorem `through_sections`: the sections of a document add its tables.
- Theorem `read?_write`: a document is read back, with its plain entries in front.
-/

namespace Formulary
namespace Toml

/-! ## Keys -/

/-- The key is written without quotes. -/
def IsBareKey (key : String) : Prop :=
  key.toList ≠ [] ∧ ∀ c ∈ key.toList, isBareKeyChar c = true

/-- A key is bare if it has characters and they are those of bare keys. -/
theorem isBareKey_iff {key : String} :
    (!key.toList.isEmpty && key.toList.all isBareKeyChar) = true ↔ IsBareKey key := by
  simp [IsBareKey]

instance (key : String) : Decidable (IsBareKey key) :=
  decidable_of_iff _ isBareKey_iff

theorem IsBareKey.exists_toList_eq {key : String} (h : IsBareKey key) :
    ∃ c k, key.toList = c :: k ∧ isBareKeyChar c = true := by
  obtain ⟨hne, hall⟩ := h
  cases hlist : key.toList with
  | nil => exact absurd hlist hne
  | cons c k => exact ⟨c, k, rfl, hall c (hlist ▸ List.mem_cons_self ..)⟩

theorem IsBareKey.writeKey_eq {key : String} (h : IsBareKey key) : writeKey key = key := by
  have hempty : key.isEmpty = false := by
    rw [Bool.eq_false_iff]
    intro hempty
    rw [String.isEmpty_iff] at hempty
    exact h.1 (by rw [hempty]; rfl)
  have hall : key.toList.all isBareKeyChar = true := List.all_eq_true.2 h.2
  rw [writeKey, hempty, hall]
  rfl

/-- A key is read up to a character that is not of its kind. -/
theorem IsBareKey.readKey {key : String} (h : IsBareKey key) {c : Char} {rest after : List Char}
    (hc : isBareKeyChar c = false) (hafter : skipSpace (c :: rest) = after)
    (hdot : after.head? ≠ some '.') (fuel : Nat) :
    readKey (fuel + 1) (key.toList ++ c :: rest) = some ([key], after) := by
  have hkey : (key.toList ++ c :: rest).takeWhile isBareKeyChar = key.toList := by
    rw [List.takeWhile_append_of_pos h.2]
    simp [hc]
  have hfront : skipSpace (key.toList ++ c :: rest) = key.toList ++ c :: rest := by
    rcases h.exists_toList_eq with ⟨d, s, heq, hd⟩
    rw [heq]
    exact skipSpace_visible (visible_of_bare hd).1 _
  have hpart : readKeyPart (key.toList ++ c :: rest) = some (key, c :: rest) := by
    have hempty : key.toList.isEmpty = false := by simpa using h.1
    simp [readKeyPart, hkey, hempty, String.ofList_toList]
  simp only [Toml.readKey, hfront, hpart, Option.bind_eq_bind, Option.bind_some, hafter]
  split
  · exact absurd rfl hdot
  · rfl

/-- Entries whose keys can be written without quotes, and no key of which comes twice. -/
theorem bare_and_distinct {keys : List String} (h : (∀ key ∈ keys, IsBareKey key) ∧ keys.Nodup)
    {entries : List (String × Toml)} (hkeys : entries.map Prod.fst = keys) :
    (∀ e ∈ entries, IsBareKey e.1) ∧ (entries.map Prod.fst).Nodup := by
  subst hkeys
  exact ⟨fun e he => h.1 e.1 (List.mem_map_of_mem he), h.2⟩

/-! ## Lines -/

/-- The text is read to its end, and leads from one draft to another. -/
def Finishes (d : Draft) (s : List Char) (d' : Draft) : Prop :=
  ∀ fuel, s.length < fuel → readLines fuel d s = some d'

theorem finishes_nil (d : Draft) : Finishes d [] d := by
  intro fuel hfuel
  obtain ⟨fuel, rfl⟩ : ∃ k, fuel = k + 1 := ⟨fuel - 1, by omega⟩
  rfl

/-- Reading the lines leads from one draft to another, whatever follows.  They do not begin
with the mark that a text may have at its front. -/
structure Leads (d : Draft) (lines : List Char) (d' : Draft) : Prop where
  unmarked : lines.head? ≠ some '\ufeff'
  finishes {rest : List Char} {d'' : Draft} (h : Finishes d' rest d'') :
    Finishes d (lines ++ rest) d''

theorem Leads.refl (d : Draft) : Leads d [] d :=
  ⟨by simp, fun h => h⟩

/-- Lines one after the other lead from draft to draft. -/
theorem Leads.trans {d d' d'' : Draft} {lines more : List Char} (h : Leads d lines d')
    (h' : Leads d' more d'') : Leads d (lines ++ more) d'' := by
  refine ⟨?_, fun hrest => ?_⟩
  · cases lines with
    | nil => exact h'.unmarked
    | cons c lines => exact h.unmarked
  · rw [List.append_assoc]
    exact h.finishes (h'.finishes hrest)

/-- An empty line adds nothing. -/
theorem leads_newline (d : Draft) : Leads d ['\n'] d := by
  refine ⟨by decide, fun {rest d''} hrest fuel hfuel => ?_⟩
  obtain ⟨fuel, rfl⟩ : ∃ k, fuel = k + 1 := ⟨fuel - 1, by omega⟩
  exact hrest (fuel + 1) (by simp at hfuel; omega)

/-- A line leads to what it adds, with the rest of the text behind it. -/
theorem leads_line {d d' : Draft} {c : Char} {line : List Char} (hc : IsVisible c)
    (hmark : c ≠ '\ufeff')
    (hread : ∀ rest, readLine d (c :: (line ++ '\n' :: rest)) = some (d', '\n' :: rest)) :
    Leads d (c :: (line ++ ['\n'])) d' := by
  refine ⟨by simpa using hmark, fun {rest d''} hrest fuel hfuel => ?_⟩
  obtain ⟨fuel, rfl⟩ : ∃ k, fuel = k + 1 := ⟨fuel - 1, by omega⟩
  have htext : c :: (line ++ ['\n']) ++ rest = c :: (line ++ '\n' :: rest) := by simp
  have hend : lineEnd? ('\n' :: rest) = some rest := rfl
  have hlength : rest.length < fuel := by
    simp only [List.length_append, List.length_cons] at hfuel
    omega
  rw [htext, readLines, skipLines_visible hc]
  simp only [hread, Option.bind_eq_bind, Option.bind_some, hend]
  exact hrest fuel hlength

/-! ## Entries of a table -/

/-- The entries of a table without further tables in it, as they stand in a draft. -/
def closedEntries (entries : List (String × Toml)) : Outline.Entries :=
  entries.map fun e => (e.1, .closed e.2)

theorem tomlEntries_closed (entries : List (String × Toml)) :
    Outline.tomlEntries (closedEntries entries) = entries := by
  induction entries with
  | nil => rfl
  | cons e entries ih => exact congrArg (e :: ·) ih

theorem map_fst_closed (entries : List (String × Toml)) :
    (closedEntries entries).map Prod.fst = entries.map Prod.fst := by
  rw [closedEntries, List.map_map]
  rfl

theorem tomlEntries_append (entries more : Outline.Entries) :
    Outline.tomlEntries (entries ++ more) =
      Outline.tomlEntries entries ++ Outline.tomlEntries more := by
  induction entries with
  | nil => rfl
  | cons e entries ih => exact congrArg ((e.1, e.2.toml) :: ·) ih

/-- The header leads to a table, which `fill` puts into the draft. -/
def Opens (header : List String) (fill : Outline.Entries → Outline.Entries) : Prop :=
  ∀ step entries, Outline.change step header (fill entries) = (step entries).map fill

theorem opens_root : Opens [] id := by
  intro step entries
  rw [Option.map_id]
  rfl

theorem inLast_append (step : Outline.Entries → Option Outline.Entries)
    (elements : List Outline.Entries) (entries : Outline.Entries) :
    Outline.inLast step (elements ++ [entries]) =
      (step entries).map fun entries => elements ++ [entries] := by
  induction elements with
  | nil => rfl
  | cons first elements ih =>
    have hne : elements ++ [entries] = [] → False := by simp
    rw [List.cons_append, Outline.inLast, ih]
    · cases step entries <;> rfl
    · exact hne

section Last

variable {key : String} {front : Outline.Entries} (hkey : key ∉ front.map Prod.fst)

include hkey

theorem findEntry_last (part : Outline) : findEntry key (front ++ [(key, part)]) = some part := by
  rw [findEntry_append, findEntry_eq_none hkey, Option.none_or, findEntry, if_pos rfl]

theorem putEntry_last (part part' : Outline) :
    putEntry key part' (front ++ [(key, part)]) = front ++ [(key, part')] := by
  rw [putEntry_append hkey, putEntry, if_pos rfl]

/-- A section at the end is open. -/
theorem opens_table (origin : Origin) :
    Opens [key] fun entries => front ++ [(key, .table origin entries)] := by
  intro step entries
  simp only [Outline.change, findEntry_last hkey, putEntry_last hkey, Option.bind_eq_bind]
  cases step entries <;> rfl

theorem opens_last (elements : List Outline.Entries) :
    Opens [key] fun entries => front ++ [(key, .tables (elements ++ [entries]))] := by
  intro step entries
  have hchange : Outline.change step [] = step := rfl
  rw [Outline.change, findEntry_last hkey, hchange]
  simp only [inLast_append, Option.bind_eq_bind]
  cases step entries with
  | none => rfl
  | some entries => exact congrArg some (putEntry_last hkey _ _)

end Last

/-- The line of an entry. -/
def entryLine (e : String × Toml) : List Char :=
  e.1.toList ++ ' ' :: '=' :: ' ' :: ((writeValue e.2).toList ++ ['\n'])

/-- A new key comes in at the end. -/
theorem insert_new {key : String} {entries : Outline.Entries} (h : key ∉ entries.map Prod.fst)
    (v : Toml) : Outline.insert v [key] entries = some (entries ++ [(key, .closed v)]) := by
  rw [Outline.insert, findEntry_eq_none h]

/-- A line that does not begin with a bracket is an entry. -/
theorem readLine_entry {s : List Char} (hs : s.head? ≠ some '[') (d : Draft) :
    readLine d s = (do
      let (path, rest) ← readKey (s.length + 1) s
      let '=' :: rest := rest | none
      let (v, rest) ← readValue maxNesting (skipSpace rest)
      let entries ← Outline.change (Outline.insert v path) d.header d.entries
      some (⟨entries, d.header⟩, rest)) := by
  unfold readLine
  split
  · exact absurd rfl hs
  · exact absurd rfl hs
  · rfl

section Entry

variable {header : List String} {fill : Outline.Entries → Outline.Entries}
  (hopens : Opens header fill) {key : String} (hkey : IsBareKey key) {v : Toml} (hvalue : Plain v)
  {entries : Outline.Entries} (hnew : key ∉ entries.map Prod.fst)

include hopens hkey hvalue hnew

/-- An entry is read up to the end of its line. -/
theorem readLine_plain (rest : List Char) :
    readLine ⟨fill entries, header⟩
        (key.toList ++ ' ' :: '=' :: ' ' :: ((writeValue v).toList ++ '\n' :: rest)) =
      some (⟨fill (entries ++ [(key, .closed v)]), header⟩, '\n' :: rest) := by
  have hread := hvalue.readValue 78 rest
  have hspace : skipSpace (' ' :: ((writeValue v).toList ++ '\n' :: rest)) =
      (writeValue v).toList ++ '\n' :: rest := hvalue.skipSpace _
  have hafter : skipSpace (' ' :: '=' :: ' ' :: ((writeValue v).toList ++ '\n' :: rest)) =
      '=' :: ' ' :: ((writeValue v).toList ++ '\n' :: rest) := rfl
  have hpath := hkey.readKey (show isBareKeyChar ' ' = false from rfl) hafter (by simp)
  have hchange := hopens (Outline.insert v [key]) entries
  rw [insert_new hnew] at hchange
  have hhead : (key.toList ++ ' ' :: '=' :: ' ' :: ((writeValue v).toList ++ '\n' :: rest)).head? ≠
      some '[' := by
    rcases hkey.exists_toList_eq with ⟨c, k, heq, hc⟩
    rw [heq]
    exact fun hbracket => (visible_of_bare hc).2 (Option.some.inj hbracket)
  rw [readLine_entry hhead, hpath]
  simp only [Option.bind_eq_bind, Option.bind_some, hspace]
  rw [show maxNesting = 78 + 2 from rfl, hread]
  simp only [Option.bind_some, hchange, Option.map_some]

/-- The line of an entry adds it to the table of the header. -/
theorem leads_entry :
    Leads ⟨fill entries, header⟩ (entryLine (key, v))
      ⟨fill (entries ++ [(key, .closed v)]), header⟩ := by
  have hread := readLine_plain hopens hkey hvalue hnew
  rcases hkey.exists_toList_eq with ⟨c, k, heq, hc⟩
  have hmark : c ≠ '\ufeff' := by
    rintro rfl
    cases hc
  have hline : entryLine (key, v) =
      c :: (k ++ ' ' :: '=' :: ' ' :: (writeValue v).toList ++ ['\n']) := by
    simp [entryLine, heq]
  rw [hline]
  apply leads_line (visible_of_bare hc).1 hmark
  intro rest
  simpa [heq] using hread rest

end Entry

/-- The lines of some entries. -/
def entryLines (entries : List (String × Toml)) : List Char :=
  entries.flatMap entryLine

/-- The lines of plain entries add them to the table of the header. -/
theorem leads_flat {header : List String} {fill : Outline.Entries → Outline.Entries}
    (hopens : Opens header fill) {entries : List (String × Toml)}
    (hbare : ∀ e ∈ entries, IsBareKey e.1) (hplain : ∀ e ∈ entries, Plain e.2)
    {before : Outline.Entries}
    (hdistinct : (before.map Prod.fst ++ entries.map Prod.fst).Nodup) :
    Leads ⟨fill before, header⟩ (entryLines entries)
      ⟨fill (before ++ closedEntries entries), header⟩ := by
  induction entries generalizing before with
  | nil =>
    rw [closedEntries, List.map_nil, List.append_nil]
    exact .refl _
  | cons e entries ih =>
    rw [List.forall_mem_cons] at hbare hplain
    have hnew : e.1 ∉ before.map Prod.fst := by
      intro hmem
      exact (List.nodup_append.1 hdistinct).2.2 _ hmem _ (List.mem_cons_self ..) rfl
    have hrest := @ih hbare.2 hplain.2 (before ++ [(e.1, .closed e.2)]) (by simpa using hdistinct)
    have hall := (leads_entry hopens hbare.1 hplain.1 hnew).trans hrest
    rwa [List.append_assoc] at hall

/-! ## Headers -/

section Header

variable {key : String} (hkey : IsBareKey key)

include hkey

/-- A header of a bare key is read. -/
theorem readHeader_bare {closing rest : List Char} (hclosing : closing.head? = some ']') :
    readHeader closing (key.toList ++ (closing ++ rest)) = some ([key], rest) := by
  cases closing with
  | nil => cases hclosing
  | cons c closing =>
    cases hclosing
    have hafter : skipSpace (']' :: (closing ++ rest)) = ']' :: (closing ++ rest) := rfl
    have hpath := hkey.readKey (show isBareKeyChar ']' = false from rfl) hafter (by simp)
    simp only [readHeader, List.cons_append, hpath, Option.bind_eq_bind, Option.bind_some]
    rw [if_pos]
    · simp
    · simp

/-- The line of a header opens its section. -/
theorem leads_declared {d : Draft} {declared : Outline.Entries}
    (h : Outline.declare [key] d.entries = some declared) :
    Leads d ('[' :: (key.toList ++ [']', '\n'])) ⟨declared, [key]⟩ := by
  have hline : '[' :: (key.toList ++ [']', '\n']) = '[' :: (key.toList ++ [']'] ++ ['\n']) := by
    simp
  rw [hline]
  apply leads_line visible_opening (by decide)
  intro rest
  have hpath := @readHeader_bare key hkey [']'] ('\n' :: rest) rfl
  rw [List.append_assoc]
  unfold readLine
  split
  · next heq =>
    rcases hkey.exists_toList_eq with ⟨c, k, hlist, hc⟩
    rw [hlist] at heq
    exact absurd (List.cons.inj (List.cons.inj heq).2).1 (visible_of_bare hc).2
  · next heq =>
    cases heq
    simp only [hpath, Option.bind_eq_bind, Option.bind_some, h]
  · next hbracket => exact (hbracket _ rfl).elim

/-- The line of a doubled header opens a new element. -/
theorem leads_appended {d : Draft} {appended : Outline.Entries}
    (h : Outline.append [key] d.entries = some appended) :
    Leads d ('[' :: '[' :: (key.toList ++ [']', ']', '\n'])) ⟨appended, [key]⟩ := by
  have hline : '[' :: '[' :: (key.toList ++ [']', ']', '\n']) =
      '[' :: ('[' :: (key.toList ++ [']', ']']) ++ ['\n']) := by
    simp
  rw [hline]
  apply leads_line visible_opening (by decide)
  intro rest
  have hpath := @readHeader_bare key hkey [']', ']'] ('\n' :: rest) rfl
  rw [List.cons_append, List.append_assoc, readLine]
  simp only [hpath, Option.bind_eq_bind, Option.bind_some, h]

end Header

/-! ## Tables -/

/-- The entries of a table have keys without quotes, no key comes twice, and all are plain. -/
structure Flat (entries : List (String × Toml)) : Prop where
  bare : ∀ e ∈ entries, IsBareKey e.1
  distinct : (entries.map Prod.fst).Nodup
  plain : ∀ e ∈ entries, Plain e.2

/-- Entries under distinct bare keys are flat if they are plain. -/
theorem flat_of_keys {keys : List String} (h : (∀ key ∈ keys, IsBareKey key) ∧ keys.Nodup)
    {entries : List (String × Toml)} (hkeys : entries.map Prod.fst = keys)
    (hplain : ∀ e ∈ entries, Plain e.2) : Flat entries :=
  ⟨(bare_and_distinct h hkeys).1, (bare_and_distinct h hkeys).2, hplain⟩

/-- The plain entries of a table, line by line. -/
theorem toList_plainLines {entries : List (String × Toml)} (h : ∀ e ∈ entries, IsBareKey e.1) :
    (plainLines entries).toList = entryLines (entries.filter fun e => isPlainEntry e.2) := by
  have hline : ∀ e ∈ entries,
      (writeKey e.1 ++ " = " ++ writeValue e.2 ++ "\n").toList = entryLine e := by
    intro e he
    simp [entryLine, (h e he).writeKey_eq]
  rw [plainLines, String.toList_join, List.flatMap_map, entryLines]
  exact congrArg List.flatten (List.map_congr_left fun e he => hline e (List.mem_filter.1 he).1)

/-- All entries of a flat table are plain. -/
theorem Flat.filter_eq {entries : List (String × Toml)} (h : Flat entries) :
    entries.filter (fun e => isPlainEntry e.2) = entries :=
  List.filter_eq_self.2 fun e he => (h.plain e he).isPlainEntry

/-- The lines of a table. -/
def tableLines (key : String) (entries : List (String × Toml)) : List Char :=
  '[' :: (key.toList ++ [']', '\n']) ++ entryLines entries

/-- The lines of an element of a list of tables. -/
def elementLines (key : String) (entries : List (String × Toml)) : List Char :=
  '[' :: '[' :: (key.toList ++ [']', ']', '\n']) ++ entryLines entries

section Tables

variable {key : String} (hkey : IsBareKey key) {before : Outline.Entries}
  (hnew : key ∉ before.map Prod.fst) {entries : List (String × Toml)} (h : Flat entries)

include hkey hnew h

/-- The header of a table and its entries add the table. -/
theorem leads_table (header : List String) :
    Leads ⟨before, header⟩ (tableLines key entries)
      ⟨before ++ [(key, .table .declared (closedEntries entries))], [key]⟩ := by
  have hdeclare : Outline.declare [key] before =
      some (before ++ [(key, .table .declared [])]) := by
    simp [Outline.declare, Outline.change, Outline.declareKey, findEntry_eq_none hnew]
  have hheader := @leads_declared key hkey ⟨before, header⟩ _ hdeclare
  exact hheader.trans (leads_flat (opens_table hnew .declared) h.bare h.plain h.distinct)

/-- The header of an element of a list of tables and its entries add the element. -/
theorem leads_element {d : Draft} {elements : List Outline.Entries}
    (happend : Outline.append [key] d.entries =
      some (before ++ [(key, .tables (elements ++ [[]]))])) :
    Leads d (elementLines key entries)
      ⟨before ++ [(key, .tables (elements ++ [closedEntries entries]))], [key]⟩ := by
  have hheader := @leads_appended key hkey d _ happend
  exact hheader.trans (leads_flat (opens_last hnew elements) h.bare h.plain h.distinct)

end Tables

/-! ## Sections -/

/-- Reading blocks of lines, one after the other, leads from one draft to another. -/
inductive Through : Draft → List (List Char) → Draft → Prop where
  | nil (d : Draft) : Through d [] d
  | cons {d d' d'' : Draft} {block : List Char} {blocks : List (List Char)} (h : Leads d block d')
      (hrest : Through d' blocks d'') : Through d (block :: blocks) d''

theorem Through.append {d d' d'' : Draft} {blocks more : List (List Char)}
    (h : Through d blocks d') (h' : Through d' more d'') : Through d (blocks ++ more) d'' := by
  induction h with
  | nil => exact h'
  | cons h _ ih => exact .cons h (ih h')

/-- There may be empty lines between blocks. -/
theorem Through.leads {d d' : Draft} {blocks : List (List Char)} (h : Through d blocks d') :
    Leads d (['\n'].intercalate blocks) d' := by
  induction h with
  | nil d => exact .refl d
  | @cons d d' d'' block blocks h hrest ih =>
    cases blocks with
    | nil =>
      cases hrest
      simpa [List.intercalate] using h
    | cons second blocks =>
      have hall := h.trans ((leads_newline d').trans ih)
      simpa [List.intercalate] using hall

/-- The elements of a list of tables are added to those that are there. -/
theorem through_elements {key : String} (hkey : IsBareKey key) {before : Outline.Entries}
    (hnew : key ∉ before.map Prod.fst) {items : List (List (String × Toml))}
    (h : ∀ entries ∈ items, Flat entries) (elements : List Outline.Entries) :
    Through ⟨before ++ [(key, .tables elements)], [key]⟩ (items.map (elementLines key))
      ⟨before ++ [(key, .tables (elements ++ items.map closedEntries))], [key]⟩ := by
  induction items generalizing elements with
  | nil =>
    rw [List.map_nil, List.map_nil, List.append_nil]
    exact .nil _
  | cons entries items ih =>
    rw [List.forall_mem_cons] at h
    have happend : Outline.append [key] (before ++ [(key, .tables elements)]) =
        some (before ++ [(key, .tables (elements ++ [[]]))]) := by
      simp [Outline.append, Outline.change, Outline.appendKey, findEntry_last hnew,
        putEntry_last hnew]
    have hrest := ih h.2 (elements ++ [closedEntries entries])
    rw [List.append_assoc] at hrest
    exact .cons (leads_element hkey hnew h.1 happend) hrest

/-- The values of a document: plain ones, tables of plain entries, and lists of such tables. -/
inductive Part : Toml → Prop where
  | plain {v : Toml} (h : Plain v) : Part v
  | table {entries : List (String × Toml)} (h : Flat entries) : Part (.table entries)
  | tables {items : List (List (String × Toml))} (hne : items ≠ [])
      (h : ∀ entries ∈ items, Flat entries) : Part (.list (items.map .table))

/-- No table in a table without further tables has sections of its own. -/
theorem Flat.entrySections_eq {entries : List (String × Toml)} (h : Flat entries)
    (start : String) : entrySections start entries = [] := by
  have hplain := h.plain
  clear h
  induction entries with
  | nil => rfl
  | cons e entries ih =>
    rw [List.forall_mem_cons] at hplain
    obtain ⟨key, v⟩ := e
    rw [entrySections, if_pos hplain.1.isPlainEntry, List.nil_append]
    exact ih hplain.2

/-- A flat table is written as one section. -/
theorem Flat.sections_eq {entries : List (String × Toml)} (h : Flat entries) (key : String) :
    (sections key (.table entries)).map String.toList = [tableLines key entries] := by
  rw [sections, h.entrySections_eq]
  simp [tableLines, toList_plainLines h.bare, h.filter_eq]

/-- A list of flat tables is written as one element after the other. -/
theorem itemSections_eq (key : String) {items : List (List (String × Toml))}
    (h : ∀ entries ∈ items, Flat entries) :
    (itemSections key (items.map .table)).map String.toList = items.map (elementLines key) := by
  induction items with
  | nil => rfl
  | cons entries items ih =>
    rw [List.forall_mem_cons] at h
    rw [List.map_cons, itemSections, h.1.entrySections_eq]
    simp [elementLines, toList_plainLines h.1.bare, h.1.filter_eq, ih h.2]

theorem tomlTables_closed (items : List (List (String × Toml))) :
    Outline.tomlTables (items.map closedEntries) = items.map .table := by
  induction items with
  | nil => rfl
  | cons entries items ih =>
    rw [List.map_cons, List.map_cons, Outline.tomlTables, tomlEntries_closed, ih]

/-- The sections of a part that is not plain add it. -/
theorem Part.through {v : Toml} (h : Part v) (hsection : isPlainEntry v = false) {key : String}
    (hkey : IsBareKey key) {before : Outline.Entries} (hnew : key ∉ before.map Prod.fst)
    (header : List String) :
    ∃ part, part.toml = v ∧
      Through ⟨before, header⟩ ((sections key v).map String.toList)
        ⟨before ++ [(key, part)], [key]⟩ := by
  cases h with
  | plain h =>
    rw [h.isPlainEntry] at hsection
    cases hsection
  | @table entries h =>
    refine ⟨.table .declared (closedEntries entries), ?_, ?_⟩
    · rw [Outline.toml, tomlEntries_closed]
    · rw [h.sections_eq]
      exact .cons (leads_table hkey hnew h header) (.nil _)
  | @tables items hne h =>
    refine ⟨.tables (items.map closedEntries), ?_, ?_⟩
    · rw [Outline.toml, tomlTables_closed]
    · rw [sections, itemSections_eq key h]
      cases items with
      | nil => exact absurd rfl hne
      | cons entries items =>
        rw [List.forall_mem_cons] at h
        have happend : Outline.append [key] before =
            some (before ++ [(key, .tables ([] ++ [[]]))]) := by
          simp [Outline.append, Outline.change, Outline.appendKey, findEntry_eq_none hnew]
        have hfirst := @leads_element key hkey before hnew entries h.1 ⟨before, header⟩ [] happend
        exact .cons hfirst (through_elements hkey hnew h.2 [closedEntries entries])

/-! ## Documents -/

/-- The entries of a document have keys without quotes, no key comes twice, and all values are
parts of documents. -/
structure Sectioned (entries : List (String × Toml)) : Prop where
  bare : ∀ e ∈ entries, IsBareKey e.1
  distinct : (entries.map Prod.fst).Nodup
  parts : ∀ e ∈ entries, Part e.2

/-- The plain entries among the parts are those with plain values. -/
theorem Part.plain_iff {v : Toml} (h : Part v) : isPlainEntry v = true ↔ Plain v := by
  refine ⟨fun hplain => ?_, Plain.isPlainEntry⟩
  cases h with
  | plain h => exact h
  | table => cases hplain
  | @tables items hne h =>
    cases items with
    | nil => exact absurd rfl hne
    | cons entries items =>
      have htables : isTableList (.list ((entries :: items).map .table)) = true := by
        simp [isTableList, isTable, entries?]
      rw [isPlainEntry, htables, Bool.not_true, Bool.and_false] at hplain
      cases hplain

/-- The sections of a document add the entries that are not plain. -/
theorem through_sections {entries : List (String × Toml)} (hbare : ∀ e ∈ entries, IsBareKey e.1)
    (hparts : ∀ e ∈ entries, Part e.2) {before : Outline.Entries} (header : List String)
    (hdistinct : (before.map Prod.fst ++
      (entries.filter fun e => !isPlainEntry e.2).map Prod.fst).Nodup) :
    ∃ d, Through ⟨before, header⟩ ((entrySections "" entries).map String.toList) d ∧
      Outline.tomlEntries d.entries =
        Outline.tomlEntries before ++ entries.filter fun e => !isPlainEntry e.2 := by
  induction entries generalizing before header with
  | nil =>
    refine ⟨_, .nil _, ?_⟩
    rw [List.filter_nil, List.append_nil]
  | cons e entries ih =>
    obtain ⟨key, v⟩ := e
    rw [List.forall_mem_cons] at hbare hparts
    rw [entrySections]
    cases hplain : isPlainEntry v with
    | true =>
      rw [List.filter_cons_of_neg (by simp [hplain])] at hdistinct ⊢
      exact ih hbare.2 hparts.2 header hdistinct
    | false =>
      rw [List.filter_cons_of_pos (by simp [hplain])] at hdistinct ⊢
      have hnew : key ∉ before.map Prod.fst := by
        intro hmem
        exact (List.nodup_append.1 hdistinct).2.2 _ hmem _ (List.mem_cons_self ..) rfl
      rcases hparts.1.through hplain hbare.1 hnew header with ⟨part, hpart, hthrough⟩
      rcases @ih hbare.2 hparts.2 (before ++ [(key, part)]) [key] (by simpa using hdistinct) with
        ⟨d, hrest, hentries⟩
      refine ⟨d, ?_, ?_⟩
      · rw [if_neg Bool.false_ne_true, String.empty_append, hbare.1.writeKey_eq, List.map_append]
        exact hthrough.append hrest
      · rw [hentries, tomlEntries_append]
        simp [Outline.tomlEntries, hpart]

/-- The plain entries of a document stand in front, if there are any. -/
theorem through_plain {entries : List (String × Toml)} (h : Sectioned entries) :
    Through ⟨[], []⟩
      ((if (plainLines entries).isEmpty then [] else [plainLines entries]).map String.toList)
      ⟨closedEntries (entries.filter fun e => isPlainEntry e.2), []⟩ := by
  have hlines := toList_plainLines h.bare
  have hleads := @leads_flat [] id opens_root (entries.filter fun e => isPlainEntry e.2)
    (fun e he => h.bare e (List.mem_filter.1 he).1)
    (fun e he => (h.parts e (List.mem_filter.1 he).1).plain_iff.1 (List.mem_filter.1 he).2) []
    (h.distinct.sublist (List.filter_sublist.map Prod.fst))
  generalize hplain : entries.filter (fun e => isPlainEntry e.2) = plain at *
  by_cases hempty : (plainLines entries).isEmpty = true
  · rw [if_pos hempty]
    rw [String.isEmpty_iff] at hempty
    cases plain with
    | nil => exact .nil _
    | cons e plain =>
      rw [hempty] at hlines
      simp [entryLines, entryLine] at hlines
  · rw [if_neg hempty, List.map_singleton, hlines]
    exact .cons hleads (.nil _)

/-- A document is read back, with its plain entries in front. -/
theorem read?_write {entries : List (String × Toml)} (h : Sectioned entries) :
    read? (write entries) = some (.table ((entries.filter fun e => isPlainEntry e.2) ++
      entries.filter fun e => !isPlainEntry e.2)) := by
  have hdistinct : ((entries.filter fun e => isPlainEntry e.2).map Prod.fst ++
      (entries.filter fun e => !isPlainEntry e.2).map Prod.fst).Nodup := by
    rw [← List.map_append]
    exact ((List.filter_append_perm _ entries).map Prod.fst).nodup_iff.2 h.distinct
  rw [← map_fst_closed] at hdistinct
  rcases through_sections h.bare h.parts [] hdistinct with ⟨d, hsections, hentries⟩
  have hleads := ((through_plain h).append hsections).leads
  have hwrite : (write entries).toList = ['\n'].intercalate
      ((if (plainLines entries).isEmpty then [] else [plainLines entries]).map String.toList ++
        (entrySections "" entries).map String.toList) := by
    rw [← List.map_append, write, String.toList_intercalate]
    split <;> rfl
  rw [← hwrite] at hleads
  have hmark : skipMark (write entries).toList = (write entries).toList := by
    unfold skipMark
    split
    · next heq =>
      have hunmarked := hleads.unmarked
      rw [heq] at hunmarked
      exact absurd rfl hunmarked
    · rfl
  have hread := hleads.finishes (finishes_nil d) _ (Nat.lt_succ_self _)
  rw [List.append_nil] at hread
  rw [read?, hmark]
  simp only [hread, Option.map_some, hentries, tomlEntries_closed]

end Toml
end Formulary
