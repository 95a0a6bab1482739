import NumScript.Proofs.Yaml.Library
import NumScript.Proofs.Yaml.Nested
import NumScript.Settings.Schema

/-! Settings in the text that the YAML library writes. Every setting stands on a line of its own, as
an entry of a mapping, and from that text the library reads each setting over any others. -/

namespace NumScript.Settings

open Yaml (Entry Giving Lined Nested Printable spell library)
open Yaml.Decoding (Reads)

variable {s : Settings}

/-- The values that round trips are promised for. -/
theorem plain_iff : schema.Plain s ↔
    Printable s.scoping ∧ (0 ≤ s.maxIterations ∧ s.maxIterations < 0x8000000000000000) ∧
      (0 ≤ s.optimizeRounds ∧ s.optimizeRounds < 0x8000000000000000) ∧
      Printable s.playground.address ∧
      (0 ≤ s.playground.cacheSize ∧ s.playground.cacheSize < 0x8000000000000000) ∧
      0 ≤ s.playground.maxBodyBytes ∧ s.playground.maxBodyBytes < 0x8000000000000000 := by
  simp [Yaml.Schema.Plain, Yaml.Schema.fields, schema, playgroundFields, Yaml.Member.fields,
    Yaml.Field.Plain]

/-- Everything is copied but the path. -/
theorem copy_schema (s t : Settings) : schema.copy s t = { s with path := t.path } := rfl

/-- The line of a setting gives it its value. -/
abbrev Line (name written : Text) (v : Yaml.Value) : Type :=
  Giving (name ++ (": " ++ written)) name v

/-- The lines of settings as the entries of mappings. -/
structure Sheet (s : Settings) where
  scoping : Line "scoping" (Yaml.scalarText 4 s.scoping) (.text s.scoping)
  maxIterations : Line "max_iterations" (Text.ofInt s.maxIterations) (.int s.maxIterations)
  optimize : Line "optimize" (Yaml.boolText s.optimize) (.bool s.optimize)
  optimizeRounds : Line "optimize_rounds" (Text.ofInt s.optimizeRounds) (.int s.optimizeRounds)
  analyze : Line "analyze" (Yaml.boolText s.analyze) (.bool s.analyze)
  warningsAsErrors :
    Line "warnings_as_errors" (Yaml.boolText s.warningsAsErrors) (.bool s.warningsAsErrors)
  color : Line "color" (Yaml.boolText s.color) (.bool s.color)
  address : Line "addr" (Yaml.scalarText 8 s.playground.address) (.text s.playground.address)
  cacheSize : Line "cache_size" (Text.ofInt s.playground.cacheSize) (.int s.playground.cacheSize)
  maxBodyBytes :
    Line "max_body_bytes" (Text.ofInt s.playground.maxBodyBytes) (.int s.playground.maxBodyBytes)

/-- Settings with plain values have a sheet. -/
theorem nonempty_sheet (plain : schema.Plain s) : Nonempty s.Sheet := by
  obtain ⟨scoping, iterations, rounds, address, cache, body⟩ := plain_iff.mp plain
  obtain ⟨scoping⟩ := Yaml.nonempty_givingText "scoping" (by decide +kernel) 4 scoping
  obtain ⟨maxIterations⟩ :=
    Yaml.nonempty_givingInt "max_iterations" (by decide +kernel) iterations.1 iterations.2
  obtain ⟨optimize⟩ := Yaml.nonempty_givingBool "optimize" (by decide +kernel) s.optimize
  obtain ⟨optimizeRounds⟩ :=
    Yaml.nonempty_givingInt "optimize_rounds" (by decide +kernel) rounds.1 rounds.2
  obtain ⟨analyze⟩ := Yaml.nonempty_givingBool "analyze" (by decide +kernel) s.analyze
  obtain ⟨warningsAsErrors⟩ :=
    Yaml.nonempty_givingBool "warnings_as_errors" (by decide +kernel) s.warningsAsErrors
  obtain ⟨color⟩ := Yaml.nonempty_givingBool "color" (by decide +kernel) s.color
  obtain ⟨address⟩ := Yaml.nonempty_givingText "addr" (by decide +kernel) 8 address
  obtain ⟨cacheSize⟩ := Yaml.nonempty_givingInt "cache_size" (by decide +kernel) cache.1 cache.2
  obtain ⟨maxBodyBytes⟩ :=
    Yaml.nonempty_givingInt "max_body_bytes" (by decide +kernel) body.1 body.2
  exact ⟨scoping, maxIterations, optimize, optimizeRounds, analyze, warningsAsErrors, color,
    address, cacheSize, maxBodyBytes⟩

namespace Sheet

/-- The document that the settings are written as. -/
def document (t : s.Sheet) : Nested where
  first := t.scoping
  rest := [t.maxIterations, t.optimize, t.optimizeRounds, t.analyze, t.warningsAsErrors, t.color]
  name := "playground"
  simple := by decide +kernel
  short := by decide +kernel
  indent := 4
  indented := by decide
  innerFirst := t.address
  innerRest := [t.cacheSize]
  last := t.maxBodyBytes

theorem spell_text (t : s.Sheet) : spell (schema.text s) = t.document.chars := by
  have colon : spell (Text.ofString ":") = [':'] := by decide +kernel
  have gap : spell (Text.ofString "    ") = Yaml.margin 4 := by decide +kernel
  have feed : Yaml.charOf (Text.byte '\n') = '\n' := by decide
  simp [Yaml.Schema.text, Text.unlines, schema, playgroundFields, Yaml.Member.lines,
    Yaml.Field.line, Yaml.Field.written, document, Nested.chars, Nested.innerChars, Entry.lines,
    ← t.scoping.2.chars, ← t.maxIterations.2.chars, ← t.optimize.2.chars,
    ← t.optimizeRounds.2.chars, ← t.analyze.2.chars, ← t.warningsAsErrors.2.chars,
    ← t.color.2.chars, ← t.address.2.chars, ← t.cacheSize.2.chars, ← t.maxBodyBytes.2.chars,
    colon, gap, feed]

theorem lined_text (t : s.Sheet) : Lined (schema.text s) := by
  have name : Printable (Text.ofString "playground" ++ Text.ofString ":") := by
    unfold Printable
    decide +kernel
  have gap : Printable (Text.ofString "    ") := by
    unfold Printable
    decide +kernel
  have indented {line : Text} (printable : Printable line) : Printable ("    " ++ line) :=
    List.forall_mem_append.mpr ⟨gap, printable⟩
  refine Yaml.lined_unlines ?_
  simp only [schema, playgroundFields, Yaml.Member.lines, Yaml.Field.line, Yaml.Field.written,
    List.flatMap_cons, List.flatMap_nil, List.map_cons, List.map_nil, List.cons_append,
    List.nil_append, List.forall_mem_cons]
  exact ⟨t.scoping.2.printable, t.maxIterations.2.printable, t.optimize.2.printable,
    t.optimizeRounds.2.printable, t.analyze.2.printable, t.warningsAsErrors.2.printable,
    t.color.2.printable, name, indented t.address.2.printable, indented t.cacheSize.2.printable,
    indented t.maxBodyBytes.2.printable, nofun⟩

variable {c : Yaml.Context}

/-- The settings of the playground as they are read. -/
abbrev playgroundRecord : Yaml.Record Settings :=
  ⟨"config.Playground", fun name => (playgroundFields.lookup name).map Yaml.Field.update⟩

/-- The settings of the playground are read as they were written, over any others. -/
theorem fills_playground (t : s.Sheet) (plain : schema.Plain s) (direct : c.aliases = [])
    (line : Nat) (before : Settings) :
    playgroundRecord.Fills c [] (Entry.nodesFrom line t.document.innerEntries) before
      { before with playground := s.playground } := by
  obtain ⟨-, -, -, -, cache, body⟩ := plain_iff.mp plain
  exact
    t.address.2.fills_text direct (by decide +kernel) rfl <|
    t.cacheSize.2.fills_int direct cache.2 (by decide +kernel) rfl <|
    t.maxBodyBytes.2.fills_int direct body.2 (by decide +kernel) rfl .nil

/-- The settings are read as they were written, over any others but for the path. -/
theorem reads_record (t : s.Sheet) (plain : schema.Plain s) (direct : c.aliases = [])
    (before : Settings) :
    Reads (schema.record.update c t.document.root before) { s with path := before.path } := by
  obtain ⟨-, iterations, rounds, -⟩ := plain_iff.mp plain
  -- The settings of the playground are a record of their own.
  have playground (line : Nat) (between : Settings) :
      Reads (playgroundRecord.update c (.mapping line none
        (Entry.nodesFrom (t.document.nameLine + 1) t.document.innerEntries)) between)
        { between with playground := s.playground } :=
    (t.fills_playground plain direct _ _).reads_update direct _
  have text : Yaml.Value.ofPlain "playground" = .text "playground" := by decide +kernel
  have unmerged : Text.ofString "playground" ≠ Text.ofString "<<" := by decide +kernel
  refine Yaml.Record.Fills.reads_update ?_ direct 1
  exact
    t.scoping.2.fills_text direct (by decide +kernel) rfl <|
    t.maxIterations.2.fills_int direct iterations.2 (by decide +kernel) rfl <|
    t.optimize.2.fills_bool direct (by decide +kernel) rfl <|
    t.optimizeRounds.2.fills_int direct rounds.2 (by decide +kernel) rfl <|
    t.analyze.2.fills_bool direct (by decide +kernel) rfl <|
    t.warningsAsErrors.2.fills_bool direct (by decide +kernel) rfl <|
    t.color.2.fills_bool direct (by decide +kernel) rfl <|
    .cons text unmerged (show Text.ofString "playground" ∉ _ by decide +kernel) rfl
      (playground _ _) .nil

end Sheet

/-- What the library has written of settings it reads over any others, field by field. -/
theorem library_rereads : library.Rereads schema := by
  intro s before after plain reread
  rw [Yaml.Schema.reread?_eq Yaml.library_roundTrips plain, copy_schema] at reread
  cases reread
  obtain ⟨sheet⟩ := nonempty_sheet plain
  obtain ⟨size, read⟩ := sheet.document.ofText?_eq sheet.lined_text sheet.spell_text
  obtain ⟨f, clean, ran⟩ := sheet.reads_record plain
    (c := ⟨⟨sheet.document.root, [], size⟩, []⟩) rfl before { read := 1 } ⟨rfl, rfl⟩
  change schema.ofText (schema.text s) before = _
  rw [Yaml.Schema.ofText, read]
  simp only [ran, clean.faultless]

end NumScript.Settings
