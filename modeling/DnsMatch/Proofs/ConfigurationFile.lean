import Mathlib
import DnsMatch.Program
import DnsMatch.Proofs.Config.Document
import DnsMatch.Proofs.Toml.Reading

/-! # A configuration file is taken as a whole or not at all

What a configuration file says is put in two steps: the table at its top, and
the tables of its pairs (`Outline`). A file is loaded exactly if nothing in
either is out of place (`Outline.IsProper`), and then the configuration is what
they say (`IsOf`); otherwise nothing of it is used, and nothing is compared. -/

namespace DnsMatch.Config

open Toml (Document Table Value)

variable {table : Table} {pair : Pair} {outline : Outline} {config : Config} {document : Document}

/-! ## Outlines in which nothing is out of place -/

/-- Whether a value, if there is one, is one of the given names. -/
def IsAmong (names : List String) (value? : Option Value) : Prop :=
  ∀ value, value? = some value → ∃ name ∈ names, value = .string name

/-- A value among the names of all choices makes one of them, if there is a value. -/
theorem isAmong_iff {α : Type} {choices : List α} (hall : ∀ choice, choice ∈ choices)
    (nameOf : α → String) {value? : Option Value} : IsAmong (choices.map nameOf) value? ↔
      ∃ choice? : Option α, value? = choice?.map (.string <| nameOf ·) := by
  constructor
  · intro h
    cases value? with
    | none => exact ⟨none, rfl⟩
    | some value =>
      obtain ⟨name, hmem, rfl⟩ := h value rfl
      obtain ⟨choice, -, rfl⟩ := List.mem_map.1 hmem
      exact ⟨some choice, rfl⟩
  · rintro ⟨_ | choice, rfl⟩ value hvalue
    · cases hvalue
    · cases hvalue
      exact ⟨_, List.mem_map_of_mem (hall choice), rfl⟩

theorem isAmong_modes_iff {value? : Option Value} : IsAmong ["exact", "ignore-ttls"] value? ↔
    ∃ mode? : Option Mode, value? = mode?.map (.string ·.name) := by
  have hall : ∀ mode, mode ∈ [Mode.exact, .ignoreTtls] := by
    intro mode
    cases mode <;> decide
  exact isAmong_iff hall Mode.name

theorem isAmong_formats_iff {value? : Option Value} : IsAmong ["raw", "hex", "base64"] value? ↔
    ∃ format? : Option Format, value? = format?.map (.string ·.name) := by
  have hall : ∀ format, format ∈ [Format.raw, .hex, .base64] := by
    intro format
    cases format <;> decide
  exact isAmong_iff hall Format.name

/-- Whether a table has what a pair must have, and nothing else than what it may have. -/
structure IsProperPair (table : Table) : Prop where
  keys : ∀ key ∈ table.keys, key ∈ ["name", "expected", "actual", "mode", "format"]
  name : ∀ value, table.lookup "name" = some value → ∃ text, value = .string text
  expected : ∃ text, table.lookup "expected" = some (.string text)
  actual : ∃ text, table.lookup "actual" = some (.string text)
  mode : IsAmong ["exact", "ignore-ttls"] (table.lookup "mode")
  format : IsAmong ["raw", "hex", "base64"] (table.lookup "format")

/-- Whether an outline has what a configuration must have, and nothing else than what it may. -/
structure Outline.IsProper (outline : Outline) : Prop where
  keys : ∀ key ∈ outline.top.keys, key ∈ ["mode", "format", "pairs"]
  mode : IsAmong ["exact", "ignore-ttls"] (outline.top.lookup "mode")
  format : IsAmong ["raw", "hex", "base64"] (outline.top.lookup "format")
  pairs : ∃ tables, outline.pairs? = some tables ∧ ∀ table ∈ tables, IsProperPair table

theorem exists_describes_iff : (∃ pair, Describes table pair) ↔ IsProperPair table := by
  constructor
  · rintro ⟨pair, h⟩
    refine ⟨h.keys, fun value hvalue => ?_, ⟨_, h.expected⟩, ⟨_, h.actual⟩,
      isAmong_modes_iff.2 ⟨_, h.mode⟩, isAmong_formats_iff.2 ⟨_, h.format⟩⟩
    rw [h.name, Option.map_eq_some_iff] at hvalue
    obtain ⟨text, -, rfl⟩ := hvalue
    exact ⟨text, rfl⟩
  · intro h
    obtain ⟨mode?, hmode⟩ := isAmong_modes_iff.1 h.mode
    obtain ⟨format?, hformat⟩ := isAmong_formats_iff.1 h.format
    obtain ⟨expected, hexpected⟩ := h.expected
    obtain ⟨actual, hactual⟩ := h.actual
    have hname : ∃ name? : Option String, table.lookup "name" = name?.map .string := by
      cases hvalue : table.lookup "name" with
      | none => exact ⟨none, rfl⟩
      | some value =>
        obtain ⟨text, rfl⟩ := h.name value hvalue
        exact ⟨some text, rfl⟩
    obtain ⟨name?, hname⟩ := hname
    exact ⟨⟨name?, ⟨expected⟩, ⟨actual⟩, mode?, format?⟩,
      h.keys, hname, hexpected, hactual, hmode, hformat⟩

theorem exists_forall₂_describes_iff {tables : List Table} :
    (∃ pairs, List.Forall₂ Describes tables pairs) ↔ ∀ table ∈ tables, IsProperPair table := by
  induction tables with
  | nil => exact ⟨fun _ _ hmem => absurd hmem List.not_mem_nil, fun _ => ⟨[], .nil⟩⟩
  | cons table tables ih =>
    rw [List.forall_mem_cons, ← ih, ← exists_describes_iff]
    constructor
    · rintro ⟨pairs, h⟩
      obtain ⟨pair, pairs, hpair, hpairs, rfl⟩ := List.forall₂_cons_left_iff.1 h
      exact ⟨⟨pair, hpair⟩, pairs, hpairs⟩
    · rintro ⟨⟨_, hpair⟩, _, hpairs⟩
      exact ⟨_, .cons hpair hpairs⟩

theorem Outline.exists_describes_iff : (∃ config, outline.Describes config) ↔ outline.IsProper := by
  constructor
  · rintro ⟨config, h⟩
    obtain ⟨mode?, hmode, -⟩ := h.mode
    obtain ⟨format?, hformat, -⟩ := h.format
    obtain ⟨tables, htables, hpairs⟩ := h.pairs
    exact ⟨h.keys, isAmong_modes_iff.2 ⟨mode?, hmode⟩, isAmong_formats_iff.2 ⟨format?, hformat⟩,
      tables, htables, exists_forall₂_describes_iff.1 ⟨_, hpairs⟩⟩
  · intro h
    obtain ⟨mode?, hmode⟩ := isAmong_modes_iff.1 h.mode
    obtain ⟨format?, hformat⟩ := isAmong_formats_iff.1 h.format
    obtain ⟨tables, htables, hproper⟩ := h.pairs
    obtain ⟨pairs, hpairs⟩ := exists_forall₂_describes_iff.2 hproper
    exact ⟨⟨_, _, pairs⟩, h.keys, ⟨mode?, hmode, rfl⟩, ⟨format?, hformat, rfl⟩,
      tables, htables, hpairs⟩

/-! ## Loading -/

/-- Whether a pair of a configuration is the one that a table gives in a directory. -/
structure PairIsOf (directory : Files.Path) (config : Config) (table : Table) (pair : Pair) :
    Prop where
  name : table.lookup "name" = pair.name?.map .string
  expected : ∃ text, table.lookup "expected" = some (.string text) ∧
    pair.expected = directory.within ⟨text⟩
  actual : ∃ text, table.lookup "actual" = some (.string text) ∧
    pair.actual = directory.within ⟨text⟩
  mode : table.lookup "mode" = some (.string (pair.mode config).name) ∨
    table.lookup "mode" = none ∧ pair.mode config = config.mode
  format : table.lookup "format" = some (.string (pair.format config).name) ∨
    table.lookup "format" = none ∧ pair.format config = config.format

/-- Whether a configuration has all that an outline gives, its pairs in their order, and the
defaults for the rest. -/
structure IsOf (directory : Files.Path) (outline : Outline) (config : Config) : Prop where
  mode : outline.top.lookup "mode" = some (.string config.mode.name) ∨
    outline.top.lookup "mode" = none ∧ config.mode = .ignoreTtls
  format : outline.top.lookup "format" = some (.string config.format.name) ∨
    outline.top.lookup "format" = none ∧ config.format = .raw
  pairs : ∃ tables, outline.pairs? = some tables ∧
    List.Forall₂ (PairIsOf directory config) tables config.pairs

theorem Describes.isOf {directory : Files.Path} (h : Describes table pair) (config : Config) :
    PairIsOf directory config table (pair.within directory) := by
  refine ⟨h.name, ⟨_, h.expected, rfl⟩, ⟨_, h.actual, rfl⟩, ?_, ?_⟩
  · rw [h.mode, Pair.mode, Pair.within]
    cases pair.mode? <;> simp
  · rw [h.format, Pair.format, Pair.within]
    cases pair.format? <;> simp

theorem Outline.Describes.isOf {directory : Files.Path} (h : outline.Describes config) :
    IsOf directory outline (config.within directory) := by
  obtain ⟨mode?, hmode, hconfigMode⟩ := h.mode
  obtain ⟨format?, hformat, hconfigFormat⟩ := h.format
  obtain ⟨tables, htables, hpairs⟩ := h.pairs
  refine ⟨?_, ?_, tables, htables, ?_⟩
  · rw [hmode, within, hconfigMode]
    cases mode? <;> simp [Mode.default]
  · rw [hformat, within, hconfigFormat]
    cases format? <;> simp [Format.default]
  · exact List.forall₂_map_right_iff.2 (hpairs.imp fun _ _ hpair => hpair.isOf _)

def unparsedEnding (path : Files.Path) (reason : String) : Program.Ending where
  status := 2
  output := ""
  log := [⟨.info, "Loading the configuration from " ++ path.text ++ "."⟩,
    ⟨.error, "Failed to run:" ++ "\n[1] failed to load the configuration" ++
      "\n[2] failed to parse the configuration file" ++ "\n[3] " ++ reason⟩]

section

variable {host : Host} {path directory : Files.Path} {contents : Octets}

theorem run_batch_unparsed {words : List String} {reason : String}
    (hload : load host path = Logged.fail [.configurationUnparsed, .foreign reason])
    (hwords : CommandLine.read words = .ok (.batch path)) :
    Program.run host words = unparsedEnding path reason := by
  rw [Program.run, hwords]
  simp only [CommandLine.Command.run, CommandLine.Command.config, hload]
  rfl

variable (hparent : path.parent? = some directory) (hread : host.read path = .ok contents)
  (hdocument : Document.ofOctets? contents = some document)
  (houtline : Outline.ofDocument? document = some outline) (hchoices : outline.HasPlainChoices)

include hparent hread hdocument houtline hchoices

theorem load_of_describes (h : outline.Describes config) :
    load host path = do
      Logged.write (config.within directory).summaryEntry
      return config.within directory := by
  have hconfig := (ofDocument?_eq_some_iff houtline hchoices).2 h
  simp only [load, hparent, hread, hdocument, hconfig, Option.bind_eq_bind, Option.bind_some]

theorem load_of_not_describes (h : ¬∃ config, outline.Describes config) :
    load host path =
      Logged.fail [.configurationUnparsed, .foreign (host.notConfiguration contents)] := by
  have hconfig : ofDocument? document = none :=
    Option.eq_none_iff_forall_ne_some.2 fun config hconfig =>
      h ⟨config, (ofDocument?_eq_some_iff houtline hchoices).1 hconfig⟩
  simp only [load, hparent, hread, hdocument, hconfig, Option.bind_eq_bind, Option.bind_some]

theorem load_eq_ok_iff : (load host path).result = .ok config ↔
    ∃ written, outline.Describes written ∧ written.within directory = config := by
  by_cases h : ∃ written, outline.Describes written
  · obtain ⟨written, hwritten⟩ := h
    have hload := load_of_describes hparent hread hdocument houtline hchoices hwritten
    have hresult : (load host path).result = .ok (written.within directory) := by
      rw [hload]
      rfl
    constructor
    · intro hconfig
      exact ⟨written, hwritten, Except.ok.inj (hresult.symm.trans hconfig)⟩
    · rintro ⟨written', hwritten', rfl⟩
      rw [load_of_describes hparent hread hdocument houtline hchoices hwritten']
      rfl
  · rw [load_of_not_describes hparent hread hdocument houtline hchoices h]
    refine iff_of_false (fun hconfig => ?_) fun ⟨written, hwritten, _⟩ => h ⟨written, hwritten⟩
    cases hconfig

/-- **A configuration file is taken as a whole or not at all.** It is loaded exactly if nothing in
it is out of place, and then the configuration has all that the file gives, in its order. Of any
other file nothing is taken, and no pair of it is compared, whatever the rest of it is. -/
theorem load_takes_all_or_nothing :
    ((∃ config, (load host path).result = .ok config) ↔ outline.IsProper) ∧
      (∀ config, (load host path).result = .ok config → IsOf directory outline config) ∧
      (¬outline.IsProper →
        (load host path).result =
            .error [.configurationUnparsed, .foreign (host.notConfiguration contents)] ∧
          ∀ words, CommandLine.read words = .ok (.batch path) →
            Program.run host words =
              unparsedEnding path (host.notConfiguration contents)) := by
  simp only [load_eq_ok_iff hparent hread hdocument houtline hchoices,
    ← Outline.exists_describes_iff]
  refine ⟨⟨?_, ?_⟩, ?_, fun hnone => ?_⟩
  · rintro ⟨_, written, hwritten, _⟩
    exact ⟨written, hwritten⟩
  · rintro ⟨written, hwritten⟩
    exact ⟨_, written, hwritten, rfl⟩
  · rintro _ ⟨written, hwritten, rfl⟩
    exact hwritten.isOf
  · have hload := load_of_not_describes hparent hread hdocument houtline hchoices hnone
    exact ⟨by rw [hload]; rfl, fun words => run_batch_unparsed hload⟩

end

/-- A file of two pairs, of which the last has a key that may be wrong. -/
def twoPairs (lastKey : String) : Host where
  __ := Host.ofFiles fun
    | ⟨"pairs.toml"⟩ =>
      some ("[[pairs]]\nexpected = \"a\"\nactual = \"b\"\n\n" ++
        "[[pairs]]\nexpected = \"c\"\n" ++ lastKey ++ " = \"d\"\n").toUTF8.data
    | _ => none
  notConfiguration _ := "unknown field `" ++ lastKey ++ "`, expected one of `name`, " ++
    "`expected`, `actual`, `mode`, `format` for key `pairs` at line 5 column 1"

def twoPairsDocument (lastKey : String) : Document where
  entries := []
  sections := [[(["expected"], .string "a"), (["actual"], .string "b")],
    [(["expected"], .string "c"), ([lastKey], .string "d")]].map (Toml.Section.ofElement "pairs")

def twoPairsTables (lastKey : String) : List Table :=
  [[("expected", .string "a"), ("actual", .string "b")],
    [("expected", .string "c"), (lastKey, .string "d")]]

def twoPairsOutline (lastKey : String) : Outline where
  top := [("pairs", .array ((twoPairsTables lastKey).map (.table ·.plainEntries)))]
  pairs? := some (twoPairsTables lastKey)

theorem twoPairs_parsed {lastKey : String} (h : lastKey = "actual" ∨ lastKey = "ttl") :
    ∃ contents, (twoPairs lastKey).read ⟨"pairs.toml"⟩ = .ok contents ∧
      Document.ofOctets? contents = some (twoPairsDocument lastKey) ∧
      Outline.ofDocument? (twoPairsDocument lastKey) = some (twoPairsOutline lastKey) ∧
      (twoPairsOutline lastKey).HasPlainChoices := by
  obtain rfl | rfl := h
  all_goals
    refine ⟨_, rfl, ?_, rfl, ⟨.of_not_mem (by decide) (by decide), ?_⟩⟩
    · rw [Document.ofOctets?_toUTF8, Document.ofText?_eq (by decide) (by decide)]
      cbv
    · rintro _ ⟨⟩
      exact List.forall_mem_cons.2 ⟨.of_not_mem (by decide) (by decide),
        List.forall_mem_singleton.2 (.of_not_mem (by decide) (by decide))⟩

theorem load_takes_all_or_nothing_sample :
    (twoPairsOutline "actual").IsProper ∧
      Program.run (twoPairs "ttl") ["batch", "--config=pairs.toml"] =
        unparsedEnding ⟨"pairs.toml"⟩ ("unknown field `ttl`, expected one of `name`, " ++
          "`expected`, `actual`, `mode`, `format` for key `pairs` at line 5 column 1") := by
  have hparent : (⟨"pairs.toml"⟩ : Files.Path).parent? = some ⟨""⟩ := rfl
  obtain ⟨_, hread, hdocument, houtline, hchoices⟩ := twoPairs_parsed (.inl rfl)
  obtain ⟨_, hread', hdocument', houtline', hchoices'⟩ := twoPairs_parsed (.inr rfl)
  obtain ⟨hloads, -, -⟩ := load_takes_all_or_nothing hparent hread hdocument houtline hchoices
  obtain ⟨-, -, hfails⟩ :=
    load_takes_all_or_nothing hparent hread' hdocument' houtline' hchoices'
  refine ⟨hloads.1 ⟨⟨.ignoreTtls, .raw, [⟨none, ⟨"a"⟩, ⟨"b"⟩, none, none⟩,
    ⟨none, ⟨"c"⟩, ⟨"d"⟩, none, none⟩]⟩, by decide +kernel⟩, (hfails fun h => ?_).2 _ rfl⟩
  obtain ⟨_, ⟨⟩, hproper⟩ := h.pairs
  have httl := (hproper _ (.tail _ (.head _))).keys "ttl" (by decide)
  revert httl
  decide

end DnsMatch.Config
