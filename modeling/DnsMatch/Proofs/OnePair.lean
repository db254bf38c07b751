import DnsMatch.Proofs.CommandLine
import DnsMatch.Proofs.ConfigurationFile
import DnsMatch.Proofs.Files.Path
import DnsMatch.Proofs.Log

/-! # A batch of one pair is a comparison

What a run prints and logs about its pairs, and how it ends, depends only on
what each pair comes to: its name, its files, and the mode and the format that
hold for it (`Pair.Alike`). So a configuration file with one pair without a
name, in the working directory, gives the run that a comparison of the two
files gives, whichever way it says in which mode and format. -/

namespace DnsMatch

open Toml (Document Table Value)

/-! ## Pairs that come to the same -/

namespace Pair

variable {host : Host} {config config' : Config} {pair pair' : Pair}

/-- Whether pairs of two configurations come to the same. -/
structure Alike (config config' : Config) (pair pair' : Pair) : Prop where
  name : pair.name = pair'.name
  expected : pair.expected = pair'.expected
  actual : pair.actual = pair'.actual
  mode : pair.mode config = pair'.mode config'
  format : pair.format config = pair'.format config'

theorem Alike.compare_eq (h : Alike config config' pair pair') :
    pair.compare host config = pair'.compare host config' := by
  have hmalformed : pair.malformed = pair'.malformed := by
    funext truncation
    rw [malformed, malformed, h.expected]
  have hmismatch : pair.mismatchEntry = pair'.mismatchEntry := by
    funext mismatch
    rw [mismatchEntry, mismatchEntry, h.expected, h.actual]
  have hcomparing : pair.comparingEntry config = pair'.comparingEntry config' := by
    rw [comparingEntry, comparingEntry, h.name, h.mode]
  rw [compare, compare, hcomparing, hmalformed, hmismatch, h.expected, h.actual, h.mode, h.format]

theorem Alike.step_eq (h : Alike config config' pair pair') (progress : Progress) :
    progress.step host config pair = progress.step host config' pair' := by
  have hfailure : pair.failureEntry = pair'.failureEntry := by
    funext failure
    rw [failureEntry, failureEntry, h.name]
  rw [Progress.step, Progress.step, h.compare_eq, hfailure, h.name]

end Pair

theorem Config.compareAll_congr (host : Host) {config config' : Config}
    (h : List.Forall₂ (Pair.Alike config config') config.pairs config'.pairs) :
    config.compareAll host = config'.compareAll host := by
  have hfold : ∀ progress : Progress, config.pairs.foldl (Progress.step host config) progress =
      config'.pairs.foldl (Progress.step host config') progress := by
    generalize config.pairs = pairs, config'.pairs = pairs' at h
    induction h with
    | nil => exact fun _ => rfl
    | cons hpair _ ih =>
      intro progress
      rw [List.foldl_cons, List.foldl_cons, hpair.step_eq, ih]
  rw [compareAll, compareAll, hfold, h.length_eq]

/-! ## What comes of a choice -/

/-- Whether a file chooses a name: in its pair, or else at its top, or else by leaving it out where
it is the default. -/
def Chooses (default : String) (top? own? : Option Value) (name : String) : Prop :=
  own? = some (.string name) ∨
    own? = none ∧ (top? = some (.string name) ∨ top? = none ∧ name = default)

theorem Chooses.getD_eq {α : Type} {nameOf : α → String} (hinjective : nameOf.Injective)
    (default : α) {top? own? : Option α} {choice : α}
    (h : Chooses (nameOf default) (top?.map (.string <| nameOf ·)) (own?.map (.string <| nameOf ·))
      (nameOf choice)) :
    own?.getD (top?.getD default) = choice := by
  cases own? with
  | some own =>
    simpa [Chooses, hinjective.eq_iff] using h
  | none =>
    cases top? with
    | some top => simpa [Chooses, hinjective.eq_iff] using h
    | none => simpa [Chooses, hinjective.eq_iff, eq_comm] using h

theorem Mode.name_injective : Mode.name.Injective := fun _ _ h =>
  Option.some.inj ((ofName?_eq_some_iff.2 rfl).symm.trans (ofName?_eq_some_iff.2 h))

theorem Format.name_injective : Format.name.Injective := fun _ _ h =>
  Option.some.inj ((ofText?_eq_some_iff.2 rfl).symm.trans (ofText?_eq_some_iff.2 h))

/-! ## Files with one pair -/

namespace Config

variable {outline : Outline} {expected actual : String} {mode : Mode} {format : Format}

theorem HasPlainChoices.of_names {table : Table} {modes formats : List String}
    (hmode : IsAmong modes (table.lookup "mode"))
    (hformat : IsAmong formats (table.lookup "format")) : HasPlainChoices table where
  mode entries h := by simpa using hmode _ h
  format entries h := by simpa using hformat _ h

theorem Outline.IsProper.hasPlainChoices (h : outline.IsProper) : outline.HasPlainChoices where
  top := .of_names h.mode h.format
  pairs tables htables table hmem := by
    obtain ⟨tables', htables', hproper⟩ := h.pairs
    obtain rfl : tables = tables' := Option.some.inj (htables.symm.trans htables')
    exact .of_names (hproper table hmem).mode (hproper table hmem).format

/-- Whether an outline gives one pair, without a name, and chooses a mode and a format for it. -/
structure Outline.GivesOnly (outline : Outline) (expected actual : String) (mode : Mode)
    (format : Format) : Prop where
  proper : outline.IsProper
  pair : ∃ table, outline.pairs? = some [table] ∧ table.lookup "name" = none ∧
    table.lookup "expected" = some (.string expected) ∧
    table.lookup "actual" = some (.string actual) ∧
    Chooses "ignore-ttls" (outline.top.lookup "mode") (table.lookup "mode") mode.name ∧
    Chooses "raw" (outline.top.lookup "format") (table.lookup "format") format.name

theorem within_empty (config : Config) : config.within ⟨""⟩ = config := by
  have hpair : Pair.within ⟨""⟩ = id := by
    funext pair
    simp [Pair.within, Files.Path.within_empty]
  simp [within, hpair]

/-- A file with one pair gives a configuration whose pair comes to what a comparison gives. -/
theorem Outline.GivesOnly.exists_alike (h : outline.GivesOnly expected actual mode format) :
    ∃ config, outline.Describes config ∧
      List.Forall₂ (Pair.Alike (single mode format ⟨expected⟩ ⟨actual⟩) config)
        (single mode format ⟨expected⟩ ⟨actual⟩).pairs config.pairs := by
  obtain ⟨config, hconfig⟩ := Outline.exists_describes_iff.2 h.proper
  obtain ⟨table, hone, hname, hexpected, hactual, hmode, hformat⟩ := h.pair
  obtain ⟨topMode?, htopMode, hconfigMode⟩ := hconfig.mode
  obtain ⟨topFormat?, htopFormat, hconfigFormat⟩ := hconfig.format
  obtain ⟨tables, htables, hpairs⟩ := hconfig.pairs
  obtain rfl : [table] = tables := Option.some.inj (hone.symm.trans htables)
  obtain ⟨pair, rest, hpair, hrest, hpairs⟩ := List.forall₂_cons_left_iff.1 hpairs
  obtain rfl := List.forall₂_nil_left_iff.1 hrest
  refine ⟨config, hconfig, ?_⟩
  rw [hpairs, single, List.forall₂_cons]
  have hnone : pair.name? = none := by simpa [hpair.name] using hname
  have hexpectedPath : pair.expected = ⟨expected⟩ := by
    cases hpair.expected.symm.trans hexpected
    rfl
  have hactualPath : pair.actual = ⟨actual⟩ := by
    cases hpair.actual.symm.trans hactual
    rfl
  rw [hpair.mode, htopMode] at hmode
  rw [hpair.format, htopFormat] at hformat
  refine ⟨⟨?_, hexpectedPath.symm, hactualPath.symm, ?_, ?_⟩, .nil⟩
  · rw [Pair.name, Pair.name, hnone, hactualPath]
  · rw [Pair.mode, Pair.mode, hconfigMode]
    exact (hmode.getD_eq Mode.name_injective Mode.default).symm
  · rw [Pair.format, Pair.format, hconfigFormat]
    exact (hformat.getD_eq Format.name_injective Format.default).symm

end Config

/-! ## Runs -/

section

variable {host : Host} {words : List String} {command : CommandLine.Command}
  {config : Config}

theorem Program.run_eq (hwords : CommandLine.read words = .ok command)
    (hconfig : (command.config host).result = .ok config) :
    Program.run host words =
      { status := (config.compareAll host).status
        output := String.join ((config.compareAll host).lines.map (· ++ "\n"))
        log := (command.config host).log ++ (config.compareAll host).log } := by
  rw [run, hwords]
  simp only [CommandLine.Command.run, hconfig]

theorem Config.filter_log_load (host : Host) (path : Files.Path) :
    (Log.Threshold.upTo .warn).filter (load host path).log = [] := by
  unfold load
  repeat' split
  all_goals rfl

/-- Nothing is warned of before the first pair. -/
theorem CommandLine.Command.filter_log_config (command : Command) (host : Host) :
    (Log.Threshold.upTo .warn).filter (command.config host).log = [] := by
  cases command with
  | compare expected actual mode format => rfl
  | batch path => exact Config.filter_log_load host path

/-- All warnings and errors of a run are about its pairs. -/
theorem Program.filter_log_run (hwords : CommandLine.read words = .ok command)
    (hconfig : (command.config host).result = .ok config) :
    (Log.Threshold.upTo .warn).filter (run host words).log =
      (Log.Threshold.upTo .warn).filter (config.compareAll host).log := by
  have hlog := command.filter_log_config host
  rw [run_eq hwords hconfig]
  rw [Log.Threshold.filter_append, hlog, List.nil_append]

end

namespace Config

variable {host : Host} {path : Files.Path} {contents : Octets} {document : Document}
  {outline : Outline} {expected actual : String} {mode : Mode} {format : Format}

/-- **A batch of one pair is a comparison.** A file with one pair without a name gives the run of a
comparison of the two files, in the mode and the format that the file chooses: the same text, the
same status and the same warnings and errors. There are such runs for all files and choices. -/
theorem compare_and_batch_agree (hne : path.text ≠ "") (hbare : '/' ∉ path.text.toList)
    (hread : host.read path = .ok contents)
    (hdocument : Document.ofOctets? contents = some document)
    (houtline : Outline.ofDocument? document = some outline)
    (hgives : outline.GivesOnly expected actual mode format) :
    (∀ words words',
      CommandLine.read words = .ok (.compare ⟨expected⟩ ⟨actual⟩ mode format) →
        CommandLine.read words' = .ok (.batch path) →
          (Program.run host words).output = (Program.run host words').output ∧
            (Program.run host words).status = (Program.run host words').status ∧
            (Log.Threshold.upTo .warn).filter (Program.run host words).log =
              (Log.Threshold.upTo .warn).filter (Program.run host words').log) ∧
      (expected ≠ "" → actual ≠ "" →
        CommandLine.read (CommandLine.compareWords expected actual mode format) =
          .ok (.compare ⟨expected⟩ ⟨actual⟩ mode format)) ∧
      CommandLine.read (CommandLine.batchWords path) = .ok (.batch path) := by
  refine ⟨fun words words' hwords hwords' => ?_, fun hexpected hactual =>
    CommandLine.read_compareWords hexpected hactual mode format, CommandLine.read_batchWords hne⟩
  obtain ⟨config, hdescribes, halike⟩ := hgives.exists_alike
  have hload := load_of_describes (Files.Path.parent?_of_bare hne hbare) hread hdocument houtline
    hgives.proper.hasPlainChoices hdescribes
  rw [within_empty] at hload
  have hconfig : ((CommandLine.Command.batch path).config host).result = .ok config := by
    simp only [CommandLine.Command.config, hload]
    rfl
  have hsingle : ((CommandLine.Command.compare ⟨expected⟩ ⟨actual⟩ mode format).config
      host).result = .ok (single mode format ⟨expected⟩ ⟨actual⟩) := rfl
  rw [Program.filter_log_run hwords hsingle, Program.filter_log_run hwords' hconfig,
    Program.run_eq hwords hsingle, Program.run_eq hwords' hconfig,
    compareAll_congr host halike]
  exact ⟨rfl, rfl, rfl⟩

/-- Two files that differ, and one that has them compared in another mode than it begins with. -/
def onePair : Host :=
  .ofFiles fun
    | ⟨"pair.toml"⟩ =>
      some ("mode = \"ignore-ttls\"\n\n[[pairs]]\nexpected = \"a\"\nactual = \"b\"\n" ++
        "mode = \"exact\"\n").toUTF8.data
    | ⟨"a"⟩ => some #[1]
    | ⟨"b"⟩ => some #[2]
    | _ => none

def onePairTable : Table :=
  [("expected", .string "a"), ("actual", .string "b"), ("mode", .string "exact")]

def onePairDocument : Document where
  entries := [(["mode"], .string "ignore-ttls")]
  sections := [Toml.Section.ofElement "pairs" onePairTable.plainEntries]

def onePairOutline : Outline where
  top := [("mode", .string "ignore-ttls"), ("pairs", .array [.table onePairTable.plainEntries])]
  pairs? := some [onePairTable]

theorem onePair_parsed : ∃ contents, onePair.read ⟨"pair.toml"⟩ = .ok contents ∧
    Document.ofOctets? contents = some onePairDocument := by
  refine ⟨_, rfl, ?_⟩
  rw [Document.ofOctets?_toUTF8, Document.ofText?_eq (by decide) (by decide)]
  cbv

theorem givesOnly_onePair : onePairOutline.GivesOnly "a" "b" .exact .raw := by
  have hproper : IsProperPair onePairTable := exists_describes_iff.1
    ⟨⟨none, ⟨"a"⟩, ⟨"b"⟩, some .exact, none⟩, by decide, rfl, rfl, rfl, rfl, rfl⟩
  exact ⟨⟨by decide, isAmong_modes_iff.2 ⟨some .ignoreTtls, rfl⟩, isAmong_formats_iff.2 ⟨none, rfl⟩,
    _, rfl, List.forall_mem_singleton.2 hproper⟩,
    _, rfl, rfl, rfl, rfl, .inl rfl, .inr ⟨rfl, .inr ⟨rfl, rfl⟩⟩⟩

theorem compare_and_batch_agree_sample :
    (Program.run onePair ["batch", "--config=pair.toml"]).output = "MISMATCH b\n" ∧
      (Program.run onePair ["batch", "--config=pair.toml"]).status = 1 := by
  obtain ⟨_, hread, hdocument⟩ := onePair_parsed
  obtain ⟨hagree, hcompare, hbatch⟩ := compare_and_batch_agree (by decide) (by decide) hread
    hdocument rfl givesOnly_onePair
  obtain ⟨houtput, hstatus, -⟩ := hagree _ _ (hcompare (by decide) (by decide)) hbatch
  exact ⟨houtput.symm.trans rfl, hstatus.symm.trans rfl⟩

end Config

end DnsMatch
