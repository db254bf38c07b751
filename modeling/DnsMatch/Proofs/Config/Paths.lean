import Mathlib
import DnsMatch.Config.Load
import DnsMatch.Proofs.Files.Path
import DnsMatch.Proofs.Toml.Reading

/-! # Paths in a configuration file

The paths in a configuration file are meant from where the file is: an absolute
path stands for itself, and a relative one for the path that leads there by way
of the directory of the file (`Files.Path.StandsFor`). Loading the file puts
them in their place and leaves everything else as it is written. -/

namespace DnsMatch

open Toml (Document)

namespace Files.Path

variable {file directory : Path}

/-- What a path that is written in a file stands for. -/
structure StandsFor (file written path : Path) : Prop where
  absolute : written.isAbsolute = true → path = written
  relative : written.isAbsolute = false → ∃ directory, file.parent? = some directory ∧
    directory.components = file.components.dropLast ∧ path = directory.within written ∧
      path.steps = file.steps.dropLast ++ written.steps ∧ path.isAbsolute = file.isAbsolute

theorem StandsFor.within (h : file.parent? = some directory) (written : Path) :
    StandsFor file written (directory.within written) := by
  refine ⟨fun habsolute => if_pos habsolute, fun hrelative => ⟨directory, h,
    components_of_parent? h, rfl, ?_, ?_⟩⟩
  · rw [steps_within hrelative, steps_of_parent? h]
  · rw [isAbsolute_within hrelative, isAbsolute_of_parent? h]

end Files.Path

namespace Pair

variable {file directory : Files.Path}

structure StandsFor (file : Files.Path) (written pair : Pair) : Prop where
  expected : file.StandsFor written.expected pair.expected
  actual : file.StandsFor written.actual pair.actual
  name : pair.name? = written.name?
  mode : pair.mode? = written.mode?
  format : pair.format? = written.format?

theorem standsFor_within (h : file.parent? = some directory) (written : Pair) :
    StandsFor file written (written.within directory) :=
  ⟨.within h _, .within h _, rfl, rfl, rfl⟩

end Pair

namespace Config

variable {host : Host} {file : Files.Path} {config : Config}

theorem load_result_eq_ok_iff : (load host file).result = .ok config ↔
    ∃ directory contents written, file.parent? = some directory ∧ host.read file = .ok contents ∧
      (Document.ofOctets? contents >>= ofDocument?) = some written ∧
        written.within directory = config := by
  constructor
  · intro h
    unfold load at h
    split at h
    · cases h
    · next directory hparent =>
      split at h
      · cases h
      · next contents hread =>
        split at h
        · cases h
        · next written hwritten =>
          exact ⟨directory, contents, written, hparent, hread, hwritten, Except.ok.inj h⟩
  · rintro ⟨directory, contents, written, hparent, hread, hwritten, rfl⟩
    simp only [load, hparent, hread, hwritten]
    rfl

/-- **Paths are taken in the directory of the configuration file, and all else is left as it is.**
The pairs of a configuration that was loaded are those that are written in its file, in their order
and with their names, modes and formats. An absolute path of a pair is kept to the letter. A
relative one leads from where the file is: it has the components of the path of the file but the
last, dots aside, and behind them its own, and it is absolute just if the path of the file is. A
pair without a name goes by what has become of its actual path. -/
theorem load_takes_paths_in_directory (h : (load host file).result = .ok config) :
    ∃ contents written, host.read file = .ok contents ∧
      (Document.ofOctets? contents >>= ofDocument?) = some written ∧
      config.mode = written.mode ∧ config.format = written.format ∧
      List.Forall₂ (fun given pair => Pair.StandsFor file given pair ∧
        pair.mode config = given.mode written ∧ pair.format config = given.format written ∧
        (given.name? = none → pair.name = pair.actual.text)) written.pairs config.pairs := by
  obtain ⟨directory, contents, written, hparent, hread, hwritten, rfl⟩ :=
    load_result_eq_ok_iff.1 h
  refine ⟨contents, written, hread, hwritten, rfl, rfl, ?_⟩
  rw [within, List.forall₂_map_right_iff, List.forall₂_same]
  intro given _
  refine ⟨given.standsFor_within hparent, rfl, rfl, fun hname => ?_⟩
  rw [Pair.name, Pair.within, hname]
  rfl

/-- A file of one pair in a directory, with an absolute path and one that leads out of it. -/
def pairElsewhere : Host :=
  .ofFiles fun
    | ⟨"./etc//pair.toml"⟩ =>
      some "[[pairs]]\nexpected = \"/a\"\nactual = \"../b\"\n".toUTF8.data
    | _ => none

theorem pairElsewhere_parsed : ∃ contents, pairElsewhere.read ⟨"./etc//pair.toml"⟩ = .ok contents ∧
    (Document.ofOctets? contents >>= ofDocument?) =
      some ⟨.ignoreTtls, .raw, [⟨none, ⟨"/a"⟩, ⟨"../b"⟩, none, none⟩]⟩ := by
  refine ⟨_, rfl, ?_⟩
  rw [Document.ofOctets?_toUTF8, Document.ofText?_eq (by decide) (by decide)]
  cbv

theorem load_takes_paths_in_directory_sample : ∃ config,
    (load pairElsewhere ⟨"./etc//pair.toml"⟩).result = .ok config ∧
      ∃ pair, config.pairs = [pair] ∧ pair.expected = ⟨"/a"⟩ ∧
        pair.actual.steps = [.normal ['e', 't', 'c'], .parent, .normal ['b']] ∧
        pair.name = pair.actual.text := by
  obtain ⟨contents, hread, hwritten⟩ := pairElsewhere_parsed
  have hload := load_result_eq_ok_iff.2 ⟨⟨"./etc"⟩, contents, _, rfl, hread, hwritten, rfl⟩
  obtain ⟨contents', written', hread', hwritten', -, -, hpairs⟩ :=
    load_takes_paths_in_directory hload
  obtain rfl := Except.ok.inj (hread.symm.trans hread')
  obtain rfl := Option.some.inj (hwritten.symm.trans hwritten')
  obtain ⟨pair, rest, ⟨hpair, -, -, hname⟩, hrest, hpairs⟩ := List.forall₂_cons_left_iff.1 hpairs
  obtain rfl := List.forall₂_nil_left_iff.1 hrest
  obtain ⟨_, -, -, -, hsteps, -⟩ := hpair.actual.relative (by decide)
  exact ⟨_, hload, pair, hpairs, hpair.expected.absolute (by decide),
    hsteps.trans (by decide), hname rfl⟩

end Config

end DnsMatch
