import DnsMatch.Config
import DnsMatch.Toml.Parse

/-! # Loading a configuration from a file

The file is a TOML document with the keys `mode`, `format` and `pairs`, of
which only the last must be there. The pairs are tables with the keys `name`,
`expected`, `actual`, `mode` and `format`, of which the two paths must be there;
they are written as sections or as one array. A document that holds anything
else, or holds anything twice, is refused as a whole.

Paths in the file are taken in the directory that the file is in. -/

namespace DnsMatch.Config

open Toml (Document Entry Key Section Value)

/-! ## Reading values -/

/-- The entries under their keys, if every key is one of those allowed and none is there twice. -/
def fields? (allowed : List String) (entries : List Entry) : Option (List (String × Value)) := do
  let fields ← entries.mapM fun
    | ([key], value) => some (key, value)
    | _ => none
  let keys := fields.map (·.1)
  if keys.all allowed.contains ∧ keys.Nodup then some fields else none

def text? : Value → Option String
  | .string text => some text
  | _ => none

/-- What a name stands for. A name is given as a string, or as the only key of an inline table,
with an empty inline table for its value. -/
def choice? {α : Type} (ofName? : String → Option α) : Value → Option α
  | .string name => ofName? name
  | .table [([name], .table [])] => ofName? name
  | _ => none

/-- What a value means that may be absent; a value that is there must mean something. -/
def optional? {α : Type} (read? : Value → Option α) : Option Value → Option (Option α)
  | none => some none
  | some value => (read? value).map some

/-- The mode of a given name, in just these letters. -/
def mode? : Value → Option Mode := choice? Mode.ofName?

def format? : Value → Option Format := choice? Format.ofText?

/-! ## Reading pairs -/

/-- The keys of a pair, in the order in which an array gives their values. -/
def pairKeys : List String := ["name", "expected", "actual", "mode", "format"]

/-- The pair with the given values under its keys. -/
def pairOfFields? (fields : List (String × Value)) : Option Pair := do
  let name? ← optional? text? (fields.lookup "name")
  let expected ← text? (← fields.lookup "expected")
  let actual ← text? (← fields.lookup "actual")
  let mode? ← optional? mode? (fields.lookup "mode")
  let format? ← optional? format? (fields.lookup "format")
  return { name?, expected := ⟨expected⟩, actual := ⟨actual⟩, mode?, format? }

/-- The pair with the given entries. -/
def pairOfEntries? (entries : List Entry) : Option Pair := do
  pairOfFields? (← fields? pairKeys entries)

/-- The pair that an item of an array describes: a table, or an array of all values of a pair. -/
def pairOfItem? : Value → Option Pair
  | .table entries => pairOfEntries? entries
  | .array items =>
    if items.length = pairKeys.length then pairOfFields? (pairKeys.zip items) else none
  | _ => none

/-- The pair that a section describes. -/
def pairOfSection? (block : Section) : Option Pair :=
  if block.heading = ⟨["pairs"], true⟩ then pairOfEntries? block.entries else none

/-- The pairs of a document, given the value of its own key for them, if it has that key. -/
def pairs? (value? : Option Value) (sections : List Section) : Option (List Pair) :=
  match value?, sections with
  | some (.array items), [] => items.mapM pairOfItem?
  | none, block :: blocks => (block :: blocks).mapM pairOfSection?
  | _, _ => none

/-! ## Reading configurations -/

/-- The configuration that a document describes, if it describes one. -/
def ofDocument? (document : Document) : Option Config := do
  let fields ← fields? ["mode", "format", "pairs"] document.entries
  let mode? ← optional? mode? (fields.lookup "mode")
  let format? ← optional? format? (fields.lookup "format")
  let pairs ← pairs? (fields.lookup "pairs") document.sections
  return { mode := mode?.getD Mode.default, format := format?.getD Format.default, pairs }

/-- The configuration with the paths of its pairs taken in a directory. -/
def within (directory : Files.Path) (config : Config) : Config :=
  { config with pairs := config.pairs.map (Pair.within directory) }

def load (host : Host) (path : Files.Path) : Logged Failure Config :=
  match path.parent? with
  | none => Logged.fail [.configurationHasNoParent]
  | some directory =>
    match host.read path with
    | .error reason => Logged.fail [.configurationUnread, .foreign reason]
    | .ok contents =>
      match Document.ofOctets? contents >>= ofDocument? with
      | none =>
        Logged.fail [.configurationUnparsed, .foreign (host.notConfiguration contents)]
      | some config =>
        let config := config.within directory
        do
          Logged.write config.summaryEntry
          return config

end DnsMatch.Config
