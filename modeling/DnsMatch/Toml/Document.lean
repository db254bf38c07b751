/-! # TOML documents

A document is taken as it is written: entries up to the first heading, and then
sections of a heading and entries each. A key is the list of its dotted parts.
Of the values only strings, arrays and inline tables are told apart; numbers,
booleans and dates are kept as they are spelled. -/

namespace DnsMatch.Toml

/-- A key: its parts, of which there are several if it is dotted. -/
abbrev Key := List String

inductive Value where
  | string (text : String)
  | scalar (spelling : String)
  | array (items : List Value)
  | table (entries : List (Key × Value))
deriving Repr

/-- A key with its value. -/
abbrev Entry := Key × Value

/-- The heading of a section; one that opens an element of an array of tables has two brackets. -/
structure Heading where
  key : Key
  isElement : Bool
deriving DecidableEq, Repr

/-- A heading and the entries below it. -/
structure Section where
  heading : Heading
  entries : List Entry
deriving Repr

/-- The entries above the first heading, and the sections. -/
structure Document where
  entries : List Entry
  sections : List Section
deriving Repr

/-- A line of a document that says something. -/
inductive Statement where
  | entry (entry : Entry)
  | heading (heading : Heading)
deriving Repr

/-- The document of the given statements, each entry under the last heading above it. -/
def Document.ofStatements : List Statement → Document
  | [] => ⟨[], []⟩
  | .entry entry :: rest =>
    let document := ofStatements rest
    { document with entries := entry :: document.entries }
  | .heading heading :: rest =>
    let document := ofStatements rest
    ⟨[], ⟨heading, document.entries⟩ :: document.sections⟩

end DnsMatch.Toml
