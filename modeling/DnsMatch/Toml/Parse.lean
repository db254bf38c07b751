import DnsMatch.Toml.Document
import DnsMatch.Toml.Quoted
import DnsMatch.Toml.Scalar

/-! # Reading documents

Each function takes the text that is left and gives what it read and what is
left behind it. Keys have any number of parts and values nest, so their readers
take a number of steps that they may go down. A part of a key takes one step
and at least one character, a value takes two steps and at least one character.
Twice as many steps as there are characters are always enough: a document is
never refused for want of steps (`Document.ofText?_eq_some_iff`). -/

namespace DnsMatch.Toml

/-! ## Keys -/

/-- Whether a character may stand in a key without quotes. -/
def inBareKey (c : Char) : Bool :=
  c.isAlphanum || c == '-' || c == '_'

/-- Reads one part of a key. -/
def readKeyPart (text : List Char) : Option (String × List Char) :=
  match Quoted.read? text with
  | some (style, part, rest) => if style.multiline then none else some (part, rest)
  | none =>
    let part := text.takeWhile inBareKey
    if part.isEmpty then none else some (String.ofList part, text.drop part.length)

/-- Reads the parts of a key and the blanks behind it. -/
def readKey : Nat → List Char → Option (Key × List Char)
  | 0, _ => none
  | steps + 1, text => do
    let (part, rest) ← readKeyPart text
    match skipSpaces rest with
    | '.' :: rest =>
      let (parts, rest) ← readKey steps (skipSpaces rest)
      return (part :: parts, rest)
    | rest => return ([part], rest)

/-- Reads a key, an equals sign and the blanks up to the value. -/
def readKeyAndSign (steps : Nat) (text : List Char) : Option (Key × List Char) := do
  match ← readKey steps text with
  | (key, '=' :: rest) => return (key, skipSpaces rest)
  | _ => none

/-! ## Values -/

/-- Reads a string, a number, a boolean or a date. -/
def readSimple (text : List Char) : Option (Value × List Char) :=
  match Quoted.read? text with
  | some (_, value, rest) => some (.string value, rest)
  | none => (Scalar.read? text).map fun (spelling, rest) => (.scalar spelling, rest)

mutual

def readValue : Nat → List Char → Option (Value × List Char)
  | 0, _ => none
  | steps + 1, text =>
    match text with
    | '[' :: rest => do
      let (items, rest) ← readItems steps rest
      return (.array items, rest)
    | '\x7b' :: rest =>
      match skipSpaces rest with
      | '\x7d' :: rest => some (.table [], rest)
      | rest => do
        let (entries, rest) ← readEntries steps rest
        return (.table entries, rest)
    | _ => readSimple text

/-- Reads the items of an array up to its closing bracket. -/
def readItems : Nat → List Char → Option (List Value × List Char)
  | 0, _ => none
  | steps + 1, text => do
    match ← skipVoid false text with
    | ']' :: rest => return ([], rest)
    | text =>
      let (item, rest) ← readValue steps text
      match ← skipVoid false rest with
      | ',' :: rest =>
        let (items, rest) ← readItems steps rest
        return (item :: items, rest)
      | ']' :: rest => return ([item], rest)
      | _ => none

/-- Reads the entries of an inline table up to its closing brace. -/
def readEntries : Nat → List Char → Option (List Entry × List Char)
  | 0, _ => none
  | steps + 1, text => do
    let (key, rest) ← readKeyAndSign steps text
    let (value, rest) ← readValue steps rest
    match skipSpaces rest with
    | ',' :: rest =>
      let (entries, rest) ← readEntries steps (skipSpaces rest)
      return ((key, value) :: entries, rest)
    | '\x7d' :: rest => return ([(key, value)], rest)
    | _ => none

end

/-! ## Lines -/

/-- Reads an entry and the end of its line. -/
def readEntry (steps : Nat) (text : List Char) : Option (Statement × List Char) := do
  let (key, rest) ← readKeyAndSign steps text
  let (value, rest) ← readValue steps rest
  return (.entry (key, value), ← skipLineEnd rest)

/-- Reads a heading, from behind its first bracket, and the end of its line. -/
def readHeading (steps : Nat) (text : List Char) : Option (Statement × List Char) := do
  let isElement := text.head? == some '['
  let text := if isElement then text.tail else text
  let (key, rest) ← readKey steps (skipSpaces text)
  match rest, isElement with
  | ']' :: ']' :: rest, true => return (.heading ⟨key, true⟩, ← skipLineEnd rest)
  | ']' :: rest, false => return (.heading ⟨key, false⟩, ← skipLineEnd rest)
  | _, _ => none

/-- Reads at most so many statements up to the end of the text, behind those already read, which
are given last one first. The readers of a statement may go down so many steps. -/
def readStatements (steps : Nat) (read : List Statement) :
    Nat → List Char → Option (List Statement)
  | 0, _ => none
  | count + 1, text => do
    match ← skipVoid false text with
    | [] => return read.reverse
    | '[' :: rest =>
      let (statement, rest) ← readHeading steps rest
      readStatements steps (statement :: read) count rest
    | text =>
      let (statement, rest) ← readEntry steps text
      readStatements steps (statement :: read) count rest

/-- The characters of a text as they are read: without a byte order mark at its start, and with
each line ended by a line feed alone. -/
def characters (text : String) : List Char :=
  let characters := text.toList
  foldLineEnds [] (if characters.head? == some '\ufeff' then characters.tail else characters)

/-- The document that a text spells. -/
def Document.ofText? (text : String) : Option Document := do
  let text := characters text
  return ofStatements (← readStatements (2 * text.length) [] (text.length + 1) text)

/-- The document in the contents of a file, which must be UTF-8. -/
def Document.ofOctets? (contents : Octets) : Option Document := do
  ofText? (← String.fromUTF8? ⟨contents⟩)

end DnsMatch.Toml
