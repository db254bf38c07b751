import DnsMatch.Toml.Document

/-! # What a document says

A document says what values keys have. A dotted key stands for its first part,
whose value is then a table with the rest of the key in it. Sections whose
headings begin with the same part give that part its value: an array of tables
if the first of them opens an element of it, and a table otherwise. A section
with a longer heading belongs to the element that is open above it. Only the
top of a document and the elements of its arrays are told apart in this way;
what is further down is kept as a table, whatever is in it. -/

namespace DnsMatch.Toml

/-- Keys with their values. A key whose value is a table is there once for each part of it. -/
abbrev Table := List (String × Value)

def Value.isTable : Value → Bool
  | .table _ => true
  | _ => false

namespace Table

def keys (table : Table) : List String :=
  table.map (·.1)

/-- Whether a key has one value, which may be put together from several parts if it is a table. -/
def IsConsistent (table : Table) : Prop :=
  table.Pairwise fun one other => one.1 = other.1 → one.2.isTable ∧ other.2.isTable

instance (table : Table) : Decidable table.IsConsistent :=
  inferInstanceAs (Decidable (table.Pairwise _))

/-- What an entry says of the first part of its key. -/
def ofEntry? : Entry → Option (String × Value)
  | ([], _) => none
  | ([key], value) => some (key, value)
  | (key :: rest, value) => some (key, .table [(rest, value)])

/-- What entries say together, if they do not contradict each other. -/
def ofEntries? (entries : List Entry) : Option Table := do
  let table ← entries.mapM ofEntry?
  if IsConsistent table then some table else none

end Table

/-! ## Sections -/

namespace Section

/-- Whether a section opens an element of an array that stands at the top. -/
def opensElement (block : Section) : Bool :=
  block.heading.isElement && block.heading.key.tail.isEmpty

/-- What a section says of the rest of its heading. -/
def below (block : Section) : Entry :=
  (block.heading.key.tail, .table block.entries)

/-- What sections say before the first element that they open, and what they say of each element. -/
def split : List Section → List Entry × List (List Entry)
  | [] => ([], [])
  | block :: blocks =>
    let (before, elements) := split blocks
    if block.opensElement then ([], (block.entries ++ before) :: elements)
    else (block.below :: before, elements)

/-- The value that sections give to the part that all of their headings begin with. -/
def value (blocks : List Section) : Value :=
  match split blocks with
  | ([], elements) => .array (elements.map .table)
  | (before, _) => .table before

end Section

/-! ## Documents -/

/-- What a document says, if it does not contradict itself. -/
def Document.table? (document : Document) : Option Table := do
  let own ← document.entries.mapM Table.ofEntry?
  let headed ← document.sections.mapM (·.heading.key.head?)
  let table : Table := own ++ headed.eraseDups.map fun key =>
    (key, Section.value (document.sections.filter (·.heading.key.head? = some key)))
  if Table.IsConsistent table then some table else none

/-- What each table of an array of tables says. -/
def Value.tables? : Value → Option (List Table)
  | .array items => items.mapM fun
    | .table entries => Table.ofEntries? entries
    | _ => none
  | _ => none

end DnsMatch.Toml
