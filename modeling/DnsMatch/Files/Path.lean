/-! # Paths of files

A path is a text whose pieces are set apart by slashes. An absolute path starts
with a slash. Empty pieces and pieces of one dot add nothing to the place that
a path names, except for a dot at the very start, which stands for the working
directory; a piece of two dots is kept as it is. -/

namespace DnsMatch.Files

/-- A path, which may be any text. -/
structure Path where
  text : String
deriving DecidableEq, Repr

namespace Path

/-! ## Pieces -/

/-- The pieces of a path between its slashes; there is always one more piece than slashes. -/
def pieces (path : Path) : List (List Char) :=
  path.text.toList.splitOn '/'

/-- The path that pieces make with slashes between them. -/
def ofPieces (pieces : List (List Char)) : Path :=
  ⟨String.ofList (['/'].intercalate pieces)⟩

/-- Whether a piece adds nothing to the place that a path names. -/
def isVoid (piece : List Char) : Bool :=
  piece == [] || piece == ['.']

/-- The pieces of a path that name something. -/
def names (path : Path) : List (List Char) :=
  path.pieces.filter (!isVoid ·)

def isAbsolute (path : Path) : Bool :=
  path.text.toList.head? == some '/'

/-! ## Directories -/

/-- The pieces without void ones at the end; the first piece always stays. -/
def trimEnd : List (List Char) → List (List Char)
  | [] => []
  | first :: rest => first :: (rest.reverse.dropWhile isVoid).reverse

/-- The directory that a path is in, if it has one: the empty path and the root have none. A path
of one piece is in the working directory, whose path is empty. -/
def parent? (path : Path) : Option Path :=
  match trimEnd path.pieces with
  | [] => none
  | [piece] => if piece = [] then none else some ⟨""⟩
  | pieces =>
    let directory := trimEnd pieces.dropLast
    some (if directory = [[]] then ⟨"/"⟩ else ofPieces directory)

/-- The path that a path is taken for in a directory: itself if it is absolute, and otherwise the
directory, a slash unless there is one already or nothing before it, and the path. -/
def within (directory path : Path) : Path :=
  if path.isAbsolute then path
  else if directory.text.toList.getLast?.all (· == '/') then ⟨directory.text ++ path.text⟩
  else ⟨directory.text ++ "/" ++ path.text⟩

end Path

end DnsMatch.Files
