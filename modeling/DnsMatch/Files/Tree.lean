import DnsMatch.Octets
import DnsMatch.Files.Path

/-! # A directory tree

A tree holds a working directory with everything below it, as a list of files
and directories under their places. The directories above a place are there
without being listed. A path is followed piece by piece, and each piece but the
last must lead to a directory, an empty piece or a dot included. Whatever is
outside the working directory cannot be read. -/

namespace DnsMatch.Files

/-- A place in a tree: the names from the working directory down to it. -/
abbrev Place := List (List Char)

/-- The files, with their contents, and the directories of a tree. -/
structure Tree where
  entries : List (Place × Option Octets)
deriving Repr

namespace Tree

/-- The longest text, in octets, that is looked up as a path. -/
def maxPathLength : Nat := 4095

def isDirectory (tree : Tree) (place : Place) : Bool :=
  place == [] || tree.entries.any fun (there, contents?) =>
    place.isPrefixOf there && (place != there || contents?.isNone)

def file? (tree : Tree) (place : Place) : Option Octets :=
  tree.entries.findSome? fun (there, contents?) => if there = place then contents? else none

/-- The place to which pieces of a path lead from a place. -/
def follow? (tree : Tree) (place : Place) : List (List Char) → Option Place
  | [] => some place
  | piece :: pieces =>
    if !tree.isDirectory place then none
    else if Path.isVoid piece then tree.follow? place pieces
    else if piece = ['.', '.'] then
      if place = [] then none else tree.follow? place.dropLast pieces
    else tree.follow? (place ++ [piece]) pieces

/-- The contents of the file that a path leads to. -/
def read? (tree : Tree) (path : Path) : Option Octets :=
  if path.text = "" ∨ path.isAbsolute ∨ path.text.utf8ByteSize > maxPathLength then none
  else (tree.follow? [] path.pieces).bind tree.file?

/-- Adds a file or an empty directory under a relative path. -/
def insert (tree : Tree) (path : Path) (contents? : Option Octets) : Tree :=
  ⟨tree.entries ++ [(path.names, contents?)]⟩

def empty : Tree := ⟨[]⟩

end Tree

end DnsMatch.Files
