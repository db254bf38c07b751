/-! # Blanks, comments and line ends

Each function takes the text that is left, as a list of characters in which a
line ends with a line feed alone, and gives what is left behind what it
passes. -/

namespace DnsMatch.Toml

/-- The text with each carriage return before a line feed left out, behind what was already
folded, which is given last character first. -/
def foldLineEnds (folded : List Char) : List Char → List Char
  | [] => folded.reverse
  | '\r' :: '\n' :: rest => foldLineEnds ('\n' :: folded) rest
  | c :: rest => foldLineEnds (c :: folded) rest

def isSpace (c : Char) : Bool :=
  c == ' ' || c == '\t'

/-- Whether a character may stand in a comment: a tab, or anything that is no control character of
the first thirty-two. -/
def inComment (c : Char) : Bool :=
  c == '\t' || ' ' ≤ c

/-- Passes blanks within a line. -/
def skipSpaces (text : List Char) : List Char :=
  text.dropWhile isSpace

/-- Passes blanks, line ends and comments; the flag tells that a comment has begun. -/
def skipVoid (comment : Bool) : List Char → Option (List Char)
  | [] => some []
  | c :: rest =>
    if c == '\n' then skipVoid false rest
    else if comment then
      if inComment c then skipVoid true rest else none
    else if isSpace c then skipVoid false rest
    else if c == '#' then skipVoid true rest
    else some (c :: rest)

/-- Passes the end of a line, before which only blanks and a comment may stand. -/
def skipLineEnd (text : List Char) : Option (List Char) :=
  match skipSpaces text with
  | [] => some []
  | c :: rest =>
    if c == '\n' then some rest else if c == '#' then skipVoid true rest else none

end DnsMatch.Toml
