import DnsMatch.Text.Hex
import DnsMatch.Toml.Blank

/-! # Quoted strings

A string stands between double quotes, where a backslash begins an escape, or
between single quotes, where it does not. It ends on its line, or, opened by
three quotes, at the next three quotes. Then a line end right behind the
opening quotes does not belong to it, but up to two quotes right before the
closing ones do. A backslash at the end of a line hides that line end and all
blanks and line ends behind it. -/

namespace DnsMatch.Toml.Quoted

structure Style where
  quote : Char
  multiline : Bool
deriving DecidableEq, Repr

/-- Whether a backslash begins an escape. -/
def Style.escapes (style : Style) : Bool :=
  style.quote == '"'

/-- Where in a string the reader is. -/
inductive Phase where
  | text
  /-- Behind a backslash. -/
  | escape
  /-- In the digits of a code point, with so many to come. -/
  | code (digits value : Nat)
  /-- Behind a backslash and blanks, on the same line. -/
  | beforeLineEnd
  /-- Behind a hidden line end. -/
  | afterLineEnd
deriving DecidableEq, Repr

/-- The character that an escape of one letter stands for. -/
def escaped? : Char → Option Char
  | '"' => some '"'
  | '\\' => some '\\'
  | 'b' => some '\x08'
  | 'f' => some '\x0c'
  | 'n' => some '\n'
  | 'r' => some '\r'
  | 't' => some '\t'
  | _ => none

/-- Whether a character may stand for itself in a string. -/
def isPlain (style : Style) (c : Char) : Bool :=
  c == '\t' || (' ' ≤ c && c != '\x7f') || (style.multiline && c == '\n')

/-- Reads a string from behind its opening quotes. What was read of it is given last character
first. -/
def read (style : Style) (phase : Phase) (value : List Char) :
    List Char → Option (String × List Char)
  | [] => none
  | c :: rest =>
    match phase with
    | .escape =>
      if c == 'u' then read style (.code 4 0) value rest
      else if c == 'U' then read style (.code 8 0) value rest
      else if style.multiline && c == '\n' then read style .afterLineEnd value rest
      else if style.multiline && isSpace c then read style .beforeLineEnd value rest
      else
        match escaped? c with
        | some meant => read style .text (meant :: value) rest
        | none => none
    | .code digits code =>
      match Text.Hex.value? c with
      | none => none
      | some digit =>
        let code := code * 16 + digit
        if digits > 1 then read style (.code (digits - 1) code) value rest
        else if code.isValidChar then read style .text (Char.ofNat code :: value) rest
        else none
    | .beforeLineEnd =>
      if isSpace c then read style .beforeLineEnd value rest
      else if c == '\n' then read style .afterLineEnd value rest
      else none
    | _ =>
      if phase = .afterLineEnd ∧ (isSpace c || c == '\n') then
        read style .afterLineEnd value rest
      else if c == style.quote then
        if !style.multiline then some (String.ofList value.reverse, rest)
        else if rest.take 2 == [c, c] then
          let behind := rest.drop 2
          let kept := (behind.take 2).takeWhile (· == c)
          some (String.ofList (value.reverse ++ kept), behind.drop kept.length)
        else read style .text (c :: value) rest
      else if style.escapes && c == '\\' then read style .escape value rest
      else if isPlain style c then read style .text (c :: value) rest
      else none

/-- Reads a string from its opening quotes on. -/
def read? : List Char → Option (Style × String × List Char)
  | [] => none
  | quote :: rest =>
    if quote != '"' && quote != '\'' then none
    else if rest.take 2 == [quote, quote] then
      let body := rest.drop 2
      let style : Style := ⟨quote, true⟩
      let body := if body.head? == some '\n' then body.tail else body
      (read style .text [] body).map (style, ·)
    else
      let style : Style := ⟨quote, false⟩
      (read style .text [] rest).map (style, ·)

end DnsMatch.Toml.Quoted
