import DnsMatch.Text.Hex

/-! # Numbers, booleans and dates

Of a number, a boolean or a date only the spelling is kept, but it must be that
of one. An integer is one of 64 bits, in decimal with or without a sign, or in
another base; a number with a fraction or an exponent may be of any size.
Underscores stand between two digits only, and no decimal number begins with a
needless zero. A date and a time stand one behind the other, with a letter or a
single blank between them, or each alone. -/

namespace DnsMatch.Toml.Scalar

/-! ## Numbers -/

def digit? (base : Nat) (c : Char) : Option Nat :=
  (Text.Hex.value? c).filter (· < base)

/-- The number that digits spell, behind those that spell `value`. -/
def numberFrom? (base value : Nat) : List Char → Option Nat
  | [] => some value
  | '_' :: c :: rest => do numberFrom? base (value * base + (← digit? base c)) rest
  | c :: rest => do numberFrom? base (value * base + (← digit? base c)) rest

def number? (base : Nat) : List Char → Option Nat
  | [] => none
  | c :: rest => do numberFrom? base (← digit? base c) rest

def decimal? (text : List Char) : Option Nat :=
  if text.head? == some '0' && text.length != 1 then none else number? 10 text

def withoutSign : List Char → List Char
  | '+' :: rest => rest
  | '-' :: rest => rest
  | text => text

def isInteger (text : List Char) : Bool :=
  match text with
  | '0' :: 'x' :: rest => (number? 16 rest).any (· < 0x8000000000000000)
  | '0' :: 'o' :: rest => (number? 8 rest).any (· < 0x8000000000000000)
  | '0' :: 'b' :: rest => (number? 2 rest).any (· < 0x8000000000000000)
  | '-' :: rest => (decimal? rest).any (· ≤ 0x8000000000000000)
  | _ => (decimal? (withoutSign text)).any (· < 0x8000000000000000)

/-- Whether a character may stand in a run of decimal digits. -/
def inDigits (c : Char) : Bool :=
  c.isDigit || c == '_'

def isExponent : List Char → Bool
  | [] => false
  | mark :: rest => (mark == 'e' || mark == 'E') && (number? 10 (withoutSign rest)).isSome

/-- Whether a text may follow the whole part of a number that is no integer. -/
def isFractional : List Char → Bool
  | '.' :: rest =>
    let (fraction, behind) := rest.span inDigits
    (number? 10 fraction).isSome && (behind.isEmpty || isExponent behind)
  | rest => isExponent rest

def isFractionalNumber (text : List Char) : Bool :=
  let text := withoutSign text
  let (whole, behind) := text.span inDigits
  text == ['i', 'n', 'f'] || text == ['n', 'a', 'n'] ||
    ((decimal? whole).isSome && isFractional behind)

/-! ## Dates and times -/

/-- Whether two characters are the digits of a number in a range. -/
def isBetween (least greatest : Nat) (tens ones : Char) : Bool :=
  (number? 10 [tens, ones]).any fun value => least ≤ value && value ≤ greatest

/-- What is behind the date at the start of a text. -/
def passDate? : List Char → Option (List Char)
  | y₁ :: y₂ :: y₃ :: y₄ :: '-' :: m₁ :: m₂ :: '-' :: d₁ :: d₂ :: rest =>
    if isBetween 0 99 y₁ y₂ && isBetween 0 99 y₃ y₄ && isBetween 1 12 m₁ m₂ &&
      isBetween 1 31 d₁ d₂ then some rest
    else none
  | _ => none

def passSecondFraction? : List Char → Option (List Char)
  | '.' :: rest =>
    let (digits, behind) := rest.span Char.isDigit
    if digits.isEmpty then none else some behind
  | rest => some rest

/-- What is behind the time of day at the start of a text. -/
def passTime? : List Char → Option (List Char)
  | h₁ :: h₂ :: ':' :: m₁ :: m₂ :: ':' :: s₁ :: s₂ :: rest =>
    if isBetween 0 24 h₁ h₂ && isBetween 0 59 m₁ m₂ && isBetween 0 60 s₁ s₂ then
      passSecondFraction? rest
    else none
  | _ => none

/-- Whether a text says how far the time before it is from universal time, or nothing. -/
def isOffset : List Char → Bool
  | [] | ['Z'] | ['z'] => true
  | [sign, h₁, h₂, ':', m₁, m₂] =>
    (sign == '+' || sign == '-') && isBetween 0 99 h₁ h₂ && isBetween 0 99 m₁ m₂
  | _ => false

def isDateOrTime (text : List Char) : Bool :=
  match passTime? text, passDate? text with
  | some behind, _ => behind.isEmpty
  | none, none => false
  | none, some [] => true
  | none, some (mark :: rest) =>
    (mark == 'T' || mark == 't' || mark == ' ') && (passTime? rest).any isOffset

/-! ## Reading -/

def isScalar (spelling : List Char) : Bool :=
  spelling == ['t', 'r', 'u', 'e'] || spelling == ['f', 'a', 'l', 's', 'e'] ||
    isInteger spelling || isFractionalNumber spelling || isDateOrTime spelling

/-- Whether a character may stand in a scalar. -/
def inScalar (c : Char) : Bool :=
  c.isAlphanum || c == '-' || c == '_' || c == '+' || c == '.' || c == ':'

/-- As much of a text as may be one scalar: a run of characters and, if that is a date, what stands
behind a single blank. -/
def spelling (text : List Char) : List Char :=
  let (run, behind) := text.span inScalar
  match passDate? run, behind with
  | some [], ' ' :: rest =>
    let time := rest.takeWhile inScalar
    if time.isEmpty then run else run ++ ' ' :: time
  | _, _ => run

/-- Reads a number, a boolean or a date. -/
def read? (text : List Char) : Option (String × List Char) :=
  let spelling := spelling text
  if isScalar spelling then some (String.ofList spelling, text.drop spelling.length) else none

end DnsMatch.Toml.Scalar
