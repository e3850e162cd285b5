import RadarHost.Json.Basic

/-!
# Reading JSON

`Json.parse?` reads a text that is one value between blanks. Values nest to any depth. Each scanner
takes the characters that are left and returns what it read and what is left then. The count that
bounds the nesting is more than the characters of the text, and every value takes one at least.
-/

namespace RadarHost

namespace Json

def isBlank (c : Char) : Bool := c == ' ' || c == '\t' || c == '\n' || c == '\r'

def skipBlanks (cs : List Char) : List Char := cs.dropWhile isBlank

/-- The four hexadecimal digits of an escape. -/
def codeUnit? (a b c d : Char) : Option Nat := do
  let a ← hexValue? a
  let b ← hexValue? b
  let c ← hexValue? c
  let d ← hexValue? d
  return ((a * 16 + b) * 16 + c) * 16 + d

/-- A string being read: its characters so far, last first; the high half of a character whose low
half has to come next; whether a half was left alone. -/
structure StringScan where
  chars : List Char
  high : Option Nat
  broken : Bool

namespace StringScan

def fresh : StringScan := ⟨[], none, false⟩

/-- A whole character; a high half before it stays alone. -/
def push (s : StringScan) (c : Char) : StringScan :=
  { chars := c :: s.chars, high := none, broken := s.broken || s.high.isSome }

/-- A code unit given by an escape. -/
def pushUnit (s : StringScan) (u : Nat) : StringScan :=
  if 0xDC00 ≤ u ∧ u ≤ 0xDFFF then
    match s.high with
    | some h =>
      { s with
        chars := Char.ofNat (0x10000 + (h - 0xD800) * 0x400 + (u - 0xDC00)) :: s.chars
        high := none }
    | none => { s with broken := true }
  else if 0xD800 ≤ u ∧ u ≤ 0xDBFF then
    { s with high := some u, broken := s.broken || s.high.isSome }
  else s.push (Char.ofNat u)

/-- The text, unless a half of a character was left alone. -/
def finish (s : StringScan) : Option String :=
  if s.broken || s.high.isSome then none else some (String.ofList s.chars.reverse)

end StringScan

/-- The character of an escape of one letter. -/
def escaped? (c : Char) : Option Char :=
  if c = '"' ∨ c = '\\' ∨ c = '/' then some c
  else if c = 'b' then some (Char.ofNat 8)
  else if c = 'f' then some (Char.ofNat 12)
  else if c = 'n' then some '\n'
  else if c = 'r' then some '\r'
  else if c = 't' then some '\t'
  else none

/-- Reads a string after its opening quote. -/
def scanString (s : StringScan) : List Char → Option (Option String × List Char)
  | '"' :: rest => some (s.finish, rest)
  | '\\' :: 'u' :: a :: b :: c :: d :: rest =>
    match codeUnit? a b c d with
    | some u => scanString (s.pushUnit u) rest
    | none => none
  | '\\' :: c :: rest =>
    match escaped? c with
    | some e => scanString (s.push e) rest
    | none => none
  | c :: rest => if c.toNat < 32 then none else scanString (s.push c) rest
  | [] => none

def isNumberChar (c : Char) : Bool :=
  c.isDigit || c == '-' || c == '+' || c == '.' || c == 'e' || c == 'E'

/-- Whether characters are an exponent or nothing. -/
def isExponent : List Char → Bool
  | [] => true
  | e :: rest =>
    (e == 'e' || e == 'E') &&
      match rest with
      | '+' :: digits | '-' :: digits => !digits.isEmpty && digits.all Char.isDigit
      | digits => !digits.isEmpty && digits.all Char.isDigit

/-- Whether characters are a fraction and an exponent, either of which may be missing. -/
def isFraction : List Char → Bool
  | '.' :: rest => (rest.head?.any Char.isDigit) && isExponent (rest.dropWhile Char.isDigit)
  | rest => isExponent rest

/-- Whether characters are a number without a sign: no digit follows a leading zero. -/
def isUnsigned : List Char → Bool
  | '0' :: rest => isFraction rest
  | c :: rest => c.isDigit && isFraction (rest.dropWhile Char.isDigit)
  | [] => false

/-- The number that a row of digits writes. -/
def natOfDigits (digits : List Char) : Nat :=
  digits.foldl (fun n c => 10 * n + (c.toNat - '0'.toNat)) 0

/-- The value of a number as it is written. -/
def ofLexeme? (lexeme : List Char) : Option Json :=
  if isUnsigned lexeme then
    if lexeme.all Char.isDigit then some (.nat (natOfDigits lexeme))
    else some (.number (String.ofList lexeme))
  else
    match lexeme with
    | '-' :: rest => if isUnsigned rest then some (.number (String.ofList lexeme)) else none
    | _ => none

/-- The value of a string that has been read. -/
def ofText : Option String → Json
  | some text => .string text
  | none => .brokenString

mutual

/-- Reads the value at the start of some characters. -/
def scanValue : Nat → List Char → Option (Json × List Char)
  | 0, _ => none
  | fuel + 1, cs =>
    match cs with
    | '"' :: rest => (scanString .fresh rest).map fun (text, rest) => (ofText text, rest)
    | '[' :: rest =>
      match skipBlanks rest with
      | ']' :: rest => some (.array [], rest)
      | rest => scanItems fuel [] rest
    | '\x7b' :: rest =>
      match skipBlanks rest with
      | '\x7d' :: rest => some (.object [], rest)
      | rest => scanFields fuel [] rest
    | 'n' :: 'u' :: 'l' :: 'l' :: rest => some (.null, rest)
    | 't' :: 'r' :: 'u' :: 'e' :: rest => some (.bool true, rest)
    | 'f' :: 'a' :: 'l' :: 's' :: 'e' :: rest => some (.bool false, rest)
    | cs =>
      (ofLexeme? (cs.takeWhile isNumberChar)).map fun v => (v, cs.dropWhile isNumberChar)

/-- Reads the items of an array from the next one on; those before are given last first. -/
def scanItems : Nat → List Json → List Char → Option (Json × List Char)
  | 0, _, _ => none
  | fuel + 1, before, cs =>
    match scanValue fuel (skipBlanks cs) with
    | none => none
    | some (item, rest) =>
      match skipBlanks rest with
      | ',' :: rest => scanItems fuel (item :: before) rest
      | ']' :: rest => some (.array (item :: before).reverse, rest)
      | _ => none

/-- Reads the fields of an object from the next one on; those before are given last first. -/
def scanFields : Nat → List (Option String × Json) → List Char → Option (Json × List Char)
  | 0, _, _ => none
  | fuel + 1, before, cs =>
    match skipBlanks cs with
    | '"' :: rest =>
      match scanString .fresh rest with
      | none => none
      | some (key, rest) =>
        match skipBlanks rest with
        | ':' :: rest =>
          match scanValue fuel (skipBlanks rest) with
          | none => none
          | some (value, rest) =>
            match skipBlanks rest with
            | ',' :: rest => scanFields fuel ((key, value) :: before) rest
            | '\x7d' :: rest => some (.object ((key, value) :: before).reverse, rest)
            | _ => none
        | _ => none
    | _ => none

end

/-- The value that a text writes. -/
def parse? (text : String) : Option Json :=
  let cs := text.toList
  match scanValue (2 * cs.length + 2) (skipBlanks cs) with
  | some (value, rest) => if (skipBlanks rest).isEmpty then some value else none
  | none => none

end Json

end RadarHost
