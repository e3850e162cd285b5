import RadarHost.Bytes

/-!
# Numbers and bytes as hexadecimal text

`hexWord` is how the messages show bytes and words (`02F0`), `hexText` how bytes are written down
(`02f0`), and `hexBytes?` reads the latter back.
-/

namespace RadarHost

/-- The sixteen digits in lower case. -/
def hexDigit (n : Nat) : Char := Nat.digitChar (n % 16)

/-- A number in upper-case hexadecimal, filled with zeros up to `width` digits. -/
def hexWord (width n : Nat) : String :=
  let digits := (Nat.toDigits 16 n).map Char.toUpper
  String.ofList (List.replicate (width - digits.length) '0' ++ digits)

/-- A number in lower-case hexadecimal, filled with zeros up to `width` digits. -/
def hexWordLower (width n : Nat) : String :=
  let digits := Nat.toDigits 16 n
  String.ofList (List.replicate (width - digits.length) '0' ++ digits)

/-- Two lower-case digits for each byte. -/
def hexText (bytes : Bytes) : String :=
  String.ofList (bytes.flatMap fun b => [hexDigit (b.toNat / 16), hexDigit b.toNat])

/-- The value of a hexadecimal digit in either case. -/
def hexValue? (c : Char) : Option Nat :=
  if '0' ≤ c ∧ c ≤ '9' then some (c.toNat - '0'.toNat)
  else if 'a' ≤ c ∧ c ≤ 'f' then some (c.toNat - 'a'.toNat + 10)
  else if 'A' ≤ c ∧ c ≤ 'F' then some (c.toNat - 'A'.toNat + 10)
  else none

/-- The bytes that a row of digit pairs writes, after those read already, last first. -/
def hexBytesFrom? (read : Bytes) : List Char → Option Bytes
  | [] => some read.reverse
  | [_] => none
  | high :: low :: rest =>
    match hexValue? high, hexValue? low with
    | some h, some l => hexBytesFrom? (UInt8.ofNat (16 * h + l) :: read) rest
    | _, _ => none

/-- The bytes that a text of hexadecimal digit pairs writes. -/
def hexBytes? (text : String) : Option Bytes := hexBytesFrom? [] text.toList

end RadarHost
