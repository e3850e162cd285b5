import RadarHost.Digits

/-!
# JSON values

A value keeps what a reader of records has to know: the order and repetition of the fields of an
object, whether a number is a plain row of digits, and whether a string names text at all (an
escape may name half of a character). `Json.render` writes a value without blanks.
-/

namespace RadarHost

inductive Json
  | null
  | bool (value : Bool)
  /-- A number written as digits alone. -/
  | nat (value : Nat)
  /-- Any other number, as it is written. -/
  | number (lexeme : String)
  | string (text : String)
  /-- A well-formed string with an unpaired surrogate: it names no text. -/
  | brokenString
  | array (items : List Json)
  /-- Fields in order; a key without text is an unpaired surrogate again. -/
  | object (fields : List (Option String × Json))
  deriving Inhabited, Repr

namespace Json

/-- An object of named fields. -/
def record (fields : List (String × Json)) : Json := .object (fields.map fun (k, v) => (some k, v))

/-- The value of the first field of a name. -/
def field? (name : String) : Json → Option Json
  | .object fields => (fields.find? (·.1 == some name)).map (·.2)
  | _ => none

/-- How a character is written inside a string: quotes, backslashes and control characters are
escaped. -/
def escape (c : Char) : String :=
  if c = '"' then "\\\""
  else if c = '\\' then "\\\\"
  else if c = '\n' then "\\n"
  else if c = '\r' then "\\r"
  else if c = '\t' then "\\t"
  else if c.toNat = 8 then "\\b"
  else if c.toNat = 12 then "\\f"
  else if c.toNat < 32 then "\\u" ++ hexWordLower 4 c.toNat
  else c.toString

/-- Writes a text in quotes after what is written already. -/
def writeString (written text : String) : String :=
  (text.toList.foldl (fun acc c => acc ++ escape c) (written ++ "\"")) ++ "\""

mutual

/-- Writes a value after what is written already. -/
def write (written : String) : Json → String
  | .null => written ++ "null"
  | .bool b => written ++ (if b then "true" else "false")
  | .nat n => written ++ toString n
  | .number lexeme => written ++ lexeme
  | .string text => writeString written text
  | .brokenString => written ++ "\"\\ud800\""
  | .array items => writeItems (written ++ "[") "" items ++ "]"
  | .object fields => writeFields (written ++ "\x7b") "" fields ++ "\x7d"

def writeItems (written separator : String) : List Json → String
  | [] => written
  | item :: rest => writeItems (write (written ++ separator) item) "," rest

def writeFields (written separator : String) : List (Option String × Json) → String
  | [] => written
  | (key, value) :: rest =>
    writeFields
      (write (writeString (written ++ separator) (key.getD "") ++ ":") value) "," rest

end

/-- The text of a value, without blanks. -/
def render (value : Json) : String := write "" value

end Json

end RadarHost
