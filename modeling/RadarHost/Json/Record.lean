import RadarHost.Json.Basic

/-!
# Records and variants in JSON

A record is an object that has every one of its fields once; other fields are skipped. It may also
be written as an array of its fields in their order. A variant without content is its name, or an
object with its name and null; a variant with content is an object with its name and its content.
-/

namespace RadarHost

/-- What can be written as JSON and read back. -/
class Recorded (α : Type) where
  toJson : α → Json
  ofJson? : Json → Option α

export Recorded (toJson ofJson?)

namespace Json

/-- The keys of fields as texts, unless one of them is none. -/
def namedFields? : List (Option String × Json) → Option (List (String × Json))
  | [] => some []
  | (some key, value) :: rest => (namedFields? rest).map ((key, value) :: ·)
  | (none, _) :: _ => none

/-- The value of a field that is there once. -/
def single? (name : String) (fields : List (String × Json)) : Option Json :=
  match fields.filter (·.1 == name) with
  | [(_, value)] => some value
  | _ => none

/-- The values of the fields of a record, in the order of their names. -/
def fields? (names : List String) : Json → Option (List Json)
  | .object fields => do
    let fields ← namedFields? fields
    names.mapM (single? · fields)
  | .array items => if items.length = names.length then some items else none
  | _ => none

/-- The values of the fields of a record that allows no others. -/
def onlyFields? (names : List String) : Json → Option (List Json)
  | .object fields => do
    let named ← namedFields? fields
    if named.all fun f => names.contains f.1 then fields? names (.object fields) else none
  | value => fields? names value

/-- The name of a variant and its content. -/
def variant? : Json → Option (String × Option Json)
  | .string name => some (name, none)
  | .object [(some name, content)] => some (name, some content)
  | _ => none

/-- The name of a variant without content. -/
def unitVariant? (value : Json) : Option String :=
  match variant? value with
  | some (name, none) | some (name, some .null) => some name
  | _ => none

/-- The name of a variant with content, and the content. -/
def contentVariant? (value : Json) : Option (String × Json) :=
  match variant? value with
  | some (name, some content) => some (name, content)
  | _ => none

/-- A variant with content. -/
def variant (name : String) (content : Json) : Json := .record [(name, content)]

/-- A number of at most `max`, written as digits alone. -/
def natUpTo? (max : Nat) : Json → Option Nat
  | .nat n => if n ≤ max then some n else none
  | _ => none

/-- A size in memory. -/
def size? : Json → Option Nat := natUpTo? largestSize

/-- A number of 32 bits. -/
def word? : Json → Option Nat := natUpTo? largestWord

end Json

instance : Recorded UInt8 where
  toJson n := .nat n.toNat
  ofJson? v := (Json.natUpTo? 255 v).map UInt8.ofNat

instance : Recorded UInt16 where
  toJson n := .nat n.toNat
  ofJson? v := (Json.natUpTo? 65535 v).map UInt16.ofNat

instance : Recorded UInt32 where
  toJson n := .nat n.toNat
  ofJson? v := (Json.word? v).map UInt32.ofNat

instance : Recorded String where
  toJson text := .string text
  ofJson?
    | .string text => some text
    | _ => none

instance {α : Type} [Recorded α] : Recorded (List α) where
  toJson items := .array (items.map toJson)
  ofJson?
    | .array items => items.mapM ofJson?
    | _ => none

end RadarHost
