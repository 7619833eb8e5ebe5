import Roster.Json.Printer
import Roster.Text.Quoted

/-!
# Values of an expected shape

Reading a record out of a JSON value. A record is written as an object, each
field at most once, or as an array of its fields in order. What can be wrong is
a `ShapeError`; its wording is `ShapeError.message`.
-/

namespace Roster

/-- What stood where something else was expected. -/
inductive Json.Found where
  | null
  | bool (b : Bool)
  | number (n : Json.Number)
  | text (s : String)
  | sequence
  | map
deriving DecidableEq, Repr

/-- The sort of a value, as shape errors name it. -/
def Json.found : Json → Json.Found
  | .null => .null
  | .bool b => .bool b
  | .num n => .number n
  | .str s => .text s
  | .arr _ => .sequence
  | .obj _ => .map

/-- Why a value does not have the expected shape. -/
inductive ShapeError where
  /-- A value of another sort. -/
  | wrongType (found : Json.Found) (expected : String)
  /-- An integer outside the expected range. -/
  | outOfRange (i : Int) (expected : String)
  /-- An object that should have had one key. -/
  | notSingleKey
  /-- A field that has to be there and is not. -/
  | missingField (name : String)
  /-- A field that is written twice. -/
  | duplicateField (name : String)
  /-- A field that the record does not have. -/
  | unknownField (name : String) (known : List String)
  /-- A name that is none of the possible ones. -/
  | unknownVariant (name : String) (known : List String)
  /-- An array that ends before the last field of a record. -/
  | tooShort (length : Nat) (record : String) (fields : Nat)
  /-- An array that goes on after the last field of a record. -/
  | tooLong (length : Nat)
  /-- The same in a text, where the items left over are not read. -/
  | trailingItems
  /-- A value that fits none of the alternatives of a type. -/
  | noAlternative (type : String)
deriving DecidableEq, Repr

namespace ShapeError

/-- The wording of what stood there. -/
def foundText : Json.Found → String
  | .null => "null"
  | .bool true => "boolean `true`"
  | .bool false => "boolean `false`"
  | .number (.int i) => "integer `" ++ signedDecimal i ++ "`"
  | .number (.float d) => "floating point `" ++ Layout.json.write d ++ "`"
  | .text s => "string " ++ Text.quoted s
  | .sequence => "sequence"
  | .map => "map"

/-- Names between backquotes: two are joined by `or`, more are listed. -/
def oneOf (names : List String) : String :=
  match names with
  | [a] => "`" ++ a ++ "`"
  | [a, b] => "`" ++ a ++ "` or `" ++ b ++ "`"
  | _ => "one of " ++ ", ".intercalate (names.map fun n => "`" ++ n ++ "`")

/-- The wording of a shape error. -/
def message : ShapeError → String
  | .wrongType found expected => "invalid type: " ++ foundText found ++ ", expected " ++ expected
  | .outOfRange i expected =>
    "invalid value: integer `" ++ signedDecimal i ++ "`, expected " ++ expected
  | .notSingleKey => "invalid value: map, expected map with a single key"
  | .missingField name => "missing field `" ++ name ++ "`"
  | .duplicateField name => "duplicate field `" ++ name ++ "`"
  | .unknownField name known => "unknown field `" ++ name ++ "`, expected " ++ oneOf known
  | .unknownVariant name known => "unknown variant `" ++ name ++ "`, expected " ++ oneOf known
  | .tooShort length record fields =>
    "invalid length " ++ decimal length ++ ", expected struct " ++ record ++ " with " ++
      decimal fields ++ " elements"
  | .tooLong length =>
    "invalid length " ++ decimal length ++ ", expected fewer elements in array"
  | .trailingItems => "trailing characters"
  | .noAlternative type => "data did not match any variant of untagged enum " ++ type

end ShapeError

namespace Json

/-! ## Simple values -/

/-- An integer that fits an unsigned word. -/
def asWord : Json → Except ShapeError Nat
  | .num (.int i) =>
    if 0 ≤ i ∧ i < wordBound then .ok i.toNat else .error (.outOfRange i "u64")
  | v => .error (.wrongType v.found "u64")

/-- An integer that fits a signed word. -/
def asInteger : Json → Except ShapeError Int
  | .num (.int i) =>
    if fitsSigned i then .ok i else .error (.outOfRange i "i64")
  | v => .error (.wrongType v.found "i64")

/-- A Boolean. -/
def asBool : Json → Except ShapeError Bool
  | .bool b => .ok b
  | v => .error (.wrongType v.found "a boolean")

/-- A text. -/
def asText : Json → Except ShapeError String
  | .str s => .ok s
  | v => .error (.wrongType v.found "a string")

/-- An array. -/
def asItems : Json → Except ShapeError (List Json)
  | .arr items => .ok items
  | v => .error (.wrongType v.found "a sequence")

/-- An object. -/
def asFields : Json → Except ShapeError (List (String × Json))
  | .obj fields => .ok fields
  | v => .error (.wrongType v.found "a map")

/-- `null` is absence. -/
def optional {ε α : Type} (read : Json → Except ε α) : Json → Except ε (Option α)
  | .null => .ok none
  | v => (read v).map some

/-- One of a choice of names: the name itself, or an object with the name as its only key and
`null` under it. -/
def asVariant {α : Type} (names : List String) (ofName? : String → Option α) :
    Json → Except ShapeError α
  | .str name =>
    match ofName? name with
    | some a => .ok a
    | none => .error (.unknownVariant name names)
  | .obj [(name, value)] =>
    match ofName? name with
    | some a => if value.isNull then .ok a else .error (.wrongType value.found "unit")
    | none => .error (.unknownVariant name names)
  | .obj _ => .error .notSingleKey
  | v => .error (.wrongType v.found "string or map")

/-! ## Records -/

/-- How a record is read: its name, its fields in order, whether other fields are passed over,
and what reading one field does to the record read so far. -/
structure RecordShape (ε ρ : Type) where
  name : String
  fields : List String
  lenient : Bool
  set : String → Json → ρ → Except ε ρ
  fault : ShapeError → ε

namespace RecordShape

variable {ε ρ : Type}

/-- Reads the fields of an object in their order; `seen` are the names already read. -/
def readFields (shape : RecordShape ε ρ) : List String → List (String × Json) → ρ → Except ε ρ
  | _, [], record => .ok record
  | seen, (name, value) :: rest, record =>
    if shape.fields.contains name then
      if seen.contains name then .error (shape.fault (.duplicateField name))
      else do
        let record ← shape.set name value record
        shape.readFields (name :: seen) rest record
    else if shape.lenient then shape.readFields seen rest record
    else .error (shape.fault (.unknownField name shape.fields))

/-- Reads items as the fields of the same place. -/
def readItems (shape : RecordShape ε ρ) : List String → List Json → ρ → Except ε ρ
  | name :: names, value :: rest, record => do
    let record ← shape.set name value record
    shape.readItems names rest record
  | _, _, record => .ok record

/-- Reads a record that starts out as `blank`. -/
def read (shape : RecordShape ε ρ) (blank : ρ) : Json → Except ε ρ
  | .obj fields => shape.readFields [] fields blank
  | .arr items => do
    let record ← shape.readItems shape.fields items blank
    if shape.fields.length < items.length then .error (shape.fault (.tooLong items.length))
    else .ok record
  | v => .error (shape.fault (.wrongType v.found ("struct " ++ shape.name)))

/-- Reads a record all of whose fields have to be there; `missing?` names the first field that a
record read so far lacks. -/
def readWhole (shape : RecordShape ε ρ) (blank : ρ) (missing? : ρ → Option String) (v : Json) :
    Except ε ρ := do
  let record ← shape.read blank v
  match v, missing? record with
  | _, none => .ok record
  | .arr items, some _ =>
    .error (shape.fault (.tooShort items.length shape.name shape.fields.length))
  | _, some name => .error (shape.fault (.missingField name))

end RecordShape

end Json

end Roster
