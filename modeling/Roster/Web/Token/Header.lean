import Roster.Json.Outline
import Roster.Json.Shape

/-!
# Headers of tokens

The header of a token names the way in which it is signed. It can say more, about
the key above all; that is not used, but it has to have the right form.
-/

namespace Roster.Token

/-! ## Forms -/

/-- What may stand under some names. -/
abbrev Form := List (String × (Json → Bool))

/-- Every name of the form stands at most once among the fields, with what may stand under it. With
`all` every name has to be there. -/
def Form.fits (all : Bool) (form : Form) (fields : List (String × Json)) : Bool :=
  form.all fun entry =>
    match fields.filter (·.1 == entry.1) with
    | [] => !all
    | [field] => entry.2 field.2
    | _ => false

/-- A text. -/
def isText : Json → Bool
  | .str _ => true
  | _ => false

/-- An array of texts. -/
def isTexts : Json → Bool
  | .arr items => items.all isText
  | _ => false

/-- The word that a value says, if it is one of some. -/
def wordAmong? (words : List String) (v : Json) : Option String :=
  (Json.asVariant words (fun w => if words.contains w then some w else none) v).toOption

/-- One of some words. -/
def isWord (words : List String) (v : Json) : Bool := (wordAmong? words v).isSome

/-- Nothing, or else what the form says. -/
def orNull (allowed : Json → Bool) (v : Json) : Bool := v.isNull || allowed v

/-! ## Keys -/

/-- The names of all ways to sign that a header can name. -/
def algorithms : List String :=
  ["HS256", "HS384", "HS512", "ES256", "ES384", "RS256", "RS384", "RS512", "PS256", "PS384",
    "PS512", "EdDSA"]

/-- What every key can say. -/
def keyForm : Form :=
  [("use", orNull isText), ("key_ops", orNull isTexts),
    ("alg", orNull (isWord (algorithms ++ ["RSA1_5", "RSA-OAEP", "RSA-OAEP-256"]))),
    ("kid", orNull isText), ("x5u", orNull isText), ("x5c", orNull isTexts),
    ("x5t", orNull isText), ("x5t#S256", orNull isText)]

/-- The curves that a key can name. -/
def isCurve : Json → Bool := isWord ["P-256", "P-384", "P-521", "Ed25519"]

/-- The sorts of keys, each with what it has to say. -/
def keySorts : List Form :=
  [[("kty", isWord ["EC"]), ("crv", isCurve), ("x", isText), ("y", isText)],
    [("kty", isWord ["RSA"]), ("n", isText), ("e", isText)],
    [("kty", isWord ["oct"]), ("k", isText)],
    [("kty", isWord ["OKP"]), ("crv", isCurve), ("x", isText)]]

/-- A key: what every key can say, and what one of the sorts has to. -/
def isKey : Json → Bool
  | .obj fields => keyForm.fits false fields && keySorts.any (·.fits true fields)
  | _ => false

/-! ## Headers -/

/-- What a header says, in the order in which an array says it. -/
def headerForm : Form :=
  [("typ", orNull isText), ("alg", isWord algorithms), ("cty", orNull isText),
    ("jku", orNull isText), ("jwk", orNull isKey), ("kid", orNull isText),
    ("x5u", orNull isText), ("x5c", orNull isTexts), ("x5t", orNull isText),
    ("x5t#S256", orNull isText)]

/-- The way to sign that a header names. -/
def headerAlgorithm? (header : Json.Outline) : Option String := do
  let fields ← header.fields? (headerForm.map (·.1))
  if !headerForm.fits false fields then none
  wordAmong? algorithms (← Keyed.get? fields "alg")

/-- The one way to sign that is used. -/
def algorithm : String := "HS256"

/-- The header of a token that is issued. -/
def header : Json := .obj [("typ", .str "JWT"), ("alg", .str algorithm)]

end Roster.Token
