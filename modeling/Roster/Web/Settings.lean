import Roster.Service.Listing
import Roster.Text.Blank

/-!
# Settings

The settings of the service, each under the name of a variable. A variable that
is not set leaves its setting at a default; only the secret has none. Numbers
are read digit by digit, so the first thing that is wrong is the one reported.
-/

namespace Roster

/-- The settings of the service. -/
structure Settings where
  port : Nat := 3000
  databaseUrl : Option String := none
  databaseMaxConnections : Nat := 10
  /-- The origins that pages may ask from. -/
  allowedOrigins : List String := ["*"]
  /-- The secret that tokens are signed with. -/
  secret : String
  limits : Limits := {}
  /-- The seconds after which the database gives up a statement. -/
  statementTimeout : Nat := 10
deriving DecidableEq, Repr

/-- What is wrong with the text of a number. -/
inductive NumberFault where
  | empty
  | badDigit
  | tooLarge
deriving DecidableEq, Repr

/-- The wording of a fault. -/
def NumberFault.message : NumberFault → String
  | .empty => "cannot parse integer from empty string"
  | .badDigit => "invalid digit found in string"
  | .tooLarge => "number too large to fit in target type"

/-- A sort of whole number. -/
structure NumberSort where
  name : String
  bits : Nat
deriving DecidableEq, Repr

/-- Why there are no settings. -/
inductive SettingsFault where
  | notANumber (name : String) (sort : NumberSort) (cause : NumberFault)
  | missing (name : String)
deriving DecidableEq, Repr

/-- The messages of a fault, from the outermost to the cause. -/
def SettingsFault.chain : SettingsFault → List String
  | .notANumber name sort cause =>
    [name ++ " must be a valid " ++ sort.name, cause.message]
  | .missing name =>
    [name ++ " environment variable is required", "environment variable not found"]

namespace Settings

/-! ## Numbers -/

/-- Reads digits after others that made `n`. -/
def readDigits (bound n : Nat) : List Char → Except NumberFault Nat
  | [] => .ok n
  | c :: rest =>
    if c.isDigit then
      let next := n * 10 + (c.toNat - '0'.toNat)
      if next < bound then readDigits bound next rest else .error .tooLarge
    else .error .badDigit

/-- Reads a number below `bound`; it can have a plus sign. -/
def readNumber (bound : Nat) (text : String) : Except NumberFault Nat :=
  match text.toList with
  | [] => .error .empty
  | ['+'] => .error .badDigit
  | '+' :: digits => readDigits bound 0 digits
  | digits => readDigits bound 0 digits

/-- A port. -/
def portSort : NumberSort := ⟨"u16", 16⟩

/-- A half word. -/
def halfSort : NumberSort := ⟨"u32", 32⟩

/-- A word. -/
def wordSort : NumberSort := ⟨"u64", 64⟩

/-- A size. -/
def sizeSort : NumberSort := ⟨"usize", 64⟩

/-! ## Variables -/

/-- The variables of a process. -/
abbrev Environment := Keyed String

/-- The number that a variable holds. -/
def number (env : Environment) (name : String) (sort : NumberSort) (fallback : Nat) :
    Except SettingsFault Nat :=
  match env.get? name with
  | none => .ok fallback
  | some text => (readNumber (Nat.pow 2 sort.bits) text).mapError (.notANumber name sort)

/-- The origins that a variable lists, between commas. -/
def origins (text : String) : List String := (Text.splitOn text ',').map Text.trim

/-- The settings of an environment. -/
def ofEnvironment (env : Environment) : Except SettingsFault Settings := do
  let port ← number env "PORT" portSort 3000
  let connections ← number env "DATABASE_MAX_CONNECTIONS" halfSort 10
  let some secret := env.get? "JWT_SECRET" | throw (.missing "JWT_SECRET")
  let maxTake ← number env "QUERY_MAX_TAKE" wordSort 100
  let defaultTake ← number env "QUERY_DEFAULT_TAKE" wordSort 20
  let depth ← number env "QUERY_MAX_INCLUDE_DEPTH" sizeSort 1
  let timeout ← number env "QUERY_STATEMENT_TIMEOUT_SECS" wordSort 10
  return {
    port := port
    databaseUrl := env.get? "DATABASE_URL"
    databaseMaxConnections := connections
    allowedOrigins := ((env.get? "CORS_ALLOWED_ORIGINS").map origins).getD ["*"]
    secret := secret
    limits := ⟨maxTake, defaultTake, depth⟩
    statementTimeout := timeout }

/-- The settings of a service that keeps its rows in memory. -/
def forMemory (secret : String) : Settings := { secret := secret }

/-- The database to connect to, or the messages of its absence. -/
def database (s : Settings) : Except (List String) String :=
  match s.databaseUrl with
  | some url => .ok url
  | none =>
    .error ["failed to create database pool", "DATABASE_URL environment variable is required"]

end Settings

end Roster
