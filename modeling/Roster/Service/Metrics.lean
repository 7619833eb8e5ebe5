import Roster.Json.Basic
import Roster.Text.Split
import Roster.Uuid

/-!
# Metrics

Everything that is measured is kept as a list of samples, and the metrics page
is computed from the list: counters count samples with equal labels, histograms
count for every bound how many observed values do not exceed it.

Labels stand in the page as they are. A label that holds a line break therefore
breaks its line in two.
-/

namespace Roster

/-- One measurement. -/
inductive Sample where
  /-- A request was answered. -/
  | request (method path : String) (status : Nat) (seconds : Double)
  /-- A query asked for more rows than the limit. -/
  | takeClamped (entity : String)
  /-- Include nodes were cut off. -/
  | includeCollapsed (entity : String) (nodes : Nat)
  /-- A role was refused an entity. -/
  | scopeDenied (entity role : String)
  /-- A list was fetched from the storage. -/
  | listQuery (seconds : Double)
deriving DecidableEq, Repr

namespace Metrics

/-- A path as a label: identifiers and numbers in it become a placeholder. -/
def pathLabel (path : String) : String :=
  "/".intercalate ((Text.splitOn path '/').map fun segment =>
    if (Uuid.parse? segment).isSome || (segment ≠ "" && segment.toList.all Char.isDigit)
    then "\x7bid\x7d" else segment)

/-- Labels of a metric. -/
abbrev Labels := List (String × String)

/-- Labels in braces; none without labels. -/
def labelText (labels : Labels) : String :=
  if labels.isEmpty then ""
  else "\x7b" ++ ",".intercalate (labels.map fun p => p.1 ++ "=\"" ++ p.2 ++ "\"") ++ "\x7d"

/-- The lines that introduce a metric. -/
def header (name help type : String) : List String :=
  ["# HELP " ++ name ++ " " ++ help ++ ".", "# TYPE " ++ name ++ " " ++ type]

/-- A counter: for each set of labels the total of its increments. A counter is an unsigned word and
starts again at zero after the last one. -/
def counter (name help : String) (increments : List (Labels × Nat)) : List String :=
  header name help "counter" ++ (increments.map (·.1)).eraseDups.map fun labels =>
    let total := ((increments.filter (·.1 == labels)).map (·.2)).foldl (· + ·) 0
    name ++ "_total" ++ labelText labels ++ " " ++ decimal (total % Json.wordBound)

/-- A sum of doubles, which may leave their range. -/
inductive Total where
  | finite (d : Double)
  /-- Beyond the largest double, or below the least one. -/
  | infinite (negative : Bool)
deriving DecidableEq, Repr

/-- The sum and one more value. Only a value of the same sign takes a sum out of the range, and no
finite value brings it back. -/
def Total.add : Total → Double → Total
  | finite d, v =>
    match d.add? v with
    | some d => finite d
    | none => infinite v.negative
  | infinite negative, _ => infinite negative

/-- A sum as the page writes it. -/
def Total.text : Total → String
  | finite d => Layout.metric.write d
  | infinite false => "inf"
  | infinite true => "-inf"

/-- The sum of observed values. -/
def sum (values : List Double) : Total := values.foldl Total.add (.finite Double.zero)

/-- The bounds `start`, `2 · start`, `4 · start`, … -/
def bounds (start : Double) (length : Nat) : List Double :=
  (List.range length).filterMap fun i => start.mul? (Double.ofInt (Nat.pow 2 i))

/-- The lines of one histogram. -/
def histogramLines (name : String) (bounds : List Double) (labels : Labels)
    (values : List Double) : List String :=
  let bucket (le : String) (count : Nat) : String :=
    name ++ "_bucket" ++ labelText (("le", le) :: labels) ++ " " ++ decimal count
  [name ++ "_sum" ++ labelText labels ++ " " ++ (sum values).text,
    name ++ "_count" ++ labelText labels ++ " " ++ decimal values.length] ++
    (bounds.map fun b =>
      bucket (Layout.metric.write b) (values.countP fun v => v.order b != .gt)) ++
    [bucket "+Inf" values.length]

/-- A histogram for each set of labels. -/
def histogram (name : String) (bounds : List Double) (observed : List (Labels × Double)) :
    List String :=
  (observed.map (·.1)).eraseDups.flatMap fun labels =>
    histogramLines name bounds labels ((observed.filter (·.1 == labels)).map (·.2))

/-- The double of a decimal that has one. -/
def decimalDouble (digits : Nat) (exponent : Int) : Double :=
  (Double.ofDecimal? false digits exponent).getD Double.zero

/-- The labels of a request. -/
def requestLabels (method path : String) (status : Nat) : Labels :=
  [("method", method), ("path", pathLabel path), ("status", decimal status)]

/-- The lines of the metrics page. -/
def lines (log : List Sample) : List String :=
  let requests := log.filterMap fun
    | .request method path status seconds => some (requestLabels method path status, seconds)
    | _ => none
  counter "http_requests" "Total HTTP requests" (requests.map fun p => (p.1, 1)) ++
    header "http_request_duration_seconds" "HTTP request duration in seconds" "histogram" ++
    histogram "http_request_duration_seconds" (bounds (decimalDouble 1 (-3)) 12) requests ++
    counter "query_take_clamped" "List requests whose take exceeded the maximum"
      (log.filterMap fun
        | .takeClamped entity => some ([("entity", entity)], 1)
        | _ => none) ++
    counter "query_include_collapsed" "Include nodes collapsed beyond the maximum depth"
      (log.filterMap fun
        | .includeCollapsed entity nodes => some ([("entity", entity)], nodes)
        | _ => none) ++
    counter "query_scope_denied" "List requests refused by role constraints"
      (log.filterMap fun
        | .scopeDenied entity role => some ([("entity", entity), ("role", role)], 1)
        | _ => none) ++
    header "list_query_duration_seconds" "Storage time per list query in seconds" "histogram" ++
    histogramLines "list_query_duration_seconds" (bounds (decimalDouble 1 (-4)) 14) []
      (log.filterMap fun
        | .listQuery seconds => some seconds
        | _ => none) ++
    ["# EOF"]

/-- The metrics page. -/
def page (log : List Sample) : String := String.join ((lines log).map (· ++ "\n"))

end Metrics

end Roster
