import Provenex.Lib.Guard
import Provenex.Policy.Rules
import Provenex.Py.Convert

/-! `cli/main.py`: the summary of a trajectory. A receipt that was not written by
the SDK may hold anything under the keys that are added up. -/

namespace Provenex.Cli

open Guard

/-! ## Adding up -/

/-- A number. -/
inductive Total
  | int (i : ℤ)
  | float (f : PyFloat)

def Total.toPyVal : Total → PyVal
  | .int i => .int i
  | .float f => .atom (.float f)

/-- The number that a value is. -/
def number : PyVal → Option Total
  | .atom (.int i) => some (.int i)
  | .atom (.bool b) => some (.int (if b then 1 else 0))
  | .atom (.float f) => some (.float f)
  | _ => none

def countKeys : List String :=
  ["total_chunks", "verified", "stale", "unauthorized", "unverified", "tampered"]

def actionKeys : List String := ["total_actions", "actions_allowed", "actions_denied"]

/-- What the loop over the receipts accumulates. -/
structure Aggregate where
  counts : List (String × Total)
  actions : List (String × Total)
  anyActions : Bool
  perStepKind : List (String × ℕ)
  statuses : List String

def Aggregate.init : Aggregate where
  counts := countKeys.map fun k => (k, .int 0)
  actions := actionKeys.map fun k => (k, .int 0)
  anyActions := false
  perStepKind := []
  statuses := []

/-- `d[kind] = d.get(kind, 0) + 1`. -/
def countKind (kind : String) : List (String × ℕ) → List (String × ℕ)
  | [] => [(kind, 1)]
  | e :: rest => if e.1 = kind then (e.1, e.2 + 1) :: rest else e :: countKind kind rest

section

-- `addFloat` is the sum of two numbers of which one is a float
variable (addFloat : Total → Total → Except PyErr PyFloat)

/-- `total + v`. -/
def Total.add (total : Total) (v : PyVal) : Except PyErr Total :=
  match number v with
  | none => .error (.typeError none)
  | some n =>
    match total, n with
    | .int i, .int j => .ok (.int (i + j))
    | total, n => (addFloat total n).map .float

/-- `totals[k] += summary.get(k, 0) or 0`, for each key. -/
def addTotals (totals : List (String × Total)) (summary : PyDict) :
    Except PyErr (List (String × Total)) :=
  buildAll totals fun e =>
    (e.2.add addFloat (((getKey summary e.1).getD (.int 0)).orElse (.int 0))).map fun t => (e.1, t)

def Aggregate.addActions (acc : Aggregate) (summary : PyDict) : Except PyErr Aggregate :=
  if hasKey summary "total_actions" then
    (addTotals addFloat acc.actions summary).map fun actions =>
      { acc with actions := actions, anyActions := true }
  else .ok acc

def Aggregate.addStatus (acc : Aggregate) (status : PyVal) : Aggregate :=
  { acc with statuses := acc.statuses ++ status.str?.toList }

def Aggregate.addStepKind (acc : Aggregate) (kind : PyVal) : Aggregate :=
  match kind.str? with
  | some kind => { acc with perStepKind := countKind kind acc.perStepKind }
  | none => acc

/-- One turn of the loop. -/
def Aggregate.addReceipt (acc : Aggregate) (r : PyDict) : Except PyErr Aggregate := do
  let summary ← asMapping ((getOrNone r "summary").orElse (.dict [])) .attributeError
  let counts ← addTotals addFloat acc.counts summary
  let acc ← { acc with counts := counts }.addActions addFloat summary
  let acc := acc.addStatus (getOrNone summary "overall_status")
  let trajectory ← asMapping ((getOrNone r "trajectory").orElse (.dict [])) .attributeError
  .ok (acc.addStepKind (getOrNone trajectory "step_kind"))

def Aggregate.overallStatus (acc : Aggregate) : String :=
  if "FAIL" ∈ acc.statuses then "FAIL"
  else if "PARTIAL" ∈ acc.statuses then "PARTIAL"
  else "PASS"

def totalItems (totals : List (String × Total)) : PyDict :=
  totals.map fun e => (.str e.1, e.2.toPyVal)

def Aggregate.toDict (acc : Aggregate) : PyDict :=
  let actions : PyDict := if acc.anyActions then totalItems acc.actions else []
  let perStepKind : PyDict := if acc.perStepKind.isEmpty then [] else
    [(.str "per_step_kind", .dict (acc.perStepKind.map fun e => (.str e.1, .int e.2)))]
  totalItems acc.counts ++ actions ++ perStepKind ++ [(.str "overall_status", .str acc.overallStatus)]

/-- `_aggregate_trajectory_summary` -/
def aggregateTrajectorySummary (receipts : List PyDict) : Except PyErr PyDict :=
  (receipts.foldlM (Aggregate.addReceipt addFloat) .init).map Aggregate.toDict

end

end Provenex.Cli
