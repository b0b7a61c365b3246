import Provenex.Lib.CycleSearch
import Provenex.Lib.Guard
import Provenex.Lib.Rows
import Provenex.Policy.Rules
import Provenex.Py.Convert

/-! `audit_trajectory_dag` of `core/trajectory.py`. -/

namespace Provenex

open Guard

/-! ## Keys -/

/-- What sets and dicts tell their keys apart by: numbers that are equal are one key. -/
def PyAtom.key : PyAtom → PyAtom
  | .bool b => .int (if b then 1 else 0)
  | .float .negZero => .int 0
  | .float (.finite q) => if q.den = 1 then .int q.num else .float (.finite q)
  | a => a

/-- A value as an element of a set, or as a key. -/
def hashable : PyVal → Except PyErr PyAtom
  | .atom a => .ok a
  | _ => .error (.typeError none)

/-- The elements of a set. -/
def distinct (as : List PyAtom) : List PyAtom :=
  as.foldl (fun seen a => if seen.any fun b => b.key = a.key then seen else seen ++ [a]) []

/-! ## Reading a receipt -/

/-- `r["trajectory"]`, to be subscripted. -/
def trajectoryBlock (r : PyDict) : Except PyErr PyDict := do
  asMapping (← subscript r "trajectory") (.typeError none)

def trajectoryIdOf (r : PyDict) : Except PyErr PyAtom := do
  hashable (← subscript (← trajectoryBlock r) "trajectory_id")

def receiptIdOf (r : PyDict) : Except PyErr PyAtom := do
  hashable (← subscript r "receipt_id")

def parentStepIdsOf (r : PyDict) : Except PyErr (List PyAtom) := do
  buildAll (← iterate (← subscript (← trajectoryBlock r) "parent_step_ids")) hashable

/-- A receipt, as the structural checks see it. -/
structure TrajectoryStep where
  receiptId : PyAtom
  parentStepIds : List PyAtom

def TrajectoryStep.key (s : TrajectoryStep) : PyAtom := s.receiptId.key

/-! ## The checks -/

structure TrajectoryCheck where
  name : String
  ok : Bool
  message : String

structure TrajectoryAuditResult where
  ok : Bool
  trajectoryId : Option PyAtom
  receiptCount : ℕ
  checks : List TrajectoryCheck

/-- Of the receipts with one id, the last. -/
def byId (steps : List TrajectoryStep) : List TrajectoryStep :=
  steps.foldl (Rows.put TrajectoryStep.key) []

section

variable (py : Stdlib)

/-- `items[:3]`, and what is written after it. -/
def firstThree (items : List PyVal) : String :=
  py.repr (.list (items.take 3)) ++ if items.length > 3 then "..." else ""

def blockCheck (receipts : List PyDict) : TrajectoryCheck :=
  match receipts.filter fun r => ! (getOrNone r "trajectory").truthy with
  | [] => ⟨"has_trajectory_block", true,
      "all " ++ toString receipts.length ++ " receipts carry a trajectory block"⟩
  | missing => ⟨"has_trajectory_block", false,
      toString missing.length ++ " receipt(s) lack a trajectory block: " ++
        firstThree py (missing.map fun r => (getKey r "receipt_id").getD (.str "(no id)"))⟩

def sharedCheck (ids : List PyAtom) : Except PyErr TrajectoryCheck :=
  match ids with
  | [trajectoryId] => .ok ⟨"shared_trajectory_id", true,
      "all receipts share trajectory_id " ++ py.format (.atom trajectoryId)⟩
  | ids =>
    if sortable ids then
      .ok ⟨"shared_trajectory_id", false,
        "receipts span " ++ toString ids.length ++ " distinct trajectory_ids: " ++
          firstThree py ((ids.insertionSort fun a b => a.le b = true).map .atom)⟩
    else .error (.typeError none)

/-- The parents that are no receipt, each with the receipt that names it. -/
def danglingParents (steps : List TrajectoryStep) : List (PyAtom × PyAtom) :=
  steps.flatMap fun s =>
    (s.parentStepIds.filter fun p => ! (byId steps).any fun t => t.key = p.key).map fun p =>
      (s.receiptId, p)

def danglingCheck (steps : List TrajectoryStep) : TrajectoryCheck :=
  match danglingParents steps with
  | [] => ⟨"no_dangling_parents", true, "every parent_step_id resolves"⟩
  | (receiptId, parentId) :: rest => ⟨"no_dangling_parents", false,
      toString (rest.length + 1) ++ " dangling parent reference(s); first: receipt " ++
        py.format (.atom receiptId) ++ " → missing parent " ++ py.format (.atom parentId)⟩

/-- What the depth-first search walks over. -/
def parentGraph (steps : List TrajectoryStep) : List (PyAtom × List PyAtom) :=
  (byId steps).map fun s => (s.receiptId, s.parentStepIds)

def acyclicCheck (steps : List TrajectoryStep) : TrajectoryCheck :=
  match CycleSearch.findCycle PyAtom.key (parentGraph steps) with
  | none => ⟨"dag_acyclic", true, "no cycles"⟩
  | some cycleThrough => ⟨"dag_acyclic", false,
      "cycle detected through receipt " ++ py.format (.atom cycleThrough)⟩

def rootCheck (steps : List TrajectoryStep) : TrajectoryCheck :=
  match steps.filter fun s => s.parentStepIds.isEmpty with
  | [] => ⟨"has_root_step", false,
      "no root step (every receipt references at least one parent)"⟩
  | roots => ⟨"has_root_step", true, toString roots.length ++ " root step(s)"⟩

/-- `audit_trajectory_dag` -/
def auditTrajectoryDag (receipts : List PyDict) : Except PyErr TrajectoryAuditResult := do
  let blocks := blockCheck py receipts
  if blocks.ok then
    let ids := distinct (← buildAll receipts trajectoryIdOf)
    let shared ← sharedCheck py ids
    if shared.ok then
      let receiptIds ← buildAll receipts receiptIdOf
      let parents ← buildAll receipts parentStepIdsOf
      let steps := List.zipWith TrajectoryStep.mk receiptIds parents
      let checks := [blocks, shared, danglingCheck py steps, acyclicCheck py steps, rootCheck steps]
      .ok ⟨checks.all (·.ok), ids.head?, receipts.length, checks⟩
    else .ok ⟨false, none, receipts.length, [blocks, shared]⟩
  else .ok ⟨false, none, receipts.length, [blocks]⟩

end

end Provenex
