import Provenex.Py.Value

/-! The cursor of `core/trajectory.py` that links receipts into a trajectory. -/

namespace Provenex

structure TrajectoryContext where
  trajectoryId : String
  stepIndex : ℤ
  trajectoryStartedAt : String
  parentStepIds : List String
  stepKind : Option String
  agentId : Option String
  sessionId : Option String
  deriving DecidableEq, Repr

namespace TrajectoryContext

/-- `next_step`. A parent receipt stands for its `receipt_id`, where that is a string. -/
def nextStep (t : TrajectoryContext) (parentReceipts : List (Option String))
    (parentStepIds : List String) (stepKind agentId sessionId : Option String) :
    Except PyErr TrajectoryContext :=
  match parentReceipts.mapM id with
  | none => .error (.typeError (some ("parent_receipts entries must expose a receipt_id " ++
      "string attribute")))
  | some ids => .ok {
      trajectoryId := t.trajectoryId
      stepIndex := t.stepIndex + 1
      trajectoryStartedAt := t.trajectoryStartedAt
      parentStepIds := ids ++ parentStepIds
      stepKind := stepKind
      agentId := agentId.or t.agentId
      sessionId := sessionId.or t.sessionId }

def toDict (t : TrajectoryContext) : PyDict :=
  let d : PyDict := [(.str "trajectory_id", .str t.trajectoryId), (.str "step_index", .int t.stepIndex),
    (.str "parent_step_ids", strList t.parentStepIds),
    (.str "trajectory_started_at", .str t.trajectoryStartedAt)]
  d ++ optionalItem "step_kind" (.ofOption t.stepKind) ++
    optionalItem "agent_id" (.ofOption t.agentId) ++
    optionalItem "session_id" (.ofOption t.sessionId)

/-- `start_trajectory`, with the fresh identifier and the time it reads. -/
def start (trajectoryId now : String) (agentId stepKind sessionId : Option String) :
    TrajectoryContext :=
  ⟨trajectoryId, 0, now, [], stepKind, agentId, sessionId⟩

end TrajectoryContext

end Provenex
