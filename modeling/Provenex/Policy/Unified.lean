import Provenex.Policy.VerificationPolicy
import Provenex.ToolCall.Evaluator

/-! `policy/unified.py`, and `validate_policy_file`, which tries its loader first. -/

namespace Provenex

open Guard

def unifiedYamlTopKeys : List String :=
  ["access_control", "description", "policy_id", "tool_call_control", "verification", "version"]

def verificationKeys : List String :=
  ["block_stale", "block_tampered", "block_unauthorized", "block_unverified", "flag_stale",
    "flag_tampered", "flag_unauthorized", "flag_unverified"]

/-- What a unified file loads to; the two evaluators as constructed. -/
structure LoadedPolicy where
  verification : VerificationPolicy
  accessControl : Option NativeYaml
  toolCallControl : Option NativeYaml

/-- The policy that the retrieval and admission wiring takes. -/
structure Policy where
  verification : VerificationPolicy
  accessControl : Option PolicyEvaluator
  toolCallControl : Option ToolCallPolicyEvaluator

/-- What a caller may pass for a policy. -/
inductive PolicyArg
  | absent
  | policy (p : Policy)
  | verification (p : VerificationPolicy)
  | other (typeName : String)

def coercePolicy : PolicyArg → Except PyErr Policy
  | .absent => .ok ⟨.default, none, none⟩
  | .policy p => .ok p
  | .verification p => .ok ⟨p, none, none⟩
  | .other typeName => .error (.typeError (some
      ("policy must be Policy, VerificationPolicy, or None; got " ++ typeName)))

def buildAccessControlMetadata (evaluator : PolicyEvaluator) (decisions : List PyDict) :
    ControlMetadata where
  evaluator := evaluator.evaluatorName
  policyId := evaluator.policyId
  policyVersionHash := evaluator.policyVersionHash
  policyInTransparencyLog := false
  decisions := decisions

def PyVal.bool? : PyVal → Option Bool
  | .bool b => some b
  | _ => .none

section

variable {Ω : Type} (rt : Runtime Ω)

/-- `block.get(k, default)`, after the values were checked to be booleans. -/
def readFlag (d : PyDict) (k : String) (default : Bool) : Bool :=
  ((getKey d k).bind PyVal.bool?).getD default

def parseVerification (block : PyVal) (source : String) : Except PyErr VerificationPolicy :=
  match block with
  | .none => .ok .default
  | block => do
    let d ← asMapping block (.policyParseError (source ++
      ": 'verification' must be a mapping, got " ++ block.typeName))
    rejectExtras rt.toStdlib d verificationKeys (.ok source) fun source extras =>
      source ++ ": verification has unknown keys " ++ extras ++ ". Allowed: " ++
        reprStrings rt.toStdlib verificationKeys
    checkAll d fun e =>
      raiseIf (e.2.bool? = none) (.policyParseError (source ++ ": verification['" ++
        rt.format (.atom e.1) ++ "'] must be a boolean, got " ++ e.2.typeName))
    let defaults := VerificationPolicy.default
    .ok {
      blockStale := readFlag d "block_stale" defaults.blockStale
      blockUnauthorized := readFlag d "block_unauthorized" defaults.blockUnauthorized
      blockUnverified := readFlag d "block_unverified" defaults.blockUnverified
      blockTampered := readFlag d "block_tampered" defaults.blockTampered
      flagStale := readFlag d "flag_stale" defaults.flagStale
      flagUnauthorized := readFlag d "flag_unauthorized" defaults.flagUnauthorized
      flagUnverified := readFlag d "flag_unverified" defaults.flagUnverified
      flagTampered := readFlag d "flag_tampered" defaults.flagTampered }

/-- One of the two evaluator sections: a null or absent one loads to none. -/
def loadSection (construct : PyVal → String → Except PyErr NativeYaml) (d : PyDict) (k : String)
    (source : String) : Except PyErr (Option NativeYaml) :=
  match getOrNone d k with
  | .none => .ok none
  | _ => (construct (.dict d) source).map some

namespace Policy

/-- `_from_bundle`, given the two constructors. -/
def fromBundleWith (constructAccess constructTool : PyVal → String → Except PyErr NativeYaml)
    (bundle : PyVal) (source : String) : Except PyErr LoadedPolicy := do
  let d ← asMapping bundle (notMapping bundle source)
  rejectExtras rt.toStdlib d unifiedYamlTopKeys (.ok source) fun source extras =>
    source ++ ": unknown top-level keys " ++ extras ++ ". Allowed: " ++
      reprStrings rt.toStdlib unifiedYamlTopKeys
  let version := (getKey d "version").getD (.int 1)
  raiseIf (¬ version.eq (.int 1)) (raised ((rt.reprOf version).map fun got =>
    .policyParseError (source ++ ": 'version' must be 1 (got " ++ got ++ ")")))
  let verification ← parseVerification rt (getOrNone d "verification") source
  let accessControl ← loadSection constructAccess d "access_control" source
  let toolCallControl ← loadSection constructTool d "tool_call_control" source
  .ok ⟨verification, accessControl, toolCallControl⟩

/-- `_from_bundle`. -/
def fromBundle (bundle : PyVal) (source : String) : Except PyErr LoadedPolicy :=
  fromBundleWith rt (NativeYamlEvaluator.constructFromBundle rt)
    (NativeYamlToolCallEvaluator.constructFromBundle rt) bundle source

/-- `_from_bundle`, of a tree. -/
def fromTree (tree : YamlTree) (source : String) : Except PyErr LoadedPolicy :=
  fromBundleWith rt (fun _ => NativeYamlEvaluator.constructFromTree rt tree)
    (fun _ => NativeYamlToolCallEvaluator.constructFromTree rt tree) tree.shown source

def fromText (text source : String) : Except PyErr LoadedPolicy := do
  let tree ← loadYaml rt.toStdlib text source
  fromTree rt tree source

end Policy

def LoadedPolicy.asPolicy (p : LoadedPolicy) : Policy where
  verification := p.verification
  accessControl := p.accessControl.map (NativeYamlEvaluator.asPolicyEvaluator rt)
  toolCallControl := p.toolCallControl.map
    (NativeYamlToolCallEvaluator.asToolCallPolicyEvaluator rt)

/-- The message of a policy error. -/
def PyErr.policyMessage : PyErr → Option String
  | .policyParseError msg => some msg
  | .unsupportedPolicyFeature msg => some msg
  | _ => .none

/-- `validate_policy_file`; `file` is the text read at `path`, none if there is no such file. -/
def validatePolicyFile (path : String) (file : Option String) :
    Except PyErr (Bool × Option String) :=
  match file with
  | none => .ok (false, some ("file not found: " ++ path))
  | some text =>
    match Policy.fromText rt text path with
    | .ok _ => .ok (true, none)
    | .error e =>
      match e.policyMessage with
      | none => .error e
      | some unifiedErr =>
        match NativeYamlEvaluator.fromText rt text path with
        | .ok _ => .ok (true, none)
        | .error e' =>
          match e'.policyMessage with
          | none => .error e'
          | some _ => .ok (false, some unifiedErr)

end

end Provenex
