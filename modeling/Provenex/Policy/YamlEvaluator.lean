import Provenex.Policy.Rules
import Provenex.ToolCall.Context

/-! The evaluating half of `policy/yaml_evaluator.py`: path resolution, the
constraint operators, and the walk over the rules. -/

namespace Provenex

open Guard

/-! ## Python objects on a path -/

/-- What a path may meet: a context, a value, or an object outside the model (a method, a
class, what `__dict__` or `__dataclass_fields__` hold). -/
inductive PyObj (Ω : Type)
  | chunk (c : ChunkContext)
  | tool (t : ToolCallContext)
  | request (r : RequestContext)
  | val (v : PyVal)
  | other (o : Ω)

/-- The library, and what the interpreter says of objects outside the model. -/
structure Runtime (Ω : Type) extends Stdlib where
  /-- The attribute (of a mapping that is no plain value, the item) by that name, where it is
  not a field the SDK declares. -/
  getattr : PyObj Ω → String → Option (PyObj Ω)
  /-- `o == v` -/
  otherEq : Ω → PyVal → Bool
  /-- What is no text equals none. -/
  otherEq_str : ∀ o s, otherEq o (.str s) = false
  /-- `type(o).__name__` -/
  otherTypeName : Ω → String

/-- Implements nothing, and no object outside the model is met. -/
def Runtime.blank : Runtime Empty :=
  { Stdlib.blank with
    getattr := fun _ _ => none
    otherEq := fun o => o.elim
    otherEq_str := fun o => o.elim
    otherTypeName := fun o => o.elim }

section

variable {Ω : Type}

/-- The keyword arguments a rule is evaluated with. -/
structure View where
  chunk : Option ChunkContext
  tool : Option ToolCallContext
  request : RequestContext

/-- `a == v`. A context equals no value. -/
def PyObj.eq (rt : Runtime Ω) (a : PyObj Ω) (v : PyVal) : Bool :=
  match a with
  | .val w => w.eq v
  | .other o => rt.otherEq o v
  | _ => false

/-- `a in xs`. -/
def PyObj.inList (rt : Runtime Ω) (a : PyObj Ω) (xs : List PyVal) : Bool := xs.any fun x => a.eq rt x

def PyObj.typeName (rt : Runtime Ω) : PyObj Ω → String
  | .chunk _ => "ChunkContext"
  | .tool _ => "ToolCallContext"
  | .request _ => "RequestContext"
  | .val v => v.typeName
  | .other o => rt.otherTypeName o

/-- `isinstance(a, str)`, with the string. -/
def PyObj.str? : PyObj Ω → Option String
  | .val v => v.str?
  | _ => none

/-- The declared fields of the three contexts. -/
def PyObj.field : PyObj Ω → String → Option PyVal
  | .chunk c, "fingerprint" => some c.fingerprint
  | .chunk c, "document_id" => some c.documentId
  | .chunk c, "document_version" => some c.documentVersion
  | .chunk c, "ingested_at" => some c.ingestedAt
  | .chunk c, "metadata" => some (.dict c.metadata)
  | .chunk c, "content_source" => some c.contentSource
  | .tool t, "name" => some t.name
  | .tool t, "operation" => some t.operation
  | .tool t, "parameters" => some (.dict t.parameters)
  | .tool t, "target_system" => some t.targetSystem
  | .tool t, "invocation_id" => some t.invocationId
  | .request r, "caller" => some (.dict r.caller)
  | .request r, "jurisdiction" => some r.jurisdiction
  | .request r, "purpose" => some r.purpose
  | .request r, "timestamp" => some r.timestamp
  | .request r, "session_id" => some (.ofOption r.sessionId)
  | _, _ => none

/-- One segment of a path: a mapping is indexed, anything else is asked for an attribute. -/
def PyObj.step (rt : Runtime Ω) (current : PyObj Ω) (seg : String) : Option (PyObj Ω) :=
  match current with
  | .val (.dict d) => (getKey d seg).map .val
  | current =>
    match current.field seg with
    | some v => some (.val v)
    | none => rt.getattr current seg

def PyObj.walk (rt : Runtime Ω) : PyObj Ω → List String → Option (PyObj Ω)
  | current, [] => some current
  | current, seg :: rest => (current.step rt seg).bind fun next => walk rt next rest

/-- The object a path starts from; none where the evaluation has no such context. -/
def View.root (view : View) : String → Option (Option (PyObj Ω))
  | "chunk" => some (view.chunk.map .chunk)
  | "tool" => some (view.tool.map .tool)
  | "request" => some (some (.request view.request))
  | _ => none

variable (rt : Runtime Ω)

/-- `_resolve_path`; none is `_MISSING`. A path that is no string has no `split`. -/
def resolvePath (path : PyAtom) (view : View) : Except PyErr (Option (PyObj Ω)) :=
  match path with
  | .str s =>
    match splitDots s with
    | [] => .ok none
    | root :: segs =>
      match view.root root with
      | some start => .ok (start.bind fun o => o.walk rt segs)
      | none => .error (.policyParseError ("unknown path root " ++ rt.repr (.str root) ++ " in " ++
          rt.repr (.str s) ++ "; expected 'chunk', 'tool', or 'request'"))
  | _ => .error .attributeError

/-! ## `when` -/

def whenEntryMatches (view : View) (entry : PyAtom × PyVal) : Except PyErr Bool := do
  match ← resolvePath rt entry.1 view with
  | none => .ok false
  | some actual =>
    match entry.2 with
    | .dict expected =>
      match getKey expected "in" with
      | some (.list xs) => .ok (actual.inList rt xs)
      | some _ => .error (.typeError none)
      | none => .ok false
    | expected => .ok (actual.eq rt expected)

/-- True when every entry matches; the first that does not ends the walk. -/
def whenMatches (view : View) (when : PyDict) : Except PyErr Bool :=
  allHold when (whenEntryMatches rt view)

/-! ## `require` -/

/-- The operators a constraint mapping may hold. -/
inductive Operator
  | isIn
  | notIn
  | notOlderThan
  | matchesPattern
  | notMatchesPattern
  | lengthAtMost
  deriving DecidableEq, Repr

namespace Operator

def key : Operator → String
  | isIn => "in"
  | notIn => "not_in"
  | notOlderThan => "not_older_than"
  | matchesPattern => "matches_pattern"
  | notMatchesPattern => "not_matches_pattern"
  | lengthAtMost => "length_at_most"

/-- The order in which `_check_constraint` looks for them. -/
def inOrder : List Operator :=
  [isIn, notIn, notOlderThan, matchesPattern, notMatchesPattern, lengthAtMost]

end Operator

/-- `n <= cap`. -/
def leCap (n : ℕ) (cap : PyVal) : Except PyErr Bool :=
  match cap with
  | .atom a =>
    match a, a.num? with
    | _, some (.fin q) => .ok ((n : ℚ) ≤ q)
    | _, some (.inf neg) => .ok (! neg)
    | .float _, none => .ok false
    | _, none => .error (.typeError none)
  | _ => .error (.typeError none)

/-- The two glob operators, which differ in the sign and the word. -/
def checkPattern (positive : Bool) (word place : String) (operand : PyVal) (actual : PyObj Ω) :
    Except PyErr (Bool × String) :=
  match actual.str? with
  | none => .ok (false, place ++ ": '" ++ word ++ "' requires a string value, got " ++
      actual.typeName rt)
  | some s =>
    if s.length > maxPatternInputLen then
      .ok (false, place ++ ": " ++ word ++ " input rejected (len=" ++ toString s.length ++ " > " ++
        toString maxPatternInputLen ++ ")")
    else match operand with
      | .str pattern => .ok (rt.fnmatchcase s pattern == positive, place ++ ": " ++ word ++ " " ++
          rt.repr operand)
      | _ => .error (.typeError none)

def checkNotOlderThan (place : String) (operand timestamp : PyVal) (actual : PyObj Ω) :
    Except PyErr (Bool × String) :=
  match actual.str? with
  | none => .ok (false, place ++ ": 'not_older_than' requires an ISO-8601 string value, got " ++
      actual.typeName rt)
  | some s => do
    let maxAge ← parseDuration rt.toStdlib operand ("require['" ++ place ++ "'].not_older_than")
    match parseIso8601 rt.toStdlib s ("chunk value at '" ++ place ++ "'") with
    | .error _ => .ok (false, place ++ ": invalid timestamp")
    | .ok actualEpoch =>
      match timestamp with
      | .str now =>
        match parseIso8601 rt.toStdlib now "request.timestamp" with
        | .error _ => .ok (false, place ++ ": invalid timestamp")
        | .ok nowEpoch =>
          let age := nowEpoch - actualEpoch
          let shown ← intText age
          let limit ← intText maxAge
          .ok (age ≤ maxAge, place ++ ": age=" ++ shown ++ "s <= " ++ limit ++ "s")
      | _ => .error .attributeError

/-- What the branch of one operator computes. -/
def Operator.check (op : Operator) (place : String) (operand timestamp : PyVal)
    (actual : PyObj Ω) : Except PyErr (Bool × String) :=
  match op with
  | .isIn =>
    match operand with
    | .list allowed => (rt.formatOf operand).map fun shown =>
        (actual.inList rt allowed, place ++ ": in " ++ shown)
    | _ => .ok (false, place ++ ": 'in' requires a list")
  | .notIn =>
    match operand with
    | .list denied => (rt.formatOf operand).map fun shown =>
        (! actual.inList rt denied, place ++ ": not_in " ++ shown)
    | _ => .ok (false, place ++ ": 'not_in' requires a list")
  | .notOlderThan => checkNotOlderThan rt place operand timestamp actual
  | .matchesPattern => checkPattern rt true op.key place operand actual
  | .notMatchesPattern => checkPattern rt false op.key place operand actual
  | .lengthAtMost =>
    match actual.str? with
    | none => .ok (false, place ++ ": 'length_at_most' requires a string value, got " ++
        actual.typeName rt)
    | some s => do
      let ok ← leCap s.length operand
      let cap ← rt.formatOf operand
      .ok (ok, place ++ ": len=" ++ toString s.length ++ " <= " ++ cap)

/-- The first operator the mapping holds, in the order of the branches. -/
def firstOperator (constraint : PyDict) : Option Operator :=
  Operator.inOrder.find? fun op => hasKey constraint op.key

/-- `_check_constraint`: whether the constraint holds, and why. -/
def checkConstraint (place : String) (constraint : PyVal) (actual : Option (PyObj Ω))
    (timestamp : PyVal) (unknownMetadata : String) : Except PyErr (Bool × String) :=
  match actual with
  | none =>
    if unknownMetadata = "allow" then .ok (true, place ++ ": missing metadata; default allow")
    else .ok (false, place ++ ": missing metadata; default deny")
  | some actual =>
    match constraint with
    | .dict d =>
      match firstOperator d with
      | some op => op.check rt place (getOrNone d op.key) timestamp actual
      | none => .ok (false, place ++ ": unrecognised constraint shape")
    | constraint => .ok (actual.eq rt constraint, place ++ ": equality")

def requireEntryHolds (unknownMetadata : String) (view : View) (entry : PyAtom × PyVal) :
    Except PyErr Bool := do
  let actual ← resolvePath rt entry.1 view
  let result ← checkConstraint rt (rt.format (.atom entry.1)) entry.2 actual view.request.timestamp
    unknownMetadata
  .ok result.1

/-- The loop over `require`; the first constraint that fails ends it. -/
def requireHolds (unknownMetadata : String) (view : View) (require : PyDict) :
    Except PyErr Bool :=
  allHold require (requireEntryHolds rt unknownMetadata view)

/-! ## The rules -/

/-- The loop over the rules, with the names fired so far. -/
def evaluateRules (unknownMetadata : String) (view : View) :
    List Rule → List String → Except PyErr (Decision × List String)
  | [], fired => .ok (.allow, fired)
  | rule :: rest, fired => do
    if ← whenMatches rt view rule.when then
      if ← requireHolds rt unknownMetadata view rule.require then
        evaluateRules unknownMetadata view rest (fired ++ [rule.name])
      else .ok (.deny, fired ++ [rule.name])
    else evaluateRules unknownMetadata view rest fired

/-- `evaluate` of both evaluators, given the inputs dictionary of theirs. -/
def NativeYaml.evaluateView (ev : NativeYaml) (inputs : PyDict) (view : View) :
    Except PyErr PolicyDecision := do
  let inputsHash ← computeInputsHash rt.toStdlib (.dict inputs)
  let (decision, fired) ← evaluateRules rt ev.defaults.unknownMetadata view ev.rules []
  .ok ⟨decision, fired, inputsHash, some inputs, none⟩

/-! ## `NativeYamlEvaluator` -/

namespace NativeYamlEvaluator

def init (bundle : PyVal) (source : String) : Except PyErr NativeYaml :=
  NativeYaml.init rt.toStdlib chunkDomainRoots bundle source

def constructFromBundle (bundle : PyVal) (source : String) : Except PyErr NativeYaml :=
  NativeYaml.constructFromBundle rt.toStdlib "access_control" chunkDomainRoots bundle source

def constructFromTree (tree : YamlTree) (source : String) : Except PyErr NativeYaml :=
  NativeYaml.constructFromTree rt.toStdlib "access_control" chunkDomainRoots tree source

def fromText (text source : String) : Except PyErr NativeYaml := do
  let tree ← loadYaml rt.toStdlib text source
  constructFromTree rt tree source

def evaluate (ev : NativeYaml) (chunk : ChunkContext) (request : RequestContext) :
    Except PyErr PolicyDecision :=
  ev.evaluateView rt (buildInputs chunk request) ⟨some chunk, none, request⟩

/-- The evaluator as the wiring sees it. -/
def asPolicyEvaluator (ev : NativeYaml) : PolicyEvaluator where
  evaluatorName := "native_yaml"
  policyId := ev.policyId
  policyVersionHash := ev.policyVersionHash
  evaluate := evaluate rt ev

end NativeYamlEvaluator

end

end Provenex
