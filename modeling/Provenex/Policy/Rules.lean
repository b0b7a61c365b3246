import Provenex.Lib.Guard
import Provenex.Policy.Evaluator

/-! The loading half of `policy/yaml_evaluator.py`, up to a validated bundle.
Sets of names are listed in sorted order, as messages print them. -/

namespace Provenex

open Guard

def knownRequireOperators : List String :=
  ["in", "length_at_most", "matches_pattern", "not_in", "not_matches_pattern", "not_older_than"]

def maxPatternInputLen : ℕ := 65536

def chunkDomainRoots : List String := ["chunk", "request"]

def toolCallDomainRoots : List String := ["request", "tool"]

def reservedRuleKeys : List String := ["all_of", "any_of", "nested", "not"]

/-! ## Small readers -/

/-- `d.get(k)`. -/
def getOrNone (d : PyDict) (k : String) : PyVal := (getKey d k).getD .none

/-- `d.pop(k, default)`, without the change to the mapping. -/
def getOr (d : PyDict) (k : String) (default : PyVal) : PyVal := (getKey d k).getD default

/-- A mapping without some of its keys. -/
def without (d : PyDict) (keys : List String) : PyDict :=
  d.filter fun e => ! keys.any fun k => e.1.eq (.str k)

/-- `a or b`. -/
def pyOr (a b : PyVal) : PyVal := if a.truthy then a else b

def PyVal.isList : PyVal → Bool
  | .list _ => true
  | _ => false

def PyVal.isStr : PyVal → Bool
  | .str _ => true
  | _ => false

/-- `isinstance(v, int) and not isinstance(v, bool) and v >= 0`. -/
def PyVal.isNonNegInt : PyVal → Bool
  | .int i => 0 ≤ i
  | _ => false

/-- The mapping `v` is, or the error. -/
def asMapping (v : PyVal) (e : PyErr) : Except PyErr PyDict :=
  match v with
  | .dict d => .ok d
  | _ => .error e

/-- The nonempty string `v` is, or the error. -/
def asNonEmptyStr (v : PyVal) (e : PyErr) : Except PyErr String :=
  match v with
  | .str s => if s = "" then .error e else .ok s
  | _ => .error e

section

variable (py : Stdlib)

def reprStrings (names : List String) : String := py.repr (.list (names.map .str))

/-- `extras = set(d) - allowed; if extras: raise PolicyParseError(..)`; writing the place and
sorting the names for the message may themselves raise. -/
def rejectExtras (d : PyDict) (allowed : List String) (place : Except PyErr String)
    (msg : String → String → String) : Except PyErr Unit :=
  match extraKeys d allowed with
  | [] => .ok ()
  | extras => do
    let here ← place
    let shown ← sortedRepr py extras
    .error (.policyParseError (msg here shown))

/-! ## YAML text -/

def YamlError.loc (e : YamlError) : String :=
  match e.mark with
  | some (line, column) =>
    " at line " ++ toString (line + 1) ++ ", column " ++ toString (column + 1)
  | none => ""

def loadYaml (text source : String) : Except PyErr YamlTree :=
  if ¬ py.yamlInstalled then
    .error (.policyParseError ("The native YAML evaluator requires PyYAML. " ++
      "Install it with: pip install provenex-core[policy]"))
  else match py.safeLoad text with
    | .ok tree => .ok tree
    | .error (.inr e) => .error e
    | .error (.inl e) =>
      .error (.policyParseError ("YAML parse error in " ++ source ++ e.loc ++ ": " ++ e.text))

/-! ## Durations and timestamps -/

/-- `_DURATION_RE.match(value)`, as its two groups. The three classes of characters are
disjoint, so no backtracking can find another match. -/
def matchDuration (s : String) : Option (List Char × Char) :=
  let cs := s.toList.dropWhile isSpace
  let digits := cs.takeWhile fun c => (py.decimal c).isSome
  let rest := (cs.dropWhile fun c => (py.decimal c).isSome).dropWhile isSpace
  match digits, rest with
  | _ :: _, unit :: tail =>
    if unit ∈ ['s', 'm', 'h', 'd'] ∧ tail.all isSpace then some (digits, unit) else none
  | _, _ => none

def intOfDigits (digits : List Char) : Except PyErr ℤ :=
  if digits.length > maxIntDigits then .error (.valueError none)
  else .ok (digits.foldl (fun n c => 10 * n + ((py.decimal c).getD 0 : ℤ)) 0)

def durationUnitSeconds : Char → ℤ
  | 's' => 1
  | 'm' => 60
  | 'h' => 3600
  | _ => 86400

/-- Parse a duration like `90d` into seconds. -/
def parseDuration (value : PyVal) (place : String) : Except PyErr ℤ :=
  match value with
  | .str s =>
    match matchDuration py s with
    | some (digits, unit) => (intOfDigits py digits).map (· * durationUnitSeconds unit)
    | none => .error (.policyParseError (place ++ ": invalid duration " ++ py.repr value ++
        "; use <int><unit> with unit one of s/m/h/d"))
  | _ => .error (.policyParseError (place ++
      ": expected a duration string (e.g. '90d', '24h', '30m'), got " ++ value.typeName))

/-- Parse a timestamp into UTC epoch seconds; a naive one is read as UTC. -/
def parseIso8601 (value place : String) : Except PyErr ℤ :=
  let s := match stripZ value with
    | some front => front ++ "+00:00"
    | none => value
  match py.fromisoformat s with
  | some dt => .ok (py.intTimestamp dt.us)
  | none => .error (.policyParseError (place ++ ": invalid ISO-8601 timestamp " ++
      py.repr (.str value)))

/-! ## Rules -/

def checkNoReservedKeys (d : PyDict) (place : String) : Except PyErr Unit :=
  checkAll (keysOf d) fun k =>
    raiseIf (reservedRuleKeys.any fun s => k.eq (.str s))
      (.unsupportedPolicyFeature (place ++ ": '" ++ py.format (.atom k) ++
        "' is reserved for a future release. The DSL supports flat when/require maps only."))

/-- A path whose root is not in the domain is refused; one without a dot is not looked at. -/
def validatePathRoot (path : PyAtom) (allowedRoots : List String) (place : String) :
    Except PyErr Unit :=
  match path with
  | .str s =>
    raiseIf ('.' ∈ s.toList ∧ beforeDot s ∉ allowedRoots)
      (.policyParseError (place ++ ": path " ++ py.repr (.str s) ++ " uses root " ++
        py.repr (.str (beforeDot s)) ++ " which is not allowed in this rule's domain. " ++
        "Allowed roots: " ++ reprStrings py allowedRoots))
  | _ => .ok ()

/-- `f"{place}['{path}']"` -/
def entryPlace (place : String) (path : PyAtom) : Except PyErr String :=
  (py.formatOf (.atom path)).map fun shown => place ++ "['" ++ shown ++ "']"

def validateWhenEntry (place : String) (allowedRoots : List String) (entry : PyAtom × PyVal) :
    Except PyErr Unit := do
  validatePathRoot py entry.1 allowedRoots (place ++ " when")
  let here := entryPlace py (place ++ " when") entry.1
  match entry.2 with
  | .dict expected =>
    rejectExtras py expected ["in"] here fun here unknown =>
      here ++ " uses operator(s) " ++ unknown ++ " not supported in 'when'. Only direct " ++
        "equality and 'in' are allowed here; move richer logic into 'require'."
    raiseIf ((getKey expected "in").any fun v => ! v.isList)
      (raised (here.map fun here => .policyParseError (here ++ ".in must be a list")))
  | _ => .ok ()

/-- The duration operand, if there is one, must parse. Its place is written out first. -/
def validateDuration (constraint : PyDict) (place : Except PyErr String) : Except PyErr Unit :=
  match getKey constraint "not_older_than" with
  | some v => do
    let here ← place
    (parseDuration py v (here ++ ".not_older_than")).map fun _ => ()
  | none => .ok ()

def validateRequireEntry (place : String) (allowedRoots : List String) (entry : PyAtom × PyVal) :
    Except PyErr Unit := do
  validatePathRoot py entry.1 allowedRoots (place ++ " require")
  let here := entryPlace py (place ++ " require") entry.1
  match entry.2 with
  | .dict constraint =>
    rejectExtras py constraint knownRequireOperators here fun here unknown =>
      here ++ " uses unknown operator(s) " ++ unknown ++ ". Known operators: " ++
        reprStrings py knownRequireOperators
    raiseIf ((getKey constraint "in").any fun v => ! v.isList)
      (raised (here.map fun here => .policyParseError (here ++ ".in must be a list")))
    raiseIf ((getKey constraint "not_in").any fun v => ! v.isList)
      (raised (here.map fun here => .policyParseError (here ++ ".not_in must be a list")))
    validateDuration py constraint here
    checkAll ["matches_pattern", "not_matches_pattern"] fun op =>
      raiseIf ((getKey constraint op).any fun v => ! v.isStr)
        (raised (here.map fun here => .policyParseError (here ++ "." ++ op ++
          " must be a glob pattern string (e.g. '*.example.com')")))
    let got := do
      let here ← here
      let shown ← py.reprOf (getOrNone constraint "length_at_most")
      .ok (here ++ ".length_at_most must be a non-negative integer (got " ++ shown ++ ")")
    raiseIf ((getKey constraint "length_at_most").any fun v => ! v.isNonNegInt)
      (raised (got.map .policyParseError))
  | _ => .ok ()

/-- One rule, normalized. -/
structure Rule where
  name : String
  when : PyDict
  require : PyDict
  onViolation : PyVal

def validateRule (rule : PyVal) (idx : ℕ) (source : String) (allowedRoots : List String) :
    Except PyErr Rule := do
  let d ← asMapping rule (.policyParseError (source ++ ": rules[" ++ toString idx ++
    "] must be a mapping, got " ++ rule.typeName))
  let name ← asNonEmptyStr (getOrNone d "name") (.policyParseError (source ++ ": rules[" ++
    toString idx ++ "] is missing a non-empty 'name'"))
  let place := source ++ ": rule '" ++ name ++ "'"
  checkNoReservedKeys py d place
  rejectExtras py d ["name", "on_violation", "require", "when"] (.ok place) fun place extras =>
    place ++ " has unknown keys: " ++ extras ++ ". Allowed keys: " ++
      reprStrings py ["name", "on_violation", "require", "when"]
  let conditions ← asMapping (pyOr (getOrNone d "when") (.dict []))
    (.policyParseError (place ++ ": 'when' must be a mapping"))
  checkNoReservedKeys py conditions (place ++ " when")
  checkAll conditions (validateWhenEntry py place allowedRoots)
  let require ← asMapping (pyOr (getOrNone d "require") (.dict []))
    (.policyParseError (place ++ ": 'require' must be a mapping"))
  checkNoReservedKeys py require (place ++ " require")
  checkAll require (validateRequireEntry py place allowedRoots)
  let onViolation := (getKey d "on_violation").getD (.str "deny")
  raiseIf (¬ onViolation.eq (.str "deny")) (raised ((py.reprOf onViolation).map fun got =>
    .policyParseError (place ++ ": on_violation must be 'deny' (got " ++ got ++ ")")))
  .ok ⟨name, conditions, require, onViolation⟩

/-! ## Defaults -/

structure Defaults where
  unknownMetadata : String
  policyVersionMismatch : String
  deriving DecidableEq, Repr

def readDefault (defaults : PyDict) (k source : String) : Except PyErr String :=
  let v := (getKey defaults k).getD (.str "deny")
  let e := raised ((py.reprOf v).map fun got => .policyParseError (source ++ ": defaults['" ++ k ++
    "'] must be 'allow' or 'deny', got " ++ got))
  match v with
  | .str s => if s = "allow" ∨ s = "deny" then .ok s else .error e
  | _ => .error e

def validateDefaults (defaults : PyVal) (source : String) : Except PyErr Defaults :=
  match defaults with
  | .none => .ok ⟨"deny", "deny"⟩
  | defaults => do
    let d ← asMapping defaults (.policyParseError (source ++
      ": 'defaults' must be a mapping, got " ++ defaults.typeName))
    rejectExtras py d ["policy_version_mismatch", "unknown_metadata"] (.ok source) fun source extras =>
      source ++ ": defaults has unknown keys: " ++ extras ++ ". Allowed: " ++
        reprStrings py ["policy_version_mismatch", "unknown_metadata"]
    if py.unknownMetadataFirst then do
      let unknownMetadata ← readDefault py d "unknown_metadata" source
      let policyVersionMismatch ← readDefault py d "policy_version_mismatch" source
      .ok ⟨unknownMetadata, policyVersionMismatch⟩
    else do
      let policyVersionMismatch ← readDefault py d "policy_version_mismatch" source
      let unknownMetadata ← readDefault py d "unknown_metadata" source
      .ok ⟨unknownMetadata, policyVersionMismatch⟩

/-! ## Bundles -/

/-- What an evaluator holds after construction; immutable. -/
structure NativeYaml where
  source : String
  bundle : PyDict
  rules : List Rule
  defaults : Defaults
  policyId : String
  policyVersionHash : String

def notMapping (v : PyVal) (source : String) : PyErr :=
  .policyParseError (source ++ ": top-level must be a mapping, got " ++ v.typeName)

namespace NativeYaml

/-- `_validate_bundle`, of a mapping. -/
def validateBundle (allowedRoots : List String) (bundle : PyDict) (source : String) :
    Except PyErr (List Rule) := do
  let version := getOrNone bundle "version"
  raiseIf (¬ version.eq (.int 1)) (raised ((py.reprOf version).map fun got =>
    .policyParseError (source ++ ": 'version' must be 1 (got " ++ got ++ ")")))
  match getOrNone bundle "rules" with
  | .list rules =>
    buildAll rules.zipIdx fun r => validateRule py r.1 r.2 source allowedRoots
  | v => .error (.policyParseError (source ++ ": 'rules' must be a list (got " ++ v.typeName ++ ")"))

def readPolicyId (bundle : PyDict) (source : String) : Except PyErr String :=
  asNonEmptyStr (getOrNone bundle "policy_id") (.policyParseError (source ++
    ": top-level 'policy_id' is required and must be a non-empty string"))

/-- `__init__`, with what computing the hash of the bundle comes to. -/
def initWith (policyVersionHash : Except PyErr String) (allowedRoots : List String) (bundle : PyVal)
    (source : String) : Except PyErr NativeYaml := do
  let bundle ← asMapping bundle (notMapping bundle source)
  let rules ← validateBundle py allowedRoots bundle source
  let defaults ← validateDefaults py (getOrNone bundle "defaults") source
  let policyId ← readPolicyId bundle source
  let policyVersionHash ← policyVersionHash
  .ok ⟨source, bundle, rules, defaults, policyId, policyVersionHash⟩

/-- `__init__`. -/
def init (allowedRoots : List String) (bundle : PyVal) (source : String) : Except PyErr NativeYaml :=
  initWith py (computePolicyVersionHash py bundle) allowedRoots bundle source

/-- The legacy shape made from one section of a unified file. -/
def normalized (bundle sec : PyDict) : PyDict :=
  [(.str "version", (getKey bundle "version").getD (.int 1)),
    (.str "policy_id", pyOr (getOrNone bundle "policy_id") (getOrNone sec "policy_id")),
    (.str "rules", (getKey sec "rules").getD (.list []))] ++
  ((getKey sec "defaults").map fun v => ((.str "defaults", v) : PyAtom × PyVal)).toList ++
  ((getKey bundle "description").map fun v => ((.str "description", v) : PyAtom × PyVal)).toList

/-- `_construct_from_bundle`, for the evaluator of the named section. -/
def constructWith (construct : PyVal → Except PyErr NativeYaml) (sectionKey : String)
    (bundle : PyVal) (source : String) : Except PyErr NativeYaml := do
  let d ← asMapping bundle (notMapping bundle source)
  match getKey d sectionKey with
  | some block =>
    let sec ← asMapping block (.policyParseError (source ++ ": '" ++ sectionKey ++
      "' must be a mapping, got " ++ block.typeName))
    construct (.dict (normalized d sec))
  | none => construct bundle

def constructFromBundle (sectionKey : String) (allowedRoots : List String) (bundle : PyVal)
    (source : String) : Except PyErr NativeYaml :=
  constructWith (fun v => init py allowedRoots v source) sectionKey bundle source

/-! ### Of a tree -/

/-- `compute_policy_version_hash`. The text that is dumped holds every half of a pair as it is,
and then cannot be encoded. -/
def treeVersionHash (tree : YamlTree) : Except PyErr String := do
  let hash ← computePolicyVersionHash py tree.shown
  if tree.encodable then .ok hash else .error (.valueError none)

def normalizedTree (bundle sec : YamlDict) : YamlDict :=
  let policyId := (treeKey bundle "policy_id").getD (.of .none)
  [(.atom (.str "version"), (treeKey bundle "version").getD (.of (.int 1))),
    (.atom (.str "policy_id"),
      if policyId.shown.truthy then policyId else (treeKey sec "policy_id").getD (.of .none)),
    (.atom (.str "rules"), (treeKey sec "rules").getD (.list []))] ++
  ((treeKey sec "defaults").map fun v => ((.atom (.str "defaults"), v) : YamlAtom × YamlTree)).toList ++
  ((treeKey bundle "description").map fun v =>
    ((.atom (.str "description"), v) : YamlAtom × YamlTree)).toList

/-- The tree that an evaluator is constructed from, and takes the hash of. -/
def sectionTree (sectionKey : String) : YamlTree → YamlTree
  | .dict d =>
    match treeKey d sectionKey with
    | some (.dict sec) => .dict (normalizedTree d sec)
    | _ => .dict d
  | tree => tree

/-- `_construct_from_bundle`, of a tree. -/
def constructFromTree (sectionKey : String) (allowedRoots : List String) (tree : YamlTree)
    (source : String) : Except PyErr NativeYaml :=
  constructWith (fun v =>
    initWith py (treeVersionHash py (sectionTree sectionKey tree)) allowedRoots v source)
    sectionKey tree.shown source

end NativeYaml

end

end Provenex
