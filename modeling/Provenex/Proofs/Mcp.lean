import Provenex.Proofs.Admission

/-! What is left of an MCP request once it was checked: all of it but the overrides,
which a second check of the same request no longer finds. -/

namespace Provenex

open Effect

/-- The arguments are a mapping with a reserved key. -/
def McpRequest.CarriesOverride (request : McpRequest) : Prop :=
  ∃ d, request.params.arguments = .dict d ∧ ∃ e ∈ d, ∃ k ∈ reservedKeys, e.1 = .str k

/-- A mapping lost its reserved items, and kept the others in their order. -/
inductive Popped : PyVal → PyVal → Prop
  | mapping (d : PyDict) :
      Popped (.dict d) (.dict (d.filter fun e => ∀ k ∈ reservedKeys, e.1 ≠ .str k))
  | other {v : PyVal} : (∀ d, v ≠ .dict d) → Popped v v

/-- The item under a key became another, where there is one, and all around it stayed. -/
inductive ItemChanged (k : String) (change : PyVal → PyVal → Prop) : PyVal → PyVal → Prop
  | item {before after : PyDict} {v w : PyVal} : .str k ∉ keysOf before → change v w →
      ItemChanged k change (.dict (before ++ (.str k, v) :: after))
        (.dict (before ++ (.str k, w) :: after))
  | absent {v : PyVal} : (∀ d, v = .dict d → .str k ∉ keysOf d) → ItemChanged k change v v

/-- The parameters without the overrides in their arguments. -/
inductive McpParams.Stripped : McpParams → McpParams → Prop
  | plain {v w : PyVal} : ItemChanged "arguments" Popped v w → Stripped (.plain v) (.plain w)
  | object {name targetSystem v w : PyVal} : Popped v w →
      Stripped (.object name v targetSystem) (.object name w targetSystem)

/-- The request without its overrides, and with all else as it was. -/
inductive McpRequest.Stripped : McpRequest → McpRequest → Prop
  | plain {v w : PyVal} : ItemChanged "params" (ItemChanged "arguments" Popped) v w →
      Stripped (.plain v) (.plain w)
  | object {params left : McpParams} {id : PyVal} : params.Stripped left →
      Stripped (.object params id) (.object left id)

/-! ## The mutation -/

theorem getOrNone_modifyItem_ne {k l : String} {f : PyVal → PyVal} (h : k ≠ l) (d : PyDict) :
    getOrNone (modifyItem k f d) l = getOrNone d l := by
  induction d with
  | nil => rfl
  | cons e rest ih =>
    unfold modifyItem
    split_ifs with he
    · have hl : ¬ e.1.eq (.str l) = true := by
        rw [PyAtom.eq_str.mp he, PyAtom.eq_str]
        exact fun heq => h (PyAtom.str.inj heq)
      rw [getOrNone, getOrNone, getKey, getKey, dictGet_cons, dictGet_cons, if_neg hl, if_neg hl]
    · rw [getOrNone, getOrNone, getKey, getKey, dictGet_cons, dictGet_cons]
      split_ifs
      · rfl
      · exact ih

theorem modifyItem_eq_self {k : String} {f : PyVal → PyVal} {d : PyDict}
    (h : f (getOrNone d k) = getOrNone d k) : modifyItem k f d = d := by
  induction d with
  | nil => rfl
  | cons e rest ih =>
    unfold modifyItem
    rw [getOrNone, getKey, dictGet_cons] at h
    split_ifs with he
    · rw [if_pos he] at h
      rw [show f e.2 = e.2 from h]
    · rw [if_neg he] at h
      rw [ih h]

theorem plainField_popIn_ne {k l : String} {pop : PyVal → PyVal} (h : k ≠ l) (v : PyVal) :
    plainField (popIn k pop v) l = plainField v l := by
  cases v with
  | dict d => exact getOrNone_modifyItem_ne h d
  | atom a => rfl
  | list xs => rfl

theorem popIn_eq_self {k : String} {pop : PyVal → PyVal} {v : PyVal}
    (h : pop (plainField v k) = plainField v k) : popIn k pop v = v := by
  cases v with
  | dict d => exact congrArg PyVal.dict (modifyItem_eq_self h)
  | atom a => rfl
  | list xs => rfl

theorem name_popOverrides (request : McpRequest) :
    request.popOverrides.params.name = request.params.name := by
  rw [params_popOverrides]
  cases request.params with
  | plain v => exact plainField_popIn_ne (by decide) v
  | object name arguments targetSystem => rfl

theorem targetSystem_popOverrides (request : McpRequest) :
    request.popOverrides.params.targetSystem = request.params.targetSystem := by
  rw [params_popOverrides]
  cases request.params with
  | plain v => exact plainField_popIn_ne (by decide) v
  | object name arguments targetSystem => rfl

theorem id_popOverrides (request : McpRequest) : request.popOverrides.id = request.id := by
  cases request with
  | plain v => exact plainField_popIn_ne (by decide) v
  | object params id => rfl

theorem popReserved_popped (v : PyVal) : Popped v (popReserved v) := by
  cases v with
  | dict d =>
    have hkeep : without d reservedKeys = d.filter fun e => ∀ k ∈ reservedKeys, e.1 ≠ .str k := by
      refine List.filter_congr fun e _ => ?_
      rw [Bool.eq_iff_iff]
      simp [PyAtom.eq_str]
    rw [popReserved, hkeep]
    exact Popped.mapping d
  | atom a => exact Popped.other fun d h => PyVal.noConfusion h
  | list xs => exact Popped.other fun d h => PyVal.noConfusion h

/-- The first item under the key is the one replaced. -/
theorem modifyItem_cases (k : String) (f : PyVal → PyVal) (d : PyDict) :
    (.str k ∉ keysOf d ∧ modifyItem k f d = d) ∨
      ∃ before v after, .str k ∉ keysOf before ∧ d = before ++ (.str k, v) :: after ∧
        modifyItem k f d = before ++ (.str k, f v) :: after := by
  induction d with
  | nil => exact Or.inl ⟨List.not_mem_nil, rfl⟩
  | cons e rest ih =>
    unfold modifyItem
    split_ifs with he
    · obtain ⟨key, v⟩ := e
      obtain rfl : key = .str k := PyAtom.eq_str.mp he
      exact Or.inr ⟨[], v, rest, List.not_mem_nil, rfl, rfl⟩
    · have hne : PyAtom.str k ≠ e.1 := fun h => he (PyAtom.eq_str.mpr h.symm)
      rcases ih with ⟨hnot, hrest⟩ | ⟨before, v, after, hnot, rfl, hrest⟩
      · exact Or.inl ⟨List.not_mem_cons_of_ne_of_not_mem hne hnot, by rw [hrest]⟩
      · exact Or.inr ⟨e :: before, v, after, List.not_mem_cons_of_ne_of_not_mem hne hnot, rfl,
          by rw [hrest]; rfl⟩

theorem popIn_changed {k : String} {pop : PyVal → PyVal} {change : PyVal → PyVal → Prop}
    (hpop : ∀ v, change v (pop v)) (v : PyVal) : ItemChanged k change v (popIn k pop v) := by
  cases v with
  | dict d =>
    rw [popIn]
    rcases modifyItem_cases k pop d with ⟨hnot, hd⟩ | ⟨before, v, after, hnot, rfl, hd⟩
    · rw [hd]
      exact ItemChanged.absent fun d' h => PyVal.dict.inj h ▸ hnot
    · rw [hd]
      exact ItemChanged.item hnot (hpop v)
  | atom a => exact ItemChanged.absent fun d h => PyVal.noConfusion h
  | list xs => exact ItemChanged.absent fun d h => PyVal.noConfusion h

theorem popOverrides_stripped (request : McpRequest) : request.Stripped request.popOverrides := by
  cases request with
  | plain v => exact .plain (popIn_changed (popIn_changed popReserved_popped) v)
  | object params id =>
    refine .object ?_
    cases params with
    | plain v => exact .plain (popIn_changed popReserved_popped v)
    | object name arguments targetSystem => exact .object (popReserved_popped arguments)

/-! ## Requests without overrides -/

theorem popReserved_eq_self {v : PyVal} :
    popReserved v = v ↔ ¬ ∃ d, v = .dict d ∧ ∃ e ∈ d, ∃ k ∈ reservedKeys, e.1 = .str k := by
  cases v with
  | dict d =>
    have hkeep (e : PyAtom × PyVal) :
        ((! reservedKeys.any fun k => e.1.eq (.str k)) = true) ↔
          ¬ ∃ k ∈ reservedKeys, e.1 = .str k := by
      simp [PyAtom.eq_str]
    simp only [popReserved, without, PyVal.dict.injEq, List.filter_eq_self, hkeep, exists_eq_left',
      not_exists, not_and]
  | atom a => simp [popReserved]
  | list xs => simp [popReserved]

theorem popOverrides_eq_self {request : McpRequest} :
    request.popOverrides = request ↔ ¬ request.CarriesOverride := by
  unfold McpRequest.CarriesOverride
  rw [← popReserved_eq_self]
  constructor
  · intro h
    rw [← arguments_popOverrides, h]
  · intro h
    cases request with
    | plain v =>
      refine congrArg McpRequest.plain (popIn_eq_self (popIn_eq_self ?_))
      exact h
    | object params id =>
      have hparams : params.popOverrides = params := by
        cases params with
        | plain v => exact congrArg McpParams.plain (popIn_eq_self h)
        | object name arguments targetSystem =>
          exact congrArg (McpParams.object name · targetSystem) h
      exact congrArg (McpRequest.object · id) hparams

/-! ## The second check -/

theorem getKey_without {d : PyDict} {keys : List String} {k : String} (h : k ∈ keys) :
    getKey (without d keys) k = none := by
  rw [getKey, dictGet, Option.map_eq_none_iff, List.find?_eq_none]
  intro e he heq
  have hkeep := (List.mem_filter.mp he).2
  rw [Bool.not_eq_true', List.any_eq_false] at hkeep
  exact hkeep k h heq

theorem without_without (d : PyDict) (keys : List String) :
    without (without d keys) keys = without d keys := by
  rw [without, List.filter_eq_self]
  exact fun e he => (List.mem_filter.mp he).2

theorem givenArguments_popReserved (v : PyVal) :
    givenArguments (popReserved v) = without (givenArguments v) reservedKeys := by
  cases v with
  | dict d => rw [popReserved, givenArguments_dict, givenArguments_dict]
  | atom a =>
    change givenArguments (.atom a) = without (givenArguments (.atom a)) reservedKeys
    unfold givenArguments pyOr
    split_ifs <;> rfl
  | list xs =>
    change givenArguments (.list xs) = without (givenArguments (.list xs)) reservedKeys
    unfold givenArguments pyOr
    split_ifs <;> rfl

/-- The context of a request whose overrides are gone. -/
def McpAdmission.rechecked (py : Stdlib) (m : McpAdmission) (request : McpRequest) :
    ToolCallContext :=
  { m.checked py request with
    operation := getOr (m.checked py request).parameters "operation" (.str "invoke")
    targetSystem := pyOr request.params.targetSystem m.defaultTargetSystem
    invocationId := pyOr (.str (py.format (pyOr request.id (.str "")))) .none }

theorem checked_popOverrides (py : Stdlib) (m : McpAdmission) (request : McpRequest) :
    m.checked py request.popOverrides = m.rechecked py request := by
  have hnone {k : String} (hk : k ∈ reservedKeys) (d : PyDict) (v : PyVal) :
      getOr (without d reservedKeys) k v = v := by
    rw [getOr, getKey_without hk]
    rfl
  rw [McpAdmission.rechecked, McpAdmission.checked, McpAdmission.checked, decode_context,
    decode_context]
  dsimp only
  rw [name_popOverrides, targetSystem_popOverrides, id_popOverrides, arguments_popOverrides,
    givenArguments_popReserved, without_without, hnone (by decide), getOrNone,
    getKey_without (by decide), getOrNone, getKey_without (by decide)]
  rfl

theorem wrapMcpRequest_leaves (py : Stdlib) (m : McpAdmission)
    (trajectory : Option TrajectoryContext) (issue : Issue) (request : McpRequest) :
    stateOf (wrapMcpRequest py m trajectory issue request) = request.popOverrides := by
  have hrest : Keeps (· = request.popOverrides) (do
      let seen ← get
      let context ← Effect.lift (m.requestFactory seen)
      Effect.lift (admissionCheck py (m.checked py request) context
        (wrapperArgs m.policy m.signer trajectory m.redactParameters) issue) :
      EStateM PyErr McpRequest AdmissionResult) :=
    keeps_bind (fun s h => h) fun seen _ _ _ => keeps_bind (keeps_lift _) fun _ _ _ _ => keeps_lift _
  exact hrest request.popOverrides rfl

/-- A check, whether it returns or raises, takes the overrides out of the request and changes nothing
else. The request is left as it was, and its context is that of a second check, exactly when it
carries none; otherwise a second check falls back to what the rest of the request says. -/
theorem mcp_request_left (py : Stdlib) (m : McpAdmission) (trajectory : Option TrajectoryContext)
    (issue : Issue) (request : McpRequest) :
    (∀ result left, wrapMcpRequest py m trajectory issue request = .ok result left →
        ∃ context, m.requestFactory left = .ok context ∧
          Evaluated py m.policy (m.checked py request) context m.redactParameters false
            result.decision result.receipt) ∧
      ∃ left, stateOf (wrapMcpRequest py m trajectory issue request) = left ∧
        request.Stripped left ∧
        (left = request ∧ m.checked py left = m.checked py request ↔ ¬ request.CarriesOverride) ∧
        m.checked py left = m.rechecked py request := by
  refine ⟨fun result left h => ?_, _, rfl, ?_⟩
  · obtain ⟨rfl, hevaluated⟩ := wrapMcpRequest_ok h
    exact hevaluated
  rw [wrapMcpRequest_leaves]
  refine ⟨popOverrides_stripped request, ?_, checked_popOverrides py m request⟩
  rw [← popOverrides_eq_self]
  exact ⟨And.left, fun h => ⟨h, by rw [h]⟩⟩

namespace Sample

def deleteCall : McpRequest :=
  callTool (.dict [(.str "__operation__", .str "delete"), (.str "path", .str "/")])

end Sample

theorem mcp_request_left_sample :
    ∃ result context, wrapMcpRequest Stdlib.blank Sample.middleware none ⟨"r", "now"⟩
        Sample.deleteCall = .ok result (Sample.callTool (.dict [(.str "path", .str "/")])) ∧
      Evaluated Stdlib.blank Sample.middleware.policy
        (Sample.middleware.checked Stdlib.blank Sample.deleteCall) context false false
        result.decision result.receipt := by
  have hrun : wrapMcpRequest Stdlib.blank Sample.middleware none ⟨"r", "now"⟩ Sample.deleteCall =
      .ok _ (Sample.callTool (.dict [(.str "path", .str "/")])) := rfl
  obtain ⟨hevaluated, -⟩ := mcp_request_left Stdlib.blank Sample.middleware none ⟨"r", "now"⟩
    Sample.deleteCall
  obtain ⟨context, -, hdecided⟩ := hevaluated _ _ hrun
  exact ⟨_, context, hrun, hdecided⟩

/-- The second check of a deletion is about an operation of another name. -/
theorem retry_changes_operation :
    ∃ left, stateOf (wrapMcpRequest Stdlib.blank Sample.middleware none ⟨"r", "now"⟩
        Sample.deleteCall) = left ∧ left ≠ Sample.deleteCall ∧
      (Sample.middleware.checked Stdlib.blank Sample.deleteCall).operation = .str "delete" ∧
      (Sample.middleware.checked Stdlib.blank left).operation = .str "invoke" := by
  refine ⟨_, rfl, fun h => ?_, rfl, rfl⟩
  rw [wrapMcpRequest_leaves] at h
  exact popOverrides_eq_self.mp h ⟨_, rfl, _, List.mem_cons_self, _, List.mem_cons_self, rfl⟩

end Provenex
