import Provenex.Proofs.Evaluate
import Provenex.Proofs.KeyOrder
import Provenex.Proofs.Observation

/-! Whether a decision follows from the inputs it records. It does for the paths
whose values can be read back from the recorded inputs, and for no others. -/

namespace Provenex

open Guard

/-! ## Values up to the order of keys -/

theorem eqEntries_all (d e : PyDict) :
    eqEntries d e = d.all fun p => (dictGet p.1 e).any fun w => p.2.eq w := by
  induction d with
  | nil => rfl
  | cons p d ih =>
    rw [eqEntries, ih, List.all_cons]
    cases dictGet p.1 e <;> rfl

theorem eqList_norm_left {xs : List PyVal} (h : ∀ x ∈ xs, ∀ w : PyVal, (norm x).eq w = x.eq w) :
    ∀ ws, eqList (xs.map norm) ws = eqList xs ws := by
  induction xs with
  | nil => exact fun _ => rfl
  | cons x xs ih =>
    intro ws
    cases ws with
    | nil => rfl
    | cons w ws =>
      rw [List.map_cons, eqList, eqList, h x List.mem_cons_self,
        ih fun y hy => h y (List.mem_cons_of_mem _ hy)]

/-- `==` does not see the order of keys on its left either. -/
theorem eq_norm_left (v : PyVal) : ∀ w : PyVal, (norm v).eq w = v.eq w := by
  induction v using PyVal.induction with
  | atom a => exact fun _ => rfl
  | list xs ih =>
    intro w
    rw [norm_list]
    cases w with
    | list ws => exact eqList_norm_left ih ws
    | atom a => rfl
    | dict e => rfl
  | dict d ih =>
    intro w
    rw [norm_eq_normDict]
    cases w with
    | dict e =>
      have hlen : (normDict d).length = d.length := by
        rw [normDict, List.length_map, (sortEntries_perm d).length_eq]
      rw [PyVal.eq, PyVal.eq, hlen, eqEntries_all, eqEntries_all, normDict, List.all_map,
        (sortEntries_perm d).all_eq]
      refine congrArg _ (Bool.eq_iff_iff.mpr ?_)
      rw [List.all_eq_true, List.all_eq_true]
      refine forall₂_congr fun p hp => ?_
      simp only [Function.comp_apply, ih p hp]
    | atom a => rfl
    | list ws => rfl

theorem sortable_iff {ks : List PyAtom} :
    sortable ks = true ↔ ∀ k ∈ ks, ∀ l ∈ ks, k.keyClass = l.keyClass := by
  cases ks with
  | nil => simp [sortable]
  | cons k ks =>
    simp only [sortable, List.all_eq_true, decide_eq_true_eq]
    constructor
    · intro h x hx y hy
      have hk {z : PyAtom} (hz : z ∈ k :: ks) : z.keyClass = k.keyClass := by
        rcases List.mem_cons.mp hz with rfl | hz
        · rfl
        · exact h z hz
      rw [hk hx, hk hy]
    · exact fun h x hx => h x (List.mem_cons_of_mem _ hx) k List.mem_cons_self

theorem jsonableKeys_perm {ks ls : List PyAtom} (h : ks.Perm ls) :
    jsonableKeys ks = jsonableKeys ls := by
  have hs : sortable ks = sortable ls := by
    rw [Bool.eq_iff_iff, sortable_iff, sortable_iff]
    simp only [h.mem_iff]
  rw [jsonableKeys, jsonableKeys, hs, h.all_eq]

theorem jsonable_norm (v : PyVal) : jsonable (norm v) = jsonable v := by
  induction v using PyVal.induction with
  | atom a => rfl
  | list xs ih =>
    rw [norm_list, jsonable, jsonable, Bool.eq_iff_iff, jsonableList_iff, jsonableList_iff,
      List.forall_mem_map]
    exact forall₂_congr fun x hx => by rw [ih x hx]
  | dict d ih =>
    have hkeys : jsonableKeys (keysOf (normDict d)) = jsonableKeys (keysOf d) := by
      rw [keysOf, normDict, List.map_map]
      exact jsonableKeys_perm ((sortEntries_perm d).map Prod.fst)
    have hvals : jsonableEntries (normDict d) = jsonableEntries d := by
      rw [Bool.eq_iff_iff, jsonableEntries_iff, jsonableEntries_iff, normDict, List.forall_mem_map]
      simp only [(sortEntries_perm d).mem_iff]
      exact forall₂_congr fun e he => by rw [ih e he]
    rw [norm_eq_normDict, jsonable, jsonable, hkeys, hvals]

theorem PyNum.le_or_le (x y : PyNum) : x.le y = true ∨ y.le x = true := by
  cases x with
  | fin p =>
    cases y with
    | fin q => simpa [PyNum.le] using le_total p q
    | inf neg => cases neg <;> simp [PyNum.le]
  | inf neg =>
    cases y with
    | fin q => cases neg <;> simp [PyNum.le]
    | inf neg' => cases neg <;> cases neg' <;> simp [PyNum.le]

theorem PyDate.le_or_le (d e : PyDate) : d.le e = true ∨ e.le d = true := by
  cases d <;> cases e <;> simp [PyDate.le] <;> exact le_total _ _

theorem PyAtom.le_or_le (a b : PyAtom) : a.le b = true ∨ b.le a = true := by
  unfold PyAtom.le
  split
  · next s t => simpa using String.le_total s t
  · next d e => exact PyDate.le_or_le d e
  · next hstr hdate =>
    split
    · next x y hx hy =>
      rcases PyNum.le_or_le x y with h | h
      · exact .inl h
      right
      split
      · next s t => exact absurd rfl (hstr t s rfl)
      · next d e => exact absurd rfl (hdate e d rfl)
      · rwa [hx, hy]
    · exact .inl rfl

theorem leKey_or_le {V : Type} (e e' : PyAtom × V) : leKey e e' ∨ leKey e' e :=
  PyAtom.le_or_le e.1 e'.1

section

variable {V : Type}

theorem chain_orderedInsert (e : PyAtom × V) {d : List (PyAtom × V)} (h : d.IsChain leKey) :
    (List.orderedInsert leKey e d).IsChain leKey := by
  induction d with
  | nil => simp
  | cons b d ih =>
    rw [List.orderedInsert_cons]
    split_ifs with hle
    · exact .cons_cons hle h
    · have hb : leKey b e := (leKey_or_le e b).resolve_left hle
      cases d with
      | nil => simpa using hb
      | cons c d =>
        have hc := List.isChain_cons_cons.mp h
        have ih := ih hc.2
        rw [List.orderedInsert_cons] at ih ⊢
        split_ifs at ih ⊢ with hec
        · exact .cons_cons hb ih
        · exact .cons_cons hc.1 ih

theorem chain_sortEntries (d : List (PyAtom × V)) : (sortEntries d).IsChain leKey := by
  unfold sortEntries
  induction d with
  | nil => exact .nil
  | cons e d ih =>
    rw [List.insertionSort_cons]
    exact chain_orderedInsert e ih

theorem sortEntries_of_chain {d : List (PyAtom × V)} (h : d.IsChain leKey) : sortEntries d = d := by
  unfold sortEntries
  induction d with
  | nil => rfl
  | cons e d ih =>
    rw [List.insertionSort_cons, ih h.tail]
    cases d with
    | nil => rfl
    | cons b d => rw [List.orderedInsert_cons, if_pos (List.isChain_cons_cons.mp h).1]

/-- Sorting what is sorted changes nothing, also where the order is not transitive. -/
theorem sortEntries_idem (d : List (PyAtom × V)) : sortEntries (sortEntries d) = sortEntries d :=
  sortEntries_of_chain (chain_sortEntries d)

end

/-- What is raised in writing a value does not show in which order its keys were written. -/
theorem jsonFault_norm (v : PyVal) : jsonFault true (norm v) = jsonFault true v := by
  induction v using PyVal.induction with
  | atom a => rfl
  | list xs ih =>
    rw [norm_list, jsonFault, jsonFault]
    induction xs with
    | nil => rfl
    | cons x xs ihxs =>
      rw [List.map_cons, jsonFaultList, jsonFaultList, ih x List.mem_cons_self,
        ihxs fun y hy => ih y (List.mem_cons_of_mem _ hy)]
  | dict d ih =>
    have hsortable : sortable (keysOf (normDict d)) = sortable (keysOf d) := by
      have hmem (k : PyAtom) : k ∈ keysOf (normDict d) ↔ k ∈ keysOf d := by
        rw [keysOf, normDict, List.map_map]
        exact ((sortEntries_perm d).map Prod.fst).mem_iff
      rw [Bool.eq_iff_iff, sortable_iff, sortable_iff]
      simp only [hmem]
    have hentries : sortEntries (jsonFaultEntries true (normDict d)) =
        sortEntries (jsonFaultEntries true d) := by
      rw [jsonFaultEntries_eq, jsonFaultEntries_eq, normDict, List.map_map]
      have hmap : (sortEntries d).map ((fun e => (e.1, e.1.jsonFault.or (jsonFault true e.2))) ∘
            fun e => (e.1, norm e.2)) =
          sortEntries (d.map fun e => (e.1, e.1.jsonFault.or (jsonFault true e.2))) := by
        rw [sortEntries_mapEntries]
        refine List.map_congr_left fun e he => ?_
        simp only [Function.comp_apply, ih e ((sortEntries_perm d).mem_iff.mp he)]
      rw [hmap, sortEntries_idem]
    simp only [norm_eq_normDict, jsonFault, not_true_eq_false, if_false, hsortable, hentries]

theorem StrKeys.sortable_keysOf {d : PyDict} (h : StrKeys d) : sortable (keysOf d) = true := by
  have hclass : ∀ k ∈ keysOf d, k.keyClass = .str := by
    intro k hk
    obtain ⟨s, rfl⟩ := h k hk
    rfl
  exact sortable_iff.mpr fun k hk l hl => (hclass k hk).trans (hclass l hl).symm

theorem jsonable_strKeys {d : PyDict} (h : StrKeys d) :
    jsonable (.dict d) = true ↔ ∀ e ∈ d, jsonable e.2 = true := by
  have hkeys : jsonableKeys (keysOf d) = true := by
    rw [jsonableKeys, decide_eq_true_eq]
    refine ⟨h.sortable_keysOf, ?_⟩
    rw [List.all_eq_true]
    intro k hk
    obtain ⟨s, rfl⟩ := h k hk
    rfl
  rw [jsonable, hkeys, Bool.true_and, jsonableEntries_iff]

theorem StrKeys.append {d e : PyDict} (hd : StrKeys d) (he : StrKeys e) : StrKeys (d ++ e) := by
  intro k hk
  rw [keysOf, List.map_append, List.mem_append] at hk
  rcases hk with hk | hk
  · exact hd k hk
  · exact he k hk

theorem StrKeys.optionalItem (k : String) (v : PyVal) : StrKeys (optionalItem k v) := by
  unfold Provenex.optionalItem
  split
  · simp [StrKeys, keysOf]
  · simp [StrKeys, keysOf]

theorem PyAtom.le_refl_str (s : String) : (PyAtom.str s).le (.str s) = true := by simp [PyAtom.le]

theorem getKey_orderedInsert (e : PyAtom × PyVal) (d : PyDict) (k : String) :
    getKey (List.orderedInsert leKey e d) k = getKey (e :: d) k := by
  induction d with
  | nil => rfl
  | cons b d ih =>
    rw [List.orderedInsert_cons]
    split_ifs with hle
    · rfl
    · unfold getKey at ih ⊢
      rw [dictGet_cons, ih, dictGet_cons, dictGet_cons, dictGet_cons]
      by_cases hb : b.1.eq (.str k) = true
      · -- both keys being `k`, the one would not sort after the other
        have he : ¬ e.1.eq (.str k) = true := by
          intro he
          apply hle
          unfold leKey
          rw [PyAtom.eq_str.mp he, PyAtom.eq_str.mp hb]
          exact PyAtom.le_refl_str k
        rw [if_pos hb, if_neg he, if_pos hb]
      · rw [if_neg hb, if_neg hb]

theorem getKey_sortEntries (d : PyDict) (k : String) : getKey (sortEntries d) k = getKey d k := by
  unfold sortEntries
  induction d with
  | nil => rfl
  | cons e d ih =>
    rw [List.insertionSort_cons, getKey_orderedInsert]
    unfold getKey at ih ⊢
    rw [dictGet_cons, ih, dictGet_cons]

theorem getKey_normDict (d : PyDict) (k : String) :
    getKey (normDict d) k = (getKey d k).map norm := by
  unfold normDict getKey
  rw [dictGet_map]
  exact congrArg _ (getKey_sortEntries d k)

theorem getKey_of_norm {d d' : PyDict} (h : norm (.dict d) = norm (.dict d')) (k : String) :
    (getKey d k).map norm = (getKey d' k).map norm := by
  rw [norm_eq_normDict, norm_eq_normDict] at h
  rw [← getKey_normDict, ← getKey_normDict, PyVal.dict.inj h]

theorem str?_norm (v : PyVal) : (norm v).str? = v.str? := by
  cases v with
  | atom a => rfl
  | list xs => rw [norm_list]; rfl
  | dict d => rw [norm_eq_normDict]; rfl

section

variable {Ω : Type} {rt : Runtime Ω}

theorem indistinct_of_norm {v w : PyVal} (h : norm v = norm w) :
    Indistinct rt (.val v) (.val w) where
  str := by
    change v.str? = w.str?
    rw [← str?_norm v, h, str?_norm]
  eq x _ := by
    change v.eq x = w.eq x
    rw [← eq_norm_left v, h, eq_norm_left]

/-! ## Paths and recorded inputs -/

/-- Two evaluations record the same inputs, up to the order of keys. -/
def SameInputs (chunk chunk' : ChunkContext) (request request' : RequestContext) : Prop :=
  norm (.dict (buildInputs chunk request)) = norm (.dict (buildInputs chunk' request'))

/-- The recorded inputs, where they can be recorded, determine what the path shows to a rule. -/
def Recorded (rt : Runtime Ω) (k : PyAtom) : Prop :=
  ∀ chunk chunk' request request', SameInputs chunk chunk' request request' →
    jsonable (.dict (buildInputs chunk request)) = true →
    ObservedAlike rt (resolvePath rt k ⟨some chunk, none, request⟩)
      (resolvePath rt k ⟨some chunk', none, request'⟩)

/-- What an evaluation says, besides the inputs it records. -/
def verdict (r : Except PyErr PolicyDecision) : Except PyErr (Decision × List String) :=
  r.map fun d => (d.decision, d.rulesFired)

/-- The recorded inputs determine what every accepted policy over these paths decides. -/
def Determined (rt : Runtime Ω) (paths : Set PyAtom) : Prop :=
  ∀ ev, Accepted rt.toStdlib chunkDomainRoots ev → (∀ k ∈ ev.paths, k ∈ paths) →
    ∀ chunk chunk' request request', SameInputs chunk chunk' request request' →
      verdict (NativeYamlEvaluator.evaluate rt ev chunk request) =
        verdict (NativeYamlEvaluator.evaluate rt ev chunk' request')

theorem verdict_evaluateView {ev : NativeYaml} {inputs : PyDict} {view : View}
    (h : jsonable (.dict inputs) = true) :
    verdict (ev.evaluateView rt inputs view) =
      evaluateRules rt ev.defaults.unknownMetadata view ev.rules [] := by
  obtain ⟨b, hb⟩ := (canonicalBytes_ok rt.toStdlib).mpr h
  unfold verdict NativeYaml.evaluateView computeInputsHash
  rw [hb]
  simp only [Except.map, bind, Except.bind]
  cases evaluateRules rt ev.defaults.unknownMetadata view ev.rules [] <;> rfl

theorem SameInputs.fault {chunk chunk' : ChunkContext} {request request' : RequestContext}
    (h : SameInputs chunk chunk' request request') :
    jsonFault true (.dict (buildInputs chunk request)) =
      jsonFault true (.dict (buildInputs chunk' request')) := by
  rw [← jsonFault_norm, h, jsonFault_norm]

theorem SameInputs.jsonable {chunk chunk' : ChunkContext} {request request' : RequestContext}
    (h : SameInputs chunk chunk' request request') :
    jsonable (.dict (buildInputs chunk request)) = jsonable (.dict (buildInputs chunk' request')) := by
  rw [← jsonable_norm, h, jsonable_norm]

/-- The part of the inputs under each of the two keys. -/
theorem SameInputs.getKey {chunk chunk' : ChunkContext} {request request' : RequestContext}
    (h : SameInputs chunk chunk' request request') {k : String} {d d' : PyDict}
    (hd : getKey (buildInputs chunk request) k = some (.dict d))
    (hd' : getKey (buildInputs chunk' request') k = some (.dict d')) :
    norm (.dict d) = norm (.dict d') := by
  have hk := getKey_of_norm h k
  rw [hd, hd'] at hk
  exact Option.some.inj hk

theorem SameInputs.request {chunk chunk' : ChunkContext} {request request' : RequestContext}
    (h : SameInputs chunk chunk' request request') {k : String} {v v' : PyVal}
    (hv : Provenex.getKey (requestInputs request) k = some v)
    (hv' : Provenex.getKey (requestInputs request') k = some v') : norm v = norm v' := by
  have hk := getKey_of_norm (h.getKey (k := "request_context") rfl rfl) k
  rw [hv, hv'] at hk
  exact Option.some.inj hk

theorem SameInputs.timestamp {chunk chunk' : ChunkContext} {request request' : RequestContext}
    (h : SameInputs chunk chunk' request request') :
    request.timestamp.str? = request'.timestamp.str? := by
  have hn : norm request.timestamp = norm request'.timestamp :=
    h.request (k := "timestamp") rfl rfl
  rw [← str?_norm, hn, str?_norm]

/-- A rule path that the inputs do not determine makes some decision not follow from them. -/
theorem determined_iff (paths : Set PyAtom) :
    Determined rt paths ↔ ∀ k ∈ paths, RootAllowed chunkDomainRoots k → Recorded rt k := by
  constructor
  · intro hdet k hk hroot chunk chunk' request request' hsame hj
    by_contra hnot
    obtain ⟨path, op, operand, b, rfl, hres, hsep⟩ := separates_of_not_alike hnot
    obtain ⟨ev, hev, hrules, hdeny⟩ :=
      probe_accepted rt.toStdlib hroot hres hsep.accepts hsep.jsonable
    have hpaths : ∀ k ∈ ev.paths, k ∈ paths := by
      simpa [NativeYaml.paths, hrules, probeRule, keysOf] using hk
    have h := hdet ev hev hpaths chunk chunk' request request' hsame
    unfold NativeYamlEvaluator.evaluate at h
    rw [verdict_evaluateView hj, verdict_evaluateView (hsame.jsonable ▸ hj), hrules, hdeny,
      evaluateRules_probe hsep.left, evaluateRules_probe hsep.right] at h
    cases b <;> simp at h
  · intro hrec ev hev hpaths chunk chunk' request request' hsame
    unfold NativeYamlEvaluator.evaluate
    by_cases hj : jsonable (.dict (buildInputs chunk request)) = true
    · rw [verdict_evaluateView hj, verdict_evaluateView (hsame.jsonable ▸ hj)]
      apply hev.evaluateRules_alike hsame.timestamp
      exact fun k hk =>
        hrec k (hpaths k hk) (hev.paths_allowed k hk) chunk chunk' request request' hsame hj
    · rw [evaluateView_unrecorded rt hj, evaluateView_unrecorded rt (hsame.jsonable ▸ hj),
        hsame.fault]

/-! ## Which paths the inputs determine -/

/-- The attributes of a list do not show in which order the keys inside it were written. -/
def AttributesBlind (rt : Runtime Ω) : Prop :=
  ∀ xs ys, norm (.list xs) = norm (.list ys) → ∀ seg segs,
    ObservedAlike rt (.ok (PyObj.walk rt (.val (.list xs)) (seg :: segs)))
      (.ok (PyObj.walk rt (.val (.list ys)) (seg :: segs)))

theorem walk_dict {d : PyDict} {seg : String} {segs : List String} :
    PyObj.walk rt (.val (.dict d)) (seg :: segs) =
      (getKey d seg).bind fun v => PyObj.walk rt (.val v) segs := by
  rw [PyObj.walk, PyObj.step]
  cases getKey d seg <;> rfl

theorem bind_alike {o o' : Option PyVal} {f : PyVal → Option (PyObj Ω)}
    (h : o.map norm = o'.map norm)
    (hf : ∀ {v w}, norm v = norm w → ObservedAlike rt (.ok (f v)) (.ok (f w))) :
    ObservedAlike rt (.ok (o.bind f)) (.ok (o'.bind f)) := by
  cases o with
  | none =>
    rw [Option.map_eq_none_iff.mp h.symm]
    exact .missing
  | some x =>
    obtain ⟨y, rfl, hxy⟩ := Option.map_eq_some_iff.mp h.symm
    exact hf hxy.symm

/-- Below a recorded value every path is determined. -/
theorem walk_alike (hattr : AttributesBlind rt) (segs : List String) :
    ∀ {v w : PyVal}, norm v = norm w →
      ObservedAlike rt (.ok (PyObj.walk rt (.val v) segs)) (.ok (PyObj.walk rt (.val w) segs)) := by
  induction segs with
  | nil => exact fun h => .found (indistinct_of_norm h)
  | cons seg segs ih =>
    intro v w h
    cases v with
    | atom a =>
      cases w with
      | atom b =>
        obtain rfl : a = b := PyVal.atom.inj h
        exact .refl _
      | list ys => rw [norm_list] at h; cases h
      | dict e => rw [norm_eq_normDict] at h; cases h
    | list xs =>
      cases w with
      | list ys => exact hattr xs ys h seg segs
      | atom b => rw [norm_list] at h; cases h
      | dict e => rw [norm_list, norm_eq_normDict] at h; cases h
    | dict d =>
      cases w with
      | dict e =>
        rw [walk_dict, walk_dict]
        exact bind_alike (getKey_of_norm h seg) ih
      | atom b => rw [norm_eq_normDict] at h; cases h
      | list ys => rw [norm_eq_normDict, norm_list] at h; cases h

theorem getKey_setDefaultIfSome {d : PyDict} {k l : String} {v : PyVal} (h : k ≠ l) :
    getKey (setDefaultIfSome d k v) l = getKey d l := by
  have hset (w : PyVal) : getKey (setDefault d k w) l = getKey d l := by
    unfold setDefault
    split_ifs
    · rfl
    · rw [getKey_append, getKey_cons, if_neg h]
      cases getKey d l <;> rfl
  unfold setDefaultIfSome
  split
  · rfl
  · exact hset _

theorem SameInputs.metadata {chunk chunk' : ChunkContext} {request request' : RequestContext}
    (h : SameInputs chunk chunk' request request') {k : String}
    (hk : k ∉ ["ingested_at", "content_source"]) :
    (Provenex.getKey chunk.metadata k).map norm = (Provenex.getKey chunk'.metadata k).map norm := by
  simp only [List.mem_cons, List.not_mem_nil, or_false, not_or] at hk
  have hmeta := getKey_of_norm (h.getKey (k := "chunk_metadata") rfl rfl) k
  rwa [getKey_setDefaultIfSome (Ne.symm hk.2), getKey_setDefaultIfSome (Ne.symm hk.1),
    getKey_setDefaultIfSome (Ne.symm hk.2), getKey_setDefaultIfSome (Ne.symm hk.1)] at hmeta

/-- A field of the request, or a key of the metadata that no chunk field is merged into. -/
inductive Recoverable : List String → Prop
  | request {field : String} (rest : List String)
      (h : field ∈ ["caller", "jurisdiction", "purpose", "timestamp"]) :
      Recoverable ("request" :: field :: rest)
  | metadata {key : String} (rest : List String) (h : key ∉ ["ingested_at", "content_source"]) :
      Recoverable ("chunk" :: "metadata" :: key :: rest)

theorem resolvePath_segs {s root : String} {segs : List String} (h : splitDots s = root :: segs)
    {view : View} {start : Option (PyObj Ω)} (hroot : view.root root = some start) :
    resolvePath rt (.str s) view = .ok (start.bind fun o => o.walk rt segs) := by
  simp only [resolvePath, h, hroot]

variable (rt) in
theorem request_field {f : String} (h : f ∈ ["caller", "jurisdiction", "purpose", "timestamp"])
    (request : RequestContext) : ∃ v, getKey (requestInputs request) f = some v ∧
      (PyObj.request (Ω := Ω) request).step rt f = some (.val v) := by
  simp only [List.mem_cons, List.not_mem_nil, or_false] at h
  rcases h with rfl | rfl | rfl | rfl <;> exact ⟨_, rfl, rfl⟩

theorem recorded_of_recoverable (hattr : AttributesBlind rt) {p : String}
    (h : Recoverable (splitDots p)) : Recorded rt (.str p) := by
  intro chunk chunk' request request' hsame _
  generalize hp : splitDots p = segs at h
  cases h with
  | @request f rest hf =>
    obtain ⟨v, hv, hstep⟩ := request_field rt hf request
    obtain ⟨v', hv', hstep'⟩ := request_field rt hf request'
    rw [resolvePath_segs hp rfl, resolvePath_segs hp rfl]
    simp only [Option.bind_some, PyObj.walk, hstep, hstep']
    exact walk_alike hattr rest (hsame.request hv hv')
  | @metadata k rest hk =>
    rw [resolvePath_segs hp rfl, resolvePath_segs hp rfl]
    change ObservedAlike rt (.ok (PyObj.walk rt (.val (.dict chunk.metadata)) (k :: rest)))
      (.ok (PyObj.walk rt (.val (.dict chunk'.metadata)) (k :: rest)))
    rw [walk_dict, walk_dict]
    exact bind_alike (hsame.metadata hk) (walk_alike hattr rest)

theorem not_recorded (p root : String) (segs : List String) (chunk chunk' : ChunkContext)
    (request request' : RequestContext) (hp : splitDots p = root :: segs)
    (hsame : SameInputs chunk chunk' request request')
    (hj : jsonable (.dict (buildInputs chunk request)) = true) {a : PyObj Ω}
    {o start start' : Option (PyObj Ω)}
    (hroot : View.root ⟨some chunk, none, request⟩ root = some start)
    (hroot' : View.root ⟨some chunk', none, request'⟩ root = some start')
    (h : (start.bind fun x => x.walk rt segs) = some a)
    (h' : (start'.bind fun x => x.walk rt segs) = o)
    (hne : ∀ a', o = some a' → ¬ Indistinct rt a a') : ¬ Recorded rt (.str p) := by
  intro hrec
  have halike := hrec chunk chunk' request request' hsame hj
  rw [resolvePath_segs hp hroot, resolvePath_segs hp hroot', h, h'] at halike
  cases halike with
  | found hi => exact hne _ rfl hi

end

namespace Sample

def chunk : ChunkContext := ⟨.none, .none, .none, .none, [], .none⟩

end Sample

/-- The paths of the declared fields that the recorded inputs do not determine. -/
def unrecordedPaths : List String :=
  ["chunk.fingerprint", "chunk.document_id", "chunk.document_version", "chunk.ingested_at",
    "chunk.content_source", "chunk.metadata", "chunk.metadata.ingested_at",
    "chunk.metadata.content_source", "request.session_id"]

section

variable {Ω : Type} {rt : Runtime Ω}

theorem str_distinct {s : String} : ∀ a' : PyObj Ω, some (.val .none) = some a' →
    ¬ Indistinct rt (.val (.str s)) a' := by
  rintro _ ⟨⟩ h
  cases h.str

/-- A field of the chunk that is set in one of two contexts with the same inputs. -/
theorem unrecorded_field (p f : String) (hp : splitDots p = ["chunk", f])
    (chunk chunk' : ChunkContext) (hsame : SameInputs chunk chunk' Sample.request Sample.request)
    (hj : jsonable (.dict (buildInputs chunk Sample.request)) = true)
    (h : (PyObj.chunk (Ω := Ω) chunk).field f = some (.str "a"))
    (h' : (PyObj.chunk (Ω := Ω) chunk').field f = some .none) : ¬ Recorded rt (.str p) := by
  apply not_recorded p "chunk" [f] chunk chunk' Sample.request Sample.request hp hsame hj rfl rfl
    (a := .val (.str "a")) (o := some (.val .none)) ?_ ?_ str_distinct
  · simp only [Option.map_some, Option.bind_some, PyObj.walk, PyObj.step, h]
  · simp only [Option.map_some, Option.bind_some, PyObj.walk, PyObj.step, h']

namespace Sample

/-- A key of the metadata, and the field of that name, which is recorded in its place. -/
def ingestedAtKey : ChunkContext := { chunk with metadata := [(.str "ingested_at", .str "a")] }

def ingestedAtField : ChunkContext := { chunk with ingestedAt := .str "a" }

def contentSourceKey : ChunkContext := { chunk with metadata := [(.str "content_source", .str "a")] }

def contentSourceField : ChunkContext := { chunk with contentSource := .str "a" }

end Sample

theorem metadata_distinct {k : String} : ∀ a' : PyObj Ω, some (.val (.dict [])) = some a' →
    ¬ Indistinct rt (.val (.dict [(.str k, .str "a")])) a' := by
  rintro _ ⟨⟩ h
  exact absurd (h.eq (.dict []) rfl) (by simp [PyObj.eq, PyVal.eq, eqEntries])

theorem unrecorded {p : String} (h : p ∈ unrecordedPaths) : ¬ Recorded rt (.str p) := by
  simp only [unrecordedPaths, List.mem_cons, List.not_mem_nil, or_false] at h
  rcases h with rfl | rfl | rfl | rfl | rfl | rfl | rfl | rfl | rfl
  · exact unrecorded_field _ "fingerprint" (by decide +kernel)
      { Sample.chunk with fingerprint := .str "a" } Sample.chunk rfl rfl rfl rfl
  · exact unrecorded_field _ "document_id" (by decide +kernel)
      { Sample.chunk with documentId := .str "a" } Sample.chunk rfl rfl rfl rfl
  · exact unrecorded_field _ "document_version" (by decide +kernel)
      { Sample.chunk with documentVersion := .str "a" } Sample.chunk rfl rfl rfl rfl
  · exact unrecorded_field _ "ingested_at" (by decide +kernel)
      Sample.ingestedAtField Sample.ingestedAtKey rfl rfl rfl rfl
  · exact unrecorded_field _ "content_source" (by decide +kernel)
      Sample.contentSourceField Sample.contentSourceKey rfl rfl rfl rfl
  · exact not_recorded _ "chunk" ["metadata"] Sample.ingestedAtKey Sample.ingestedAtField
      Sample.request Sample.request (by decide +kernel) rfl rfl rfl rfl rfl rfl metadata_distinct
  · exact not_recorded _ "chunk" ["metadata", "ingested_at"] Sample.ingestedAtKey
      Sample.ingestedAtField Sample.request Sample.request (by decide +kernel) rfl rfl rfl rfl rfl
      rfl nofun
  · exact not_recorded _ "chunk" ["metadata", "content_source"] Sample.contentSourceKey
      Sample.contentSourceField Sample.request Sample.request (by decide +kernel) rfl rfl rfl rfl rfl
      rfl nofun
  · exact not_recorded _ "request" ["session_id"] Sample.chunk Sample.chunk
      { Sample.request with sessionId := some "a" } Sample.request (by decide +kernel) rfl rfl rfl
      rfl rfl rfl str_distinct

/-- The recorded inputs determine the decisions of all policies over a set of paths if and only if
they determine each path of the set. Of the declared fields they determine those of the request
but the session, and the metadata but for the two keys that a chunk field is merged into. -/
theorem decisions_recorded_iff (rt : Runtime Ω) :
    (∀ paths : Set PyAtom, Determined rt paths ↔
      ∀ k ∈ paths, RootAllowed chunkDomainRoots k → Recorded rt k) ∧
    (AttributesBlind rt → ∀ p, Recoverable (splitDots p) → Recorded rt (.str p)) ∧
    (∀ p ∈ unrecordedPaths, ¬ Recorded rt (.str p)) :=
  ⟨determined_iff, fun hattr _ => recorded_of_recoverable hattr, fun _ => unrecorded⟩

end

theorem decisions_recorded_iff_sample :
    Determined Runtime.blank {.str "chunk.metadata.residency", .str "request.caller.role"} ∧
      ¬ Determined Runtime.blank {.str "chunk.document_id"} := by
  obtain ⟨hiff, hrec, hunrec⟩ := decisions_recorded_iff Runtime.blank
  have hattr : AttributesBlind Runtime.blank := fun _ _ _ _ _ => .missing
  constructor
  · refine (hiff _).mpr ?_
    rintro _ (rfl | rfl) -
    · refine hrec hattr _ ?_
      rw [show splitDots "chunk.metadata.residency" = ["chunk", "metadata", "residency"] by
        decide +kernel]
      exact .metadata [] (by decide)
    · refine hrec hattr _ ?_
      rw [show splitDots "request.caller.role" = ["request", "caller", "role"] by decide +kernel]
      exact .request ["role"] (by decide)
  · intro hdet
    refine hunrec "chunk.document_id" (by decide) ((hiff _).mp hdet _ rfl ?_)
    rintro _ ⟨⟩ -
    decide +kernel

namespace Sample

/-- One document may be read. -/
def documentBundle : PyVal :=
  .dict [(.str "version", .int 1), (.str "policy_id", .str "documents"),
    (.str "rules", .list [.dict [(.str "name", .str "one_document"),
      (.str "require", .dict [(.str "chunk.document_id", .str "a")])]])]

end Sample

/-- Chunks of two documents record the same inputs and are decided differently. -/
theorem document_id_not_recorded :
    ∃ ev, NativeYamlEvaluator.init Runtime.blank Sample.documentBundle "policy.yaml" = .ok ev ∧
      ∃ d d', NativeYamlEvaluator.evaluate Runtime.blank ev
          { Sample.chunk with documentId := .str "a" } Sample.request = .ok d ∧
        NativeYamlEvaluator.evaluate Runtime.blank ev
          { Sample.chunk with documentId := .str "b" } Sample.request = .ok d' ∧
        d.inputs = d'.inputs ∧ d.inputsHash = d'.inputsHash ∧
        d.decision = .allow ∧ d'.decision = .deny :=
  ⟨_, rfl, _, _, rfl, rfl, rfl, rfl, rfl, rfl⟩

end Provenex
