import Provenex.Proofs.Signatures
import Provenex.Proofs.StrictLoading
import Provenex.Proofs.VersionHash

/-! What a signature and the hashes bind: a JSON value up to the order of its keys. -/

namespace Provenex

open Guard

section

variable {py : Stdlib}

theorem JsonShaped.strKeys {d : PyDict} (h : JsonShaped (.dict d)) : StrKeys d := by
  intro k hk
  obtain ⟨e, he, rfl⟩ := List.mem_map.mp hk
  exact (jsonShaped_dict.mp h).1 e he

/-- Of such a value only an integer can fail to be written. -/
theorem shaped_fault {v : PyVal} (h : JsonShaped v) {e : PyErr} (he : jsonFault true v = some e) :
    e = .valueError none := by
  induction h generalizing e with
  | none => cases he
  | bool b => cases he
  | str s => cases he
  | int i =>
    rw [jsonFault, PyAtom.jsonFault] at he
    split_ifs at he
    exact (Option.some.inj he).symm
  | list _ ih =>
    rw [jsonFault, jsonFaultList_eq] at he
    obtain ⟨x, hx, hf⟩ := List.exists_of_findSome?_eq_some he
    exact ih x hx hf
  | dict strings nodup values ih =>
    obtain ⟨x, hx, hf⟩ := (JsonShaped.dict strings nodup values).strKeys.fault_mem he
    exact ih x hx hf

theorem canonicalBytes_eq {v : PyVal} {bytes : Bytes} : canonicalBytes py v = .ok bytes ↔
    jsonable v = true ∧ encodeUtf8 (String.ofList (toJson py v).text) = bytes := by
  unfold canonicalBytes dumps
  split_ifs with hj <;> simp [hj, Except.map]

theorem canonicalBytes_unwritable {v : PyVal} (h : JsonShaped v) (hj : ¬ jsonable v = true) :
    canonicalBytes py v = .error (.valueError none) := by
  rw [canonicalBytes, dumps, if_neg hj]
  cases hf : jsonFault true v with
  | none => exact absurd ((jsonFault_none v).mp hf) hj
  | some e =>
    rw [shaped_fault h hf]
    rfl

/-- The canonical bytes are those of a value up to the order of its keys. -/
theorem canonicalBytes_iff {v w : PyVal} (hv : JsonShaped v) (hw : JsonShaped w) {bytes : Bytes}
    (h : canonicalBytes py v = .ok bytes) :
    canonicalBytes py w = .ok bytes ↔ norm v = norm w := by
  constructor
  · exact canonicalBytes_inj hv hw h
  · intro hn
    obtain ⟨hj, rfl⟩ := canonicalBytes_eq.mp h
    rw [canonicalBytes_eq, ← jsonable_norm w, ← hn, jsonable_norm, toJson_of_norm v w hn]
    exact ⟨hj, rfl⟩

theorem hash_binds (hsha : Function.Injective py.sha256) {v w : PyVal} (hv : JsonShaped v)
    (hw : JsonShaped w) {digest : String}
    (h : (canonicalBytes py v).map (sha256Hex py) = .ok digest)
    (h' : (canonicalBytes py w).map (sha256Hex py) = .ok digest) : norm v = norm w := by
  obtain ⟨payload, hp, rfl⟩ := map_ok.mp h
  obtain ⟨payload', hp', heq⟩ := map_ok.mp h'
  obtain rfl := hsha (sha256Hex_inj heq)
  exact (canonicalBytes_iff hv hw hp).mp hp'

theorem callerHash_binds (hsha : Function.Injective py.sha256) {salt : Option Bytes}
    (hsalt : ∀ key ∈ salt, Function.Injective (py.hmacSha256 key)) {c c' : PyDict}
    (hc : JsonShaped (.dict c)) (hc' : JsonShaped (.dict c')) {digest : String}
    (h : computeCallerHash py c salt = .ok digest) (h' : computeCallerHash py c' salt = .ok digest) :
    norm (.dict c) = norm (.dict c') := by
  cases salt with
  | none => exact hash_binds hsha hc hc' h h'
  | some key =>
    obtain ⟨payload, hp, rfl⟩ := map_ok.mp h
    obtain ⟨payload', hp', heq⟩ := map_ok.mp h'
    have hl := congrArg String.toList heq
    rw [String.toList_append, String.toList_append] at hl
    obtain rfl := hsalt key rfl (hexdigest_inj (String.toList_inj.mp (List.append_cancel_left hl)))
    exact (canonicalBytes_iff hc hc' hp).mp hp'

/-! ## Signatures -/

theorem withoutSignature_shaped {d : PyDict} (h : JsonShaped (.dict d)) :
    JsonShaped (.dict (withoutSignature d)) := by
  rw [jsonShaped_dict] at h ⊢
  have hsub : (withoutSignature d).Sublist d := List.filter_sublist
  exact ⟨fun e he => h.1 e (hsub.subset he), h.2.1.sublist (hsub.map _),
    fun e he => h.2.2 e (hsub.subset he)⟩

theorem getOrNone_norm {d d' : PyDict} (h : norm (.dict d) = norm (.dict d')) (k : String) :
    norm (getOrNone d k) = norm (getOrNone d' k) := by
  have hk := getKey_of_norm h k
  have hgetD (o : Option PyVal) : norm (o.getD .none) = (o.map norm).getD .none := by
    cases o <;> rfl
  rw [getOrNone, getOrNone, hgetD, hgetD, hk]

theorem verified_signed {receipt : PyDict} {signer : VerifyingSigner}
    (h : verifyReceiptSignature py receipt signer = .ok true) :
    ∃ sig, getOrNone receipt "signature" = .dict sig ∧
      getOrNone sig "algorithm" = .str signer.algorithm := by
  unfold verifyReceiptSignature at h
  split_ifs at h
  · obtain ⟨sig, hsig, h⟩ := bind_ok.mp h
    split_ifs at h with halg
    · exact ⟨sig, asMapping_ok.mp hsig, PyVal.eq_str.mp halg⟩
    · cases h
  · cases h

theorem norm_str {v : PyVal} {s : String} (h : norm v = .str s) : v = .str s := by
  cases v with
  | atom a => exact h
  | list xs => rw [norm_list] at h; cases h
  | dict d => rw [norm_dict] at h; cases h

theorem norm_orElse (v : PyVal) (s : String) : norm (v.orElse (.str s)) = (norm v).orElse (.str s) := by
  rw [PyVal.orElse, PyVal.orElse, truthy_norm]
  split_ifs <;> rfl

/-- A signature that re-signing accepts is the one it makes. -/
theorem resigning_true {s : ReceiptSigner} (hascii : ∀ payload, isAscii (s.sign payload) = true)
    {payload : Bytes} {v : PyVal} :
    s.resigning.verify payload v = .ok true ↔ v = .str (s.sign payload) := by
  constructor
  · intro h
    unfold ReceiptSigner.resigning at h
    dsimp only at h
    split at h
    · rw [compareDigest_true (hascii payload)] at h
      rw [h]
    · cases h
  · rintro rfl
    exact compareDigest_self (hascii payload)

/-- A JSON object that shares its signature with one that verifies, and not the rest, does not. An
integer that cannot be written has no canonical bytes, and the check raises. -/
theorem forged_rejected {key : Bytes} (hmac : Function.Injective (py.hmacSha256 key))
    {r r' : PyDict} (hr : JsonShaped (.dict r)) (hr' : JsonShaped (.dict r'))
    (h : verifyReceiptSignature py r (hmacSha256Signer py key).resigning = .ok true)
    (hsig : norm (getOrNone r' "signature") = norm (getOrNone r "signature"))
    (hne : norm (.dict (withoutSignature r')) ≠ norm (.dict (withoutSignature r))) :
    verifyReceiptSignature py r' (hmacSha256Signer py key).resigning =
      if jsonable (.dict (withoutSignature r')) then .ok false else .error (.valueError none) := by
  obtain ⟨sig, hget, halg⟩ := verified_signed h
  obtain ⟨sig', hget'⟩ : ∃ sig', getOrNone r' "signature" = .dict sig' := by
    rw [hget, norm_dict] at hsig
    generalize getOrNone r' "signature" = v at hsig
    cases v with
    | atom a => cases hsig
    | list xs => rw [norm_list] at hsig; cases hsig
    | dict sig' => exact ⟨sig', rfl⟩
  rw [hget, hget'] at hsig
  have halg' : getOrNone sig' "algorithm" = .str (hmacSha256Signer py key).resigning.algorithm :=
    norm_str ((getOrNone_norm hsig "algorithm").trans (congrArg norm halg))
  -- the value that the one signature holds is the MAC of the one payload
  rw [verify_signed hget halg, bind_ok] at h
  obtain ⟨payload, hpayload, h⟩ := h
  rw [verify_signed hget' halg']
  split_ifs with hj
  · obtain ⟨payload', hpayload'⟩ :
        ∃ payload', canonicalBytes py (.dict (withoutSignature r')) = .ok payload' :=
      ⟨_, canonicalBytes_eq.mpr ⟨hj, rfl⟩⟩
    have hascii (payload : Bytes) : isAscii ((hmacSha256Signer py key).sign payload) = true :=
      hexdigest_ascii _
    have hvalue := (resigning_true hascii).mp h
    have hvalue' : (getOrNone sig' "value").orElse (.str "") =
        .str ((hmacSha256Signer py key).sign payload) := by
      refine norm_str ?_
      rw [norm_orElse, getOrNone_norm hsig, ← norm_orElse, hvalue]
      rfl
    rw [hpayload', hvalue']
    change compareDigest _ _ = _
    rw [compareDigest, if_pos ⟨hascii _, hascii _⟩]
    refine congrArg Except.ok (beq_eq_false_iff_ne.mpr fun heq => hne ?_)
    obtain rfl := hmac (hexdigest_inj heq)
    exact (canonicalBytes_iff (withoutSignature_shaped hr') (withoutSignature_shaped hr)
      hpayload').mp hpayload
  · rw [canonicalBytes_unwritable (withoutSignature_shaped hr') hj]
    rfl

/-- What the canonical bytes, a signature and the hashes bind. The MACs under one key, and the
digests, collide for equal payloads only. -/
theorem signature_binds (secret : Bytes) (hmac : Function.Injective (py.hmacSha256 secret))
    (hsha : Function.Injective py.sha256) :
    (∀ v w bytes, JsonShaped v → JsonShaped w → canonicalBytes py v = .ok bytes →
      (canonicalBytes py w = .ok bytes ↔ norm v = norm w)) ∧
    (∀ r r', JsonShaped (.dict r) → JsonShaped (.dict r') →
      verifyReceiptSignature py r (hmacSha256Signer py secret).resigning = .ok true →
      norm (getOrNone r' "signature") = norm (getOrNone r "signature") →
      norm (.dict (withoutSignature r')) ≠ norm (.dict (withoutSignature r)) →
      verifyReceiptSignature py r' (hmacSha256Signer py secret).resigning =
        if jsonable (.dict (withoutSignature r')) then .ok false else .error (.valueError none)) ∧
    (∀ inputs inputs' digest, JsonShaped inputs → JsonShaped inputs' → norm inputs ≠ norm inputs' →
      computeInputsHash py inputs = .ok digest → computeInputsHash py inputs' ≠ .ok digest) ∧
    (∀ salt, (∀ key ∈ salt, Function.Injective (py.hmacSha256 key)) →
      ∀ caller caller' digest, JsonShaped (.dict caller) → JsonShaped (.dict caller') →
        norm (.dict caller) ≠ norm (.dict caller') →
        computeCallerHash py caller salt = .ok digest →
        computeCallerHash py caller' salt ≠ .ok digest) ∧
    ∀ parameters parameters' digest, JsonShaped (.dict parameters) →
      JsonShaped (.dict parameters') → norm (.dict parameters) ≠ norm (.dict parameters') →
      computeParametersHash py parameters = .ok digest →
      computeParametersHash py parameters' ≠ .ok digest := by
  refine ⟨fun v w _ hv hw h => canonicalBytes_iff hv hw h, ?_, ?_, ?_, ?_⟩
  · exact fun r r' hr hr' h hsig hne => forged_rejected hmac hr hr' h hsig hne
  · intro v w digest hv hw hne h h'
    exact hne (hash_binds hsha hv hw h h')
  · intro salt hsalt c c' digest hc hc' hne h h'
    exact hne (callerHash_binds hsha hsalt hc hc' h h')
  · intro p p' digest hp hp' hne h h'
    exact hne (hash_binds hsha hp hp' h h')

end

namespace Sample

/-- Digests where they are known; what is longer than a digest elsewhere. -/
def spread (known : List (Bytes × Bytes)) (payload : Bytes) : Bytes :=
  (known.lookup payload).getD (List.replicate 33 0 ++ payload)

theorem spread_injective {known : List (Bytes × Bytes)} (hlen : ∀ e ∈ known, e.2.length = 32)
    (hn : (known.map Prod.snd).Nodup) : Function.Injective (spread known) := by
  have hmem {p d : Bytes} (h : known.lookup p = some d) : (p, d) ∈ known := by
    obtain ⟨l, l', rfl, -⟩ := List.lookup_eq_some_iff.mp h
    simp
  intro p q h
  unfold spread at h
  cases hp : known.lookup p with
  | some d =>
    cases hq : known.lookup q with
    | some e =>
      rw [hp, hq] at h
      exact congrArg Prod.fst (List.inj_on_of_nodup_map hn (hmem hp) (hmem hq) h)
    | none =>
      have hl := congrArg List.length h
      simp [hp, hq, hlen _ (hmem hp)] at hl
  | none =>
    cases hq : known.lookup q with
    | some e =>
      have hl := congrArg List.length h
      simp [hp, hq, hlen _ (hmem hq)] at hl
    | none =>
      rw [hp, hq] at h
      exact List.append_cancel_left h

/-- A JSON object, from what stands between its braces. -/
def braced (fields : String) : Bytes :=
  encodeUtf8 (String.ofList (Char.ofNat 123 :: fields.toList ++ [Char.ofNat 125]))

/-- The digests of the payloads below; the key is `k`. -/
def keyedDigests : Stdlib := { Stdlib.blank with
  hmacSha256 := fun _ => spread [(braced "\"receipt_id\":\"a\"", [159, 16, 223, 59, 160,
      128, 19, 42, 81, 221, 176, 160, 12, 99, 80, 135, 124, 169, 86, 84, 135, 133, 166, 242, 181, 35,
      125, 133, 108, 111, 171, 113]),
    (braced "\"receipt_id\":\"b\"", [142, 171, 202, 174, 89, 90, 149, 14, 223, 226, 97,
      7, 203, 45, 253, 36, 154, 132, 103, 97, 8, 226, 179, 199, 98, 220, 72, 196, 205, 221, 136, 252])]
  sha256 := spread [(braced "\"n\":1", [43, 253, 20, 244, 61, 23, 252, 124, 234, 36, 224,
      145, 122, 136, 121, 180, 178, 248, 128, 184, 186, 238, 193, 185, 217, 15, 186, 173, 101, 94,
      113, 189]),
    (braced "\"n\":2", [54, 51, 121, 116, 47, 128, 181, 27, 219, 146, 6, 87, 154, 247, 117,
      73, 17, 84, 48, 121, 185, 57, 156, 179, 252, 49, 95, 177, 153, 244, 118, 232])] }

/-- A receipt under the signature of the one with the identifier `a`. -/
def stamped (receiptId : String) : PyDict := [(.str "receipt_id", .str receiptId),
  (.str "signature", .dict [(.str "algorithm", .str "hmac-sha256"), (.str "value",
    .str "9f10df3ba080132a51ddb0a00c6350877ca956548785a6f2b5237d856c6fab71")])]

end Sample

theorem signature_binds_sample :
    verifyReceiptSignature Sample.keyedDigests (Sample.stamped "b")
      (hmacSha256Signer Sample.keyedDigests (encodeUtf8 "k")).resigning = .ok false ∧
    ∃ digest, computeInputsHash Sample.keyedDigests (.dict [(.str "n", .int 1)]) = .ok digest ∧
      computeInputsHash Sample.keyedDigests (.dict [(.str "n", .int 2)]) ≠ .ok digest := by
  have hshaped (id : String) : JsonShaped (.dict (Sample.stamped id)) := by
    simp [Sample.stamped, keysOf]
  have hn (i : ℤ) : JsonShaped (.dict [(.str "n", .int i)]) := by simp [keysOf]
  have hmac : Function.Injective (Sample.keyedDigests.hmacSha256 (encodeUtf8 "k")) :=
    Sample.spread_injective (by decide) (by decide)
  have hsha : Function.Injective Sample.keyedDigests.sha256 :=
    Sample.spread_injective (by decide) (by decide)
  obtain ⟨-, hforged, hinputs, -⟩ := signature_binds (encodeUtf8 "k") hmac hsha
  have hid : norm (.dict (withoutSignature (Sample.stamped "b"))) ≠
      norm (.dict (withoutSignature (Sample.stamped "a"))) := fun h => by
    have hget : some (PyVal.str "b") = some (.str "a") := getKey_of_norm h "receipt_id"
    simp at hget
  have hone : norm (.dict [(.str "n", .int 1)]) ≠ norm (.dict [(.str "n", .int 2)]) := fun h => by
    have hget : some (PyVal.int 1) = some (.int 2) := getKey_of_norm h "n"
    simp at hget
  have hrefused := hforged (Sample.stamped "a") (Sample.stamped "b") (hshaped "a") (hshaped "b")
    (by decide +kernel) rfl hid
  rw [if_pos (by decide +kernel)] at hrefused
  obtain ⟨digest, hdigest⟩ :
      ∃ digest, computeInputsHash Sample.keyedDigests (.dict [(.str "n", .int 1)]) = .ok digest :=
    ⟨_, map_ok.mpr ⟨_, canonicalBytes_eq.mpr ⟨by decide +kernel, rfl⟩, rfl⟩⟩
  exact ⟨hrefused, digest, hdigest, hinputs _ _ digest (hn 1) (hn 2) hone hdigest⟩

end Provenex
