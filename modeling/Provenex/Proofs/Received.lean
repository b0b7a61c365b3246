import Provenex.Core.Received
import Provenex.Proofs.Signatures
import Provenex.Proofs.StrictLoading

/-! A signature check that always answers: what a receipt of unknown origin must look like
for `verify_receipt_signature` to return at all. -/

namespace Provenex

open Guard

/-! ## Texts -/

theorem isText_iff {v : JsonVal} {s : String} : v.isText s = true ↔ v = .text (.of s) := by
  cases v <;> simp [JsonVal.isText]

theorem get_cons (k l : String) (v : JsonVal) (d : JsonObject) :
    JsonObject.get ((.of k, v) :: d) l = if k = l then v else d.get l := by
  by_cases h : k = l
  · rw [if_pos h, JsonObject.get, List.find?_cons_of_pos (by simp [h])]
    rfl
  · rw [if_neg h, JsonObject.get, List.find?_cons_of_neg (by simp [of_inj, h])]
    rfl

/-! ## The payload -/

section

variable {py : Stdlib}

theorem pyEntries_strKeys {d : JsonObject} : ∀ {e : PyDict}, pyEntries? d = some e → StrKeys e := by
  induction d with
  | nil =>
    intro e h
    cases h
    exact fun k hk => absurd hk List.not_mem_nil
  | cons p d ih =>
    intro e h
    simp only [pyEntries?, Option.bind_eq_bind, Option.bind_eq_some_iff, Option.some.injEq] at h
    obtain ⟨k, -, x, -, rest, hrest, rfl⟩ := h
    intro key hkey
    rcases List.mem_cons.mp hkey with rfl | hkey
    · exact ⟨k, rfl⟩
    · exact ih hrest key hkey

theorem int_pyVal {i : ℤ} {w : PyVal} :
    (JsonVal.int i).pyVal? = some w ↔ writableInt i = true ∧ .int i = w := by
  rw [JsonVal.pyVal?]
  split_ifs with h <;> simp [h]

mutual

theorem pyVal_jsonable (v : JsonVal) (w : PyVal) (h : v.pyVal? = some w) : jsonable w = true := by
  cases v with
  | null => cases h; rfl
  | bool b => cases h; rfl
  | int i =>
    obtain ⟨hi, rfl⟩ := int_pyVal.mp h
    rwa [jsonable, PyAtom.jsonable]
  | float f => cases h; rfl
  | text s =>
    obtain ⟨t, -, rfl⟩ := Option.map_eq_some_iff.mp h
    rfl
  | list xs =>
    obtain ⟨ys, hys, rfl⟩ := Option.map_eq_some_iff.mp h
    rw [jsonable, jsonableList_iff]
    exact pyList_jsonable xs ys hys
  | dict d =>
    obtain ⟨e, he, rfl⟩ := Option.map_eq_some_iff.mp h
    rw [jsonable_strKeys (pyEntries_strKeys he)]
    exact pyEntries_jsonable d e he

theorem pyList_jsonable (xs : List JsonVal) (ys : List PyVal) (h : pyList? xs = some ys) :
    ∀ y ∈ ys, jsonable y = true := by
  cases xs with
  | nil => cases h; exact fun y hy => absurd hy List.not_mem_nil
  | cons x xs =>
    simp only [pyList?, Option.bind_eq_bind, Option.bind_eq_some_iff, Option.some.injEq] at h
    obtain ⟨y, hy, rest, hrest, rfl⟩ := h
    rw [List.forall_mem_cons]
    exact ⟨pyVal_jsonable x y hy, pyList_jsonable xs rest hrest⟩

theorem pyEntries_jsonable (d : JsonObject) (e : PyDict) (h : pyEntries? d = some e) :
    ∀ p ∈ e, jsonable p.2 = true := by
  cases d with
  | nil => cases h; exact fun p hp => absurd hp List.not_mem_nil
  | cons q d =>
    simp only [pyEntries?, Option.bind_eq_bind, Option.bind_eq_some_iff, Option.some.injEq] at h
    obtain ⟨k, -, y, hy, rest, hrest, rfl⟩ := h
    rw [List.forall_mem_cons]
    exact ⟨pyVal_jsonable q.2 y hy, pyEntries_jsonable d rest hrest⟩

end

/-- JSON values can be written again; what may fail is the encoding. -/
theorem canonicalObject_ok {d : JsonObject} :
    (∃ b, canonicalObject py d = .ok b) ↔ (pyEntries? d).isSome := by
  unfold canonicalObject
  cases he : pyEntries? d with
  | none => simp
  | some e =>
    have hjson : jsonable (.dict e) = true := by
      rw [jsonable_strKeys (pyEntries_strKeys he)]
      exact pyEntries_jsonable d e he
    refine iff_of_true ⟨encodeUtf8 (String.ofList (toJson py (.dict e)).text), ?_⟩ rfl
    change canonicalBytes py (.dict e) = _
    rw [canonicalBytes, dumps, if_pos hjson]
    rfl

/-! ## The signers -/

/-- What the digest and the key promise: a signature has one length. -/
def Signer.FixedLength (py : Stdlib) : Signer → Prop
  | .hmacSha256 secret => ∀ payload, (py.hmacSha256 secret payload).length = 32
  | .ed25519 verifies => ∀ sig payload, verifies sig payload = true → sig.length = 64

/-- A value that the signer's `verify` can compare. -/
def Signer.Compares : Signer → JsonVal → Prop
  | .hmacSha256 _, v => v.truthy = true → ∃ s, v = .text (.of s) ∧ isAscii s = true
  | .ed25519 _, v => v.truthy = true → ∃ s, v = .text s

theorem orEmpty_truthy {v : JsonVal} (h : v.truthy = true) : v.orEmpty = v := if_pos h

theorem orEmpty_falsy {v : JsonVal} (h : v.truthy ≠ true) : v.orEmpty = .text [] := if_neg h

theorem hmac_answers {secret payload : Bytes} {v : JsonVal} :
    (∃ b, (Signer.hmacSha256 secret).verify py payload v = .ok b) ↔
      ∃ s, v = .text (.of s) ∧ isAscii s = true := by
  cases v with
  | text t =>
    simp only [Signer.verify]
    cases ht : t.string? with
    | none =>
      have hof (s : String) : t ≠ .of s := fun h => by simp [h] at ht
      simp [hof]
    | some value =>
      obtain rfl := string_eq.mp ht
      simp only [JsonVal.text.injEq, of_inj, exists_eq_left']
      exact compareDigest_ok (hexdigest_ascii _)
  | _ => simp [Signer.verify]

theorem ed25519_answers {verifies : Bytes → Bytes → Bool} {payload : Bytes} {v : JsonVal} :
    (∃ b, (Signer.ed25519 verifies).verify py payload v = .ok b) ↔ ∃ s, v = .text s := by
  cases v with
  | text t =>
    simp only [Signer.verify]
    cases t.chars?.bind unhex <;> simp
  | _ => simp [Signer.verify]

theorem verify_answers {signer : Signer} {payload : Bytes} {v : JsonVal} :
    (∃ b, signer.verify py payload v.orEmpty = .ok b) ↔ signer.Compares v := by
  by_cases hv : v.truthy = true
  · rw [orEmpty_truthy hv]
    cases signer with
    | hmacSha256 secret => exact hmac_answers.trans ⟨fun h _ => h, fun h => h hv⟩
    | ed25519 verifies => exact ed25519_answers.trans ⟨fun h _ => h, fun h => h hv⟩
  · rw [orEmpty_falsy hv]
    cases signer with
    | hmacSha256 secret =>
      exact iff_of_true (hmac_answers.mpr ⟨"", rfl, rfl⟩) fun h => absurd h hv
    | ed25519 verifies => exact iff_of_true (ed25519_answers.mpr ⟨[], rfl⟩) fun h => absurd h hv

/-- The empty text is no signature. -/
theorem empty_refused {signer : Signer} (h : signer.FixedLength py) (payload : Bytes) :
    signer.verify py payload (.text []) = .ok false := by
  cases signer with
  | hmacSha256 secret =>
    change compareDigest (hexdigest (py.hmacSha256 secret payload)) "" = _
    have hlong : hexdigest (py.hmacSha256 secret payload) ≠ "" := by
      intro hempty
      have hnil := hexdigest_inj (b := []) hempty
      have hlen := h payload
      rw [hnil] at hlen
      cases hlen
    rw [compareDigest, if_pos ⟨hexdigest_ascii _, rfl⟩, beq_eq_false_iff_ne.mpr hlong]
  | ed25519 verifies =>
    change Except.ok (verifies [] payload) = _
    cases hverifies : verifies [] payload with
    | false => rfl
    | true =>
      have hlen := h [] payload hverifies
      cases hlen

/-! ## The check -/

/-- The receipt has a signature of this algorithm, whose value is a text. -/
def HasSignature (signer : Signer) (receipt : JsonObject) : Prop :=
  ∃ sig s, receipt.get "signature" = .dict sig ∧
    JsonObject.get sig "algorithm" = .text (.of signer.algorithm) ∧
    JsonObject.get sig "value" = .text s

/-- The check returns, and refuses what is no signature of the signer. -/
def SafelyChecked (py : Stdlib) (signer : Signer) (receipt : JsonObject) : Prop :=
  ∃ b, verifyReceived py receipt signer = .ok b ∧ (¬ HasSignature signer receipt → b = false)

/-- A signature that is there is an object; where it names the algorithm of the signer, its value
can be compared, and the rest of the receipt can be written: no text in it holds half a surrogate
pair, and no integer too many digits. -/
def Checkable (signer : Signer) (receipt : JsonObject) : Prop :=
  (receipt.get "signature").truthy = true → ∃ sig, receipt.get "signature" = .dict sig ∧
    (JsonObject.get sig "algorithm" = .text (.of signer.algorithm) →
      (pyEntries? (receipt.filter fun e => e.1 ≠ PyText.of "signature")).isSome ∧
        signer.Compares (JsonObject.get sig "value"))

theorem verifyReceived_unsigned {receipt : JsonObject} {signer : Signer}
    (h : (receipt.get "signature").truthy ≠ true) :
    verifyReceived py receipt signer = .ok false := if_pos h

theorem verifyReceived_other {receipt : JsonObject} {signer : Signer}
    (htruthy : (receipt.get "signature").truthy = true)
    (h : ∀ sig, receipt.get "signature" ≠ .dict sig) :
    verifyReceived py receipt signer = .error .attributeError := by
  rw [verifyReceived, if_neg (not_not.mpr htruthy)]
  split
  · exact absurd (by assumption) (h _)
  · rfl

theorem verifyReceived_object {receipt sig : JsonObject} {signer : Signer}
    (htruthy : (receipt.get "signature").truthy = true)
    (hsig : receipt.get "signature" = .dict sig) :
    verifyReceived py receipt signer =
      if ¬ (JsonObject.get sig "algorithm").isText signer.algorithm then .ok false
      else canonicalObject py (receipt.filter fun e => e.1 ≠ PyText.of "signature") >>= fun payload =>
        signer.verify py payload (JsonObject.get sig "value").orEmpty := by
  rw [verifyReceived, if_neg (not_not.mpr htruthy), hsig]

/-- The check of an object that names the algorithm answers where each step of it does. -/
theorem checked_ok {receipt sig : JsonObject} {signer : Signer} :
    (∃ b, (canonicalObject py (receipt.filter fun e => e.1 ≠ PyText.of "signature") >>=
        fun payload => signer.verify py payload (JsonObject.get sig "value").orEmpty) = .ok b) ↔
      (pyEntries? (receipt.filter fun e => e.1 ≠ PyText.of "signature")).isSome ∧
        signer.Compares (JsonObject.get sig "value") := by
  rw [← @canonicalObject_ok py]
  constructor
  · rintro ⟨b, hb⟩
    obtain ⟨payload, hpayload, hverify⟩ := bind_ok.mp hb
    exact ⟨⟨payload, hpayload⟩, verify_answers.mp ⟨b, hverify⟩⟩
  · rintro ⟨⟨payload, hpayload⟩, hvalue⟩
    obtain ⟨b, hverify⟩ : ∃ b, signer.verify py payload (JsonObject.get sig "value").orEmpty = .ok b :=
      verify_answers.mpr hvalue
    exact ⟨b, bind_ok.mpr ⟨payload, hpayload, hverify⟩⟩

theorem value_of_accepted {receipt sig : JsonObject} {signer : Signer} (hlen : signer.FixedLength py)
    (h : (canonicalObject py (receipt.filter fun e => e.1 ≠ PyText.of "signature") >>=
      fun payload => signer.verify py payload (JsonObject.get sig "value").orEmpty) = .ok true) :
    ∃ s, JsonObject.get sig "value" = .text s := by
  obtain ⟨payload, -, hverify⟩ := bind_ok.mp h
  by_cases hv : (JsonObject.get sig "value").truthy = true
  · have hcompares := verify_answers.mp ⟨true, hverify⟩
    cases signer with
    | hmacSha256 secret =>
      obtain ⟨s, hs, -⟩ := hcompares hv
      exact ⟨.of s, hs⟩
    | ed25519 verifies => exact hcompares hv
  · rw [orEmpty_falsy hv, empty_refused hlen] at hverify
    cases hverify

/-- Verification returns, and refuses what is no signature of the signer, for exactly the receipts
that can be checked. -/
theorem signature_check_iff (py : Stdlib) (signer : Signer) (hlen : signer.FixedLength py)
    (receipt : JsonObject) : SafelyChecked py signer receipt ↔ Checkable signer receipt := by
  by_cases htruthy : (receipt.get "signature").truthy = true
  · constructor
    · rintro ⟨b, hb, -⟩ -
      obtain ⟨sig, hsig⟩ : ∃ sig, receipt.get "signature" = .dict sig := by
        by_contra hnone
        rw [verifyReceived_other htruthy (not_exists.mp hnone)] at hb
        cases hb
      refine ⟨sig, hsig, fun halg => ?_⟩
      rw [verifyReceived_object htruthy hsig, if_neg (not_not.mpr (isText_iff.mpr halg))] at hb
      exact checked_ok.mp ⟨b, hb⟩
    · intro h
      obtain ⟨sig, hsig, hchecks⟩ := h htruthy
      by_cases halg : JsonObject.get sig "algorithm" = .text (.of signer.algorithm)
      · obtain ⟨b, hb⟩ := checked_ok.mpr (hchecks halg)
        refine ⟨b, ?_, fun hnot => ?_⟩
        · rw [verifyReceived_object htruthy hsig, if_neg (not_not.mpr (isText_iff.mpr halg)), hb]
        · cases b with
          | false => rfl
          | true =>
            obtain ⟨s, hs⟩ := value_of_accepted hlen hb
            exact absurd ⟨sig, s, hsig, halg, hs⟩ hnot
      · refine ⟨false, ?_, fun _ => rfl⟩
        rw [verifyReceived_object htruthy hsig, if_pos (mt isText_iff.mp halg)]
  · exact iff_of_true ⟨false, verifyReceived_unsigned htruthy, fun _ => rfl⟩
      fun h => absurd h htruthy

namespace Sample

def hmac : Signer := .hmacSha256 [107]

/-- A public key under which no signature is right. -/
def publicKey : Signer := .ed25519 fun _ _ => false

def signatureOf (algorithm : String) (value : JsonVal) : JsonObject :=
  [(.of "algorithm", .text (.of algorithm)), (.of "value", value)]

/-- Nothing but a signature. -/
def signatureOnly (signature : JsonVal) : JsonObject := [(.of "signature", signature)]

end Sample

theorem signatureOnly_get (v : JsonVal) : (Sample.signatureOnly v).get "signature" = v := by
  simp [Sample.signatureOnly, get_cons]

theorem signatureOf_get (algorithm : String) (v : JsonVal) :
    (Sample.signatureOf algorithm v).get "algorithm" = .text (.of algorithm) ∧
      (Sample.signatureOf algorithm v).get "value" = v := by
  simp [Sample.signatureOf, get_cons]

theorem signatureOnly_rest (v : JsonVal) :
    (Sample.signatureOnly v).filter (fun e => e.1 ≠ PyText.of "signature") = [] := by
  simp [Sample.signatureOnly]

theorem signatureOnly_checkable {signer : Signer} {value : JsonVal} (h : signer.Compares value) :
    Checkable signer (Sample.signatureOnly (.dict (Sample.signatureOf signer.algorithm value))) := by
  refine fun _ => ⟨Sample.signatureOf signer.algorithm value, signatureOnly_get _, fun _ => ?_⟩
  rw [signatureOnly_rest, (signatureOf_get _ _).2]
  exact ⟨rfl, h⟩

theorem signatureOnly_verify (signer : Signer) (value : JsonVal) : ∃ payload,
    verifyReceived py (Sample.signatureOnly (.dict (Sample.signatureOf signer.algorithm value)))
      signer = signer.verify py payload value.orEmpty := by
  obtain ⟨payload, hpayload⟩ := (@canonicalObject_ok py []).mpr rfl
  refine ⟨payload, ?_⟩
  rw [verifyReceived_object (by rw [signatureOnly_get]; rfl) (signatureOnly_get _),
    signatureOnly_rest, hpayload, (signatureOf_get _ _).1, (signatureOf_get _ _).2,
    if_neg (not_not.mpr (isText_iff.mpr rfl))]
  rfl

theorem signature_check_sample :
    SafelyChecked Stdlib.blank Sample.hmac
        (Sample.signatureOnly (.dict (Sample.signatureOf "hmac-sha256" (.text (.of "6b"))))) ∧
      SafelyChecked Stdlib.blank Sample.publicKey
        (Sample.signatureOnly (.dict (Sample.signatureOf "ed25519" .null))) :=
  ⟨(signature_check_iff Stdlib.blank Sample.hmac (fun _ => rfl) _).mpr
      (signatureOnly_checkable fun _ => ⟨"6b", rfl, by decide⟩),
    (signature_check_iff Stdlib.blank Sample.publicKey nofun _).mpr
      (signatureOnly_checkable nofun)⟩

/-- The signer raises on a signature that is a text, and on a value that is a number. -/
def RaisesOnMalformed (signer : Signer) : Prop :=
  verifyReceived Stdlib.blank (Sample.signatureOnly (.text (.of "6b"))) signer =
      .error .attributeError ∧
    verifyReceived Stdlib.blank (Sample.signatureOnly
      (.dict (Sample.signatureOf signer.algorithm (.int 7)))) signer = .error (.typeError none)

theorem raises_on_malformed (signer : Signer) : RaisesOnMalformed signer := by
  constructor
  · refine verifyReceived_other ?_ fun sig => ?_
    · rw [signatureOnly_get]
      rfl
    · rw [signatureOnly_get]
      exact nofun
  · obtain ⟨payload, hverify⟩ := @signatureOnly_verify Stdlib.blank signer (.int 7)
    rw [hverify]
    cases signer <;> rfl

/-- Neither signer refuses them. -/
theorem malformed_signature_raises :
    RaisesOnMalformed Sample.hmac ∧ RaisesOnMalformed Sample.publicKey :=
  ⟨raises_on_malformed _, raises_on_malformed _⟩

/-! ## Texts that UTF-8 can hold

On a receipt of such texts the check is the one the other modules reason about. -/

theorem truthy_pyVal {v : JsonVal} {w : PyVal} (h : v.pyVal? = some w) : w.truthy = v.truthy := by
  cases v with
  | int i => obtain ⟨-, rfl⟩ := int_pyVal.mp h; rfl
  | text s =>
    obtain ⟨t, ht, rfl⟩ := Option.map_eq_some_iff.mp h
    rw [string_eq.mp ht]
    by_cases hempty : t = ""
    · rw [hempty]
      rfl
    · have hlist : t.toList ≠ [] := fun hnil => hempty (String.toList_eq_nil_iff.mp hnil)
      have hmapped : (PyText.of t).isEmpty = false := by simp [PyText.of, hlist]
      rw [PyVal.truthy, JsonVal.truthy, hmapped, bne_iff_ne.mpr hempty]
      rfl
  | list xs =>
    obtain ⟨ys, hys, rfl⟩ := Option.map_eq_some_iff.mp h
    cases xs with
    | nil => cases hys; rfl
    | cons x xs =>
      simp only [pyList?, Option.bind_eq_bind, Option.bind_eq_some_iff, Option.some.injEq] at hys
      obtain ⟨y, -, rest, -, rfl⟩ := hys
      rfl
  | dict d =>
    obtain ⟨e, he, rfl⟩ := Option.map_eq_some_iff.mp h
    cases d with
    | nil => cases he; rfl
    | cons p d =>
      simp only [pyEntries?, Option.bind_eq_bind, Option.bind_eq_some_iff, Option.some.injEq] at he
      obtain ⟨k, -, x, -, rest, -, rfl⟩ := he
      rfl
  | _ => cases h; rfl

theorem isText_pyVal {v : JsonVal} {w : PyVal} (h : v.pyVal? = some w) (s : String) :
    v.isText s = w.eq (.str s) := by
  rw [Bool.eq_iff_iff, isText_iff, PyVal.eq_str]
  constructor
  · rintro rfl
    cases (string_of s ▸ h : (some s).map PyVal.str = some w)
    rfl
  · rintro rfl
    cases v with
    | int i => obtain ⟨-, hs⟩ := int_pyVal.mp h; cases hs
    | text t =>
      obtain ⟨u, hu, hs⟩ := Option.map_eq_some_iff.mp h
      rw [string_eq.mp hu, PyAtom.str.inj (PyVal.atom.inj hs)]
    | list xs => obtain ⟨ys, -, hs⟩ := Option.map_eq_some_iff.mp h; cases hs
    | dict d => obtain ⟨e, -, hs⟩ := Option.map_eq_some_iff.mp h; cases hs
    | _ => cases h

theorem asMapping_pyVal {v : JsonVal} {w : PyVal} (h : v.pyVal? = some w) (hv : ∀ d, v ≠ .dict d)
    (e : PyErr) : asMapping w e = .error e := by
  cases v with
  | int i => obtain ⟨-, rfl⟩ := int_pyVal.mp h; rfl
  | dict d => exact absurd rfl (hv d)
  | text s => obtain ⟨t, -, rfl⟩ := Option.map_eq_some_iff.mp h; rfl
  | list xs => obtain ⟨ys, -, rfl⟩ := Option.map_eq_some_iff.mp h; rfl
  | _ => cases h; rfl

theorem get_pyEntries {d : JsonObject} {e : PyDict} (h : pyEntries? d = some e) (k : String) :
    (d.get k).pyVal? = some (getOrNone e k) := by
  induction d generalizing e with
  | nil => cases h; rfl
  | cons p d ih =>
    simp only [pyEntries?, Option.bind_eq_bind, Option.bind_eq_some_iff, Option.some.injEq] at h
    obtain ⟨key, hkey, x, hx, rest, hrest, rfl⟩ := h
    have hp : p = (.of key, p.2) := by rw [← string_eq.mp hkey]
    rw [hp, get_cons, getOrNone, getKey_cons]
    split_ifs
    · exact hx
    · exact ih hrest

theorem rest_pyEntries {d : JsonObject} {e : PyDict} (h : pyEntries? d = some e) :
    pyEntries? (d.filter fun p => p.1 ≠ PyText.of "signature") = some (withoutSignature e) := by
  induction d generalizing e with
  | nil => cases h; rfl
  | cons p d ih =>
    simp only [pyEntries?, Option.bind_eq_bind, Option.bind_eq_some_iff, Option.some.injEq] at h
    obtain ⟨key, hkey, x, hx, rest, hrest, rfl⟩ := h
    have hp : p.1 = .of key := string_eq.mp hkey
    by_cases hk : key = "signature"
    · have heq : (PyAtom.str key).eq (.str "signature") = true := PyAtom.eq_str.mpr (by rw [hk])
      rw [List.filter_cons_of_neg (by simp [hp, hk]), withoutSignature,
        List.filter_cons_of_neg (by simp [heq])]
      exact ih hrest
    · have hne : (PyAtom.str key).eq (.str "signature") = false := by
        rw [← Bool.not_eq_true, PyAtom.eq_str]
        exact fun heq => hk (PyAtom.str.inj heq)
      rw [List.filter_cons_of_pos (by simp [hp, of_inj, hk]), withoutSignature,
        List.filter_cons_of_pos (by simp [hne])]
      simp only [pyEntries?, hkey, hx, ih hrest]
      rfl

theorem orEmpty_pyVal {v : JsonVal} {w : PyVal} (h : v.pyVal? = some w) :
    v.orEmpty.pyVal? = some (w.orElse (.str "")) := by
  rw [JsonVal.orEmpty, PyVal.orElse, truthy_pyVal h]
  split_ifs
  · exact h
  · rfl

theorem hmac_verify_pyVal {secret payload : Bytes} {v : JsonVal} {w : PyVal}
    (h : v.pyVal? = some w) : (Signer.hmacSha256 secret).verify py payload v =
      (hmacSha256Signer py secret).resigning.verify payload w := by
  cases v with
  | int i => obtain ⟨-, rfl⟩ := int_pyVal.mp h; rfl
  | text s =>
    obtain ⟨t, ht, rfl⟩ := Option.map_eq_some_iff.mp h
    rw [Signer.verify, ht]
    rfl
  | list xs => obtain ⟨ys, -, rfl⟩ := Option.map_eq_some_iff.mp h; rfl
  | dict d => obtain ⟨e, -, rfl⟩ := Option.map_eq_some_iff.mp h; rfl
  | _ => cases h; rfl

theorem verifyReceived_pyEntries {receipt : JsonObject} {d : PyDict}
    (h : pyEntries? receipt = some d) (secret : Bytes) :
    verifyReceived py receipt (.hmacSha256 secret) =
      verifyReceiptSignature py d (hmacSha256Signer py secret).resigning := by
  have hsig := get_pyEntries h "signature"
  unfold verifyReceiptSignature
  rw [truthy_pyVal hsig]
  by_cases htruthy : (receipt.get "signature").truthy = true
  · rw [if_neg (not_not.mpr htruthy)]
    by_cases hobject : ∃ sig, receipt.get "signature" = .dict sig
    · obtain ⟨sig, hget⟩ := hobject
      rw [hget] at hsig
      obtain ⟨e, he, hdict⟩ := Option.map_eq_some_iff.mp hsig
      have halg := isText_pyVal (get_pyEntries he "algorithm") "hmac-sha256"
      have hvalue := orEmpty_pyVal (get_pyEntries he "value")
      rw [verifyReceived_object htruthy hget, ← hdict]
      simp only [canonicalObject, rest_pyEntries h, hmac_verify_pyVal hvalue]
      change (if ¬ (JsonObject.get sig "algorithm").isText "hmac-sha256" then _ else _) = _
      rw [halg]
      rfl
    · rw [not_exists] at hobject
      rw [verifyReceived_other htruthy hobject, asMapping_pyVal hsig hobject]
      rfl
  · rw [verifyReceived_unsigned htruthy, if_pos htruthy]

end

end Provenex
