import Provenex.Proofs.Binding
import Provenex.Proofs.Ingest
import Provenex.Proofs.Payload
import Provenex.Proofs.StoredWindows

/-! The version of a document is the hash of its chunks, joined with newlines and
normalized. A newline is whitespace where there was none, so what the chunking
decides is where words end. -/

namespace Provenex

open ProvenexIngestor Effect
open Guard (buildAll)

section

variable (py : Stdlib)

/-- The words of a join with newlines are the words of its parts. -/
theorem splitWords_joinWith (texts : List String) :
    splitWords (joinWith "\n" texts).toList = texts.flatMap fun text => splitWords text.toList := by
  induction texts with
  | nil => rfl
  | cons text texts ih =>
    cases texts with
    | nil => simp [joinWith]
    | cons next texts =>
      have hnewline : isSpace '\n' = true := by decide
      rw [joinWith, String.toList_append, String.toList_append, List.append_assoc,
        show "\n".toList = ['\n'] from rfl, List.singleton_append, splitWords_append _ hnewline, ih,
        List.flatMap_cons]
      · rfl
      · simp

/-- What the version of an ingested document is. -/
theorem ingest_documentVersion {secret : Bytes} {clock : ℕ → String} {r : ProvenexIngestor}
    {documents : List RetrievedItem} {d : String} {authorized : Bool} {s s' : Ingesting}
    {result : IngestionResult} (h : r.ingest py secret clock documents d authorized s = .ok result s') :
    ∃ texts, buildAll documents documentText = .ok texts ∧ result.documentVersion =
      sha256Fingerprint py
        (normalize py (r.fingerprinter.getD .default).normalization (joinWith "\n" texts)).text := by
  obtain ⟨texts, full, -, htexts, hfull, hversion, -⟩ := ingest_run h
  exact ⟨texts, htexts, hversion.trans (fingerprint_ok py hfull).1⟩

/-- Two chunkings have one version exactly where their joins have the same words, or SHA-256
collides. Where the steps before leave the joins alone, that is that the chunks have them. -/
theorem version_stable_iff (secret : Bytes) (clock clock' : ℕ → String) (r : ProvenexIngestor)
    (documents documents' : List RetrievedItem) (d : String) (authorized authorized' : Bool)
    (s s' t t' : Ingesting) (texts texts' : List String) (result result' : IngestionResult)
    (htexts : buildAll documents documentText = .ok texts)
    (htexts' : buildAll documents' documentText = .ok texts')
    (h : r.ingest py secret clock documents d authorized s = .ok result s')
    (h' : r.ingest py secret clock' documents' d authorized' t = .ok result' t') :
    let options := (r.fingerprinter.getD .default).normalization
    (result.documentVersion = result'.documentVersion ↔
      SameWords py options (joinWith "\n" texts) (joinWith "\n" texts') ∨
        Collide py (normalize py options (joinWith "\n" texts)).text
          (normalize py options (joinWith "\n" texts')).text) ∧
    (Plain py options (joinWith "\n" texts) → Plain py options (joinWith "\n" texts') →
      (SameWords py options (joinWith "\n" texts) (joinWith "\n" texts') ↔
        if options.whitespaceCollapse then
          (texts.flatMap fun text => splitWords text.toList) =
            texts'.flatMap fun text => splitWords text.toList
        else joinWith "\n" texts = joinWith "\n" texts')) := by
  obtain ⟨_, hu, hversion⟩ := ingest_documentVersion py h
  obtain ⟨_, hu', hversion'⟩ := ingest_documentVersion py h'
  obtain rfl := Except.ok.inj (htexts.symm.trans hu)
  obtain rfl := Except.ok.inj (htexts'.symm.trans hu')
  refine ⟨?_, fun hplain hplain' => ?_⟩
  · rw [hversion, hversion', sha256Fingerprint_eq_iff, normalize_eq_iff]
  · rw [SameWords, hplain.spelled, hplain'.spelled, splitWords_joinWith, splitWords_joinWith]

end

namespace Sample

/-- The SHA-256 of the texts below. -/
def chunkDigests : Stdlib := { Stdlib.blank with
  sha256 := spread [
    (encodeUtf8 "a", [202, 151, 129, 18, 202, 27, 189, 202, 250, 194, 49, 179, 154, 35, 220, 77, 167,
      134, 239, 248, 20, 124, 78, 114, 185, 128, 119, 133, 175, 238, 72, 187]),
    (encodeUtf8 "b", [62, 35, 232, 22, 0, 57, 89, 74, 51, 137, 79, 101, 100, 225, 177, 52, 139, 189,
      122, 0, 136, 212, 44, 74, 203, 115, 238, 174, 213, 156, 0, 157]),
    (encodeUtf8 "ab", [251, 142, 32, 252, 46, 76, 63, 36, 140, 96, 195, 155, 214, 82, 243, 193, 52,
      114, 152, 187, 151, 123, 139, 77, 89, 3, 184, 80, 85, 98, 6, 3]),
    (encodeUtf8 "a b", [200, 104, 122, 8, 170, 93, 110, 210, 4, 67, 40, 250, 106, 105, 122, 184, 233,
      109, 195, 66, 145, 232, 194, 3, 74, 232, 195, 142, 111, 204, 109, 101])] }

def emptyTables : Ingesting := ⟨.init, 0⟩

end Sample

/-- A cut next to the space. -/
theorem version_stable_sample :
    ∃ result s result' t,
      (ProvenexIngestor.mk none).ingest Sample.chunkDigests [107] (fun _ => "") [.text "a b"] "doc" true
        Sample.emptyTables = .ok result s ∧
      (ProvenexIngestor.mk none).ingest Sample.chunkDigests [107] (fun _ => "") [.text "a ", .text "b"] "doc"
        true Sample.emptyTables = .ok result' t ∧
      result.documentVersion = result'.documentVersion := by
  refine ⟨_, _, _, _, rfl, rfl, ?_⟩
  refine (version_stable_iff Sample.chunkDigests [107] (fun _ => "") (fun _ => "") ⟨none⟩ [.text "a b"]
    [.text "a ", .text "b"] "doc" true true Sample.emptyTables _ Sample.emptyTables _ ["a b"] ["a ", "b"] _ _
    rfl rfl rfl rfl).1.mpr (Or.inl ((normalize_eq_iff Sample.chunkDigests).mp ?_))
  decide

/-- A cut inside the one word. -/
theorem version_not_stable :
    joinWith "" ["ab"] = joinWith "" ["a", "b"] ∧ ∃ result s result' t,
      (ProvenexIngestor.mk none).ingest Sample.chunkDigests [107] (fun _ => "") [.text "ab"] "doc" true
        Sample.emptyTables = .ok result s ∧
      (ProvenexIngestor.mk none).ingest Sample.chunkDigests [107] (fun _ => "") [.text "a", .text "b"] "doc"
        true Sample.emptyTables = .ok result' t ∧
      result.documentVersion ≠ result'.documentVersion := by
  refine ⟨by decide, _, _, _, _, rfl, rfl, fun heq => ?_⟩
  have hsha := sha256Hex_inj heq
  revert hsha
  decide

end Provenex
