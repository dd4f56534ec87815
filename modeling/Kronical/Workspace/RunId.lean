import Kronical.Lib.Base64

/-!
# Run ids

A run id is the base 64 text of a UUID. A text is decoded in several alphabets, with and without padding,
and always encoded in the same way again (`parseRunId_encodeUuid`).
-/

namespace Kronical

def runIdLenBytes : Nat := 16

/-- `uuid::Bytes`. -/
abbrev Uuid := { bytes : List (BitVec 8) // bytes.length = runIdLenBytes }

def alphabetStandard : List Char :=
  "ABCDEFGHIJKLMNOPQRSTUVWXYZabcdefghijklmnopqrstuvwxyz0123456789+/".toList

def alphabetUrlSafe : List Char :=
  "ABCDEFGHIJKLMNOPQRSTUVWXYZabcdefghijklmnopqrstuvwxyz0123456789-_".toList

def runIdAlphabetLegacy : List Char :=
  "ABCDEFGHIJKLMNOPQRSTUVWXYZabcdefghijklmnopqrstuvwxyz0123456789._".toList

/-- `STANDARD` of the base 64 library. -/
def standard : Base64 where
  alphabet := alphabetStandard
  encodePadding := true
  decodePadding := true
  length_alphabet := by decide
  nodup_alphabet := by decide
  padding_not_mem := by decide

/-- `URL_SAFE` of the base 64 library. -/
def urlSafe : Base64 where
  alphabet := alphabetUrlSafe
  encodePadding := true
  decodePadding := true
  length_alphabet := by decide
  nodup_alphabet := by decide
  padding_not_mem := by decide

def standardNoPad : Base64 := { standard with encodePadding := false, decodePadding := false }

def urlSafeNoPad : Base64 := { urlSafe with encodePadding := false, decodePadding := false }

/-- Only the padding of what it encodes is configured: it decodes with padding. -/
def runIdEngine : Base64 := { standard with encodePadding := false }

def runIdLegacyEnginePadded : Base64 where
  alphabet := runIdAlphabetLegacy
  encodePadding := true
  decodePadding := true
  length_alphabet := by decide
  nodup_alphabet := by decide
  padding_not_mem := by decide

def runIdLegacyEngine : Base64 := { runIdLegacyEnginePadded with encodePadding := false }

/-- The input filled up to a multiple of four bytes. -/
def padded (input : String) : String :=
  let rem := input.utf8ByteSize % 4
  if rem ≠ 0 then input ++ String.ofList (List.replicate (4 - rem) '=') else input

def decodeRunId (input : String) : Option (List (BitVec 8)) :=
  runIdEngine.decode input <|>
  runIdLegacyEngine.decode input <|>
  standardNoPad.decode input <|>
  urlSafeNoPad.decode input <|>
  runIdLegacyEnginePadded.decode input <|>
  standard.decode input <|>
  urlSafe.decode input <|>
  runIdLegacyEnginePadded.decode (padded input) <|>
  standard.decode (padded input) <|>
  urlSafe.decode (padded input)

def encodeUuid (uuid : Uuid) : String := runIdEngine.encode uuid.1

def parseRunId (input : String) : Option String :=
  (decodeRunId input).bind fun decoded =>
    if decoded.length = runIdLenBytes then some (runIdEngine.encode decoded) else none

theorem encodeUuid_of_parseRunId {input runId : String} (h : parseRunId input = some runId) :
    ∃ uuid, runId = encodeUuid uuid := by
  obtain ⟨decoded, _, h⟩ := Option.bind_eq_some_iff.mp h
  split_ifs at h with hlength
  exact ⟨⟨decoded, hlength⟩, (Option.some.inj h).symm⟩

theorem decodeRunId_encodeUuid (uuid : Uuid) : decodeRunId (encodeUuid uuid) = some uuid.1 := by
  have hlength : (Base64.split uuid.1).length % 4 ≠ 0 := by
    rw [Base64.length_split, uuid.2]
    decide
  have hengine : runIdEngine.decode (encodeUuid uuid) = none :=
    runIdEngine.decode_unpadded rfl rfl uuid.1 hlength
  have hlegacy : runIdLegacyEngine.decode (encodeUuid uuid) = none :=
    runIdLegacyEngine.decode_unpadded rfl rfl uuid.1 hlength
  have hstandard : standardNoPad.decode (encodeUuid uuid) = some uuid.1 :=
    standardNoPad.decode_encode rfl rfl uuid.1
  simp [decodeRunId, hengine, hlegacy, hstandard]

theorem parseRunId_encodeUuid (uuid : Uuid) : parseRunId (encodeUuid uuid) = some (encodeUuid uuid) := by
  rw [parseRunId, decodeRunId_encodeUuid, Option.bind_some, if_pos uuid.2]
  rfl

theorem encodeUuid_toList (uuid : Uuid) :
    (encodeUuid uuid).toList = (Base64.split uuid.1).map runIdEngine.symbol := by
  simp [encodeUuid, Base64.encode, runIdEngine]

theorem encodeUuid_ne_nil (uuid : Uuid) : (encodeUuid uuid).toList ≠ [] := by
  have hlength : (Base64.split uuid.1).length = 22 := by
    rw [Base64.length_split, uuid.2]
    rfl
  intro h
  rw [encodeUuid_toList, List.map_eq_nil_iff] at h
  simp [h] at hlength

theorem mem_alphabet_of_mem_encodeUuid {uuid : Uuid} {c : Char} (h : c ∈ (encodeUuid uuid).toList) :
    c ∈ alphabetStandard := by
  rw [encodeUuid_toList] at h
  obtain ⟨value, _, rfl⟩ := List.mem_map.mp h
  exact runIdEngine.symbol_mem value

end Kronical
