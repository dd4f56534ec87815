import Kronical.Workspace.RunId

/-!
# The forms of a run id

The engines that decode a run id use three alphabets, in which no character has two values. So whichever
of them accepts a text makes the same bytes of it, and each way to write the bytes of a UUID is parsed as
its run id (`run_id_canonical`).
-/

namespace Kronical

/-- The value of a symbol in any of the three alphabets. -/
def runIdSymbolValue (c : Char) : BitVec 6 :=
  if c = '-' ∨ c = '.' then 62
  else if c = '_' then 63
  else .ofNat 6 (alphabetStandard.idxOf c)

theorem reads_standard {engine : Base64} (h : engine.alphabet = alphabetStandard) :
    engine.Reads runIdSymbolValue := by
  apply engine.reads_of_zipIdx
  rw [h]
  decide +kernel

theorem reads_urlSafe {engine : Base64} (h : engine.alphabet = alphabetUrlSafe) :
    engine.Reads runIdSymbolValue := by
  apply engine.reads_of_zipIdx
  rw [h]
  decide +kernel

theorem reads_legacy {engine : Base64} (h : engine.alphabet = runIdAlphabetLegacy) :
    engine.Reads runIdSymbolValue := by
  apply engine.reads_of_zipIdx
  rw [h]
  decide +kernel

/-! ### The attempts of `decode_run_id` -/

/-- What the attempts come to, in their order. -/
def decodeAttempts (input : String) : List (Option (List (BitVec 8))) :=
  [runIdEngine.decode input, runIdLegacyEngine.decode input, standardNoPad.decode input,
    urlSafeNoPad.decode input, runIdLegacyEnginePadded.decode input, standard.decode input,
    urlSafe.decode input, runIdLegacyEnginePadded.decode (padded input), standard.decode (padded input),
    urlSafe.decode (padded input)]

theorem decodeRunId_eq (input : String) : decodeRunId input = (decodeAttempts input).findSome? id := by
  simp only [decodeRunId, decodeAttempts, List.findSome?_cons, List.findSome?_nil, id]
  cases runIdEngine.decode input <;> try rfl
  cases runIdLegacyEngine.decode input <;> try rfl
  cases standardNoPad.decode input <;> try rfl
  cases urlSafeNoPad.decode input <;> try rfl
  cases runIdLegacyEnginePadded.decode input <;> try rfl
  cases standard.decode input <;> try rfl
  cases urlSafe.decode input <;> try rfl
  cases runIdLegacyEnginePadded.decode (padded input) <;> try rfl
  cases standard.decode (padded input) <;> try rfl
  cases urlSafe.decode (padded input) <;> rfl

theorem takeWhile_padded (input : String) :
    (padded input).toList.takeWhile (· ≠ '=') = input.toList.takeWhile (· ≠ '=') := by
  unfold padded
  dsimp only
  split_ifs
  · rw [String.toList_append, String.toList_ofList, List.takeWhile_append, List.takeWhile_replicate]
    simp only [ne_eq, not_true_eq_false, decide_false, Bool.false_eq_true, if_false, List.append_nil]
    split_ifs with hall
    · exact ((List.takeWhile_prefix _).eq_of_length hall).symm
    · rfl
  · rfl

theorem join_of_attempt {input : String} {bytes : List (BitVec 8)}
    (h : some bytes ∈ decodeAttempts input) :
    Base64.join ((input.toList.takeWhile (· ≠ '=')).map runIdSymbolValue) = some bytes := by
  simp only [decodeAttempts, List.mem_cons, List.not_mem_nil, or_false, eq_comm (a := some bytes)] at h
  rcases h with h | h | h | h | h | h | h | h | h | h
  · exact (reads_standard rfl).join_of_decode h
  · exact (reads_legacy rfl).join_of_decode h
  · exact (reads_standard rfl).join_of_decode h
  · exact (reads_urlSafe rfl).join_of_decode h
  · exact (reads_legacy rfl).join_of_decode h
  · exact (reads_standard rfl).join_of_decode h
  · exact (reads_urlSafe rfl).join_of_decode h
  · rw [← takeWhile_padded]
    exact (reads_legacy rfl).join_of_decode h
  · rw [← takeWhile_padded]
    exact (reads_standard rfl).join_of_decode h
  · rw [← takeWhile_padded]
    exact (reads_urlSafe rfl).join_of_decode h

theorem decodeRunId_of_attempt {input : String} {bytes : List (BitVec 8)}
    (h : some bytes ∈ decodeAttempts input) : decodeRunId input = some bytes := by
  rw [decodeRunId_eq]
  obtain ⟨first, hfirst⟩ := Option.isSome_iff_exists.mp
    (List.findSome?_isSome_iff.mpr ⟨some bytes, h, rfl⟩ : ((decodeAttempts input).findSome? id).isSome)
  obtain ⟨attempt, hattempt, rfl⟩ := List.exists_of_findSome?_eq_some hfirst
  rw [hfirst, ← join_of_attempt h, ← join_of_attempt hattempt]

/-! ### Ways to write a UUID -/

/-- The base 64 texts of bytes: in each alphabet with and without padding. -/
def runIdForms : List Base64 :=
  [standard, standardNoPad, urlSafe, urlSafeNoPad, runIdLegacyEnginePadded, runIdLegacyEngine]

theorem utf8ByteSize_legacy (bytes : List (BitVec 8)) :
    (runIdLegacyEngine.encode bytes).utf8ByteSize = (runIdLegacyEngine.encode bytes).length := by
  have hall : runIdAlphabetLegacy.all (·.utf8Size == 1) = true := by decide
  have hone : ∀ c ∈ runIdAlphabetLegacy, c.utf8Size = 1 := fun c hc =>
    beq_iff_eq.mp (List.all_eq_true.mp hall c hc)
  have hsize : ∀ values : List (BitVec 6),
      (String.ofList (values.map runIdLegacyEngine.symbol)).utf8ByteSize = values.length := by
    intro values
    induction values with
    | nil => rfl
    | cons value values ih =>
      rw [List.map_cons, String.ofList_cons, String.utf8ByteSize_append, ih,
        String.utf8ByteSize_singleton, hone _ (runIdLegacyEngine.symbol_mem value), List.length_cons,
        Nat.add_comm]
  have hencode : runIdLegacyEngine.encode bytes =
      String.ofList ((Base64.split bytes).map runIdLegacyEngine.symbol) := by
    simp [Base64.encode, runIdLegacyEngine]
  rw [hencode, hsize, String.length_ofList, List.length_map]

theorem padded_legacy (bytes : List (BitVec 8)) :
    padded (runIdLegacyEngine.encode bytes) = runIdLegacyEnginePadded.encode bytes := by
  have hform := runIdLegacyEnginePadded.encode_append_paddingOf (rfl : runIdLegacyEngine.alphabet = _)
    rfl rfl bytes
  rw [← hform, Base64.paddingOf, padded, utf8ByteSize_legacy]
  split_ifs with hrem
  · rw [Nat.mod_eq_of_lt (a := 4 - _) (by omega)]
  · rw [not_not] at hrem
    rw [hrem, ← String.toList_inj]
    simp

theorem mem_decodeAttempts_form {engine : Base64} (hengine : engine ∈ runIdForms)
    (bytes : List (BitVec 8)) : some bytes ∈ decodeAttempts (engine.encode bytes) := by
  have hstandard : runIdEngine.decode (standard.encode bytes) = some bytes :=
    runIdEngine.decode_encode (rfl : standard.alphabet = _) rfl bytes
  have hstandardNoPad : standardNoPad.decode (standardNoPad.encode bytes) = some bytes :=
    standardNoPad.decode_encode rfl rfl bytes
  have hurlSafe : urlSafe.decode (urlSafe.encode bytes) = some bytes :=
    urlSafe.decode_encode rfl rfl bytes
  have hurlSafeNoPad : urlSafeNoPad.decode (urlSafeNoPad.encode bytes) = some bytes :=
    urlSafeNoPad.decode_encode rfl rfl bytes
  have hlegacy : runIdLegacyEnginePadded.decode (runIdLegacyEnginePadded.encode bytes) = some bytes :=
    runIdLegacyEnginePadded.decode_encode rfl rfl bytes
  simp only [runIdForms, List.mem_cons, List.not_mem_nil, or_false] at hengine
  unfold decodeAttempts
  rcases hengine with rfl | rfl | rfl | rfl | rfl | rfl
  · simp [hstandard]
  · simp [hstandardNoPad]
  · simp [hurlSafe]
  · simp [hurlSafeNoPad]
  · simp [hlegacy]
  · simp [padded_legacy, hlegacy]

theorem parseRunId_form {engine : Base64} (hengine : engine ∈ runIdForms) (uuid : Uuid) :
    parseRunId (engine.encode uuid.1) = some (encodeUuid uuid) := by
  rw [parseRunId, decodeRunId_of_attempt (mem_decodeAttempts_form hengine uuid.1), Option.bind_some,
    if_pos uuid.2]
  rfl

/-- Every form of a UUID is parsed as its run id, what a text is parsed as is parsed as itself, and no two
attempts make different bytes of a text. -/
theorem run_id_canonical :
    (∀ uuid : Uuid, ∀ engine ∈ runIdForms, parseRunId (engine.encode uuid.1) = some (encodeUuid uuid)) ∧
    (∀ input runId, parseRunId input = some runId → parseRunId runId = some runId) ∧
    ∀ input bytes bytes', some bytes ∈ decodeAttempts input → some bytes' ∈ decodeAttempts input →
      bytes = bytes' := by
  refine ⟨fun uuid engine hengine => parseRunId_form hengine uuid, ?_, ?_⟩
  · intro input runId h
    obtain ⟨uuid, rfl⟩ := encodeUuid_of_parseRunId h
    exact parseRunId_encodeUuid uuid
  · intro input bytes bytes' h h'
    exact Option.some.inj ((join_of_attempt h).symm.trans (join_of_attempt h'))

/-- Its symbols are written in three ways. -/
def maxUuid : Uuid := ⟨List.replicate 16 255, rfl⟩

theorem run_id_canonical_max :
    runIdLegacyEngine.encode maxUuid.1 = "_____________________w" ∧
    parseRunId (runIdLegacyEngine.encode maxUuid.1) = some (encodeUuid maxUuid) ∧
    parseRunId (encodeUuid maxUuid) = some (encodeUuid maxUuid) ∧
    maxUuid.1 = List.replicate 16 255 := by
  have hform : parseRunId (runIdLegacyEngine.encode maxUuid.1) = some (encodeUuid maxUuid) :=
    run_id_canonical.1 maxUuid runIdLegacyEngine (by simp [runIdForms])
  have hattempt : some maxUuid.1 ∈ decodeAttempts (runIdLegacyEngine.encode maxUuid.1) :=
    mem_decodeAttempts_form (by simp [runIdForms]) maxUuid.1
  exact ⟨by decide +kernel, hform, run_id_canonical.2.1 _ _ hform,
    run_id_canonical.2.2 _ _ _ hattempt hattempt⟩

end Kronical
