import Kronical.Pipeline.Trace
import Kronical.Storage.Backend
import Kronical.Storage.Rows

/-!
# Stored envelopes

A stored envelope is read back from labels: the source and the kind by the tables that wrote them, the
payload by the kind it comes with. For what the daemon produces, which is all that the envelope stage sends to
storage (`EnvelopeStage.sent_produced`), the kind decides how the payload was written (`Paired`), so every payload is parsed the way it was written, except for one: the reason of a
lock was written as a JSON text and is taken over without being parsed. So exactly the lock marks come
back changed (`envelope_roundtrip_iff`).
-/

namespace Kronical

/-! ### Reading labels -/

/-- `str::starts_with`. -/
def strStartsWith (s start : String) : Bool := start.toList.isPrefixOf s.toList

/-- `str::contains`. -/
def strContains (s part : String) : Bool := s.toList.tails.any part.toList.isPrefixOf

/-- `&s[n..]`. -/
def strFrom (s : String) (n : Nat) : String := String.ofList (s.toList.drop n)

def parseStateLabel : String → ActivityState
  | "Active" => .active
  | "Passive" => .passive
  | "Inactive" => .inactive
  | "Locked" => .locked
  | _ => .inactive

def parseSource : String → EventSource
  | "hook" => .hook
  | "derived" => .derived
  | "polling" => .polling
  | _ => .hook

def parseSignalKind : String → SignalKind
  | "keyboard" => .keyboardInput
  | "mouse" => .mouseInput
  | "app_changed" => .appChanged
  | "window_changed" => .windowChanged
  | "activity_pulse" => .activityPulse
  | "lock_start" => .lockStart
  | "lock_end" => .lockEnd
  | _ => .appChanged

def parseHintKind : String → HintKind
  | "focus_changed" => .focusChanged
  | "state_changed" => .stateChanged
  | "title_changed" => .titleChanged
  | "position" => .positionChanged
  | "size" => .sizeChanged
  | _ => .titleChanged

def parseKind (kindS : String) : EventKind :=
  if strStartsWith kindS "signal:" then .signal (parseSignalKind (strFrom kindS 7))
  else if strStartsWith kindS "hint:" then .hint (parseHintKind (strFrom kindS 5))
  else .signal .appChanged

/-- A payload, by the kind and by its label. -/
def parsePayload (serde : PayloadSerde) (kindS : String) : EventKind → Option String → EventPayload
  | .signal .keyboardInput, some js => ((serde.keyboard.fromStr js).map .keyboard).getD .none
  | .signal .mouseInput, some js => ((serde.mouse.fromStr js).map .mouse).getD .none
  | _, some js =>
    if strContains kindS "lock" then
      .lock js
    else if strContains kindS "title" then
      match serde.title.fromStr js with
      | some (windowId, title) => .title windowId title
      | none => .none
    else if strContains kindS "state_changed" then
      match serde.states.fromStr js with
      | some (fromS, toS) => .state (parseStateLabel fromS) (parseStateLabel toS)
      | none => .none
    else
      ((serde.focus.fromStr js).map .focus).getD .none
  | _, none => .none

theorem parseKind_kindLabel (kind : EventKind) : parseKind (kindLabel kind) = kind := by
  rcases kind with kind | kind
  · cases kind <;> decide
  · cases kind <;> decide

theorem parseSource_sourceLabel (source : EventSource) :
    parseSource (sourceLabel source) = source := by
  cases source <;> decide

theorem parseStateLabel_debug (state : ActivityState) : parseStateLabel state.debug = state := by
  cases state <;> decide

theorem asU64_asI64 {n : Nat} (h : n < 2 ^ 64) : asU64 (asI64 n) = n := by
  have hmod : Int.bmod n (2 ^ 64) % ((2 ^ 64 : Nat) : Int) = (n : Int) % ((2 ^ 64 : Nat) : Int) :=
    Int.bmod_emod
  show (Int.bmod n (2 ^ 64) % ((2 ^ 64 : Nat) : Int)).toNat = n
  rw [hmod]
  omega

/-! ### Rows of the two backends -/

/-- The row with its instant and its flags in another form. -/
def EnvelopeRow.map {Time Flag Time' Flag' : Type} (row : EnvelopeRow Time Flag)
    (time : Time → Time') (flag : Flag → Flag') : EnvelopeRow Time' Flag' :=
  { eventId := row.eventId, timestamp := time row.timestamp, source := row.source, kind := row.kind,
    payload := row.payload, derived := flag row.derived, polling := flag row.polling,
    sensitive := flag row.sensitive }

/-- The envelope of a row whose instant and flags were read. -/
def EnvelopeRow.envelope (serde : PayloadSerde) (row : EnvelopeRow DateTime Bool) : EventEnvelope :=
  { id := asU64 (row.eventId.getD 0), timestamp := row.timestamp, source := parseSource row.source,
    kind := parseKind row.kind, payload := parsePayload serde row.kind (parseKind row.kind) row.payload,
    derived := row.derived, polling := row.polling, sensitive := row.sensitive }

namespace Backend

section

variable (serde : PayloadSerde) (toRfc3339 : DateTime → String)
  (parseRfc3339 : String → Option DateTime)

/-- SQLite keeps instants as texts and flags as integers. -/
def sqliteRow (row : EnvelopeRow DateTime Bool) : EnvelopeRow String Int :=
  row.map toRfc3339 fun flag => if flag then 1 else 0

def sqliteEnvelope (row : EnvelopeRow String Int) : Option EventEnvelope :=
  (parseRfc3339 row.timestamp).map fun timestamp =>
    (row.map (fun _ => timestamp) fun flag => decide (flag ≠ 0)).envelope serde

/-- The rows from `since` to `until`, the oldest first; an instant that cannot be read is an error. -/
def fetchEnvelopesBetween (self : Backend) (rows : List (EnvelopeRow DateTime Bool))
    (since until_ : DateTime) : Option (List EventEnvelope) :=
  match self with
  | .duckdb =>
    some (((rows.filter fun row => since ≤ row.timestamp && row.timestamp ≤ until_).insertionSort
      fun r s => r.timestamp ≤ s.timestamp).map (·.envelope serde))
  | .sqlite =>
    ((((rows.map (sqliteRow toRfc3339)).filter fun row =>
      toRfc3339 since ≤ row.timestamp && row.timestamp ≤ toRfc3339 until_).insertionSort
      fun r s => r.timestamp ≤ s.timestamp).mapM (sqliteEnvelope serde parseRfc3339))

variable {serde toRfc3339 parseRfc3339}

theorem sqliteEnvelope_sqliteRow {row : EnvelopeRow DateTime Bool}
    (htime : parseRfc3339 (toRfc3339 row.timestamp) = some row.timestamp) :
    sqliteEnvelope serde parseRfc3339 (sqliteRow toRfc3339 row) = some (row.envelope serde) := by
  have hflag : ∀ flag : Bool, decide ((if flag then (1 : Int) else 0) ≠ 0) = flag := by decide
  unfold sqliteEnvelope sqliteRow
  rw [EnvelopeRow.map, htime]
  simp only [Option.map_some, EnvelopeRow.map, hflag]

theorem fetchEnvelopesBetween_singleton {self : Backend} {row : EnvelopeRow DateTime Bool}
    (htime : self = .sqlite → parseRfc3339 (toRfc3339 row.timestamp) = some row.timestamp)
    {since until_ : DateTime} (hsince : self.le toRfc3339 since row.timestamp = true)
    (huntil : self.le toRfc3339 row.timestamp until_ = true) :
    self.fetchEnvelopesBetween serde toRfc3339 parseRfc3339 [row] since until_ =
      some [row.envelope serde] := by
  cases self with
  | duckdb =>
    simp only [le, decide_eq_true_eq] at hsince huntil
    simp [fetchEnvelopesBetween, hsince, huntil]
  | sqlite =>
    simp only [le, decide_eq_true_eq] at hsince huntil
    have hmatch : ([row].map (sqliteRow toRfc3339)).filter (fun row =>
        toRfc3339 since ≤ row.timestamp && row.timestamp ≤ toRfc3339 until_) =
          [sqliteRow toRfc3339 row] := by
      simp [sqliteRow, EnvelopeRow.map, hsince, huntil]
    unfold fetchEnvelopesBetween
    dsimp only
    rw [hmatch]
    simp [sqliteEnvelope_sqliteRow (htime rfl)]

end

end Backend

/-! ### What the daemon stores -/

/-- The envelopes that the adapter, the lock deriver and the state deriver put out for raw events and
ticks. A raw event's id is a `u64`. -/
inductive Produced : EventEnvelope → Prop
  | adapted (adapter : EventAdapter) (e : RawEvent) (env : EventEnvelope) :
      e.eventId < 2 ^ 64 → env ∈ (EventAdapter.adaptEvent adapter e).2 → Produced env
  | derived (deriver : LockDeriver) (e env : EventEnvelope) :
      Produced e → env ∈ (LockDeriver.deriveEvent deriver e).2 → Produced env
  | answered (deriver : StateDeriver) (e env : EventEnvelope) :
      Produced e → env ∈ (deriver.onSignal e).2 → Produced env
  | ticked (deriver : StateDeriver) (now : DateTime) (env : EventEnvelope) :
      env ∈ (deriver.onTick now).2 → Produced env

/-- The kinds and the payloads that come together. -/
inductive Paired : EventKind → EventPayload → Prop
  | keyboard (data) : Paired (.signal .keyboardInput) (.keyboard data)
  | mouse (data) : Paired (.signal .mouseInput) (.mouse data)
  | app (info) : Paired (.signal .appChanged) (.focus info)
  | window (info) : Paired (.signal .windowChanged) (.focus info)
  | pulse : Paired (.signal .activityPulse) .none
  | lockStart (reason) : strStartsWith reason "\"" = false → Paired (.signal .lockStart) (.lock reason)
  | lockEnd (reason) : strStartsWith reason "\"" = false → Paired (.signal .lockEnd) (.lock reason)
  | focus (info) : Paired (.hint .focusChanged) (.focus info)
  | title (windowId title) : Paired (.hint .titleChanged) (.title windowId title)
  | state (fromState toState) : Paired (.hint .stateChanged) (.state fromState toState)

theorem adaptEvent_id (adapter : EventAdapter) (e : RawEvent) :
    ∀ env ∈ (EventAdapter.adaptEvent adapter e).2, env.id = e.eventId ∧ Paired env.kind env.payload := by
  have hswitch : ∀ kind t id focus, (kind = .appChanged ∨ kind = .windowChanged) →
      ∀ env ∈ EventAdapter.focusSwitch kind id t focus, env.id = id ∧ Paired env.kind env.payload := by
    intro kind t id focus hkind env henv
    rcases List.mem_append.mp henv with hpair | hpulse
    · rcases List.mem_cons.mp hpair with rfl | hrest
      · rcases hkind with rfl | rfl
        · exact ⟨rfl, .app focus⟩
        · exact ⟨rfl, .window focus⟩
      · rw [List.mem_singleton.mp hrest]
        exact ⟨rfl, .focus focus⟩
    · split_ifs at hpulse
      · cases hpulse
      · rw [List.mem_singleton.mp hpulse]
        exact ⟨rfl, .pulse⟩
  intro env henv
  cases e with
  | keyboardInput t id data =>
    rw [List.mem_singleton.mp henv]
    exact ⟨rfl, .keyboard data⟩
  | mouseInput t id data =>
    rw [List.mem_singleton.mp henv]
    exact ⟨rfl, .mouse data⟩
  | windowFocusChange t id focus =>
    change env ∈ adapter.adaptFocus t id focus at henv
    rcases adaptFocus_cases adapter t id focus with ⟨kind, hkind, hout⟩ | ⟨was, -, -, hout | ⟨-, hout⟩⟩
    · rw [hout] at henv
      exact hswitch kind t id focus (hkind.imp_right And.left) env henv
    · rw [hout] at henv
      rw [List.mem_singleton.mp henv]
      exact ⟨rfl, .title focus.windowId focus.windowTitle⟩
    · rw [hout] at henv
      cases henv

theorem deriveEvent_cases (deriver : LockDeriver) (e : EventEnvelope) :
    ∀ env ∈ (LockDeriver.deriveEvent deriver e).2,
      env = e ∨ env = LockDeriver.lockStart e ∨ env = LockDeriver.lockEnd e := by
  unfold LockDeriver.deriveEvent
  split
  all_goals try split_ifs
  all_goals simp

theorem Produced.paired {env : EventEnvelope} (h : Produced env) :
    env.id < 2 ^ 64 ∧ Paired env.kind env.payload := by
  induction h with
  | adapted adapter e env hid henv =>
    obtain ⟨heq, hpaired⟩ := adaptEvent_id adapter e env henv
    exact ⟨heq ▸ hid, hpaired⟩
  | derived deriver e env he henv ih =>
    rcases deriveEvent_cases deriver e env henv with rfl | rfl | rfl
    · exact ih
    · exact ⟨ih.1, .lockStart "loginwindow" (by decide)⟩
    · exact ⟨ih.1, .lockEnd "unlock" (by decide)⟩
  | answered deriver e env he henv ih =>
    obtain ⟨tr, -, rfl⟩ := Option.map_eq_some_iff.mp henv
    exact ⟨ih.1, .state tr.fromState tr.toState⟩
  | ticked deriver now env henv =>
    obtain ⟨tr, -, rfl⟩ := Option.map_eq_some_iff.mp henv
    refine ⟨?_, .state tr.fromState tr.toState⟩
    show asU64 (timestampMillis now) < 2 ^ 64
    unfold asU64
    omega

theorem derive_produced (adapter : EventAdapter) (deriver : LockDeriver) {raw : List RawEvent}
    (hraw : ∀ e ∈ raw, e.eventId < 2 ^ 64) :
    ∀ env ∈ (deriver.derive (adapter.adaptBatch raw).2).2, Produced env := by
  intro env henv
  obtain ⟨at_, adapted, hadapted, hderived⟩ := Transducer.mem_run henv
  obtain ⟨before, e, he, hmem⟩ := Transducer.mem_run hadapted
  exact .derived at_ adapted env (.adapted before e adapted (hraw e he) hmem) hderived

theorem forwarded_injective {env env' : EventEnvelope} (h : forwarded env = forwarded env') :
    env = env' := by
  unfold forwarded at h
  split_ifs at h <;> cases h <;> rfl

namespace EnvelopeStage

theorem trace_produced (self : EnvelopeStage) (cmd : Option DeriveCommand)
    (hraw : ∀ batch, cmd = some (.batch batch) → ∀ e ∈ batch.events, e.eventId < 2 ^ 64) :
    ∀ x ∈ (self.trace cmd).2, Produced x.1 := by
  intro x hx
  match cmd, hraw, hx with
  | some (.batch ⟨[], reason⟩), _, hx => cases hx
  | some (.batch ⟨e :: events, reason⟩), hraw, hx =>
    change x ∈ (expand.run _ (self.envelopesOf ⟨e :: events, reason⟩).2).2 at hx
    obtain ⟨deriver, env, henv, hmem⟩ := Transducer.mem_run hx
    have hproduced : Produced env :=
      derive_produced self.adapter self.lockDeriver (hraw _ rfl) env henv
    unfold expand at hmem
    split at hmem
    · rw [List.mem_singleton.mp hmem]
      exact hproduced
    · rcases List.mem_cons.mp hmem with rfl | hmem
      · exact hproduced
      · obtain ⟨hint, hhint, rfl⟩ := List.mem_map.mp hmem
        exact .answered deriver env hint hproduced (Option.mem_toList.mp hhint)
  | some (.tick now), _, hx =>
    obtain ⟨hint, hhint, rfl⟩ := List.mem_map.mp hx
    exact .ticked self.stateDeriver now hint (Option.mem_toList.mp hhint)
  | some .shutdown, _, hx => cases hx
  | none, _, hx => cases hx

/-- Whatever envelope the stage sends to storage or to the hints stage is produced. -/
theorem sent_produced (self : EnvelopeStage) (cmds : List (Option DeriveCommand))
    (hraw : ∀ batch, some (.batch batch) ∈ cmds → ∀ e ∈ batch.events, e.eventId < 2 ^ 64)
    (env : EventEnvelope)
    (henv : forwarded env ∈ (loop.run self cmds).2) : Produced env := by
  obtain ⟨stage, cmd, hcmd, hmem⟩ := Transducer.mem_run henv
  have hsource : ∃ x ∈ (stage.trace cmd).2, x.1 = env := by
    rw [loop, handle_eq] at hmem
    rcases List.mem_append.mp hmem with hcollect | hclosing
    · obtain ⟨update, x, hx, hpacket⟩ := Transducer.mem_run hcollect
      rcases List.mem_cons.mp hpacket with hforwarded | hflush
      · exact ⟨x, hx, (forwarded_injective hforwarded).symm⟩
      · have hdest := flushTransition_dest _ _ hflush
        rcases forwarded_dest env with h | h <;> rw [h] at hdest <;> cases hdest
    · have hdest := closing_dest stage cmd _ hclosing
      rcases forwarded_dest env with h | h <;> rw [h] at hdest <;> simp at hdest
  obtain ⟨x, hx, rfl⟩ := hsource
  refine stage.trace_produced cmd (fun batch hbatch => ?_) x hx
  exact hraw batch (hbatch ▸ hcmd)

end EnvelopeStage

/-! ### Reading them back -/

/-- The same envelope up to its instant. -/
structure EventEnvelope.SameData (back env : EventEnvelope) : Prop where
  id : back.id = env.id
  source : back.source = env.source
  kind : back.kind = env.kind
  payload : back.payload = env.payload
  derived : back.derived = env.derived
  polling : back.polling = env.polling
  sensitive : back.sensitive = env.sensitive

/-- What `serde_json` is used for: it reads a payload it has written, and it puts a string between
quotes. -/
def PayloadSerde.Reads (serde : PayloadSerde) : EventPayload → Prop
  | .keyboard data => serde.keyboard.fromStr (serde.keyboard.toString data) = some data
  | .mouse data => serde.mouse.fromStr (serde.mouse.toString data) = some data
  | .focus info => serde.focus.fromStr (serde.focus.toString info) = some info
  | .lock reason => strStartsWith (serde.reason reason) "\"" = true
  | .title windowId title =>
    serde.title.fromStr (serde.title.toString (windowId, title)) = some (windowId, title)
  | .state fromState toState =>
    serde.states.fromStr (serde.states.toString (fromState.debug, toState.debug)) =
      some (fromState.debug, toState.debug)
  | .none => True

/-- A mark of the lock deriver. -/
def EventKind.isLock (kind : EventKind) : Bool :=
  kind = .signal .lockStart || kind = .signal .lockEnd

theorem parsePayload_iff {serde : PayloadSerde} {kind : EventKind} {payload : EventPayload}
    (hpaired : Paired kind payload) (hserde : serde.Reads payload) :
    parsePayload serde (kindLabel kind) kind (payloadJson serde payload) = payload ↔
      kind.isLock = false := by
  have hlock : ∀ reason, strStartsWith reason "\"" = false →
      strStartsWith (serde.reason reason) "\"" = true →
      EventPayload.lock (serde.reason reason) ≠ .lock reason := by
    intro reason hplain hquoted heq
    rw [EventPayload.lock.inj heq, hplain] at hquoted
    cases hquoted
  cases hpaired with
  | keyboard data =>
    rw [PayloadSerde.Reads] at hserde
    simp [parsePayload, payloadJson, hserde, EventKind.isLock]
  | mouse data =>
    rw [PayloadSerde.Reads] at hserde
    simp [parsePayload, payloadJson, hserde, EventKind.isLock]
  | pulse => exact iff_of_true rfl rfl
  | lockStart reason hplain => exact iff_of_false (hlock reason hplain hserde) (by decide)
  | lockEnd reason hplain => exact iff_of_false (hlock reason hplain hserde) (by decide)
  | app info | window info | focus info =>
    rw [PayloadSerde.Reads] at hserde
    refine iff_of_true ?_ rfl
    show ((serde.focus.fromStr (serde.focus.toString info)).map EventPayload.focus).getD .none = _
    rw [hserde]
    rfl
  | title windowId title =>
    rw [PayloadSerde.Reads] at hserde
    refine iff_of_true ?_ rfl
    show (match serde.title.fromStr (serde.title.toString (windowId, title)) with
      | some (windowId, title) => EventPayload.title windowId title
      | none => .none) = _
    rw [hserde]
  | state fromState toState =>
    rw [PayloadSerde.Reads] at hserde
    refine iff_of_true ?_ rfl
    show (match serde.states.fromStr (serde.states.toString (fromState.debug, toState.debug)) with
      | some (fromS, toS) => EventPayload.state (parseStateLabel fromS) (parseStateLabel toS)
      | none => .none) = _
    rw [hserde]
    show EventPayload.state _ _ = _
    rw [parseStateLabel_debug, parseStateLabel_debug]

theorem EnvelopeRow.envelope_of_some (serde : PayloadSerde) {row : EnvelopeRow DateTime Bool}
    {eventId : Int} (h : row.eventId = some eventId) :
    row.envelope serde =
      { id := asU64 eventId, timestamp := row.timestamp, source := parseSource row.source,
        kind := parseKind row.kind,
        payload := parsePayload serde row.kind (parseKind row.kind) row.payload,
        derived := row.derived, polling := row.polling, sensitive := row.sensitive } := by
  rw [EnvelopeRow.envelope, h, Option.getD_some]

theorem envelope_envelopeRow (serde : PayloadSerde) {env : EventEnvelope} (hid : env.id < 2 ^ 64) :
    (envelopeRow serde env).envelope serde =
      { env with
        payload := parsePayload serde (kindLabel env.kind) env.kind
          (payloadJson serde env.payload) } := by
  have hrow : (envelopeRow serde env).eventId = some (asI64 env.id) := rfl
  rw [EnvelopeRow.envelope_of_some serde hrow, asU64_asI64 hid]
  simp only [envelopeRow, parseKind_kindLabel, parseSource_sourceLabel]

theorem envelope_sameData_iff {serde : PayloadSerde} {env : EventEnvelope} (hid : env.id < 2 ^ 64) :
    ((envelopeRow serde env).envelope serde).SameData env ↔
      parsePayload serde (kindLabel env.kind) env.kind (payloadJson serde env.payload) =
        env.payload := by
  rw [envelope_envelopeRow serde hid]
  constructor
  · intro h
    exact h.payload
  · intro h
    exact ⟨rfl, rfl, rfl, h, rfl, rfl, rfl⟩

/-- For every envelope the daemon produces and either backend: fetching the row its writer inserted
yields the envelope with the same id, source, kind, payload and flags if and only if it is not the
start or the end of a lock. -/
theorem envelope_roundtrip_iff (serde : PayloadSerde) (toRfc3339 : DateTime → String)
    (parseRfc3339 : String → Option DateTime) (backend : Backend) {env : EventEnvelope}
    (henv : Produced env) (hserde : serde.Reads env.payload)
    (htime : backend = .sqlite → parseRfc3339 (toRfc3339 env.timestamp) = some env.timestamp) :
    (∀ since until_, backend.le toRfc3339 since env.timestamp = true →
        backend.le toRfc3339 env.timestamp until_ = true →
        ∃ back, backend.fetchEnvelopesBetween serde toRfc3339 parseRfc3339 [envelopeRow serde env]
          since until_ = some [back] ∧ back.SameData env) ↔
      env.kind.isLock = false := by
  obtain ⟨hid, hpaired⟩ := henv.paired
  rw [← parsePayload_iff hpaired hserde, ← envelope_sameData_iff hid]
  have hfetch : ∀ since until_, backend.le toRfc3339 since env.timestamp = true →
      backend.le toRfc3339 env.timestamp until_ = true →
      backend.fetchEnvelopesBetween serde toRfc3339 parseRfc3339 [envelopeRow serde env] since
        until_ = some [(envelopeRow serde env).envelope serde] := by
    intro since until_ hsince huntil
    exact Backend.fetchEnvelopesBetween_singleton htime hsince huntil
  constructor
  · intro h
    have hrefl : backend.le toRfc3339 env.timestamp env.timestamp = true := by
      have htotal : (backend.le toRfc3339 env.timestamp env.timestamp ||
          backend.le toRfc3339 env.timestamp env.timestamp) = true := backend.total_le _ _
      rwa [Bool.or_self] at htotal
    obtain ⟨back, hback, hsame⟩ := h env.timestamp env.timestamp hrefl hrefl
    rw [hfetch env.timestamp env.timestamp hrefl hrefl] at hback
    rw [(List.cons.inj (Option.some.inj hback)).1]
    exact hsame
  · intro hsame since until_ hsince huntil
    exact ⟨_, hfetch since until_ hsince huntil, hsame⟩

/-- A codec for the title and the lock of the examples below. -/
def sampleSerde : PayloadSerde :=
  { keyboard := ⟨fun _ => "", fun _ => none⟩, mouse := ⟨fun _ => "", fun _ => none⟩,
    focus := ⟨fun _ => "", fun _ => none⟩, reason := fun reason => "\"" ++ reason ++ "\"",
    title := ⟨fun title => if title = (1, "b") then "[1,\"b\"]" else "",
      fun js => if js = "[1,\"b\"]" then some (1, "b") else none⟩,
    states := ⟨fun _ => "", fun _ => none⟩ }

/-- A changed title is read back from SQLite. -/
theorem title_roundtrip :
    ∃ back, Backend.sqlite.fetchEnvelopesBetween sampleSerde (fun _ => "1970-01-01T00:00:00+00:00")
        (fun _ => some 0)
        [envelopeRow sampleSerde (EventAdapter.titleChange 7 0 (.sample "Editor" "b" 1))] 0 0 =
          some [back] ∧ back.SameData (EventAdapter.titleChange 7 0 (.sample "Editor" "b" 1)) :=
  (envelope_roundtrip_iff sampleSerde (fun _ => "1970-01-01T00:00:00+00:00") (fun _ => some 0) .sqlite
    (.adapted ⟨some (.sample "Editor" "a" 1)⟩ (.windowFocusChange 0 7 (.sample "Editor" "b" 1)) _
      (by decide) (by decide))
    (by
      show sampleSerde.title.fromStr (sampleSerde.title.toString (1, "b")) = some (1, "b")
      decide)
    (fun _ => rfl)).mpr rfl 0 0 (by decide) (by decide)

/-- The reason of a lock is read back between quotes. -/
theorem lock_not_roundtrip :
    ¬ ∃ back, Backend.duckdb.fetchEnvelopesBetween sampleSerde (fun _ => "") (fun _ => none)
        [envelopeRow sampleSerde (LockDeriver.lockStart
          (EventAdapter.changed .appChanged 7 0 (.sample "loginwindow" "" 1)))] 0 0 = some [back] ∧
        back.SameData (LockDeriver.lockStart
          (EventAdapter.changed .appChanged 7 0 (.sample "loginwindow" "" 1))) := by
  rintro ⟨back, hback, hsame⟩
  have hpayload : back.payload = .lock "\"loginwindow\"" := by
    rw [← (List.cons.inj (Option.some.inj hback)).1]
    decide
  rw [hsame.payload] at hpayload
  revert hpayload
  decide

end Kronical
