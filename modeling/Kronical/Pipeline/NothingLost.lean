import Kronical.Pipeline.Shutdown

/-!
# Nothing is lost

What the stages know when the pipeline has been shut down: storage has received everything the
envelope, hints and snapshot stages ever send to it before the one `Shutdown`, the records among it
are all the record builder emitted, and the counters last published count everything.
-/

namespace Kronical

open Network

variable {cfg : PipelineConfig}
  {ok : Network.Config Stage.Msg Stage.Reading Stage.Local → Network.Action Stage.Reading → Prop}
  {s : Network.Config Stage.Msg Stage.Reading Stage.Local}

theorem select_only {n p : Stage} {β : Type} {f : n.Msg → Option β} {msgs : List (Stage × n.Msg)}
    (honly : ∀ msg ∈ msgs, msg.1 ≠ p → f msg.2 = none) :
    (msgs.map Prod.snd).filterMap f = (only p msgs).filterMap f :=
  filterMap_only honly

/-! ### The hints stage -/

theorem hints_inputs (hs : (pipeline cfg).Reach ok s)
    (hstopped : (s .hints).current.stopped = true) :
    ∃ hints final, (s .hints).inputs = HintsStage.received hints final := by
  have hall : ((s .hints).current.stopped = false →
        ∃ hints : List (EventEnvelope × RecordBuilder.HintClock),
          (s .hints).inputs = hints.map fun hint => (hint.2, some hint.1)) ∧
      ((s .hints).current.stopped = true →
        ∃ hints final, (s .hints).inputs = HintsStage.received hints final) := by
    refine hs.node_invariant (n := .hints) (I := fun node =>
      (node.current.stopped = false →
        ∃ hints : List (EventEnvelope × RecordBuilder.HintClock),
          node.inputs = hints.map fun hint => (hint.2, some hint.1)) ∧
      (node.current.stopped = true →
        ∃ hints final, node.inputs = HintsStage.received hints final))
      ⟨fun _ => ⟨[], rfl⟩, fun h => by cases h⟩ ?_
    intro s a node _ hturn ih
    cases hturn with
    | idle => exact ih
    | @recv clock input queue hended houtbox hhalted hoffer =>
      obtain ⟨hints, hinputs⟩ := ih.1 hhalted
      have hmore : ((pipeline cfg).receive (s .hints) clock input queue).inputs =
          (s .hints).inputs ++ [(clock, input.map Prod.snd)] := by
        simp [Node.inputs, receive]
      rw [hmore, hinputs]
      cases input with
      | some msg =>
        refine ⟨fun _ => ⟨hints ++ [(msg.2, clock)], by rw [List.map_append]; rfl⟩, fun h => ?_⟩
        exact absurd (hhalted.symm.trans h) Bool.false_ne_true
      | none =>
        refine ⟨fun h => ?_, fun _ => ⟨hints, clock, rfl⟩⟩
        cases h
    | send => exact ih
    | refuse => exact ih
    | finish => exact ih
  exact hall.2 hstopped

theorem received_hints (hints : List (EventEnvelope × RecordBuilder.HintClock))
    (final : RecordBuilder.HintClock) :
    (HintsStage.received hints final).filterMap Prod.snd = hints.map Prod.fst := by
  rw [HintsStage.received, List.filterMap_append, List.filterMap_map]
  show hints.filterMap (fun hint => some hint.1) ++ [] = _
  rw [List.append_nil]
  exact congrFun List.filterMap_eq_map hints

theorem inputs_arrived {n : Stage} {node : Node Stage.Msg Stage.Reading Stage.Local n}
    (hqueue : node.queue = []) :
    node.inputs.filterMap Prod.snd = node.arrived.map Prod.snd := by
  rw [Node.inputs, Node.arrived, hqueue, List.append_nil, List.filterMap_map, List.map_filterMap]
  rfl

theorem hints_arrived (hs : (pipeline cfg).Reach ok s) :
    (s .hints).arrived.map Prod.snd = sentTo .hints (s .envelope).sent := by
  have honly : ((s .hints).arrived.map Prod.snd).filterMap some =
      ((s .hints).arrivedFrom .envelope).filterMap some :=
    select_only fun msg hmem hp => absurd (List.mem_singleton.mp (heard_from hs hmem)) hp
  rw [List.filterMap_some, List.filterMap_some, hs.arrived_from] at honly
  exact honly

theorem hints_records (hs : (pipeline cfg).Reach ok s)
    (hstopped : (s .hints).current.stopped = true) (houtbox : (s .hints).outbox = []) :
    ∃ hints final, hints.map Prod.fst = sentTo .hints (s .envelope).sent ∧
      recordsOf (s .hints).sent =
        ((HintsStage.new cfg.runId cfg.nextRecordId).builderRecords hints final).map
          (fun record => { record with runId := cfg.runId }) ∧
      emittedOf (s .hints).sent = recordsOf (s .hints).sent := by
  obtain ⟨hints, final, hinputs⟩ := hints_inputs hs hstopped
  have hrefused := core_unrefused hs .hints (.inr (.inr (.inl rfl)))
  have hrun := hs.run_eq .hints hrefused
  rw [hinputs, houtbox, List.append_nil] at hrun
  have hsent : (s .hints).sent = (HintsStage.loop.run (.new cfg.runId cfg.nextRecordId)
    (HintsStage.received hints final)).2 := (congrArg Prod.snd hrun).symm
  obtain ⟨hrecords, hemitted⟩ :=
    (HintsStage.new cfg.runId cfg.nextRecordId).loop_received hints final
  refine ⟨hints, final, ?_, ?_, ?_⟩
  · have hclosed : (final, none) ∈ (s .hints).inputs := by
      rw [hinputs]
      exact List.mem_append_right _ List.mem_cons_self
    obtain ⟨⟨clock, input⟩, htaken, hinput⟩ := List.mem_map.mp hclosed
    obtain rfl : input = none := Option.map_eq_none_iff.mp (congrArg Prod.snd hinput)
    have hqueue := (hs.closed htaken).1
    have harrived : hints.map Prod.fst = (s .hints).arrived.map Prod.snd := by
      rw [← received_hints hints final, ← hinputs, inputs_arrived hqueue]
    exact harrived.trans (hints_arrived hs)
  · rw [hsent, hrecords]
    rfl
  · rw [hsent, hrecords, hemitted]

/-! ### The snapshot stage -/

theorem snapshot_from_envelope (hs : (pipeline cfg).Reach ok s) {msg : SnapshotMessage}
    (hmem : (.envelope, msg) ∈ (s .snapshot).arrived) :
    asEmitted msg = none ∧ msg ≠ .hintsComplete := by
  obtain ⟨state, reading, input, hout⟩ := hs.arrived_answers hmem
  rcases EnvelopeStage.handle_sends state input with hsends | ⟨hends, -⟩
  · cases hsends _ hout with
    | update => exact ⟨rfl, nofun⟩
    | publish => exact ⟨rfl, nofun⟩
  · change _ ∈ (EnvelopeStage.handle state input).2 at hout
    rw [hends] at hout
    simp only [List.mem_cons, Sigma.mk.injEq, heq_eq_eq, true_and, reduceCtorEq, false_and,
      List.not_mem_nil, or_false] at hout
    rw [hout]
    exact ⟨rfl, nofun⟩

theorem snapshot_from_hints (hs : (pipeline cfg).Reach ok s) {msg : SnapshotMessage}
    (hmem : (.hints, msg) ∈ (s .snapshot).arrived) : asUpdate msg = none ∧ msg ≠ .shutdown := by
  obtain ⟨state, clock, input, hout⟩ := hs.arrived_answers hmem
  rcases HintsStage.handle_sends state clock input with ⟨hsends, -⟩ | ⟨front, hends, hsends, -⟩
  · cases hsends _ hout with
    | emitted => exact ⟨rfl, nofun⟩
  · change _ ∈ (HintsStage.handle state clock input).2 at hout
    rw [hends] at hout
    rcases List.mem_append.mp hout with hout | hout
    · cases hsends _ hout with
      | emitted => exact ⟨rfl, nofun⟩
    · simp only [List.mem_cons, Sigma.mk.injEq, heq_eq_eq, true_and, List.not_mem_nil,
        or_false] at hout
      rw [hout]
      exact ⟨rfl, nofun⟩

theorem snapshot_sender (hs : (pipeline cfg).Reach ok s) {msg : Stage × SnapshotMessage}
    (hmem : msg ∈ (s .snapshot).arrived) : msg.1 = .hints ∨ msg.1 = .envelope :=
  List.mem_pair.mp (heard_from hs hmem)

theorem snapshot_queue (hs : (pipeline cfg).Reach ok s)
    (hstopped : (s .snapshot).current.stopped = true) : (s .snapshot).queue = [] := by
  rcases (snapshot_tidy hs).ending hstopped with ⟨now, hclosed⟩ | ⟨hcomplete, hrequested⟩
  · exact (hs.closed hclosed).1
  · obtain ⟨now, p, hcomplete⟩ := (snapshot_tidy hs).complete hcomplete
    obtain ⟨now', q, hrequested⟩ := (snapshot_tidy hs).requested hrequested
    obtain rfl : p = .hints := (snapshot_sender hs (Node.mem_arrived hcomplete)).resolve_right
      fun hp => by
        subst hp
        exact (snapshot_from_envelope hs (Node.mem_arrived hcomplete)).2 rfl
    obtain rfl : q = .envelope := (snapshot_sender hs (Node.mem_arrived hrequested)).resolve_left
      fun hq => by
        subst hq
        exact (snapshot_from_hints hs (Node.mem_arrived hrequested)).2 rfl
    have hhints := hints_farewell.to.received_all hs
      (core_unrefused hs .hints (.inr (.inr (.inl rfl)))) rfl hcomplete
    have henvelope := envelope_to_snapshot_farewell.received_all hs
      (core_unrefused hs .envelope (.inr (.inl rfl))) rfl hrequested
    refine List.eq_nil_iff_forall_not_mem.mpr fun msg hmem => ?_
    have hfrom := snapshot_sender hs (List.mem_append_right _ hmem)
    rcases hfrom with hp | hp
    · exact absurd (List.mem_filterMap.mpr ⟨msg, hmem, if_pos hp⟩) (hhints ▸ List.not_mem_nil)
    · exact absurd (List.mem_filterMap.mpr ⟨msg, hmem, if_pos hp⟩) (henvelope ▸ List.not_mem_nil)

theorem snapshot_updates (hs : (pipeline cfg).Reach ok s)
    (hqueue : ∀ msg ∈ (s .snapshot).queue, asUpdate msg.2 = none) :
    (s .snapshot).inputs.filterMap SnapshotStage.updateOf = updatesOf (s .envelope).sent := by
  have hnone : ((s .snapshot).queue.map Prod.snd).filterMap asUpdate = [] := by
    rw [List.filterMap_map]
    exact List.filterMap_eq_nil_iff.mpr hqueue
  have hall : (s .snapshot).inputs.filterMap SnapshotStage.updateOf =
      ((s .snapshot).arrived.map Prod.snd).filterMap asUpdate := by
    rw [Node.arrived, List.map_append, List.filterMap_append, hnone, List.append_nil, Node.inputs,
      List.filterMap_map, List.map_filterMap, List.filterMap_filterMap]
    refine List.filterMap_congr fun i _ => ?_
    obtain ⟨reading, _ | msg⟩ := i <;> rfl
  refine hall.trans ((select_only (n := .snapshot) (p := .envelope) ?_).trans ?_)
  · rintro ⟨p, msg⟩ hmem hp
    obtain rfl : p = .hints := (snapshot_sender hs hmem).resolve_right hp
    exact (snapshot_from_hints hs hmem).1
  · exact congrArg (List.filterMap asUpdate) (hs.arrived_from .snapshot .envelope)

theorem snapshot_counts (hs : (pipeline cfg).Reach ok s)
    (hstopped : (s .snapshot).current.stopped = true) :
    (s .snapshot).current.bus.snapshot.counts =
      { signalsSeen := satAdd 0 ((updatesOf (s .envelope).sent).map (·.signalsDelta)).sum
        hintsSeen := satAdd 0 ((updatesOf (s .envelope).sent).map (·.hintsDelta)).sum
        recordsEmitted := satAdd 0 (emittedOf (s .hints).sent).length } := by
  have hrun := hs.run_eq .snapshot (core_unrefused hs .snapshot (.inr (.inr (.inr rfl))))
  have hcounts := SnapshotStage.loop_counts (.new (.new cfg.runId) cfg.retentionMinutes
    cfg.initialRecords cfg.initialTransitions cfg.snapshotStarted) (s .snapshot).inputs
  have hcurrent : (SnapshotStage.loop.run (.new (.new cfg.runId) cfg.retentionMinutes
    cfg.initialRecords cfg.initialTransitions cfg.snapshotStarted) (s .snapshot).inputs).1 =
      (s .snapshot).current := congrArg Prod.fst hrun
  rw [hcurrent, (SnapshotStage.new_flags ..).2.2.2.2] at hcounts
  have harrived := inputs_arrived (snapshot_queue hs hstopped)
  have hselect : ∀ {β : Type} (f : SnapshotMessage → Option β),
      (s .snapshot).inputs.filterMap (fun i => i.2.bind f) =
        ((s .snapshot).arrived.map Prod.snd).filterMap f := by
    intro β f
    rw [← harrived, List.filterMap_filterMap]
  have hupdates := snapshot_updates hs (snapshot_queue hs hstopped ▸ fun _ h => absurd h List.not_mem_nil)
  have hrecords : (s .snapshot).inputs.filterMap SnapshotStage.recordOf =
      emittedOf (s .hints).sent := by
    refine (hselect asEmitted).trans ((select_only (n := .snapshot) (p := .hints) ?_).trans ?_)
    · rintro ⟨p, msg⟩ hmem hp
      obtain rfl : p = .envelope := (snapshot_sender hs hmem).resolve_left hp
      exact (snapshot_from_envelope hs hmem).1
    · exact congrArg (List.filterMap asEmitted) (hs.arrived_from .snapshot .hints)
  rw [hupdates, hrecords] at hcounts
  exact ((snapshot_tidy hs).published hstopped).trans hcounts

/-! ### The storage stage -/

theorem storage_records (hs : (pipeline cfg).Reach ok s) {msg : Stage × StorageCommand}
    (hmem : msg ∈ (s .storage).arrived) (hp : msg.1 ≠ .hints) : asRecord msg.2 = none := by
  obtain ⟨p, cmd⟩ := msg
  obtain ⟨state, reading, input, hout⟩ := hs.arrived_answers hmem
  have hfrom : p ∈ [Stage.hints, .compression, .snapshot, .envelope] := heard_from hs hmem
  simp only [List.mem_cons, List.not_mem_nil, or_false] at hfrom
  rcases hfrom with rfl | rfl | rfl | rfl
  · exact absurd rfl hp
  · cases CompressionStage.handle_sends state input _ hout with
    | rawEvent => rfl
    | compactEvents => rfl
  · change _ ∈ (SnapshotStage.handle state reading input).2 at hout
    rcases SnapshotStage.handle_sends state reading input with ⟨transition?, hends⟩ | ⟨hends, -⟩
    · rw [hends] at hout
      obtain ⟨transition, -, heq⟩ := List.mem_map.mp hout
      cases heq
      rfl
    · rw [hends] at hout
      cases List.mem_singleton.mp hout
      rfl
  · rcases EnvelopeStage.handle_sends state input with hsends | ⟨hends, -⟩
    · cases hsends _ hout with
      | signal => rfl
    · change _ ∈ (EnvelopeStage.handle state input).2 at hout
      rw [hends] at hout
      simp at hout

theorem StorageStage.handle_stored (self : StorageStage) {cmd : StorageCommand}
    (hcmd : cmd ≠ .shutdown) :
    (self.handle (some cmd)).1 = { self with stored := self.stored ++ [cmd] } := by
  cases cmd with
  | shutdown => exact absurd rfl hcmd
  | rawEvent | record | envelope | compactEvents | transition => rfl

/-- What the storage stage has handed to the database: all it has received, up to the `Shutdown` it
has ended with. -/
inductive Storing (node : Node Stage.Msg Stage.Reading Stage.Local .storage) : Prop
  | running (hrunning : node.current.stopped = false)
      (hnone : ∀ msg ∈ node.taken.filterMap Prod.snd, msg.2 ≠ StorageCommand.shutdown)
      (hstored : node.current.stored = (node.taken.filterMap Prod.snd).map Prod.snd)
  | stopped {front last} (hstopped : node.current.stopped = true)
      (htaken : node.taken = front ++ [last])
      (hlast : last.2 = none ∨ ∃ p, last.2 = some (p, StorageCommand.shutdown))
      (hnone : ∀ msg ∈ front.filterMap Prod.snd, msg.2 ≠ StorageCommand.shutdown)
      (hstored : node.current.stored = (front.filterMap Prod.snd).map Prod.snd)

theorem storage_storing (hs : (pipeline cfg).Reach ok s) : Storing (s .storage) := by
  refine hs.node_invariant (I := Storing) (.running rfl (fun _ h => absurd h List.not_mem_nil) rfl) ?_
  intro s a node _ hturn ih
  cases hturn with
  | @recv reading input queue hended houtbox hhalted hoffer =>
    cases ih with
    | running hrunning hnone hstored =>
      by_cases hends : input = none ∨ ∃ p, input = some (p, StorageCommand.shutdown)
      · rcases hends with rfl | ⟨p, rfl⟩
        · exact .stopped rfl rfl (.inl rfl) hnone hstored
        · exact .stopped rfl rfl (.inr ⟨p, rfl⟩) hnone hstored
      · rw [not_or] at hends
        obtain ⟨⟨p, cmd⟩, rfl⟩ := Option.ne_none_iff_exists'.mp hends.1
        have hcmd : cmd ≠ .shutdown := fun h => hends.2 ⟨p, by rw [h]⟩
        have hnext : ((pipeline cfg).receive (s .storage) reading (some (p, cmd)) queue).current =
            { (s .storage).current with stored := (s .storage).current.stored ++ [cmd] } :=
          StorageStage.handle_stored _ hcmd
        have htaken : ((pipeline cfg).receive (s .storage) reading
            (some (p, cmd)) queue).taken.filterMap Prod.snd =
              (s .storage).taken.filterMap Prod.snd ++ [(p, cmd)] := List.filterMap_append
        refine .running ?_ ?_ ?_
        · rw [hnext]
          exact hrunning
        · intro msg hmem
          rw [htaken] at hmem
          rcases List.mem_append.mp hmem with hmem | hmem
          · exact hnone msg hmem
          · rw [List.mem_singleton.mp hmem]
            exact hcmd
        · rw [hnext, htaken, List.map_append]
          exact congrArg (· ++ [cmd]) hstored
    | stopped hstopped => exact absurd (hhalted.symm.trans hstopped) Bool.false_ne_true
  | idle | send | refuse | finish =>
    cases ih with
    | running hrunning hnone hstored => exact .running hrunning hnone hstored
    | stopped hstopped htaken hlast hnone hstored =>
      exact .stopped hstopped htaken hlast hnone hstored

/-! ### The whole shutdown -/

/-- What holds from the moment storage has a `Shutdown` in its inbox, behind the messages `before` and
in front of the messages `after`. -/
structure NothingLost (cfg : PipelineConfig)
    (s : Network.Config Stage.Msg Stage.Reading Stage.Local)
    (before after : List (Stage × StorageCommand)) : Prop where
  /-- There is no other `Shutdown`. -/
  once : ∀ msg ∈ before ++ after, msg.2 ≠ .shutdown
  /-- The envelope, hints and snapshot stages have stopped and have nothing left to send. -/
  stopped : (s .envelope).current.stopped = true ∧ (s .hints).current.stopped = true ∧
    (s .snapshot).current.stopped = true
  silent : (s .envelope).outbox = [] ∧ (s .hints).outbox = [] ∧ (s .snapshot).outbox = []
  /-- All they have sent to storage has arrived before. -/
  envelopes : only .envelope before = sentTo .storage (s .envelope).sent
  hints : only .hints before = sentTo .storage (s .hints).sent
  transitions : only .snapshot before ++ [.shutdown] = sentTo .storage (s .snapshot).sent
  /-- The record builder has been given all hints, and all records it emitted have arrived before. -/
  records : ∃ hints final, hints.map Prod.fst = sentTo .hints (s .envelope).sent ∧
    (before.map Prod.snd).filterMap asRecord =
      ((HintsStage.new cfg.runId cfg.nextRecordId).builderRecords hints final).map
        (fun record => { record with runId := cfg.runId })
  /-- The counters last published count all these records and all updates. -/
  counts : (s .snapshot).current.bus.snapshot.counts =
    { signalsSeen := satAdd 0 ((updatesOf (s .envelope).sent).map (·.signalsDelta)).sum
      hintsSeen := satAdd 0 ((updatesOf (s .envelope).sent).map (·.hintsDelta)).sum
      recordsEmitted := satAdd 0 ((before.map Prod.snd).filterMap asRecord).length }

theorem only_append_cons {n p q : Stage} {m : n.Msg} (before after : List (Stage × n.Msg)) :
    only p (before ++ (q, m) :: after) =
      only p before ++ ((if q = p then [m] else []) ++ only p after) := by
  rw [only, List.filterMap_append, List.filterMap_cons]
  dsimp only
  split_ifs <;> rfl

theorem nothing_lost (hs : (pipeline cfg).Reach ok s) {p : Stage}
    {before after : List (Stage × StorageCommand)}
    (harrived : (s .storage).arrived = before ++ (p, .shutdown) :: after) :
    p = .snapshot ∧ NothingLost cfg s before after := by
  have hrefused := core_unrefused hs
  have hmem : (p, StorageCommand.shutdown) ∈ (s .storage).arrived := by
    rw [harrived]
    exact List.mem_append_right before List.mem_cons_self
  obtain ⟨rfl, hquiet, hstopped⟩ :=
    snapshot_done_of_shutdown hs (hrefused .snapshot (.inr (.inr (.inr rfl)))) hmem
  obtain ⟨hdone, hhints, hended⟩ :=
    done_of_snapshot hs (hrefused .hints (.inr (.inr (.inl rfl)))) hstopped
  obtain ⟨hsilent, henvelope⟩ := hs.done_of_ended .envelope hended
  -- a `Shutdown` only arrives when the three stages have nothing left to send
  have hall : ∀ s, (pipeline cfg).Reach ok s →
      (Stage.snapshot, StorageCommand.shutdown) ∈ (s .storage).arrived →
        (s .envelope).outbox = [] ∧ (s .hints).outbox = [] ∧ (s .snapshot).outbox = [] := by
    intro s hs hmem
    have hrefused := core_unrefused hs
    obtain ⟨-, hquiet, hstopped⟩ :=
      snapshot_done_of_shutdown hs (hrefused .snapshot (.inr (.inr (.inr rfl)))) hmem
    obtain ⟨hdone, -, hended⟩ :=
      done_of_snapshot hs (hrefused .hints (.inr (.inr (.inl rfl)))) hstopped
    exact ⟨(hs.done_of_ended .envelope hended).1, hdone, hquiet⟩
  have henvelopes := hs.only_before (p := .envelope) (fun s hs h => (hall s hs h).1) harrived
  have hhintsSent := hs.only_before (p := .hints) (fun s hs h => (hall s hs h).2.1) harrived
  have hsnapshot := hs.only_before (p := .snapshot) (fun s hs h => (hall s hs h).2.2) harrived
  have hrecords : (before.map Prod.snd).filterMap asRecord = recordsOf (s .hints).sent := by
    refine (select_only (n := .storage) (p := .hints) fun msg hmsg hp => ?_).trans ?_
    · exact storage_records hs (harrived ▸ List.mem_append_left _ hmsg) hp
    · rw [if_neg (by decide), List.append_nil] at hhintsSent
      exact congrArg (List.filterMap asRecord) hhintsSent.symm
  obtain ⟨hints, final, hgiven, hbuilt, hemitted⟩ := hints_records hs hhints hdone
  refine ⟨rfl, ?_⟩
  constructor
  · intro msg hmsg hshutdown
    obtain ⟨q, cmd⟩ := msg
    obtain rfl : cmd = .shutdown := hshutdown
    have hother : (q, StorageCommand.shutdown) ∈ (s .storage).arrived := by
      rw [harrived]
      rcases List.mem_append.mp hmsg with hmsg | hmsg
      · exact List.mem_append_left _ hmsg
      · exact List.mem_append_right _ (List.mem_cons_of_mem _ hmsg)
    obtain ⟨rfl, -, -⟩ :=
      snapshot_done_of_shutdown hs (hrefused .snapshot (.inr (.inr (.inr rfl)))) hother
    have hsplit := (hs.arrived_from .storage .snapshot).symm
    rw [Node.arrivedFrom, harrived, only_append_cons, if_pos rfl] at hsplit
    obtain ⟨hafter, hbefore⟩ := snapshot_farewell.to.split hs
      (hrefused .snapshot (.inr (.inr (.inr rfl)))) hsplit rfl
    rcases List.mem_append.mp hmsg with hmsg | hmsg
    · exact hbefore _ (List.mem_filterMap.mpr ⟨_, hmsg, if_pos rfl⟩) rfl
    · have hnothing := List.filterMap_eq_nil_iff.mp hafter _ hmsg
      rw [if_pos rfl] at hnothing
      cases hnothing
  · exact ⟨henvelope, hhints, hstopped⟩
  · exact ⟨hsilent, hdone, hquiet⟩
  · rw [if_neg (by decide), List.append_nil] at henvelopes
    exact henvelopes.symm
  · rw [if_neg (by decide), List.append_nil] at hhintsSent
    exact hhintsSent.symm
  · rw [if_pos rfl] at hsnapshot
    exact hsnapshot.symm
  · exact ⟨hints, final, hgiven, hrecords.trans hbuilt⟩
  · rw [snapshot_counts hs hstopped, hemitted, hrecords]

theorem shutdown_received (hs : (pipeline cfg).Reach ok s) (hended : ∀ n, (s n).ended = true) :
    ∃ before after, (s .storage).arrived = before ++ (.snapshot, .shutdown) :: after ∧
      (s .storage).current.stored = before.map Prod.snd := by
  have hrefused := core_unrefused hs
  obtain ⟨houtbox, hstopped⟩ := hs.done_of_ended .snapshot (hended .snapshot)
  have htold := (snapshot_tidy hs).told (hrefused .snapshot (.inr (.inr (.inr rfl)))) hstopped
  rw [houtbox, List.append_nil] at htold
  have hmem := hs.arrived_of_sent htold
  obtain ⟨-, hhalted⟩ := hs.done_of_ended .storage (hended .storage)
  cases storage_storing hs with
  | running hrunning => exact absurd (hrunning.symm.trans hhalted) Bool.false_ne_true
  | @stopped front last _ htaken hlast hnone hstored =>
    obtain ⟨reading, input⟩ := last
    have harrived : (s .storage).arrived =
        front.filterMap Prod.snd ++ (input.toList ++ (s .storage).queue) := by
      rw [Node.arrived, htaken, List.filterMap_append, List.append_assoc]
      cases input <;> rfl
    rcases hlast with hclosed | ⟨p, hshutdown⟩
    · exfalso
      obtain rfl : input = none := hclosed
      have hclosing : (reading, none) ∈ (s .storage).taken :=
        htaken ▸ List.mem_append_right front List.mem_cons_self
      have hempty := (hs.closed hclosing).1
      rw [harrived, hempty, List.append_nil] at hmem
      exact hnone _ (by simpa using hmem) rfl
    · obtain rfl : input = some (p, .shutdown) := hshutdown
      obtain ⟨rfl, -⟩ := nothing_lost hs harrived
      exact ⟨_, _, harrived, hstored⟩

/-- Left to itself every schedule of the pipeline comes to rest. At any time, once a `Shutdown` has
arrived at storage, it is the only one, it comes from the snapshot stage, and nothing is lost. And at
rest, once the ingest stage has stopped, all threads have ended, a `Shutdown` has arrived at storage,
and what arrived before it has been handed to the database. -/
theorem shutdown_loses_nothing (cfg : PipelineConfig) :
    (WellFounded fun t s => (pipeline cfg).Reachable s ∧
        ∃ a, (pipeline cfg).Internal a ∧ (pipeline cfg).step s a = some t) ∧
      ∀ s, (pipeline cfg).Reachable s →
        (∀ before p after, (s .storage).arrived = before ++ (p, .shutdown) :: after →
          p = .snapshot ∧ NothingLost cfg s before after) ∧
        ((s .ingest).current.stopped = true →
          (∀ a, (pipeline cfg).Internal a → (pipeline cfg).step s a = none) →
          (∀ n, (s n).ended = true) ∧
            ∃ before after, (s .storage).arrived = before ++ (.snapshot, .shutdown) :: after ∧
              (s .storage).current.stored = before.map Prod.snd) := by
  refine ⟨wellFounded_internal (pipeline cfg), fun s hs => ⟨?_, ?_⟩⟩
  · intro before p after harrived
    exact nothing_lost hs harrived
  · intro hingest hrest
    have hended : ∀ n, (s n).ended = true := by
      refine all_ended hrest fun n hsource => ?_
      cases n with
      | spawner => rfl
      | ingest => exact hingest
      | envelope | hints | compression | snapshot | storage => exact absurd hsource nofun
    exact ⟨hended, shutdown_received hs hended⟩

/-- A pipeline without grace and idle periods that persists raw events. -/
def plainConfig : PipelineConfig :=
  { runId := none, nextRecordId := 0, activeGraceSecs := 0, idleThresholdSecs := 0,
    retentionMinutes := 60, focusInternerMaxStrings := 100, persistRawEvents := true,
    initialRecords := [], initialTransitions := [], started := 0, envelopeStarted := 0,
    snapshotStarted := 0 }

/-- A keystroke and then a shutdown, with the compression stage asleep. -/
def drowsySchedule : List (Action Stage.Reading) :=
  [.finish .spawner, .recv .ingest (.event .keyboardInput 5000000000 [] 5000000000 0), .send .ingest,
    .recv .ingest (.event .shutdown 0 [] 0 0), .send .ingest, .send .ingest, .finish .ingest,
    .recv .envelope (), .recv .envelope (), .send .envelope, .send .envelope, .send .envelope,
    .send .envelope, .send .envelope, .recv .envelope (), .send .envelope, .send .envelope,
    .finish .envelope, .recv .hints ⟨1, 1⟩, .send .hints, .recv .hints ⟨2, 2⟩, .send .hints,
    .send .hints, .send .hints, .finish .hints, .recv .snapshot (1 : Int), .send .snapshot,
    .recv .snapshot (2 : Int), .recv .snapshot (3 : Int), .recv .snapshot (4 : Int),
    .recv .snapshot (5 : Int), .send .snapshot, .finish .snapshot]

/-- After the schedule storage has a `Shutdown`, and nothing of the other stages is lost. -/
theorem drowsy_shutdown_loses_nothing :
    ∃ s, (pipeline plainConfig).exec (pipeline plainConfig).start drowsySchedule = some s ∧
      ∃ before after, NothingLost plainConfig s before after := by
  obtain ⟨s, hs⟩ := Option.isSome_iff_exists.mp (show ((pipeline plainConfig).exec
    (pipeline plainConfig).start drowsySchedule).isSome = true by decide)
  have hmem : ((s .storage).arrived.contains (.snapshot, .shutdown)) = true := by
    have hcheck : (((pipeline plainConfig).exec (pipeline plainConfig).start drowsySchedule).map
        fun s => (s .storage).arrived.contains (.snapshot, .shutdown)) = some true := by decide
    rw [hs] at hcheck
    exact Option.some.inj hcheck
  obtain ⟨before, after, harrived⟩ := List.append_of_mem (List.contains_iff_mem.mp hmem)
  exact ⟨s, hs, before, after, (((shutdown_loses_nothing plainConfig).2 s
    (Reachable.exec .start hs)).1 before .snapshot after harrived).2⟩

end Kronical
