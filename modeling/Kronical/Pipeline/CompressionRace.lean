import Kronical.Pipeline.NothingLost

/-!
# The compression stage and the shutdown

The snapshot stage waits for the envelope stage and the hints stage before it shuts storage down, but
not for the compression stage. What the compression stage still owes at that moment comes behind the
`Shutdown` or finds storage gone (`events_delivered_iff_waited`).
-/

namespace Kronical

open Network

namespace CompressionStage

theorem loop_stopped (self : CompressionStage) (stopped : Bool) (cmd : Option CompressionCommand) :
    ({ self with stopped }.loop cmd).2 = (self.loop cmd).2 ∧
      ∃ stopped', ({ self with stopped }.loop cmd).1 = { (self.loop cmd).1 with stopped := stopped' } := by
  match cmd with
  | some (.process ⟨[], reason⟩ envelopes) => exact ⟨rfl, _, rfl⟩
  | some (.process ⟨e :: events, reason⟩ envelopes) => exact ⟨rfl, _, rfl⟩
  | some .shutdown => exact ⟨rfl, _, rfl⟩
  | none => exact ⟨rfl, _, rfl⟩

/-- What the stage sends for these commands, one after the other. -/
def answers (self : CompressionStage) (cmds : List CompressionCommand) : List Packet :=
  (loop.run self (cmds.map some)).2

theorem loop_received (self : CompressionStage) (stopped : Bool)
    (received : List (Option CompressionCommand)) :
    (loop.run self received).2 = answers { self with stopped } (received.filterMap id) := by
  induction received generalizing self stopped with
  | nil => rfl
  | cons cmd received ih =>
    cases cmd with
    | none => exact ih { self with stopped := true } stopped
    | some cmd =>
      obtain ⟨hout, stopped', hnext⟩ := self.loop_stopped stopped (some cmd)
      show _ ++ _ = ({ self with stopped }.loop (some cmd)).2 ++ answers _ _
      rw [hout, hnext]
      exact congrArg _ (ih (self.loop (some cmd)).1 stopped')

end CompressionStage

variable {cfg : PipelineConfig}
  {ok : Network.Config Stage.Msg Stage.Reading Stage.Local → Network.Action Stage.Reading → Prop}
  {s t : Network.Config Stage.Msg Stage.Reading Stage.Local}

/-- What the compression stage has to send to storage for all commands it is ever given. -/
def due (cfg : PipelineConfig) (s : Network.Config Stage.Msg Stage.Reading Stage.Local) :
    List StorageCommand :=
  sentTo .storage ((CompressionStage.new cfg.focusInternerMaxStrings cfg.persistRawEvents).answers
    ((s .compression).arrived.map Prod.snd))

/-- What it has not sent yet: the sends it is about to make, and the answers to its inbox. -/
def owed (s : Network.Config Stage.Msg Stage.Reading Stage.Local) : List Packet :=
  (s .compression).outbox ++ (s .compression).current.answers ((s .compression).queue.map Prod.snd)

/-- The compression stage owes nothing when the snapshot stage shuts storage down. -/
def Waited (s : Network.Config Stage.Msg Stage.Reading Stage.Local) :
    Network.Action Stage.Reading → Prop
  | .send .snapshot => (s .snapshot).outbox.head? = some ⟨.storage, .shutdown⟩ → owed s = []
  | _ => True

/-- Everything the compression stage has to send arrives at storage before a `Shutdown`. -/
def Delivered (cfg : PipelineConfig)
    (s : Network.Config Stage.Msg Stage.Reading Stage.Local) : Prop :=
  ∀ before p after, (s .storage).arrived = before ++ (p, .shutdown) :: after →
    only .compression before = due cfg s

theorem due_eq (hs : (pipeline cfg).Reach ok s) (hrefused : (s .compression).refused = false) :
    due cfg s = (s .compression).sentTo .storage ++ sentTo .storage (owed s) := by
  have hrun : CompressionStage.loop.run (.new cfg.focusInternerMaxStrings cfg.persistRawEvents)
      ((s .compression).inputs.map Prod.snd) =
        ((s .compression).current, (s .compression).sent ++ (s .compression).outbox) := by
    rw [← Transducer.run_map]
    exact hs.run_eq .compression hrefused
  have hall := CompressionStage.loop_received
    (.new cfg.focusInternerMaxStrings cfg.persistRawEvents) false
    ((s .compression).inputs.map Prod.snd ++ ((s .compression).queue.map Prod.snd).map some)
  have harrived : ((s .compression).inputs.map Prod.snd ++
      ((s .compression).queue.map Prod.snd).map some).filterMap id =
        (s .compression).arrived.map Prod.snd := by
    rw [List.filterMap_append, Node.inputs, List.map_map, List.filterMap_map, List.filterMap_map,
      Node.arrived, List.map_append, List.map_filterMap]
    exact congrArg _ List.filterMap_some
  rw [harrived, Transducer.run_append, hrun, List.append_assoc] at hall
  calc due cfg s
      = sentTo .storage ((s .compression).sent ++ owed s) := congrArg (sentTo .storage) hall.symm
    _ = (s .compression).sentTo .storage ++ sentTo .storage (owed s) := sentTo_append ..

theorem owed_eq_nil (hs : (pipeline cfg).Reach ok s) (h : sentTo .storage (owed s) = []) :
    owed s = [] := by
  refine List.eq_nil_iff_forall_not_mem.mpr fun packet hmem => ?_
  have hanswer : ∃ self cmd, packet ∈ (CompressionStage.handle self cmd).2 := by
    rcases List.mem_append.mp hmem with hmem | hmem
    · obtain ⟨self, _, input, hout⟩ :=
        hs.answers .compression packet (List.mem_append_right _ hmem)
      exact ⟨self, input, hout⟩
    · obtain ⟨self, cmd, -, hout⟩ := Transducer.mem_run hmem
      exact ⟨self, cmd, hout⟩
  obtain ⟨self, cmd, hout⟩ := hanswer
  have hnone := List.filterMap_eq_nil_iff.mp h packet hmem
  cases CompressionStage.handle_sends self cmd packet hout <;> simp [Packet.to] at hnone

theorem due_congr (harrived : (t .compression).arrived = (s .compression).arrived) :
    due cfg t = due cfg s := by
  rw [due, harrived, due]

/-! ### Around the shutdown -/

/-- A `Shutdown` has arrived at storage. -/
def ShutDown (s : Network.Config Stage.Msg Stage.Reading Stage.Local) : Prop :=
  ∃ p, (p, StorageCommand.shutdown) ∈ (s .storage).arrived

theorem shutDown_step {a : Network.Action Stage.Reading} (ht : (pipeline cfg).Reach ok t)
    (hdoes : (pipeline cfg).Does s a t) (hshut : ShutDown t) :
    ShutDown s ∨ a = .send .snapshot ∧
      (s .snapshot).outbox.head? = some ⟨.storage, .shutdown⟩ := by
  obtain ⟨p, hmem⟩ := hshut
  rcases hdoes.messages with hsame | ⟨k, packet, rest, rfl, houtbox, -, hmsg⟩
  · exact .inl ⟨p, (hsame .storage).1 ▸ hmem⟩
  · obtain ⟨rfl, -⟩ := snapshot_done_of_shutdown ht
      (core_unrefused ht .snapshot (.inr (.inr (.inr rfl)))) hmem
    rw [(hmsg .storage).1] at hmem
    rcases List.mem_append.mp hmem with hmem | hmem
    · exact .inl ⟨_, hmem⟩
    · obtain ⟨msg, hto, heq⟩ := List.mem_map.mp hmem
      have hpacket := Network.Packet.eq_of_to (Option.mem_toList.mp hto)
      obtain ⟨rfl, rfl⟩ := Prod.mk.inj heq
      rw [houtbox, hpacket]
      exact .inr ⟨rfl, rfl⟩

theorem shutDown_of_refusal (hs : (pipeline cfg).Reach ok s) {packet : Packet} {rest : List Packet}
    (houtbox : (s .compression).outbox = packet :: rest) (hended : (s packet.1).ended = true) :
    ShutDown s := by
  have hsender : Stage.compression ∈ packet.1.senders :=
    hs.addressed .compression packet (List.mem_append_right _ (houtbox ▸ List.mem_cons_self))
  have hstorage : packet.1 = .storage := by
    revert hsender
    cases packet.1 <;> decide
  rw [hstorage] at hended
  rcases closed_or_shutdown hs (n := .storage) (m := StorageCommand.shutdown) rfl
    (.inr fun _ _ _ h => h) (fun _ _ _ => StorageStage.handle_stopped) hended with
      hgone | harrived
  · have hdone := hs.done_of_ended .compression
      (hgone .compression (show Stage.compression ∈ Stage.storage.senders by decide))
    cases houtbox.symm.trans hdone.1
  · exact harrived

theorem refused_step {a : Network.Action Stage.Reading} (hs : (pipeline cfg).Reach ok s)
    (hdoes : (pipeline cfg).Does s a t) (hrefused : (s .compression).refused = false)
    (howes : ShutDown s → (s .compression).outbox = []) : (t .compression).refused = false := by
  have hturn := hdoes.turn .compression
  revert hturn
  generalize t .compression = node
  intro hturn
  cases hturn with
  | idle => exact hrefused
  | recv => exact hrefused
  | send => exact hrefused
  | refuse houtbox hended =>
    cases houtbox.symm.trans (howes (shutDown_of_refusal hs houtbox hended))
  | finish => exact hrefused

theorem compression_unrefused (hs : (pipeline cfg).Reach ok s) :
    ¬ ShutDown s → (s .compression).refused = false := by
  refine Reach.invariant (I := fun s => ¬ ShutDown s → (s .compression).refused = false)
    (fun _ => rfl) ?_ hs
  intro s a t hs _ hdoes ih hnone
  have hbefore : ¬ ShutDown s := by
    rintro ⟨p, hmem⟩
    refine hnone ⟨p, ?_⟩
    rcases hdoes.messages with hsame | ⟨k, packet, rest, -, -, -, hmsg⟩
    · exact (hsame .storage).1 ▸ hmem
    · exact (hmsg .storage).1 ▸ List.mem_append_left _ hmem
  exact refused_step hs hdoes (ih hbefore) fun hshut => absurd hshut hbefore

theorem messages_of_shutDown (hs : (pipeline cfg).Reach ok s) (hshut : ShutDown s)
    (howed : owed s = []) {a : Network.Action Stage.Reading} (hdoes : (pipeline cfg).Does s a t) :
    (t .compression).arrived = (s .compression).arrived ∧
      (t .compression).sent = (s .compression).sent := by
  obtain ⟨p, hmem⟩ := hshut
  rcases hdoes.messages with hsame | ⟨k, packet, rest, -, houtbox, -, hmsg⟩
  · exact hsame .compression
  · have hsender : k ∈ packet.1.senders :=
      hs.addressed k packet (List.mem_append_right _ (houtbox ▸ List.mem_cons_self))
    have hsilent : k ≠ .spawner ∧ k ≠ .envelope ∧ k ≠ .compression := by
      have hrefused := core_unrefused hs
      obtain ⟨-, -, hstopped⟩ :=
        snapshot_done_of_shutdown hs (hrefused .snapshot (.inr (.inr (.inr rfl)))) hmem
      obtain ⟨-, -, hended⟩ :=
        done_of_snapshot hs (hrefused .hints (.inr (.inr (.inl rfl)))) hstopped
      refine ⟨?_, ?_, ?_⟩
      · rintro rfl
        obtain ⟨_, _, _, hout⟩ :=
          hs.answers .spawner packet (List.mem_append_right _ (houtbox ▸ List.mem_cons_self))
        cases hout
      · rintro rfl
        cases houtbox.symm.trans (hs.done_of_ended .envelope hended).1
      · rintro rfl
        cases houtbox.symm.trans (List.append_eq_nil_iff.mp howed).1
    have hto : packet.1 ≠ .compression := by
      intro hdst
      rw [hdst] at hsender
      rcases List.mem_pair.mp hsender with hk | hk
      · exact hsilent.1 hk
      · exact hsilent.2.1 hk
    obtain ⟨harrived, hsent⟩ := hmsg .compression
    rw [harrived, hsent, Network.Packet.to_of_ne hto, if_neg hsilent.2.2.symm]
    exact ⟨List.append_nil _, List.append_nil _⟩

theorem messages_of_send {packet : Packet} (hhead : (s .snapshot).outbox.head? = some packet)
    (hstorage : packet.1 = .storage) (hdoes : (pipeline cfg).Does s (.send .snapshot) t) :
    (t .compression).arrived = (s .compression).arrived ∧
      (t .compression).sent = (s .compression).sent := by
  rcases hdoes.messages with hsame | ⟨k, other, rest, hsend, houtbox, -, hmsg⟩
  · exact hsame .compression
  · obtain rfl : Stage.snapshot = k := Network.Action.send.inj hsend
    obtain rfl : other = packet := Option.some.inj ((congrArg List.head? houtbox).symm.trans hhead)
    obtain ⟨harrived, hsent⟩ := hmsg .compression
    rw [harrived, hsent, Network.Packet.to_of_ne (by rw [hstorage]; decide), if_neg (by decide)]
    exact ⟨List.append_nil _, List.append_nil _⟩

theorem shutDown_send (ht : (pipeline cfg).Reach ok t)
    (hhead : (s .snapshot).outbox.head? = some ⟨.storage, .shutdown⟩)
    (hdoes : (pipeline cfg).Does s (.send .snapshot) t) :
    (t .storage).arrived = (s .storage).arrived ++ [(.snapshot, .shutdown)] := by
  have hrefused := core_unrefused ht .snapshot (.inr (.inr (.inr rfl)))
  cases hdoes with
  | @send _ packet rest houtbox hended =>
    have hpacket := Option.some.inj ((congrArg List.head? houtbox).symm.trans hhead)
    rw [deliver_eq, Function.update_of_ne (by decide), hpacket, Network.Packet.to_self]
    exact (List.append_assoc ..).symm
  | refuse houtbox hended =>
    rw [Function.update_self] at hrefused
    cases hrefused

theorem owes_nothing (hs : (pipeline cfg).Reach Waited s) :
    ShutDown s → owed s = [] ∧ (s .compression).refused = false := by
  induction hs with
  | start =>
    rintro ⟨p, hmem⟩
    cases hmem
  | @step s a t hs hwaited hstep ih =>
    intro hshut
    have hdoes := step_cases hstep
    have hbefore : owed s = [] ∧ (s .compression).refused = false ∧
        (t .compression).arrived = (s .compression).arrived ∧
        (t .compression).sent = (s .compression).sent := by
      by_cases hearlier : ShutDown s
      · obtain ⟨howed, hrefused⟩ := ih hearlier
        exact ⟨howed, hrefused, messages_of_shutDown hs hearlier howed hdoes⟩
      · obtain ⟨rfl, hhead⟩ :=
          (shutDown_step (.step hs hwaited hstep) hdoes hshut).resolve_left hearlier
        exact ⟨hwaited hhead, compression_unrefused hs hearlier, messages_of_send hhead rfl hdoes⟩
    obtain ⟨howed, hrefused, harrived, hsent⟩ := hbefore
    have hrefused' : (t .compression).refused = false :=
      refused_step hs hdoes hrefused fun _ => (List.append_eq_nil_iff.mp howed).1
    refine ⟨?_, hrefused'⟩
    have ht : (pipeline cfg).Reach Waited t := .step hs hwaited hstep
    have hdue := (due_eq hs hrefused).symm.trans ((due_congr harrived).symm.trans (due_eq ht hrefused'))
    rw [howed, sentTo_nil, List.append_nil, Node.sentTo, Node.sentTo, hsent,
      List.self_eq_append_right] at hdue
    exact owed_eq_nil ht hdue

/-- In every run in which the snapshot stage waits, everything is delivered; and it is not whenever
the snapshot stage did not wait. -/
theorem events_delivered_iff_waited (cfg : PipelineConfig) :
    (∀ s, (pipeline cfg).Reach Waited s → Delivered cfg s) ∧
      ∀ s a t, (pipeline cfg).Reachable s → (pipeline cfg).step s a = some t → ¬ Waited s a →
        ¬ Delivered cfg t := by
  constructor
  · intro s hs before p after harrived
    have hshut : ShutDown s := ⟨p, harrived ▸ List.mem_append_right before List.mem_cons_self⟩
    obtain ⟨howed, hrefused⟩ := owes_nothing hs hshut
    have hsent := hs.only_before (p := .compression)
      (fun s hs hmem => (List.append_eq_nil_iff.mp (owes_nothing hs ⟨_, hmem⟩).1).1) harrived
    obtain ⟨rfl, -⟩ := nothing_lost hs harrived
    rw [if_neg (by decide), List.append_nil] at hsent
    rw [due_eq hs hrefused, howed, sentTo_nil, List.append_nil, hsent]
  · intro s a t hs hstep hwaited hdelivered
    obtain ⟨rfl, hhead, howed⟩ : a = .send .snapshot ∧
        (s .snapshot).outbox.head? = some ⟨.storage, .shutdown⟩ ∧ owed s ≠ [] := by
      cases a with
      | recv => exact absurd trivial hwaited
      | finish => exact absurd trivial hwaited
      | send n => cases n <;> first | exact absurd trivial hwaited | simpa [Waited] using hwaited
    have hdoes := step_cases hstep
    have ht : (pipeline cfg).Reachable t := .step hs trivial hstep
    have hearlier : ¬ ShutDown s := by
      rintro ⟨p, hmem⟩
      obtain ⟨-, hquiet, -⟩ :=
        snapshot_done_of_shutdown hs (core_unrefused hs .snapshot (.inr (.inr (.inr rfl)))) hmem
      rw [hquiet] at hhead
      cases hhead
    have harrived := shutDown_send ht hhead hdoes
    have hbefore : only .compression (s .storage).arrived = (s .compression).sentTo .storage :=
      hs.arrived_from .storage .compression
    have hdue := hdelivered _ _ _ harrived
    rw [hbefore, due_congr (messages_of_send hhead rfl hdoes).1,
      due_eq hs (compression_unrefused hs hearlier), List.self_eq_append_right] at hdue
    exact howed (owed_eq_nil hs hdue)

instance : ∀ n : Stage, DecidableEq n.Msg
  | .spawner | .ingest => inferInstanceAs (DecidableEq Empty)
  | .envelope => inferInstanceAs (DecidableEq DeriveCommand)
  | .hints => inferInstanceAs (DecidableEq EventEnvelope)
  | .compression => inferInstanceAs (DecidableEq CompressionCommand)
  | .snapshot => inferInstanceAs (DecidableEq SnapshotMessage)
  | .storage => inferInstanceAs (DecidableEq StorageCommand)

instance (s : Network.Config Stage.Msg Stage.Reading Stage.Local) : ∀ a, Decidable (Waited s a)
  | .send .snapshot => inferInstanceAs (Decidable (_ → _))
  | .send .spawner | .send .ingest | .send .envelope | .send .hints | .send .compression
  | .send .storage | .recv .. | .finish .. => inferInstanceAs (Decidable True)

/-- A keystroke and then a shutdown, with the compression stage ahead of the snapshot stage. -/
def promptSchedule : List (Action Stage.Reading) :=
  drowsySchedule.take 25 ++
    [.recv .compression (), .send .compression, .send .compression, .recv .compression (),
      .finish .compression] ++ drowsySchedule.drop 25

/-- If the compression stage is ahead, the keystroke's two events arrive before the `Shutdown`. -/
theorem prompt_shutdown_delivers :
    ∃ s, (pipeline plainConfig).execWithin Waited (pipeline plainConfig).start promptSchedule =
        some s ∧ (s .storage).arrived.getLast? = some (.snapshot, .shutdown) ∧
      (due plainConfig s).length = 2 ∧ Delivered plainConfig s := by
  obtain ⟨s, hs⟩ := Option.isSome_iff_exists.mp (show ((pipeline plainConfig).execWithin Waited
    (pipeline plainConfig).start promptSchedule).isSome = true by decide)
  have hcheck : (((pipeline plainConfig).execWithin Waited (pipeline plainConfig).start
      promptSchedule).map fun s => ((s .storage).arrived.getLast?, (due plainConfig s).length)) =
        some (some (.snapshot, .shutdown), 2) := by decide
  rw [hs] at hcheck
  obtain ⟨hlast, hdue⟩ := Prod.mk.inj (Option.some.inj hcheck)
  exact ⟨s, hs, hlast, hdue, (events_delivered_iff_waited plainConfig).1 s (.execWithin .start hs)⟩

/-- With the compression stage asleep nothing of the keystroke arrives before the `Shutdown`. -/
theorem drowsy_shutdown_loses_events :
    ∃ s, (pipeline plainConfig).exec (pipeline plainConfig).start drowsySchedule = some s ∧
      ¬ Delivered plainConfig s := by
  obtain ⟨s, hs⟩ := Option.isSome_iff_exists.mp (show ((pipeline plainConfig).exec
    (pipeline plainConfig).start drowsySchedule).isSome = true by decide)
  have hcheck : (((pipeline plainConfig).exec (pipeline plainConfig).start drowsySchedule).map
      fun s => ((s .storage).arrived.getLast?, only .compression (s .storage).arrived.dropLast,
        (due plainConfig s).isEmpty)) = some (some (.snapshot, .shutdown), [], false) := by decide
  rw [hs] at hcheck
  obtain ⟨hlast, hrest⟩ := Prod.mk.inj (Option.some.inj hcheck)
  obtain ⟨hnone, hdue⟩ := Prod.mk.inj hrest
  refine ⟨s, hs, fun hdelivered => ?_⟩
  have hall := hdelivered _ _ _ (List.dropLast_append_getLast? _ hlast).symm
  rw [hnone] at hall
  rw [← hall] at hdue
  cases hdue

end Kronical
