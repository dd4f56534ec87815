import Kronical.Pipeline.Ingest

/-!
# What the ingest stage delivers

In every run of the ingest stage the batches it sends, followed by the events that are still pending, are
the events it has converted (`delivered_pending`). A shutdown flushes the pending events, but a
disconnected source leaves the loop with them (`ingest_delivers_iff`).
-/

namespace Kronical

namespace Wake

/-- The turn leaves the loop. -/
def ends : Wake → Bool
  | .event .shutdown _ _ _ _ => true
  | .event .. => false
  | .ticker .. => false
  | .disconnected => true

/-- The turn receives an event other than `Shutdown`. -/
def isEvent : Wake → Bool
  | .event .shutdown _ _ _ _ => false
  | .event .. => true
  | .ticker .. => false
  | .disconnected => false

end Wake

namespace IngestStage

/-- The raw events that the received events are converted to. -/
def intake : Transducer IngestStage Wake RawEvent :=
  fun self wake => ((ingest self wake).1, (self.accepted wake).toList.map Prod.fst)

def batchesOf (cmds : List DeriveCommand) : List RawBatch :=
  cmds.filterMap fun
    | .batch batch => some batch
    | _ => none

/-- The events of all batches sent, in order. -/
def delivered (cmds : List DeriveCommand) : List RawEvent := (batchesOf cmds).flatMap (·.events)

@[simp] theorem batchesOf_append (cmds cmds' : List DeriveCommand) :
    batchesOf (cmds ++ cmds') = batchesOf cmds ++ batchesOf cmds' := List.filterMap_append

@[simp] theorem delivered_append (cmds cmds' : List DeriveCommand) :
    delivered (cmds ++ cmds') = delivered cmds ++ delivered cmds' := by
  rw [delivered, batchesOf_append, List.flatMap_append, delivered, delivered]

theorem delivered_flush (self : IngestStage) (reason : FlushReason) :
    delivered (self.flush reason) = self.pending := by
  unfold flush
  split_ifs with hempty
  · exact (List.isEmpty_iff.mp hempty).symm
  · exact List.append_nil _

theorem Turns.delivered {self : IngestStage} {wake : Wake} {pending : List RawEvent}
    {out : List DeriveCommand} (h : self.Turns wake pending out) :
    delivered out ++ pending = self.pending ++ (intake self wake).2 := by
  show _ = self.pending ++ (self.accepted wake).toList.map Prod.fst
  cases h with
  | accept haccepted =>
    rw [haccepted]
    rfl
  | idle haccepted =>
    rw [haccepted]
    exact (List.append_nil _).symm
  | @flush reason last haccepted hlast =>
    have hsilent : IngestStage.delivered [last] = [] := by
      rcases hlast with rfl | ⟨now, -, rfl⟩ <;> rfl
    rw [delivered_append, delivered_flush, hsilent, haccepted, List.append_nil]
    rfl

theorem Turns.batch_ne_nil {self : IngestStage} {wake : Wake} {pending : List RawEvent}
    {out : List DeriveCommand} (h : self.Turns wake pending out) :
    ∀ batch ∈ batchesOf out, batch.events ≠ [] := by
  cases h with
  | accept => exact nofun
  | idle => exact nofun
  | @flush reason last haccepted hlast =>
    have hsilent : batchesOf [last] = [] := by
      rcases hlast with rfl | ⟨now, -, rfl⟩ <;> rfl
    rw [batchesOf_append, hsilent, List.append_nil, IngestStage.flush]
    split_ifs with hempty
    · exact nofun
    · simpa [batchesOf] using hempty

theorem Turns.pending_ne_nil {self : IngestStage} {wake : Wake} {pending : List RawEvent}
    {out : List DeriveCommand} (h : self.Turns wake pending out)
    (haccepted : (self.accepted wake).isSome = true) : pending ≠ [] := by
  cases h with
  | accept => exact List.concat_ne_nil _ _
  | idle hnone => simp [hnone] at haccepted
  | flush hnone => simp [hnone] at haccepted

/-- In every run the delivered events and then the pending ones are those that were pending and then
the converted ones. -/
theorem delivered_pending (self : IngestStage) (wakes : List Wake) :
    delivered (ingest.run self wakes).2 ++ (ingest.run self wakes).1.pending =
      self.pending ++ (intake.run self wakes).2 := by
  induction wakes generalizing self with
  | nil => simp [delivered, batchesOf]
  | cons wake wakes ih =>
    rw [Transducer.run_cons_snd, Transducer.run_cons_fst, Transducer.run_cons_snd, delivered_append,
      List.append_assoc, ih, ← List.append_assoc, (ingest_turns self wake).delivered,
      List.append_assoc]
    rfl

theorem batches_ne_nil (self : IngestStage) (wakes : List Wake) :
    ∀ batch ∈ batchesOf (ingest.run self wakes).2, batch.events ≠ [] := by
  induction wakes generalizing self with
  | nil => simp [batchesOf]
  | cons wake wakes ih =>
    intro batch hbatch
    rw [Transducer.run_cons_snd, batchesOf_append] at hbatch
    rcases List.mem_append.mp hbatch with hbatch | hbatch
    · exact (ingest_turns self wake).batch_ne_nil batch hbatch
    · exact ih _ batch hbatch

/-! ### Runs up to their end -/

/-- The turn is over: an event has got its id. -/
def Over (self : IngestStage) : Wake → Prop
  | .event _ now spins _ _ => (self.nextEventId now spins).isSome = true
  | .ticker .. => True
  | .disconnected => True

instance (self : IngestStage) : ∀ wake, Decidable (self.Over wake)
  | .event _ now spins _ _ => inferInstanceAs (Decidable ((self.nextEventId now spins).isSome = true))
  | .ticker .. => .isTrue trivial
  | .disconnected => .isTrue trivial

/-- The turns of a run of the stage, up to the one that leaves the loop. -/
def Exits (self : IngestStage) (wakes : List Wake) : Prop :=
  ∃ body last, wakes = body ++ [last] ∧ last.ends = true ∧ (∀ wake ∈ body, wake.ends = false) ∧
    ingest.Along Over self body

/-- The run does not end with a disconnected source right behind an event. -/
def Drained (wakes : List Wake) : Prop :=
  ∀ front last, wakes = front ++ [last, .disconnected] → last.isEvent = false

theorem accepted_isSome {self : IngestStage} {wake : Wake} (hevent : wake.isEvent = true)
    (hover : self.Over wake) : (self.accepted wake).isSome = true := by
  match wake with
  | .event event now spins tickNow sent =>
    obtain ⟨next, hnext⟩ := Option.isSome_iff_exists.mp hover
    cases event with
    | shutdown => cases hevent
    | keyboardInput | mouseInput | mouseWheel | windowFocusChange =>
      simp [accepted, hnext, convertKronidToRaw]

theorem pending_eq_nil_iff {self : IngestStage} {wake : Wake} (hstays : wake.ends = false)
    (hover : self.Over wake) : (ingest self wake).1.pending = [] ↔ wake.isEvent = false := by
  match wake with
  | .disconnected => cases hstays
  | .ticker woken tickNow sent =>
    refine iff_of_true ?_ rfl
    simp only [ingest]
    split_ifs with hempty
    · exact List.isEmpty_iff.mp hempty
    · exact List.isEmpty_iff.mp hempty
    · rfl
  | .event event now spins tickNow sent =>
    have hevent : (Wake.event event now spins tickNow sent).isEvent = true := by
      cases event with
      | shutdown => cases hstays
      | keyboardInput | mouseInput | mouseWheel | windowFocusChange => rfl
    exact iff_of_false ((ingest_turns self _).pending_ne_nil (accepted_isSome hevent hover))
      (by simp [hevent])

end IngestStage

open IngestStage in
/-- In every run of the ingest stage up to its end, the events of the batches it sends are, in order,
those that the received events were converted to, and no batch is empty, exactly if the run does not end
with a source that disconnects right behind an event. -/
theorem ingest_delivers_iff (started : Int) (wakes : List Wake)
    (hexits : (IngestStage.new started).Exits wakes) :
    (delivered (ingest.run (.new started) wakes).2 = (intake.run (.new started) wakes).2 ∧
        ∀ batch ∈ batchesOf (ingest.run (.new started) wakes).2, batch.events ≠ []) ↔
      Drained wakes := by
  have hbalance : delivered (ingest.run (.new started) wakes).2 ++
      (ingest.run (.new started) wakes).1.pending = (intake.run (.new started) wakes).2 :=
    delivered_pending (.new started) wakes
  rw [and_iff_left (batches_ne_nil _ wakes), ← hbalance, List.self_eq_append_right]
  obtain ⟨body, last, rfl, hlast, hbody, hover⟩ := hexits
  rw [Transducer.run_concat]
  match last with
  | .ticker .. => cases hlast
  | .event event now spins tickNow sent =>
    cases event with
    | keyboardInput | mouseInput | mouseWheel | windowFocusChange => cases hlast
    | shutdown =>
      refine iff_of_true rfl fun front last hsplit => ?_
      have hend := congrArg List.getLast? hsplit
      simp at hend
  | .disconnected =>
    show (ingest.run (.new started) body).1.pending = [] ↔ _
    rcases List.eq_nil_or_concat' body with rfl | ⟨front, wake, rfl⟩
    · refine iff_of_true rfl fun front last hsplit => ?_
      have hlength := congrArg List.length hsplit
      simp at hlength
    · obtain ⟨-, hlastOver, -⟩ := Transducer.along_append.mp hover
      rw [Transducer.run_concat, pending_eq_nil_iff (hbody wake (by simp)) hlastOver]
      constructor
      · intro hquiet front' last hsplit
        rw [List.append_assoc] at hsplit
        obtain ⟨-, hpair⟩ := List.append_inj' hsplit rfl
        rw [← (List.cons.inj hpair).1]
        exact hquiet
      · intro hdrained
        exact hdrained front wake (by rw [List.append_assoc]; rfl)

/-- A keystroke, the ticker, a focus change and the shutdown. -/
def promptShutdown : List Wake :=
  [.event .keyboardInput 5000000 [] 6000000 0, .ticker 50000000 50000000 50000000,
    .event (.windowFocusChange (.sample "Editor" "a" 1)) 60000000 [] 60000000 0,
    .event .shutdown 0 [] 0 0]

theorem promptShutdown_exits : (IngestStage.new 0).Exits promptShutdown :=
  ⟨promptShutdown.dropLast, .event .shutdown 0 [] 0 0, rfl, rfl, by decide, by decide⟩

theorem promptShutdown_drained : IngestStage.Drained promptShutdown := by
  intro front last hsplit
  have hend := congrArg List.getLast? hsplit
  simp [promptShutdown] at hend

open IngestStage in
theorem ingest_delivers_before_shutdown :
    delivered (ingest.run (.new 0) promptShutdown).2 = (intake.run (.new 0) promptShutdown).2 :=
  ((ingest_delivers_iff 0 promptShutdown promptShutdown_exits).mpr promptShutdown_drained).1

open IngestStage in
/-- The source disconnects behind a keystroke: it is never sent. -/
theorem keystroke_not_delivered :
    let wakes : List Wake := [.event .keyboardInput 5000000 [] 6000000 0, .disconnected]
    (IngestStage.new 0).Exits wakes ∧
      ¬ (delivered (ingest.run (.new 0) wakes).2 = (intake.run (.new 0) wakes).2 ∧
        ∀ batch ∈ batchesOf (ingest.run (.new 0) wakes).2, batch.events ≠ []) := by
  refine ⟨⟨[.event .keyboardInput 5000000 [] 6000000 0], .disconnected, rfl, rfl, by decide,
    by decide⟩, by decide⟩

end Kronical
