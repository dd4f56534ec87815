import Kronical.Lib.Machine
import Kronical.Server.EventStream

/-!
# Following the snapshots

The bus numbers the snapshots that it publishes and keeps the last one in a watch channel, from which the
HTTP server feeds each of its streams at a pace of its own. A client may miss snapshots, but it gets those
it gets in order and once, and a client for which there is nothing new shows what is current
(`followed_in_order`).
-/

namespace Kronical

/-- What `publish_basic` is called with, and the time it is called at. -/
structure Publication where
  state : ActivityState
  focus : Option WindowFocusInfo
  lastTransition : Option Transition
  records : List ActivityRecord
  counts : Counts
  cadenceMs : Nat
  cadenceReason : String
  nextTimeout : Option DateTime
  storage : StorageInfo
  config : ConfigSummary
  health : List String
  aggregatedApps : List SnapshotApp
  monotonicNs : Nat
  deriving DecidableEq, Repr

/-- `Snapshot::empty`. -/
def ServedSnapshot.empty (monotonicNs : Nat) : ServedSnapshot where
  toSnapshot := .empty
  monoNs := monotonicNs
  nextTimeout := none
  storage := ⟨0, none⟩
  config := ⟨0, 0, 0, 0, 0, 0, 0⟩
  health := []
  aggregatedApps := []

/-- The bus, and the channel through which snapshots leave it. -/
structure Feed where
  bus : SnapshotBus
  snapshots : Watch ServedSnapshot

inductive FeedAction
  | pushTransition (t : Transition)
  | publish (publication : Publication)
  /-- A client asks for the stream. -/
  | connect
  /-- There is room for the next event of a client's stream. -/
  | poll (client : Nat)

namespace Feed

/-- `SnapshotBus::new` and `new_with_run_id`. -/
def new (runId : Option String) (monotonicNs : Nat) : Feed :=
  ⟨.new runId, Watch.channel (.empty monotonicNs)⟩

def publishBasic (self : Feed) (publication : Publication) : Feed :=
  let bus := self.bus.publishBasic publication.state publication.focus publication.lastTransition
    publication.records publication.counts publication.cadenceMs publication.cadenceReason
  { bus
    snapshots := self.snapshots.send
      { toSnapshot := bus.snapshot
        monoNs := publication.monotonicNs
        nextTimeout := publication.nextTimeout
        storage := publication.storage
        config := publication.config
        health := publication.health
        aggregatedApps := publication.aggregatedApps } }

def step (self : Feed) : FeedAction → Option Feed
  | .pushTransition t => some { self with bus := self.bus.pushTransition t }
  | .publish publication => some (self.publishBasic publication)
  | .connect => some { self with snapshots := self.snapshots.subscribe }
  | .poll client => (self.snapshots.poll client).map fun snapshots => { self with snapshots }

def machine : Machine Feed FeedAction where
  start self := ∃ runId monotonicNs, self = new runId monotonicNs
  step := step

/-- The snapshots are numbered in the order they are sent in, and no client got one out of order. -/
structure Ordered (feed : Feed) : Prop where
  numbered : feed.snapshots.sent.map (fun snap => snap.seq) = List.range (feed.bus.seq + 1)
  sound : feed.snapshots.AllSound

theorem ordered_new (runId : Option String) (monotonicNs : Nat) : (new runId monotonicNs).Ordered :=
  ⟨rfl, Watch.allSound_channel _⟩

theorem Ordered.step {self next : Feed} (h : self.Ordered) {action : FeedAction}
    (hstep : self.step action = some next) : next.Ordered := by
  cases action with
  | pushTransition t =>
    obtain rfl := Option.some.inj hstep
    exact ⟨h.numbered, h.sound⟩
  | publish publication =>
    obtain rfl := Option.some.inj hstep
    refine ⟨?_, h.sound.send _⟩
    simp only [publishBasic, Watch.send, List.map_append, h.numbered, List.map_cons, List.map_nil]
    exact List.range_succ.symm
  | connect =>
    obtain rfl := Option.some.inj hstep
    exact ⟨h.numbered, h.sound.subscribe⟩
  | poll client =>
    obtain ⟨snapshots, hpoll, rfl⟩ := Option.map_eq_some_iff.mp hstep
    refine ⟨?_, h.sound.poll hpoll⟩
    rw [Watch.poll_sent hpoll]
    exact h.numbered

theorem ordered {self : Feed} (h : machine.Reachable self) : self.Ordered := by
  refine Machine.Reach.invariant ?_ ?_ h
  · rintro _ ⟨runId, monotonicNs, rfl⟩
    exact ordered_new runId monotonicNs
  · intro _ _ _ _ _ hstep hordered
    exact hordered.step hstep

theorem Ordered.increasing {self : Feed} (h : self.Ordered) {got : List ServedSnapshot}
    (hgot : got.Sublist self.snapshots.sent) : (got.map fun snap => snap.seq).Pairwise (· < ·) := by
  have hsublist := List.Sublist.map (fun snap : ServedSnapshot => snap.seq) hgot
  rw [h.numbered] at hsublist
  exact List.pairwise_lt_range.sublist hsublist

variable {encoding : HttpEncoding} {render : Json → String} {text : InstantText}
  {parse : String → Option Json}

/-- A client that follows the stream, whatever it has received of it: it has printed snapshots that were
sent, each as it was, in order and once. Once it has received all that it was sent and there is nothing
new for it, it has printed last the snapshot that every other client now gets. -/
theorem followed_in_order (hencoding : encoding.Standard) (hrender : CompactWriter render) {self : Feed}
    (h : machine.Reachable self) (hserved : ∀ snap ∈ self.snapshots.sent, Served render text parse snap)
    (receiver : Nat × List ServedSnapshot) (hreceiver : receiver ∈ self.snapshots.receivers)
    (chunks : List (List ServedSnapshot)) (hchunks : chunks.flatten = receiver.2)
    (hnonempty : ∀ snaps ∈ chunks, snaps ≠ []) {received : List UInt8}
    (hhead : Utf8.encode encoding.streamHead <+: received)
    (hreceived : received <+: Utf8.encode (streamResponse encoding render text chunks)) :
    (∃ printed : List ServedSnapshot,
      (sseWatchViaHttp text parse received).1 = printed.map (shown render text) ∧
      printed.Sublist self.snapshots.sent ∧ (printed.map fun snap => snap.seq).Pairwise (· < ·)) ∧
      (received = Utf8.encode (streamResponse encoding render text chunks) →
        self.snapshots.UpToDate receiver →
          ∃ before current, self.snapshots.current? = some current ∧
            sseWatchViaHttp text parse received =
              ((before ++ [current]).map (shown render text), .ok ()) ∧
            monitorFrames text parse received = before ++ [current] ∧
            httpGetSnapshot text parse (snapshotResponse encoding render text current) = .ok current) := by
  have hordered := ordered h
  have hsound := hordered.sound receiver hreceiver
  have hgot : receiver.2.Sublist self.snapshots.sent := hsound.sublist.trans (List.take_sublist _ _)
  have hserved' : ∀ snap ∈ chunks.flatten, Served render text parse snap := by
    rw [hchunks]
    exact fun snap hsnap => hserved snap (hgot.subset hsnap)
  constructor
  · have hbefore : Utf8.encode (streamResponse encoding render text []) <+: received := by
      simpa [streamResponse] using hhead
    obtain ⟨⟨printed, hprinted, -, hfirst⟩, -⟩ :=
      watch_prints_served hencoding hrender [] chunks hnonempty hserved' hbefore hreceived
    rw [List.nil_append, hchunks] at hfirst
    have hsublist := hfirst.sublist.trans hgot
    exact ⟨printed, hprinted, hsublist, hordered.increasing hsublist⟩
  · rintro rfl hupToDate
    have hcurrent := hsound.current hupToDate
    have hsent : self.snapshots.sent ≠ [] := by
      intro hempty
      have hnumbered := hordered.numbered
      rw [hempty] at hnumbered
      simp at hnumbered
    obtain ⟨current, hlast⟩ : ∃ current, self.snapshots.sent.getLast? = some current :=
      ⟨_, List.getLast?_eq_some_getLast hsent⟩
    have hcurrent? : self.snapshots.current? = some current := hlast
    rw [hcurrent?] at hcurrent
    obtain ⟨before, hbefore⟩ := List.getLast?_eq_some_iff.mp hcurrent
    refine ⟨before, current, hcurrent?, ?_, ?_, ?_⟩
    · rw [sseWatchViaHttp_response hencoding hrender hnonempty hserved', hchunks, hbefore]
    · rw [monitorFrames_response hencoding hrender hnonempty hserved', hchunks, hbefore]
    · exact httpGetSnapshot_response hencoding (hserved current (List.mem_of_getLast? hlast))

/-! ### A client that comes after the first snapshot -/

/-- What makes the first snapshot. -/
def quietPublication : Publication :=
  { state := quietSnapshot.activityState, focus := quietSnapshot.focus, lastTransition := none,
    records := quietSnapshot.records, counts := quietSnapshot.counts, cadenceMs := quietSnapshot.cadenceMs,
    cadenceReason := quietSnapshot.cadenceReason, nextTimeout := quietSnapshot.nextTimeout,
    storage := quietSnapshot.storage, config := quietSnapshot.config, health := [], aggregatedApps := [],
    monotonicNs := quietSnapshot.monoNs }

/-- After it has been published, and the client has connected and got it. -/
def sampleFollowed : Feed :=
  { bus := ((new quietSnapshot.runId 0).publishBasic quietPublication).bus
    snapshots := ⟨[.empty 0, quietSnapshot], [(2, [quietSnapshot])]⟩ }

theorem sampleFollowed_reachable : machine.Reachable sampleFollowed := by
  have hrun : machine.exec (new quietSnapshot.runId 0) [.publish quietPublication, .connect, .poll 0] =
      some sampleFollowed := rfl
  exact Machine.Reachable.exec (.start ⟨quietSnapshot.runId, 0, rfl⟩) hrun

theorem empty_fits : (SnapshotJson.snapshot sampleText).Fits (.empty 0) := by
  have hzero : 0 < 2 ^ 64 := by decide
  refine ⟨hzero, hzero, Json.Codec.fits_none, Json.Codec.fits_none, Json.Codec.fits_nil,
    (by decide : 0 < 2 ^ 32), Json.Codec.fits_none, ?_, ?_, Json.Codec.fits_nil, Json.Codec.fits_nil⟩
  · exact ⟨hzero, Json.Codec.fits_none⟩
  · exact ⟨hzero, hzero, hzero, hzero, hzero, hzero, hzero⟩

theorem sampleFollowed_served :
    ∀ snap ∈ [.empty 0, quietSnapshot],
      Served sampleRender sampleText (bodiesParse [.empty 0, quietSnapshot]) snap := by
  refine served_bodiesParse ?_ ?_
  · intro snap hsnap
    simp only [List.mem_cons, List.not_mem_nil, or_false] at hsnap
    rcases hsnap with rfl | rfl
    · exact empty_fits
    · exact quietSnapshot_fits
  · have hne : (ServedSnapshot.empty 0).body sampleRender sampleText ≠
        quietSnapshot.body sampleRender sampleText := body_ne (by decide)
    simpa using hne

theorem followed_quiet :
    ∃ before current, sampleFollowed.snapshots.current? = some current ∧
      sseWatchViaHttp sampleText (bodiesParse [.empty 0, quietSnapshot])
        (Utf8.encode (streamResponse sampleEncoding sampleRender sampleText [[quietSnapshot]])) =
          ((before ++ [current]).map (shown sampleRender sampleText), .ok ()) ∧
      monitorFrames sampleText (bodiesParse [.empty 0, quietSnapshot])
        (Utf8.encode (streamResponse sampleEncoding sampleRender sampleText [[quietSnapshot]])) =
          before ++ [current] ∧
      httpGetSnapshot sampleText (bodiesParse [.empty 0, quietSnapshot])
        (snapshotResponse sampleEncoding sampleRender sampleText current) = .ok current :=
  (followed_in_order standard_sample compactWriter_sample sampleFollowed_reachable sampleFollowed_served
    (2, [quietSnapshot]) (List.mem_singleton_self _) [[quietSnapshot]] rfl (by simp)
    (Utf8.encode_mono (List.prefix_append _ _)) (List.prefix_refl _)).2 rfl rfl

end Feed

end Kronical
