import Mathlib.Algebra.Group.Nat.Defs
import Kronical.Lib.Machine

/-!
# The storage backlog

The thread that sends commands to a writer counts each one after it has sent it, the writer counts it
off after it has executed it, and both then read the counter and publish what they read. So the count
wraps around when the writer is through with a command before its sender has counted it, and an
outdated reading stays published when nobody is left to publish another one
(`backlog_sound_iff_orderly`).
-/

namespace Kronical

structure StorageMetrics where
  backlogCount : BitVec 64
  lastFlushAt : Option Int
  deriving DecidableEq, Repr

/-- Where a thread is in an update of a counter: before it, or in the `publish_metrics` behind it. -/
inductive Update
  | apply
  | read
  | publish (metrics : StorageMetrics)
  deriving DecidableEq, Repr

/-- The thread that calls `add_*`: between two commands, or in the `inc_backlog` behind a send. -/
inductive Producer
  | idle
  | inc (update : Update)
  deriving DecidableEq, Repr

/-- The writer: at its receive, with a command to execute, in a `set_last_flush` (of the loop or of the
end), in the `dec_backlog` behind a command, or gone. -/
inductive BacklogWriter
  | waiting
  | executing
  | flush (update : Update)
  | dec (update : Update)
  | finalFlush (update : Update)
  | ended
  deriving DecidableEq, Repr

structure Backlog where
  /-- `STORAGE_BACKLOG`. -/
  storageBacklog : BitVec 64
  /-- `LAST_FLUSH_AT_EPOCH`. -/
  lastFlushAtEpoch : Int
  published : StorageMetrics
  /-- The commands in the channel. -/
  queue : Nat
  /-- A `Shutdown` is behind them. -/
  closed : Bool
  /-- The commands sent so far. -/
  sent : Nat
  /-- The writer's `count`. -/
  count : Nat
  producer : Producer
  writer : BacklogWriter
  deriving DecidableEq, Repr

/-- A thread makes its next step. The producer chooses what it does when it is idle; a flush reads the
clock. -/
inductive BacklogAction
  | send
  | shutdown
  | producer
  | writer (now : Int)
  deriving DecidableEq, Repr

namespace Backlog

def new : Backlog :=
  { storageBacklog := 0, lastFlushAtEpoch := 0, published := ⟨0, none⟩, queue := 0, closed := false,
    sent := 0, count := 0, producer := .idle, writer := .waiting }

def storageMetricsSnapshot (self : Backlog) : StorageMetrics :=
  { backlogCount := self.storageBacklog
    lastFlushAt := if self.lastFlushAtEpoch > 0 then some self.lastFlushAtEpoch else none }

def stepProducer (self : Backlog) : Option Backlog :=
  match self.producer with
  | .idle => none
  | .inc .apply =>
    some { self with storageBacklog := self.storageBacklog + 1, producer := .inc .read }
  | .inc .read => some { self with producer := .inc (.publish self.storageMetricsSnapshot) }
  | .inc (.publish metrics) => some { self with published := metrics, producer := .idle }

def stepWriter (self : Backlog) (now : Int) : Option Backlog :=
  match self.writer with
  | .waiting =>
    if 0 < self.queue then some { self with queue := self.queue - 1, writer := .executing }
    else if self.closed then some { self with writer := .finalFlush .apply }
    else none
  | .executing =>
    let count := self.count + 1
    some { self with
      count := count
      writer := if count % 100 = 0 then .flush .apply else .dec .apply }
  | .flush .apply => some { self with lastFlushAtEpoch := now, writer := .flush .read }
  | .flush .read => some { self with writer := .flush (.publish self.storageMetricsSnapshot) }
  | .flush (.publish metrics) => some { self with published := metrics, writer := .dec .apply }
  | .dec .apply => some { self with storageBacklog := self.storageBacklog - 1, writer := .dec .read }
  | .dec .read => some { self with writer := .dec (.publish self.storageMetricsSnapshot) }
  | .dec (.publish metrics) => some { self with published := metrics, writer := .waiting }
  | .finalFlush .apply => some { self with lastFlushAtEpoch := now, writer := .finalFlush .read }
  | .finalFlush .read =>
    some { self with writer := .finalFlush (.publish self.storageMetricsSnapshot) }
  | .finalFlush (.publish metrics) => some { self with published := metrics, writer := .ended }
  | .ended => none

def step (self : Backlog) : BacklogAction → Option Backlog
  | .send =>
    if self.producer = .idle ∧ self.closed = false then
      some { self with queue := self.queue + 1, sent := self.sent + 1, producer := .inc .apply }
    else none
  | .shutdown => if self.producer = .idle then some { self with closed := true } else none
  | .producer => self.stepProducer
  | .writer now => self.stepWriter now

/-- A producer and a writer, one step after the other in any order. -/
def machine : Machine Backlog BacklogAction := ⟨(· = .new), step⟩

/-! ### What a step can do -/

/-- What a step does to the state. -/
inductive Does (s : Backlog) : BacklogAction → Backlog → Prop
  | send (hidle : s.producer = .idle) (hopen : s.closed = false) :
      Does s .send { s with queue := s.queue + 1, sent := s.sent + 1, producer := .inc .apply }
  | shutdown (hidle : s.producer = .idle) : Does s .shutdown { s with closed := true }
  | increment (hproducer : s.producer = .inc .apply) :
      Does s .producer { s with storageBacklog := s.storageBacklog + 1, producer := .inc .read }
  | incRead (hproducer : s.producer = .inc .read) :
      Does s .producer { s with producer := .inc (.publish s.storageMetricsSnapshot) }
  | incPublish {metrics} (hproducer : s.producer = .inc (.publish metrics)) :
      Does s .producer { s with published := metrics, producer := .idle }
  | receive {now} (hwriter : s.writer = .waiting) (hqueue : 0 < s.queue) :
      Does s (.writer now) { s with queue := s.queue - 1, writer := .executing }
  | leave {now} (hwriter : s.writer = .waiting) (hqueue : s.queue = 0) (hclosed : s.closed = true) :
      Does s (.writer now) { s with writer := .finalFlush .apply }
  | execute {now} (hwriter : s.writer = .executing) (count) :
      Does s (.writer now) { s with count := count, writer := .dec .apply }
  | commit {now} (hwriter : s.writer = .executing) (count) :
      Does s (.writer now) { s with count := count, writer := .flush .apply }
  | flush {now} (hwriter : s.writer = .flush .apply) :
      Does s (.writer now) { s with lastFlushAtEpoch := now, writer := .flush .read }
  | flushRead {now} (hwriter : s.writer = .flush .read) :
      Does s (.writer now) { s with writer := .flush (.publish s.storageMetricsSnapshot) }
  | flushPublish {now metrics} (hwriter : s.writer = .flush (.publish metrics)) :
      Does s (.writer now) { s with published := metrics, writer := .dec .apply }
  | decrement {now} (hwriter : s.writer = .dec .apply) :
      Does s (.writer now)
        { s with storageBacklog := s.storageBacklog - 1, writer := .dec .read }
  | decRead {now} (hwriter : s.writer = .dec .read) :
      Does s (.writer now) { s with writer := .dec (.publish s.storageMetricsSnapshot) }
  | decPublish {now metrics} (hwriter : s.writer = .dec (.publish metrics)) :
      Does s (.writer now) { s with published := metrics, writer := .waiting }
  | finalFlush {now} (hwriter : s.writer = .finalFlush .apply) :
      Does s (.writer now) { s with lastFlushAtEpoch := now, writer := .finalFlush .read }
  | finalRead {now} (hwriter : s.writer = .finalFlush .read) :
      Does s (.writer now) { s with writer := .finalFlush (.publish s.storageMetricsSnapshot) }
  | finalPublish {now metrics} (hwriter : s.writer = .finalFlush (.publish metrics)) :
      Does s (.writer now) { s with published := metrics, writer := .ended }

theorem step_cases {s t : Backlog} {a : BacklogAction} (h : step s a = some t) : Does s a t := by
  cases a with
  | send =>
    simp only [step] at h
    split_ifs at h with hsend
    cases h
    exact .send hsend.1 hsend.2
  | shutdown =>
    simp only [step] at h
    split_ifs at h with hidle
    cases h
    exact .shutdown hidle
  | producer =>
    simp only [step, stepProducer] at h
    split at h
    · cases h
    · cases h
      exact .increment ‹_›
    · cases h
      exact .incRead ‹_›
    · cases h
      exact .incPublish ‹_›
  | writer now =>
    simp only [step, stepWriter] at h
    split at h
    · split_ifs at h with hqueue hclosed
      · cases h
        exact .receive ‹_› hqueue
      · cases h
        exact .leave ‹_› (by omega) hclosed
    · split_ifs at h with hfull
      · cases h
        exact .commit ‹_› _
      · cases h
        exact .execute ‹_› _
    · cases h
      exact .flush ‹_›
    · cases h
      exact .flushRead ‹_›
    · cases h
      exact .flushPublish ‹_›
    · cases h
      exact .decrement ‹_›
    · cases h
      exact .decRead ‹_›
    · cases h
      exact .decPublish ‹_›
    · cases h
      exact .finalFlush ‹_›
    · cases h
      exact .finalRead ‹_›
    · cases h
      exact .finalPublish ‹_›
    · cases h

/-! ### What the counter should show -/

/-- Every command sent has been processed and no call is in progress. -/
def Quiet (self : Backlog) : Prop :=
  self.queue = 0 ∧ self.producer = .idle ∧ (self.writer = .waiting ∨ self.writer = .ended)

instance (self : Backlog) : Decidable self.Quiet :=
  inferInstanceAs (Decidable (_ ∧ _ ∧ (_ ∨ _)))

/-- The counter is at most the number of commands sent, and the last count published is 0 when
everything is quiet. -/
def Sound (self : Backlog) : Prop :=
  self.storageBacklog.toNat ≤ self.sent ∧ (self.Quiet → self.published.backlogCount = 0)

instance (self : Backlog) : Decidable self.Sound :=
  inferInstanceAs (Decidable (_ ∧ (_ → _)))

/-- The writer counts a command off only after its sender has counted it, and an outdated count is
published only while a command is in the channel or the other thread is inside its call. -/
def Orderly (s : Backlog) : BacklogAction → Prop
  | .producer =>
    match s.producer with
    | .inc (.publish metrics) =>
      metrics.backlogCount = s.storageBacklog ∨ s.queue ≠ 0 ∨ (s.writer ≠ .waiting ∧ s.writer ≠ .ended)
    | _ => True
  | .writer _ =>
    match s.writer with
    | .dec .apply => s.producer = .inc .apply → s.queue ≠ 0
    | .dec (.publish metrics) =>
      metrics.backlogCount = s.storageBacklog ∨ s.queue ≠ 0 ∨ s.producer ≠ .idle
    | _ => True
  | _ => True

/-! ### In every run -/

/-- The command that is sent but not counted. -/
def uncounted (self : Backlog) : Nat :=
  match self.producer with
  | .inc .apply => 1
  | _ => 0

/-- The command that is received but not counted off. -/
def working (self : Backlog) : Nat :=
  match self.writer with
  | .executing | .flush _ | .dec .apply => 1
  | _ => 0

/-- The counter lags behind the commands that are under way by the one not counted yet, modulo its
width; of two threads about to publish, one has read the current count; and with the channel closed
only the writer is left. -/
structure Sane (s : Backlog) : Prop where
  counted : (s.storageBacklog.toNat + s.uncounted) % 2 ^ 64 = (s.queue + s.working) % 2 ^ 64
  sent : s.queue + s.working ≤ s.sent
  fresh : ∀ metrics metrics', s.producer = .inc (.publish metrics) →
    s.writer = .dec (.publish metrics') →
      metrics.backlogCount = s.storageBacklog ∨ metrics'.backlogCount = s.storageBacklog
  closed : s.closed = true → s.producer = .idle
  left : ∀ update, s.writer = .finalFlush update → s.closed = true ∧ s.queue = 0
  final : ∀ metrics, s.writer = .finalFlush (.publish metrics) →
    metrics.backlogCount = s.storageBacklog

theorem sane_new : Sane new where
  counted := rfl
  sent := Nat.le_refl 0
  fresh := nofun
  closed := nofun
  left := nofun
  final := nofun

theorem Does.counted {s t : Backlog} {a : BacklogAction} (h : Does s a t)
    (hs : (s.storageBacklog.toNat + s.uncounted) % 2 ^ 64 = (s.queue + s.working) % 2 ^ 64) :
    (t.storageBacklog.toNat + t.uncounted) % 2 ^ 64 = (t.queue + t.working) % 2 ^ 64 := by
  have hlt := s.storageBacklog.isLt
  cases h with
  | send hidle hopen =>
    simp only [uncounted, working, hidle] at hs ⊢
    omega
  | shutdown hidle => exact hs
  | increment hproducer =>
    simp only [uncounted, working, hproducer, BitVec.toNat_add, BitVec.ofNat_eq_ofNat,
      BitVec.toNat_ofNat] at hs ⊢
    omega
  | incRead hproducer =>
    simp only [uncounted, working, hproducer] at hs ⊢
    exact hs
  | incPublish hproducer =>
    simp only [uncounted, working, hproducer] at hs ⊢
    exact hs
  | receive hwriter hqueue =>
    simp only [uncounted, working, hwriter] at hs ⊢
    omega
  | decrement hwriter =>
    simp only [uncounted, working, hwriter, BitVec.toNat_sub, BitVec.ofNat_eq_ofNat,
      BitVec.toNat_ofNat] at hs ⊢
    omega
  | leave hwriter | execute hwriter | commit hwriter | flush hwriter | flushRead hwriter
  | flushPublish hwriter | decRead hwriter | decPublish hwriter | finalFlush hwriter
  | finalRead hwriter | finalPublish hwriter =>
    simp only [uncounted, working, hwriter] at hs ⊢
    exact hs

theorem Does.sent {s t : Backlog} {a : BacklogAction} (h : Does s a t)
    (hs : s.queue + s.working ≤ s.sent) : t.queue + t.working ≤ t.sent := by
  cases h with
  | send hidle hopen =>
    simp only [working] at hs ⊢
    omega
  | shutdown | increment | incRead | incPublish => exact hs
  | receive hwriter | leave hwriter | execute hwriter | commit hwriter | flush hwriter
  | flushRead hwriter | flushPublish hwriter | decrement hwriter | decRead hwriter
  | decPublish hwriter | finalFlush hwriter | finalRead hwriter | finalPublish hwriter =>
    simp only [working, hwriter] at hs ⊢
    omega

theorem Does.fresh {s t : Backlog} {a : BacklogAction} (h : Does s a t)
    (hs : ∀ metrics metrics', s.producer = .inc (.publish metrics) →
      s.writer = .dec (.publish metrics') →
        metrics.backlogCount = s.storageBacklog ∨ metrics'.backlogCount = s.storageBacklog) :
    ∀ metrics metrics', t.producer = .inc (.publish metrics) → t.writer = .dec (.publish metrics') →
      metrics.backlogCount = t.storageBacklog ∨ metrics'.backlogCount = t.storageBacklog := by
  intro metrics metrics' hproducer hwriter
  cases h with
  | incRead => cases hproducer; exact .inl rfl
  | decRead => cases hwriter; exact .inr rfl
  | shutdown => exact hs metrics metrics' hproducer hwriter
  | send | increment | incPublish => cases hproducer
  | receive | leave | execute | commit | flush | flushRead | flushPublish | decrement | decPublish
  | finalFlush | finalRead | finalPublish => cases hwriter

theorem Does.closed {s t : Backlog} {a : BacklogAction} (h : Does s a t)
    (hs : s.closed = true → s.producer = .idle) : t.closed = true → t.producer = .idle := by
  intro hclosed
  cases h with
  | send hidle hopen => exact absurd (hopen.symm.trans hclosed) Bool.false_ne_true
  | shutdown hidle => exact hidle
  | increment hproducer | incRead hproducer | incPublish hproducer =>
    exact absurd ((hs hclosed).symm.trans hproducer) nofun
  | receive | leave | execute | commit | flush | flushRead | flushPublish | decrement | decRead
  | decPublish | finalFlush | finalRead | finalPublish => exact hs hclosed

theorem Sane.left_step {s t : Backlog} {a : BacklogAction} (hs : Sane s) (h : Does s a t) :
    ∀ update, t.writer = .finalFlush update → t.closed = true ∧ t.queue = 0 := by
  intro update hupdate
  cases h with
  | send hidle hopen => exact absurd (hopen.symm.trans (hs.left update hupdate).1) Bool.false_ne_true
  | shutdown => exact ⟨rfl, (hs.left update hupdate).2⟩
  | increment | incRead | incPublish => exact hs.left update hupdate
  | leave hwriter hqueue hclosed => exact ⟨hclosed, hqueue⟩
  | finalFlush hwriter | finalRead hwriter => exact hs.left _ hwriter
  | receive | execute | commit | flush | flushRead | flushPublish | decrement | decRead | decPublish
  | finalPublish => cases hupdate

theorem Sane.final_step {s t : Backlog} {a : BacklogAction} (hs : Sane s) (h : Does s a t) :
    ∀ metrics, t.writer = .finalFlush (.publish metrics) →
      metrics.backlogCount = t.storageBacklog := by
  intro metrics hpublish
  cases h with
  | increment hproducer =>
    have hidle := hs.closed (hs.left _ hpublish).1
    exact absurd (hidle.symm.trans hproducer) nofun
  | send | shutdown | incRead | incPublish => exact hs.final metrics hpublish
  | finalRead => cases hpublish; rfl
  | receive | leave | execute | commit | flush | flushRead | flushPublish | decrement | decRead
  | decPublish | finalFlush | finalPublish => cases hpublish

theorem Sane.step {s t : Backlog} {a : BacklogAction} (hs : Sane s) (h : Does s a t) : Sane t where
  counted := h.counted hs.counted
  sent := h.sent hs.sent
  fresh := h.fresh hs.fresh
  closed := h.closed hs.closed
  left := hs.left_step h
  final := hs.final_step h

theorem sane_of_reach {ok : Backlog → BacklogAction → Prop} {s : Backlog}
    (hs : machine.Reach ok s) : Sane s := by
  refine hs.invariant (fun s hstart => ?_) fun s a t _ _ hstep ih => ih.step (step_cases hstep)
  rw [show s = new from hstart]
  exact sane_new

/-! ### In orderly runs -/

/-- The producer has yet to publish a current count. -/
def producerDue (self : Backlog) : Prop :=
  match self.producer with
  | .idle => False
  | .inc (.publish metrics) => metrics.backlogCount = self.storageBacklog
  | .inc _ => True

/-- The writer has yet to publish a current count. -/
def writerDue (self : Backlog) : Prop :=
  match self.writer with
  | .waiting | .ended => False
  | .dec (.publish metrics) => metrics.backlogCount = self.storageBacklog
  | _ => True

/-- The command that is not counted yet is still under way, and the count published last is current
unless a current one is still to be published. -/
structure Settled (s : Backlog) : Prop where
  ahead : s.uncounted ≤ s.queue + s.working
  current : s.published.backlogCount = s.storageBacklog ∨ s.queue ≠ 0 ∨ s.producerDue ∨ s.writerDue

theorem Settled.ahead_step {s t : Backlog} {a : BacklogAction} (hs : Settled s) (hok : Orderly s a)
    (h : Does s a t) : t.uncounted ≤ t.queue + t.working := by
  have hahead := hs.ahead
  cases h with
  | send hidle hopen =>
    simp only [uncounted]
    omega
  | shutdown => exact hahead
  | increment | incRead | incPublish =>
    simp only [uncounted]
    omega
  | receive hwriter hqueue =>
    simp only [uncounted, working, hwriter] at hahead ⊢
    omega
  | decrement hwriter =>
    simp only [Orderly, hwriter] at hok
    simp only [uncounted, working] at hahead ⊢
    split
    · have hqueue := hok ‹_›
      omega
    · omega
  | leave hwriter | execute hwriter | commit hwriter | flush hwriter | flushRead hwriter
  | flushPublish hwriter | decRead hwriter | decPublish hwriter | finalFlush hwriter
  | finalRead hwriter | finalPublish hwriter =>
    simp only [uncounted, working, hwriter] at hahead ⊢
    exact hahead

theorem Sane.producerDue_of_publish {s : Backlog} (hs : Sane s) {metrics : StorageMetrics}
    (hwriter : s.writer = .dec (.publish metrics)) (hstale : metrics.backlogCount ≠ s.storageBacklog)
    (hbusy : s.producer ≠ .idle) : s.producerDue := by
  unfold producerDue
  split
  · exact absurd ‹_› hbusy
  · exact (hs.fresh _ _ ‹_› hwriter).resolve_right hstale
  · trivial

theorem Sane.writerDue_of_publish {s : Backlog} (hs : Sane s) {metrics : StorageMetrics}
    (hproducer : s.producer = .inc (.publish metrics))
    (hstale : metrics.backlogCount ≠ s.storageBacklog)
    (hbusy : s.writer ≠ .waiting ∧ s.writer ≠ .ended) : s.writerDue := by
  unfold writerDue
  split
  · exact absurd ‹_› hbusy.1
  · exact absurd ‹_› hbusy.2
  · exact (hs.fresh _ _ hproducer ‹_›).resolve_left hstale
  · trivial

theorem Settled.current_step {s t : Backlog} {a : BacklogAction} (hs : Settled s) (hsane : Sane s)
    (hok : Orderly s a) (h : Does s a t) :
    t.published.backlogCount = t.storageBacklog ∨ t.queue ≠ 0 ∨ t.producerDue ∨ t.writerDue := by
  have hcurrent := hs.current
  cases h with
  | send => exact .inr (.inl (Nat.succ_ne_zero _))
  | shutdown => exact hcurrent
  | increment => exact .inr (.inr (.inl trivial))
  | incRead => exact .inr (.inr (.inl rfl))
  | receive | execute | commit | flush | flushRead | flushPublish | decrement =>
    exact .inr (.inr (.inr trivial))
  | decRead => exact .inr (.inr (.inr rfl))
  | leave | finalFlush | finalRead => exact .inr (.inr (.inr trivial))
  | @incPublish metrics hproducer =>
    by_cases hstale : metrics.backlogCount = s.storageBacklog
    · exact .inl hstale
    · simp only [Orderly, hproducer] at hok
      rcases hok.resolve_left hstale with hqueue | hbusy
      · exact .inr (.inl hqueue)
      · exact .inr (.inr (.inr (hsane.writerDue_of_publish hproducer hstale hbusy)))
  | @decPublish now metrics hwriter =>
    by_cases hstale : metrics.backlogCount = s.storageBacklog
    · exact .inl hstale
    · simp only [Orderly, hwriter] at hok
      rcases hok.resolve_left hstale with hqueue | hbusy
      · exact .inr (.inl hqueue)
      · exact .inr (.inr (.inl (hsane.producerDue_of_publish hwriter hstale hbusy)))
  | finalPublish hwriter => exact .inl (hsane.final _ hwriter)

theorem settled_of_reach {s : Backlog} (hs : machine.Reach Orderly s) : Settled s := by
  refine hs.invariant (fun s hstart => ?_) fun s a t hreach hok hstep ih => ?_
  · rw [show s = new from hstart]
    exact ⟨Nat.zero_le _, .inl rfl⟩
  · have hdoes := step_cases hstep
    exact ⟨ih.ahead_step hok hdoes, ih.current_step (sane_of_reach hreach) hok hdoes⟩

theorem Sane.quiet {s : Backlog} (hs : Sane s) (hquiet : s.Quiet) : s.storageBacklog = 0 := by
  obtain ⟨hqueue, hproducer, hwriter⟩ := hquiet
  have hcounted := hs.counted
  have hlt := s.storageBacklog.isLt
  have hworking : s.working = 0 := by
    rcases hwriter with hwriter | hwriter <;> rw [working, hwriter]
  have huncounted : s.uncounted = 0 := by
    rw [uncounted, hproducer]
  refine BitVec.eq_of_toNat_eq ?_
  show s.storageBacklog.toNat = 0
  rw [huncounted, hqueue, hworking] at hcounted
  omega

theorem Settled.sound {s : Backlog} (hs : Settled s) (hsane : Sane s) : s.Sound := by
  constructor
  · have hcounted := hsane.counted
    have hsent := hsane.sent
    have hahead := hs.ahead
    have hlt := s.storageBacklog.isLt
    omega
  · intro hquiet
    obtain ⟨hqueue, hproducer, hwriter⟩ := id hquiet
    rw [← hsane.quiet hquiet]
    rcases hs.current with hcurrent | hmore | hdue | hdue
    · exact hcurrent
    · exact absurd hqueue hmore
    · rw [producerDue, hproducer] at hdue
      exact absurd hdue not_false
    · rcases hwriter with hwriter | hwriter <;>
      · rw [writerDue, hwriter] at hdue
        exact absurd hdue not_false

theorem not_sound_of_not_orderly {s t : Backlog} {a : BacklogAction} (hs : machine.Reachable s)
    (hstep : machine.step s a = some t) (hdisorderly : ¬ Orderly s a) (hsent : s.sent + 1 < 2 ^ 64) :
    ¬ t.Sound := by
  intro hsound
  have hsane := sane_of_reach hs
  have hsane' : Sane t := hsane.step (step_cases hstep)
  cases step_cases hstep with
  | @incPublish metrics hproducer =>
    simp only [Orderly, hproducer, not_or, not_and_or, not_not] at hdisorderly
    obtain ⟨hstale, hqueue, hwriter⟩ := hdisorderly
    have hquiet : { s with published := metrics, producer := .idle }.Quiet := ⟨hqueue, rfl, hwriter⟩
    exact hstale ((hsound.2 hquiet).trans (hsane'.quiet hquiet).symm)
  | @decPublish now metrics hwriter =>
    simp only [Orderly, hwriter, not_or, not_not] at hdisorderly
    obtain ⟨hstale, hqueue, hproducer⟩ := hdisorderly
    have hquiet : { s with published := metrics, writer := .waiting }.Quiet :=
      ⟨hqueue, hproducer, .inl rfl⟩
    exact hstale ((hsound.2 hquiet).trans (hsane'.quiet hquiet).symm)
  | decrement hwriter =>
    simp only [Orderly, hwriter, Classical.not_imp, not_not] at hdisorderly
    obtain ⟨hproducer, hqueue⟩ := hdisorderly
    -- the counter is 0 and wraps around
    have hcounted := hsane.counted
    have hbound := hsound.1
    have hlt := s.storageBacklog.isLt
    simp only [uncounted, working, hproducer, hwriter, hqueue] at hcounted
    simp only [BitVec.toNat_sub, BitVec.ofNat_eq_ofNat, BitVec.toNat_ofNat] at hbound
    omega
  | send | shutdown => exact hdisorderly trivial
  | increment h | incRead h | receive h | leave h | execute h | commit h | flush h | flushRead h
  | flushPublish h | decRead h | finalFlush h | finalRead h | finalPublish h =>
    simp only [Orderly, h, not_true_eq_false] at hdisorderly

/-- In every orderly run the counter is sound in every state; and it is not after any step that is
not orderly, as long as fewer commands were sent than the counter can count. -/
theorem backlog_sound_iff_orderly (s : Backlog) :
    (machine.Reach Orderly s → s.Sound) ∧
      ∀ a t, machine.Reachable s → machine.step s a = some t → ¬ Orderly s a →
        s.sent + 1 < 2 ^ 64 → ¬ t.Sound :=
  ⟨fun hs => (settled_of_reach hs).sound (sane_of_reach hs),
    fun _ _ hs hstep hdisorderly hsent => not_sound_of_not_orderly hs hstep hdisorderly hsent⟩

instance (s : Backlog) : ∀ a, Decidable (Orderly s a)
  | .send => .isTrue trivial
  | .shutdown => .isTrue trivial
  | .producer =>
    match hproducer : s.producer with
    | .inc (.publish metrics) =>
      decidable_of_iff (metrics.backlogCount = s.storageBacklog ∨ s.queue ≠ 0 ∨
        (s.writer ≠ .waiting ∧ s.writer ≠ .ended)) (by simp [Orderly, hproducer])
    | .idle | .inc .apply | .inc .read => .isTrue (by simp [Orderly, hproducer])
  | .writer _ =>
    match hwriter : s.writer with
    | .dec .apply =>
      decidable_of_iff (s.producer = .inc .apply → s.queue ≠ 0) (by simp [Orderly, hwriter])
    | .dec (.publish metrics) =>
      decidable_of_iff (metrics.backlogCount = s.storageBacklog ∨ s.queue ≠ 0 ∨ s.producer ≠ .idle)
        (by simp [Orderly, hwriter])
    | .waiting | .executing | .flush _ | .dec .read | .finalFlush _ | .ended =>
      .isTrue (by simp [Orderly, hwriter])

/-- One command, counted before the writer is through with it. -/
theorem prompt_producer_sound :
    ∃ s, machine.execWithin Orderly new [.send, .producer, .writer 0, .producer, .producer, .writer 0,
        .writer 0, .writer 0, .writer 0] = some s ∧ s.Quiet ∧ s.published.backlogCount = 0 := by
  obtain ⟨s, hs⟩ := Option.isSome_iff_exists.mp (show (machine.execWithin Orderly new [.send,
    .producer, .writer 0, .producer, .producer, .writer 0, .writer 0, .writer 0,
    .writer 0]).isSome = true by decide)
  have hquiet : (machine.execWithin Orderly new [.send, .producer, .writer 0, .producer, .producer,
    .writer 0, .writer 0, .writer 0, .writer 0]).map (decide ·.Quiet) = some true := by decide
  rw [hs] at hquiet
  have hquiet := of_decide_eq_true (Option.some.inj hquiet)
  exact ⟨s, hs, hquiet, ((backlog_sound_iff_orderly s).1 (.execWithin (.start rfl) hs)).2 hquiet⟩

/-- The writer is through with the first command before its sender has counted it. -/
theorem hasty_writer_unsound :
    ∃ s, machine.exec new [.send, .writer 0, .writer 0, .writer 0] = some s ∧ s.sent = 1 ∧
      s.storageBacklog.toNat = 2 ^ 64 - 1 ∧ ¬ s.Sound :=
  ⟨_, rfl, rfl, by decide, by decide⟩

/-- The sender has read the counter, but publishes what it read only after the writer is done. -/
example : ((machine.exec new [.send, .producer, .producer, .writer 0, .writer 0, .writer 0, .writer 0,
    .writer 0, .producer]).map fun s => (decide s.Quiet, s.published.backlogCount)) =
      some (true, 1) := by
  decide

end Backlog

end Kronical
