import Mathlib
import Kronical.Server.SnapshotPb
import Kronical.Tracker.MetricsQueries

/-!
# Metrics over gRPC

A call of `get_system_metrics` asks the tracker for a flush, waits for its acknowledgement, then for the
answer to a query, and asks once more if that is empty. Both go through bridge threads, and other calls are
served at the same time. Every query of a call is put on record with the samples that had been taken by
then, and what a channel carries, the tracker has answered or a call returns is traced back to its record
(`Traced`).
-/

namespace Kronical

/-! ### The messages -/

namespace Pb

structure SystemMetricsRequest where
  pid : UInt32
  startTime : Option Timestamp
  endTime : Option Timestamp
  limit : UInt32
  deriving DecidableEq, Repr

structure SystemMetric where
  timestamp : Option Timestamp
  cpuPercent : UInt64
  memoryBytes : UInt64
  diskIoBytes : UInt64
  deriving DecidableEq, Repr

structure SystemMetricsReply where
  metrics : List SystemMetric
  totalCount : UInt32
  deriving DecidableEq, Repr

end Pb

/-- The `tonic::Status` of a failed call. -/
inductive Status
  | unavailable (message : String)
  | internal (message : String)
  | deadlineExceeded (message : String)
  | invalidArgument (message : String)
  deriving DecidableEq, Repr

def tsToUtc (ts : Pb.Timestamp) : Except String DateTime :=
  if ts.nanos < 0 ∨ ts.nanos ≥ 1000000000 then .error "nanos out of range"
  else
    match fromTimestamp ts.seconds ts.nanos.toNat with
    | some time => .ok time
    | none => .error "invalid timestamp range"

/-- A time of the request, or the default that was read from the clock. -/
def requestTime (field : String) (given : Option Pb.Timestamp) (default : DateTime) :
    Except Status DateTime :=
  match given with
  | some ts => (tsToUtc ts).mapError fun e => .invalidArgument ("Invalid " ++ field ++ ": " ++ e)
  | none => .ok default

/-- The query of a request, with what `Utc::now` gives for its start and for its end. -/
def Pb.SystemMetricsRequest.query (request : Pb.SystemMetricsRequest) (startNow endNow : DateTime) :
    Except Status MetricsQuery :=
  if 0 < request.limit then .ok (.byLimit request.pid request.limit.toNat)
  else do
    let startTime ← requestTime "start_time" request.startTime (startNow - 300000000000)
    let endTime ← requestTime "end_time" request.endTime endNow
    return .byRange request.pid startTime endTime

def Pb.SystemMetric.of (metric : SystemMetrics) : Pb.SystemMetric :=
  { timestamp := some (utcToTs metric.timestamp)
    cpuPercent := metric.cpuPercent
    memoryBytes := metric.memoryBytes
    diskIoBytes := metric.diskIoBytes }

def Pb.SystemMetricsReply.of (metrics : List SystemMetrics) : Pb.SystemMetricsReply :=
  { metrics := metrics.map .of, totalCount := .ofNat metrics.length }

/-! ### The service -/

/-- The cells that are set when a tracker starts. -/
inductive TrackerCell
  | dbPath
  | queryTx
  | controlTx
  deriving DecidableEq, Repr

/-- A query with the number of the channel for its reply. -/
structure MetricsQueryReq where
  query : MetricsQuery
  reply : Nat
  deriving DecidableEq, Repr

/-- A query that was asked, and the samples that the tracker had taken by then. -/
structure AskedQuery where
  query : MetricsQuery
  taken : List SystemMetrics

/-- Where the bridge for control messages is: at its channel, waiting for the tracker to acknowledge a
flush, or gone. -/
inductive ControlBridge
  | idle
  | waiting (ack : Nat)
  | gone
  deriving DecidableEq, Repr

/-- Where a call waits. -/
inductive MetricsPoint
  | arrived
  | flushing (ack : Nat)
  | asking (retry : Bool) (reply : Nat)
  | napping
  | finished (result : Except Status Pb.SystemMetricsReply)

structure MetricsCall where
  request : Pb.SystemMetricsRequest
  /-- The samples that the tracker had taken when the call came. -/
  taken : List SystemMetrics
  point : MetricsPoint

structure MetricsService (T : Type) where
  metered : MeteredTracker T
  cells : List TrackerCell
  asyncControl : List Nat
  controlBridge : ControlBridge
  controlRx : List Nat
  /-- The number of flushes that were requested. -/
  flushes : Nat
  /-- The flushes that the bridge has acknowledged. -/
  acks : List Nat
  asyncQuery : List MetricsQueryReq
  queryBridge : Bool
  queryRx : List MetricsQueryReq
  /-- The queries that were asked; their numbers are those of the channels for the replies. -/
  asked : List AskedQuery
  /-- The queries that the bridge has answered. -/
  offline : List Nat
  calls : List MetricsCall

/-- What happens: a step of the tracker or of a bridge, a cell that is set, a call that comes, goes on with
what it reads from the clock, or runs into its deadline. -/
inductive MetricsAction
  | tracker (a : MeteredAction)
  | forwardControl
  | forwardQuery
  | set (cell : TrackerCell)
  | arrive (request : Pb.SystemMetricsRequest)
  | proceed (call : Nat) (startNow endNow : DateTime)
  | expire (call : Nat)

namespace MetricsService

variable {T : Type}

def trackerGone (self : MetricsService T) : Bool := self.metered.tracker.point = .done

/-- The bridge between `async_control_rx` and `control_rx`. -/
def forwardControl (self : MetricsService T) : Option (MetricsService T) :=
  match self.controlBridge, self.asyncControl with
  | .idle, ack :: rest =>
    if self.trackerGone then
      some { self with controlBridge := .gone, asyncControl := [], acks := self.acks ++ [ack] }
    else
      some { self with
        controlBridge := .waiting ack, asyncControl := rest, controlRx := self.controlRx ++ [ack] }
  | .waiting ack, _ =>
    if self.metered.tracker.replies.any fun | .ack ack' => ack' = ack | .rows .. => false then
      some { self with controlBridge := .idle, acks := self.acks ++ [ack] }
    else if self.trackerGone then
      some { self with controlBridge := .gone, asyncControl := [], acks := self.acks ++ [ack] }
    else none
  | _, _ => none

/-- The bridge between `async_query_rx` and `query_rx`. -/
def forwardQuery (self : MetricsService T) : Option (MetricsService T) :=
  match self.queryBridge, self.asyncQuery with
  | true, req :: rest =>
    if self.trackerGone then
      some { self with queryBridge := false, asyncQuery := [], offline := self.offline ++ [req.reply] }
    else some { self with asyncQuery := rest, queryRx := self.queryRx ++ [req] }
  | _, _ => none

/-- What comes over the channel for a reply. -/
def replyTo (self : MetricsService T) (reply : Nat) : Option (Except String (List SystemMetrics)) :=
  if reply ∈ self.offline then some (.error "tracker offline")
  else
    self.metered.tracker.replies.findSome? fun
      | .rows id result => if id = reply then some result else none
      | .ack _ => none

/-- Nothing will come over the channel for a reply. -/
def queryDropped (self : MetricsService T) (reply : Nat) : Bool :=
  self.asyncQuery.all (·.reply ≠ reply) ∧ (self.trackerGone ∨ self.queryRx.all (·.reply ≠ reply))

/-- Nothing will acknowledge the flush. -/
def flushDropped (self : MetricsService T) (ack : Nat) : Bool :=
  ack ∉ self.asyncControl ∧ self.controlBridge ≠ .waiting ack

/-- The call is somewhere else. -/
def move (self : MetricsService T) (call : Nat) (point : MetricsPoint) : MetricsService T :=
  { self with calls := self.calls.modify call fun c => { c with point } }

def fail (self : MetricsService T) (call : Nat) (status : Status) : MetricsService T :=
  self.move call (.finished (.error status))

/-- What the messages of the second query end in. -/
def suffix (retry : Bool) : String := if retry then " (retry)" else ""

/-- A query is sent, for the first or for the second time. -/
def ask (self : MetricsService T) (call : Nat) (request : Pb.SystemMetricsRequest) (retry : Bool)
    (startNow endNow : DateTime) : MetricsService T :=
  if retry = false ∧ .queryTx ∉ self.cells then
    self.fail call (.unavailable "System tracker not configured (query tx)")
  else
    match request.query startNow endNow with
    | .error status => self.fail call status
    | .ok query =>
      if self.queryBridge then
        let asking := { self with
          asked := self.asked ++ [AskedQuery.mk query self.metered.tracker.collected]
          asyncQuery := self.asyncQuery ++ [MetricsQueryReq.mk query self.asked.length] }
        asking.move call (.asking retry self.asked.length)
      else self.fail call (.internal ("Failed to send query to tracker thread" ++ suffix retry))

/-- A call goes on until it waits for the next time. -/
def proceed (self : MetricsService T) (call : Nat) (c : MetricsCall) (startNow endNow : DateTime) :
    Option (MetricsService T) :=
  match c.point with
  | .arrived =>
    if .dbPath ∉ self.cells then some (self.fail call (.unavailable "System tracker not configured"))
    else if .controlTx ∉ self.cells then
      some (self.fail call (.unavailable "System tracker control channel not configured"))
    else if self.controlBridge = .gone then
      some (self.fail call (.internal "Failed to request tracker flush"))
    else
      let flushing := { self with
        flushes := self.flushes + 1, asyncControl := self.asyncControl ++ [self.flushes] }
      some (flushing.move call (.flushing self.flushes))
  | .flushing ack =>
    if ack ∈ self.acks then some (self.ask call c.request false startNow endNow)
    else if self.flushDropped ack then
      some (self.fail call (.internal "Tracker flush acknowledgement dropped"))
    else none
  | .asking retry reply =>
    match self.replyTo reply with
    | some (.ok metrics) =>
      if metrics = [] ∧ retry = false then some (self.move call .napping)
      else some (self.move call (.finished (.ok (.of metrics))))
    | some (.error e) =>
      some (self.fail call (.internal ("Tracker query error" ++ suffix retry ++ ": " ++ e)))
    | none =>
      if self.queryDropped reply then
        some (self.fail call (.internal ("Tracker query channel closed" ++ suffix retry)))
      else none
  | .napping => some (self.ask call c.request true startNow endNow)
  | .finished _ => none

/-- The deadline of what the call waits for has come. -/
def expire (self : MetricsService T) (call : Nat) (c : MetricsCall) : Option (MetricsService T) :=
  match c.point with
  | .flushing _ => some (self.fail call (.deadlineExceeded "Timed out waiting for tracker flush"))
  | .asking retry _ =>
    some (self.fail call (.deadlineExceeded ("Timed out waiting for tracker reply" ++ suffix retry)))
  | .arrived | .napping | .finished _ => none

/-- The messages that a step of the tracker takes from its channels, which may be empty where it takes
none. -/
def take (self : MetricsService T) : MeteredAction → Option (MetricsService T)
  | .own (.flush ack) =>
    match self.controlRx with
    | ack' :: rest => if ack' = ack then some { self with controlRx := rest } else none
    | [] => none
  | .own (.noControl _) => if self.controlRx = [] then some self else none
  | .query id query _ _ _ =>
    match self.queryRx with
    | req :: rest => if req = ⟨query, id⟩ then some { self with queryRx := rest } else none
    | [] => none
  | .own .noQuery => if self.queryRx = [] then some self else none
  | .own _ | .insert _ => some self

variable [LinearOrder T] (column : DateTime → T) (readTime : T → DateTime) (backend : Backend) (pid : UInt32)
  (batchSize : ℕ+)

def step (self : MetricsService T) : MetricsAction → Option (MetricsService T)
  | .tracker a => do
    let self ← self.take a
    let metered ← self.metered.step column readTime backend pid batchSize a
    return { self with metered }
  | .forwardControl => self.forwardControl
  | .forwardQuery => self.forwardQuery
  | .set cell => some { self with cells := cell :: self.cells }
  | .arrive request =>
    some { self with
      calls := self.calls ++ [MetricsCall.mk request self.metered.tracker.collected .arrived] }
  | .proceed call startNow endNow =>
    self.calls[call]?.bind fun c => self.proceed call c startNow endNow
  | .expire call => self.calls[call]?.bind fun c => self.expire call c

def new (before : MetricsTable T) : MetricsService T :=
  { metered := ⟨.new, ⟨before, none⟩⟩, cells := [], asyncControl := [], controlBridge := .idle,
    controlRx := [], flushes := 0, acks := [], asyncQuery := [], queryBridge := true, queryRx := [],
    asked := [], offline := [], calls := [] }

/-- The tracker starts on a database with these rows. -/
def machine (before : MetricsTable T) : Machine (MetricsService T) MetricsAction where
  start self := self = new before
  step := step column readTime backend pid batchSize

/-! ### What is put on record -/

variable {column : DateTime → T} {readTime : T → DateTime} {backend : Backend} {pid : UInt32}
  {batchSize : ℕ+} {before : MetricsTable T} {s t : MetricsService T}

/-- DuckDB's statements do not fail. -/
def Sound (backend : Backend) (self : MetricsService T) : MetricsAction → Prop
  | .tracker a => MeteredTracker.Sound backend self.metered a
  | _ => True

/-- The insertion that comes with a query does not fail. -/
def Spared (_ : MetricsService T) : MetricsAction → Prop
  | .tracker (.query _ _ fails _ _) => fails = fun _ => false
  | _ => True

/-- The rows are cut out of samples that the tracker has taken, which are at least those that it had taken
when it was asked, if it is `spared`. -/
def Cut (column : DateTime → T) (readTime : T → DateTime) (spared : Prop) (collected : List SystemMetrics)
    (asked : AskedQuery) (rows : List SystemMetrics) : Prop :=
  ∃ store, store <+: collected ∧ (spared → asked.taken <+: store) ∧
    rows = (asked.query.select column store).map (·.kept column readTime)

theorem Cut.mono {spared : Prop} {collected collected' : List SystemMetrics} {asked : AskedQuery}
    {rows : List SystemMetrics} (h : Cut column readTime spared collected asked rows)
    (hmore : collected <+: collected') : Cut column readTime spared collected' asked rows := by
  obtain ⟨store, hstore, htaken, hrows⟩ := h
  exact ⟨store, hstore.trans hmore, htaken, hrows⟩

/-- The query is one that the call sends. -/
def Asks (call : MetricsCall) (asked : AskedQuery) : Prop :=
  call.taken <+: asked.taken ∧ ∃ startNow endNow, call.request.query startNow endNow = .ok asked.query

variable (column readTime pid)

/-- The query that a call waits for, or that its reply answers, is on record. -/
def CallTraced (spared : Prop) (collected : List SystemMetrics) (record : List AskedQuery)
    (call : MetricsCall) : Prop :=
  call.taken <+: collected ∧
    match call.point with
    | .asking _ reply => ∃ asked, record[reply]? = some asked ∧ Asks call asked
    | .finished (.ok reply) => ∃ asked rows, Asks call asked ∧
        (asked.query.pid = pid → Cut column readTime spared collected asked rows) ∧ reply = .of rows
    | _ => True

/-- What the channels carry, what the tracker has answered and what the calls return is traced back to the
record. -/
structure Traced (spared : Prop) (s : MetricsService T) : Prop where
  queued : ∀ req ∈ s.asyncQuery ++ s.queryRx, ∃ asked,
    s.asked[req.reply]? = some asked ∧ asked.query = req.query
  taken : ∀ asked ∈ s.asked, asked.taken <+: s.metered.tracker.collected
  replied : ∀ id rows, .rows id (.ok rows) ∈ s.metered.tracker.replies → ∃ asked,
    s.asked[id]? = some asked ∧
      (asked.query.pid = pid → Cut column readTime spared s.metered.tracker.collected asked rows)
  calls : ∀ call ∈ s.calls, CallTraced column readTime pid spared s.metered.tracker.collected s.asked call

variable {column readTime pid}

omit [LinearOrder T] in
theorem getElem?_of_initial {record record' : List AskedQuery} (h : record <+: record') {i : Nat}
    {asked : AskedQuery} (hasked : record[i]? = some asked) : record'[i]? = some asked := by
  obtain ⟨rest, rfl⟩ := h
  obtain ⟨hlt, -⟩ := List.getElem?_eq_some_iff.mp hasked
  rwa [List.getElem?_append_left hlt]

theorem CallTraced.mono {spared : Prop} {collected collected' : List SystemMetrics}
    {record record' : List AskedQuery} {call : MetricsCall}
    (h : CallTraced column readTime pid spared collected record call) (hmore : collected <+: collected')
    (hrecord : record <+: record') : CallTraced column readTime pid spared collected' record' call := by
  obtain ⟨htaken, hpoint⟩ := h
  refine ⟨htaken.trans hmore, ?_⟩
  split at hpoint
  · obtain ⟨asked, hasked, hasks⟩ := hpoint
    exact ⟨asked, getElem?_of_initial hrecord hasked, hasks⟩
  · obtain ⟨asked, rows, hasks, hcut, hreply⟩ := hpoint
    exact ⟨asked, rows, hasks, fun hpid => (hcut hpid).mono hmore, hreply⟩
  · trivial

theorem mem_modify {l : List MetricsCall} {i : Nat} {f : MetricsCall → MetricsCall} {call : MetricsCall}
    (h : call ∈ l.modify i f) : call ∈ l ∨ ∃ c, l[i]? = some c ∧ call = f c := by
  obtain ⟨j, hj⟩ := List.getElem?_of_mem h
  rw [List.getElem?_modify] at hj
  obtain ⟨c, hc, heq⟩ := Option.map_eq_some_iff.mp hj
  split_ifs at heq with hij
  · exact .inr ⟨c, hij ▸ hc, heq.symm⟩
  · exact .inl (heq ▸ List.mem_of_getElem? hc)

/-! ### The calls -/

section Calls

variable {spared : Prop} {call : Nat} {c : MetricsCall}

theorem Traced.move (h : s.Traced column readTime pid spared) {point : MetricsPoint}
    (hpoint : ∀ c, s.calls[call]? = some c →
      CallTraced column readTime pid spared s.metered.tracker.collected s.asked { c with point }) :
    (s.move call point).Traced column readTime pid spared := by
  refine ⟨h.queued, h.taken, h.replied, fun c' hc' => ?_⟩
  rcases mem_modify hc' with hold | ⟨c, hc, rfl⟩
  · exact h.calls c' hold
  · exact hpoint c hc

theorem Traced.fail (h : s.Traced column readTime pid spared) (call : Nat) (status : Status) :
    (s.fail call status).Traced column readTime pid spared :=
  h.move fun c hc => ⟨(h.calls c (List.mem_of_getElem? hc)).1, trivial⟩

theorem Traced.ask (h : s.Traced column readTime pid spared) (hc : s.calls[call]? = some c) (retry : Bool)
    (startNow endNow : DateTime) :
    (s.ask call c.request retry startNow endNow).Traced column readTime pid spared := by
  unfold MetricsService.ask
  split_ifs with hcell hbridge
  · exact h.fail call _
  · cases hquery : c.request.query startNow endNow with
    | error status => exact h.fail call status
    | ok query =>
      have hrecord : s.asked <+: s.asked ++ [AskedQuery.mk query s.metered.tracker.collected] :=
        List.prefix_append _ _
      have hnew : (s.asked ++ [AskedQuery.mk query s.metered.tracker.collected])[s.asked.length]? =
          some ⟨query, s.metered.tracker.collected⟩ := by simp
      refine Traced.move ⟨?_, ?_, ?_, ?_⟩ ?_
      · intro req hreq
        simp only [List.mem_append, List.mem_singleton] at hreq
        rcases hreq with (hreq | rfl) | hreq
        · obtain ⟨asked, hasked, heq⟩ := h.queued req (List.mem_append_left _ hreq)
          exact ⟨asked, getElem?_of_initial hrecord hasked, heq⟩
        · exact ⟨_, hnew, rfl⟩
        · obtain ⟨asked, hasked, heq⟩ := h.queued req (List.mem_append_right _ hreq)
          exact ⟨asked, getElem?_of_initial hrecord hasked, heq⟩
      · intro asked hasked
        rcases List.mem_append.mp hasked with hasked | hasked
        · exact h.taken asked hasked
        · rw [List.mem_singleton.mp hasked]
      · intro id rows hreply
        obtain ⟨asked, hasked, hcut⟩ := h.replied id rows hreply
        exact ⟨asked, getElem?_of_initial hrecord hasked, hcut⟩
      · exact fun c hc => (h.calls c hc).mono List.prefix_rfl hrecord
      · intro c' hc'
        obtain rfl : c = c' := Option.some.inj (hc.symm.trans hc')
        have htaken := (h.calls c (List.mem_of_getElem? hc)).1
        exact ⟨htaken, _, hnew, htaken, startNow, endNow, hquery⟩
  · cases hquery : c.request.query startNow endNow with
    | error status => exact h.fail call status
    | ok query => exact h.fail call _

omit [LinearOrder T] in
theorem replied_of_replyTo {reply : Nat} {rows : List SystemMetrics} (h : s.replyTo reply = some (.ok rows)) :
    .rows reply (.ok rows) ∈ s.metered.tracker.replies := by
  unfold replyTo at h
  split_ifs at h
  · cases h
  · obtain ⟨r, hr, heq⟩ := List.exists_of_findSome?_eq_some h
    cases r with
    | ack n => cases heq
    | rows id result =>
      simp only at heq
      split_ifs at heq with hid
      rw [hid, Option.some.inj heq] at hr
      exact hr

theorem Traced.proceed (h : s.Traced column readTime pid spared) (hc : s.calls[call]? = some c)
    {startNow endNow : DateTime} (hstep : s.proceed call c startNow endNow = some t) :
    t.Traced column readTime pid spared := by
  have hcall := h.calls c (List.mem_of_getElem? hc)
  unfold MetricsService.proceed at hstep
  cases hpoint : c.point with
  | arrived =>
    simp only [hpoint] at hstep
    split_ifs at hstep <;> obtain rfl := Option.some.inj hstep
    · exact h.fail call _
    · have hflush : Traced column readTime pid spared
          { s with flushes := s.flushes + 1, asyncControl := s.asyncControl ++ [s.flushes] } :=
        ⟨h.queued, h.taken, h.replied, h.calls⟩
      exact hflush.move fun c hc => ⟨(h.calls c (List.mem_of_getElem? hc)).1, trivial⟩
    · exact h.fail call _
    · exact h.fail call _
  | flushing ack =>
    simp only [hpoint] at hstep
    split_ifs at hstep <;> obtain rfl := Option.some.inj hstep
    · exact h.ask hc false startNow endNow
    · exact h.fail call _
  | asking retry reply =>
    simp only [hpoint] at hstep
    split at hstep
    · rename_i metrics hreply
      split_ifs at hstep <;> obtain rfl := Option.some.inj hstep
      · exact h.move fun c hc => ⟨(h.calls c (List.mem_of_getElem? hc)).1, trivial⟩
      · refine h.move fun c' hc' => ?_
        obtain rfl : c = c' := Option.some.inj (hc.symm.trans hc')
        obtain ⟨htaken, hasking⟩ := hcall
        simp only [hpoint] at hasking
        obtain ⟨asked, hasked, hasks⟩ := hasking
        obtain ⟨asked', hasked', hcut⟩ := h.replied reply metrics (replied_of_replyTo hreply)
        obtain rfl : asked = asked' := Option.some.inj (hasked.symm.trans hasked')
        exact ⟨htaken, asked, metrics, hasks, hcut, rfl⟩
    · obtain rfl := Option.some.inj hstep
      exact h.fail call _
    · split_ifs at hstep
      obtain rfl := Option.some.inj hstep
      exact h.fail call _
  | napping =>
    simp only [hpoint] at hstep
    obtain rfl := Option.some.inj hstep
    exact h.ask hc true startNow endNow
  | finished result =>
    simp only [hpoint] at hstep
    cases hstep

theorem Traced.expire (h : s.Traced column readTime pid spared) (hstep : s.expire call c = some t) :
    t.Traced column readTime pid spared := by
  unfold MetricsService.expire at hstep
  split at hstep <;> simp only [Option.some.injEq, reduceCtorEq] at hstep <;> subst hstep <;>
    exact h.fail call _

theorem Traced.arrive (h : s.Traced column readTime pid spared) (request : Pb.SystemMetricsRequest) :
    Traced column readTime pid spared
      { s with calls := s.calls ++ [MetricsCall.mk request s.metered.tracker.collected .arrived] } := by
  refine ⟨h.queued, h.taken, h.replied, fun c hc => ?_⟩
  rcases List.mem_append.mp hc with hc | hc
  · exact h.calls c hc
  · rw [List.mem_singleton.mp hc]
    exact ⟨List.prefix_rfl, trivial⟩

/-! ### The bridges -/

theorem Traced.forwardControl (h : s.Traced column readTime pid spared) (hstep : s.forwardControl = some t) :
    t.Traced column readTime pid spared := by
  unfold MetricsService.forwardControl at hstep
  split at hstep
  · split_ifs at hstep <;> obtain rfl := Option.some.inj hstep <;>
      exact ⟨h.queued, h.taken, h.replied, h.calls⟩
  · split_ifs at hstep <;> obtain rfl := Option.some.inj hstep <;>
      exact ⟨h.queued, h.taken, h.replied, h.calls⟩
  · cases hstep

theorem Traced.forwardQuery (h : s.Traced column readTime pid spared) (hstep : s.forwardQuery = some t) :
    t.Traced column readTime pid spared := by
  unfold MetricsService.forwardQuery at hstep
  split at hstep
  · rename_i req rest _ hqueue
    split_ifs at hstep <;> obtain rfl := Option.some.inj hstep
    · exact ⟨fun req hreq => h.queued req (List.mem_append_right _ hreq), h.taken, h.replied, h.calls⟩
    · refine ⟨fun req' hreq' => h.queued req' ?_, h.taken, h.replied, h.calls⟩
      simp only [List.mem_append, hqueue, List.mem_cons] at hreq' ⊢
      tauto
  · cases hstep

end Calls

/-! ### The tracker -/

section Tracker

theorem replies_of_own {s t : SystemTracker} {a : TrackerAction} (h : s.step batchSize a = some t)
    (hown : ∀ id query ok found, a ≠ .query id query ok found) {id : Nat}
    {result : Except String (List SystemMetrics)} (hmem : .rows id result ∈ t.replies) :
    .rows id result ∈ s.replies := by
  have hflush : ∀ ok, (s.flushBuffer ok).replies = s.replies := fun ok => by
    unfold SystemTracker.flushBuffer SystemTracker.insertMetricsBatch
    split_ifs <;> rfl
  have hinsert : ∀ ok, (s.insertMetricsBatch ok).replies = s.replies := fun ok => by
    unfold SystemTracker.insertMetricsBatch
    split_ifs <;> rfl
  cases a with
  | query id query ok found => exact absurd rfl (hown id query ok found)
  | sample reading =>
    simp only [SystemTracker.step] at h
    split at h <;> simp only [Option.some.injEq, reduceCtorEq] at h <;> subst h <;> exact hmem
  | insert ok =>
    simp only [SystemTracker.step] at h
    split at h
    · split_ifs at h <;> obtain rfl := Option.some.inj h <;> simpa [hinsert] using hmem
    · split_ifs at h <;> obtain rfl := Option.some.inj h <;> simpa using hmem
    · split_ifs at h <;> obtain rfl := Option.some.inj h <;> exact hmem
    · cases h
  | stop | flush | noControl | noQuery | test =>
    simp only [SystemTracker.step] at h
    split_ifs at h <;> obtain rfl := Option.some.inj h <;> exact hmem

omit [LinearOrder T] in
theorem take_cases {a : MeteredAction} (h : s.take a = some t) :
    t = { s with controlRx := t.controlRx, queryRx := t.queryRx } ∧ t.queryRx ⊆ s.queryRx ∧
      ∀ id query fails selectFails text, a = .query id query fails selectFails text →
        ⟨query, id⟩ ∈ s.queryRx := by
  unfold MetricsService.take at h
  split at h
  · split at h
    · split_ifs at h
      obtain rfl := Option.some.inj h
      exact ⟨rfl, List.Subset.refl _, nofun⟩
    · cases h
  · split_ifs at h
    obtain rfl := Option.some.inj h
    exact ⟨rfl, List.Subset.refl _, nofun⟩
  · split at h
    · rename_i req rest hqueue
      split_ifs at h with hreq
      obtain rfl := Option.some.inj h
      refine ⟨rfl, by simp [hqueue], ?_⟩
      intro id query fails selectFails text heq
      cases heq
      simp [hqueue, hreq]
    · cases h
  · split_ifs at h
    obtain rfl := Option.some.inj h
    exact ⟨rfl, List.Subset.refl _, nofun⟩
  · obtain rfl := Option.some.inj h
    exact ⟨rfl, List.Subset.refl _, nofun⟩
  · obtain rfl := Option.some.inj h
    exact ⟨rfl, List.Subset.refl _, nofun⟩

variable {spared : Prop}

theorem Traced.tracker (h : s.Traced column readTime pid spared)
    (hbefore : ∀ row ∈ before.pairs, row.1.2 ≠ pid.toNat)
    (hs : (MeteredTracker.machine column readTime backend pid batchSize before).Reach
      (MeteredTracker.Sound backend) s.metered)
    (hincreasing : s.metered.tracker.collected.Pairwise fun a b => column a.timestamp < column b.timestamp)
    {a : MeteredAction} (hsound : MeteredTracker.Sound backend s.metered a)
    (hspared : spared → s.Spared (.tracker a)) {metered : MeteredTracker T}
    (hstep : s.metered.step column readTime backend pid batchSize a = some metered)
    {controlRx : List Nat} {queryRx : List MetricsQueryReq} (hqueue : queryRx ⊆ s.queryRx)
    (hhead : ∀ id query fails selectFails text, a = .query id query fails selectFails text →
      ⟨query, id⟩ ∈ s.queryRx) :
    Traced column readTime pid spared { s with metered, controlRx, queryRx } := by
  obtain ⟨own, hown⟩ := MeteredTracker.tracker_step hstep
  have hmore := MeteredTracker.step_collected hown
  refine ⟨fun req hreq => h.queued req ?_, fun asked hasked => (h.taken asked hasked).trans hmore, ?_,
    fun c hc => (h.calls c hc).mono hmore List.prefix_rfl⟩
  · rcases List.mem_append.mp hreq with hreq | hreq
    · exact List.mem_append_left _ hreq
    · exact List.mem_append_right _ (hqueue hreq)
  intro id rows hreply
  have hold : .rows id (.ok rows) ∈ s.metered.tracker.replies → ∃ asked, s.asked[id]? = some asked ∧
      (asked.query.pid = pid → Cut column readTime spared metered.tracker.collected asked rows) := by
    intro hmem
    obtain ⟨asked, hasked, hcut⟩ := h.replied id rows hmem
    exact ⟨asked, hasked, fun hpid => (hcut hpid).mono hmore⟩
  obtain ⟨own, rfl, hown, hstep', -⟩ | ⟨fails, rfl, hstep', -⟩ |
    ⟨reply, query, fails, selectFails, text, rfl, -⟩ := MeteredTracker.step_cases hstep
  · exact hold (replies_of_own hstep' (fun id query ok found => (hown ok id query found).2) hreply)
  · exact hold (replies_of_own hstep' nofun hreply)
  obtain ⟨htracker, hholds, hlater, hstored⟩ :=
    MeteredTracker.stored_of_query hbefore hs hincreasing hsound hstep
  simp only [htracker, List.mem_append, List.mem_singleton, TrackerReply.rows.injEq] at hreply
  rcases hreply with hmem | ⟨rfl, hanswer⟩
  · exact hold hmem
  obtain ⟨asked, hasked, rfl⟩ := h.queued _ (List.mem_append_right _ (hhead _ _ _ _ _ rfl))
  refine ⟨asked, hasked, fun hpid => ⟨metered.tracker.store, ?_, fun hsp => ?_, ?_⟩⟩
  · have hreach := MeteredTracker.tracker_reachable (.step hs hsound hstep)
    rcases SystemTracker.settled_of_reachable hreach with haccounted | ⟨-, hall⟩
    · exact ⟨_, haccounted⟩
    · rw [hall]
  · rw [hstored (hspared hsp)]
    exact (h.taken asked (List.mem_of_getElem? hasked)).trans hmore
  · cases selectFails with
    | true =>
      -- A `SELECT` that fails is answered with an error.
      rw [MeteredTracker.found, if_pos rfl] at hanswer
      cases hquery : asked.query <;> rw [hquery] at hanswer <;> cases hanswer
    | false =>
      rw [MeteredTracker.answer_own readTime hbefore hholds hlater hpid text] at hanswer
      exact Except.ok.inj hanswer

end Tracker

/-! ### Runs -/

theorem step_metered {a : MetricsAction} (h : s.step column readTime backend pid batchSize a = some t) :
    t.metered = s.metered ∨
      ∃ b, a = .tracker b ∧ s.metered.step column readTime backend pid batchSize b = some t.metered := by
  have hask : ∀ call request retry startNow endNow,
      (s.ask call request retry startNow endNow).metered = s.metered := by
    intro call request retry startNow endNow
    unfold MetricsService.ask
    split_ifs
    · rfl
    · split <;> rfl
    · split <;> rfl
  cases a with
  | tracker b =>
    obtain ⟨taken, htake, metered, hmetered, heq⟩ : ∃ taken, s.take b = some taken ∧ ∃ metered,
        taken.metered.step column readTime backend pid batchSize b = some metered ∧
          { taken with metered } = t := by
      simpa [MetricsService.step, Option.bind_eq_some_iff] using h
    rw [(take_cases htake).1] at hmetered
    subst heq
    exact .inr ⟨b, rfl, hmetered⟩
  | forwardControl =>
    simp only [MetricsService.step, MetricsService.forwardControl] at h
    split at h
    · split_ifs at h <;> obtain rfl := Option.some.inj h <;> exact .inl rfl
    · split_ifs at h <;> obtain rfl := Option.some.inj h <;> exact .inl rfl
    · cases h
  | forwardQuery =>
    simp only [MetricsService.step, MetricsService.forwardQuery] at h
    split at h
    · split_ifs at h <;> obtain rfl := Option.some.inj h <;> exact .inl rfl
    · cases h
  | set cell | arrive request =>
    obtain rfl := Option.some.inj h
    exact .inl rfl
  | proceed call startNow endNow =>
    obtain ⟨c, -, h⟩ := Option.bind_eq_some_iff.mp h
    unfold MetricsService.proceed at h
    split at h
    · split_ifs at h <;> obtain rfl := Option.some.inj h <;> exact .inl rfl
    · split_ifs at h <;> obtain rfl := Option.some.inj h
      · exact .inl (hask ..)
      · exact .inl rfl
    · split at h
      · split_ifs at h <;> obtain rfl := Option.some.inj h <;> exact .inl rfl
      · obtain rfl := Option.some.inj h
        exact .inl rfl
      · split_ifs at h
        obtain rfl := Option.some.inj h
        exact .inl rfl
    · obtain rfl := Option.some.inj h
      exact .inl (hask ..)
    · cases h
  | expire call =>
    obtain ⟨c, -, h⟩ := Option.bind_eq_some_iff.mp h
    unfold MetricsService.expire at h
    split at h <;> simp only [Option.some.injEq, reduceCtorEq] at h <;> subst h <;> exact .inl rfl

theorem metered_reach {ok : MetricsService T → MetricsAction → Prop} (hok : ∀ s a, ok s a → s.Sound backend a)
    (hs : (machine column readTime backend pid batchSize before).Reach ok s) :
    (MeteredTracker.machine column readTime backend pid batchSize before).Reach
      (MeteredTracker.Sound backend) s.metered := by
  induction hs with
  | start hs =>
    obtain rfl := hs
    exact .start rfl
  | step _ ha hstep ih =>
    rcases step_metered hstep with heq | ⟨b, rfl, hb⟩
    · rwa [heq]
    · exact .step ih (hok _ _ ha) hb

theorem traced_of_reach {ok : MetricsService T → MetricsAction → Prop} (hok : ∀ s a, ok s a → s.Sound backend a)
    (hbefore : ∀ row ∈ before.pairs, row.1.2 ≠ pid.toNat)
    (hs : (machine column readTime backend pid batchSize before).Reach ok s) :
    (s.metered.tracker.collected.Pairwise fun a b => column a.timestamp < column b.timestamp) →
      s.Traced column readTime pid (∀ s a, ok s a → s.Spared a) := by
  induction hs with
  | start hs =>
    obtain rfl := hs
    intro _
    exact ⟨nofun, nofun, nofun, nofun⟩
  | @step s a t hs ha hstep ih =>
    intro hincreasing
    have hearlier : s.metered.tracker.collected.Pairwise fun a b =>
        column a.timestamp < column b.timestamp := by
      rcases step_metered hstep with heq | ⟨b, rfl, hb⟩
      · rwa [heq] at hincreasing
      · obtain ⟨own, hown⟩ := MeteredTracker.tracker_step hb
        exact hincreasing.sublist (MeteredTracker.step_collected hown).sublist
    have h := ih hearlier
    cases a with
    | tracker b =>
      obtain ⟨taken, htake, metered, hmetered, rfl⟩ : ∃ taken, s.take b = some taken ∧ ∃ metered,
          taken.metered.step column readTime backend pid batchSize b = some metered ∧
            { taken with metered } = t := by
        simpa [machine, MetricsService.step, Option.bind_eq_some_iff] using hstep
      obtain ⟨htaken, hqueue, hhead⟩ := take_cases htake
      rw [htaken] at hmetered ⊢
      exact h.tracker hbefore (metered_reach hok hs) hearlier (hok _ _ ha) (fun hspared => hspared _ _ ha)
        hmetered hqueue hhead
    | forwardControl => exact h.forwardControl hstep
    | forwardQuery => exact h.forwardQuery hstep
    | set cell =>
      obtain rfl := Option.some.inj hstep
      exact ⟨h.queued, h.taken, h.replied, h.calls⟩
    | arrive request =>
      obtain rfl := Option.some.inj hstep
      exact h.arrive request
    | proceed call startNow endNow =>
      obtain ⟨c, hc, hstep⟩ := Option.bind_eq_some_iff.mp hstep
      exact h.proceed hc hstep
    | expire call =>
      obtain ⟨c, -, hstep⟩ := Option.bind_eq_some_iff.mp hstep
      exact h.expire hstep

omit [LinearOrder T] in
theorem pid_query {request : Pb.SystemMetricsRequest} {startNow endNow : DateTime} {query : MetricsQuery}
    (h : request.query startNow endNow = .ok query) : query.pid = request.pid := by
  unfold Pb.SystemMetricsRequest.query at h
  split_ifs at h
  · obtain rfl := Except.ok.inj h
    rfl
  · cases hstart : requestTime "start_time" request.startTime (startNow - 300000000000) with
    | error e =>
      rw [hstart] at h
      cases h
    | ok startTime =>
      cases hend : requestTime "end_time" request.endTime endNow with
      | error e =>
        rw [hstart, hend] at h
        cases h
      | ok endTime =>
        rw [hstart, hend] at h
        obtain rfl := Except.ok.inj h
        rfl

/-- On a database without rows of the tracker's process, whatever calls are served at the same time: as long
as the column of a sample's time is later than that of the sample before it, a call for the process returns
what its query selects of the samples that the tracker had taken at some point, which was after the call came
unless an insertion fails. -/
theorem metrics_reply (column : DateTime → T) (readTime : T → DateTime) (backend : Backend) (pid : UInt32)
    (batchSize : ℕ+) {before : MetricsTable T} (hbefore : ∀ row ∈ before.pairs, row.1.2 ≠ pid.toNat)
    {ok : MetricsService T → MetricsAction → Prop} (hok : ∀ s a, ok s a → s.Sound backend a)
    {s : MetricsService T} (hs : (machine column readTime backend pid batchSize before).Reach ok s)
    (hincreasing : s.metered.tracker.collected.Pairwise fun a b => column a.timestamp < column b.timestamp)
    {call : MetricsCall} (hcall : call ∈ s.calls) (hpid : call.request.pid = pid)
    {reply : Pb.SystemMetricsReply} (hreply : call.point = .finished (.ok reply)) :
    ∃ query store startNow endNow, call.request.query startNow endNow = .ok query ∧
      store <+: s.metered.tracker.collected ∧ ((∀ s a, ok s a → s.Spared a) → call.taken <+: store) ∧
      reply = .of ((query.select column store).map (·.kept column readTime)) := by
  obtain ⟨-, hpoint⟩ := (traced_of_reach hok hbefore hs hincreasing).calls call hcall
  rw [hreply] at hpoint
  obtain ⟨asked, rows, ⟨htaken, startNow, endNow, hquery⟩, hcut, rfl⟩ := hpoint
  obtain ⟨store, hstore, hfresh, rfl⟩ := hcut ((pid_query hquery).trans hpid)
  exact ⟨asked.query, store, startNow, endNow, hquery, hstore, fun hspared => htaken.trans (hfresh hspared),
    rfl⟩

open MeteredTracker (micros ofMicros)

/-- The latest sample is asked for. -/
def latestRequest : Pb.SystemMetricsRequest := ⟨7, none, none, 1⟩

/-- The call came after the first sample and waits for the answer to its query, before which the second
sample was taken and flushed. -/
def askedService : MetricsService Int :=
  { metered := ⟨⟨.queries, [⟨1000001, 0, 1, 10⟩, ⟨2000001, 0, 2, 5⟩], [], 15, 2, true, [], [.ack 0],
      [⟨1000001, 0, 1, 10⟩, ⟨2000001, 0, 2, 5⟩]⟩,
      ⟨HashMap.insertAll ∅ [((1000, 7), ⟨0, 1, 10⟩), ((2000, 7), ⟨0, 2, 5⟩)], none⟩⟩
    cells := [.controlTx, .queryTx, .dbPath], asyncControl := [], controlBridge := .idle, controlRx := []
    flushes := 1, acks := [0], asyncQuery := [], queryBridge := true, queryRx := [⟨.byLimit 7 1, 0⟩]
    asked := [⟨.byLimit 7 1, [⟨1000001, 0, 1, 10⟩, ⟨2000001, 0, 2, 5⟩]⟩], offline := []
    calls := [⟨latestRequest, [⟨1000001, 0, 1, 10⟩], .asking false 0⟩] }

theorem asked_reach :
    (machine micros ofMicros .duckdb 7 3 ∅).Reach (fun s a => s.Sound .duckdb a ∧ s.Spared a) askedService := by
  have hrun : (machine micros ofMicros .duckdb 7 3 ∅).exec (new ∅)
      [.set .dbPath, .set .queryTx, .set .controlTx, .tracker (.own (.sample (some ⟨0, 1, 10, 1000001⟩))),
        .arrive latestRequest, .proceed 0 0 0, .forwardControl, .tracker (.own (.flush 0)),
        .tracker (.own (.noControl false)), .tracker (.own (.sample (some ⟨0, 2, 15, 2000001⟩))),
        .tracker (.insert fun _ => false), .tracker (.insert fun _ => false), .forwardControl,
        .proceed 0 0 0, .forwardQuery] = some askedService := by
    cbv
  exact Machine.Reach.exec (.start rfl) (by simp [Sound, Spared, MeteredTracker.Sound, MeteredAction.faults])
    hrun

theorem no_rows_before : ∀ row ∈ HashMap.pairs (∅ : MetricsTable Int), row.1.2 ≠ (7 : UInt32).toNat := nofun

def latestQuery : MeteredAction := .query 0 (.byLimit 7 1) (fun _ => false) false ""

theorem asked_answered : ∃ t, askedService.step micros ofMicros .duckdb 7 3 (.tracker latestQuery) = some t ∧
    t.replyTo 0 = some (.ok [⟨2000000, 0, 2, 5⟩]) ∧
    t.calls = [⟨latestRequest, [⟨1000001, 0, 1, 10⟩], .asking false 0⟩] ∧
    t.metered.tracker.collected = askedService.metered.tracker.collected := by
  obtain ⟨metered, hstep⟩ :
      ∃ metered, askedService.metered.step micros ofMicros .duckdb 7 3 latestQuery = some metered :=
    ⟨_, rfl⟩
  obtain ⟨htracker, hholds, hlater, hstored⟩ :=
    MeteredTracker.stored_of_query no_rows_before (metered_reach (fun _ _ h => h.1) asked_reach) (by decide)
      (fun _ => rfl) hstep
  have hcollected : metered.tracker.collected = askedService.metered.tracker.collected := by
    rw [htracker]
    rfl
  have hreplies : metered.tracker.replies = [.ack 0, .rows 0 (.ok [⟨2000000, 0, 2, 5⟩])] := by
    rw [MeteredTracker.answer_own ofMicros no_rows_before hholds hlater rfl, hstored rfl, hcollected]
      at htracker
    rw [htracker]
    rfl
  refine ⟨{ askedService with queryRx := [], metered }, ?_, ?_, rfl, hcollected⟩
  · have htake : askedService.take latestQuery = some { askedService with queryRx := [] } := rfl
    simp [MetricsService.step, htake, hstep]
  · unfold replyTo
    rw [hreplies]
    rfl

/-- The call that it has answered. -/
def answeredCall : MetricsCall :=
  ⟨latestRequest, [⟨1000001, 0, 1, 10⟩], .finished (.ok ⟨[⟨some ⟨0, 2000000⟩, 0, 2, 5⟩], 1⟩)⟩

theorem metrics_reply_latest : ∃ query store startNow endNow,
    latestRequest.query startNow endNow = .ok query ∧ store <+: askedService.metered.tracker.collected ∧
      [⟨1000001, 0, 1, 10⟩] <+: store ∧ Pb.SystemMetricsReply.mk [⟨some ⟨0, 2000000⟩, 0, 2, 5⟩] 1 =
        .of ((query.select micros store).map (·.kept micros ofMicros)) := by
  obtain ⟨t, hstep, hreply, hcalls, hcollected⟩ := asked_answered
  have hproceed : t.step micros ofMicros .duckdb 7 3 (.proceed 0 0 0) = some (t.move 0 answeredCall.point) := by
    simp only [step, hcalls, proceed, hreply, List.getElem?_cons_zero, Option.bind_some]
    rfl
  have hquery : askedService.Sound .duckdb (.tracker latestQuery) ∧
      askedService.Spared (.tracker latestQuery) :=
    ⟨fun _ => rfl, rfl⟩
  have hread : t.Sound .duckdb (.proceed 0 0 0) ∧ t.Spared (.proceed 0 0 0) := ⟨trivial, trivial⟩
  have hanswered : (machine micros ofMicros .duckdb 7 3 ∅).Reach
      (fun s a => s.Sound .duckdb a ∧ s.Spared a) t :=
    .step asked_reach hquery hstep
  have hs : (machine micros ofMicros .duckdb 7 3 ∅).Reach (fun s a => s.Sound .duckdb a ∧ s.Spared a)
      (t.move 0 answeredCall.point) :=
    .step hanswered hread hproceed
  have hcall : answeredCall ∈ (t.move 0 answeredCall.point).calls := by
    simp [move, hcalls, answeredCall]
  have hincreasing : t.metered.tracker.collected.Pairwise fun a b =>
      micros a.timestamp < micros b.timestamp := by
    rw [hcollected]
    decide
  obtain ⟨query, store, startNow, endNow, hquery, hstore, hfresh, hanswer⟩ :=
    metrics_reply micros ofMicros .duckdb 7 3 no_rows_before (fun _ _ h => h.1) hs hincreasing hcall rfl rfl
  exact ⟨query, store, startNow, endNow, hquery, hcollected ▸ hstore, hfresh fun _ _ h => h.2, hanswer⟩

end MetricsService

end Kronical
