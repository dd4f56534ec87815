import Mathlib.Data.List.Basic
import Mathlib.Data.List.Flatten
import Mathlib.Order.Lattice
import Kronical.Lib.Transducer

/-!
# Networks of threads over unbounded channels

Every node of a network is one thread with one unbounded FIFO inbox. It repeats: receive, handle
what was received, make the resulting sends one by one. A receive returns `none` when the inbox is
empty and every thread that holds a sender of it has ended. A node without senders has no inbox to
wait for: its receives all return `none`, and what it reacts to is the reading it takes with them. A
thread that has halted and has nothing left to send ends; a send to a thread that has ended fails.

Nodes keep their histories, so that the results can be stated on a single reachable state. As long
as none of its sends failed, a node is the transducer of its handler on what it received
(`Reach.run_eq`), and what has arrived at a node from another one is what that one sent to it, in
order (`Reach.arrived_from`).
-/

namespace Network

variable {ν : Type}

/-- A message and the node it is addressed to. -/
abbrev Packet (Msg : ν → Type) := (n : ν) × Msg n

/-- The message of a packet for `n`. -/
def Packet.to [DecidableEq ν] {Msg : ν → Type} (n : ν) (packet : Packet Msg) : Option (Msg n) :=
  if h : packet.1 = n then some (h ▸ packet.2) else none

@[simp] theorem Packet.to_self [DecidableEq ν] {Msg : ν → Type} (n : ν) (msg : Msg n) :
    Packet.to n (⟨n, msg⟩ : Packet Msg) = some msg := by
  simp [Packet.to]

theorem Packet.to_of_ne [DecidableEq ν] {Msg : ν → Type} {n : ν} {packet : Packet Msg}
    (h : packet.1 ≠ n) : Packet.to n packet = none := by
  simp [Packet.to, h]

theorem Packet.eq_of_to [DecidableEq ν] {Msg : ν → Type} {n : ν} {packet : Packet Msg} {msg : Msg n}
    (h : packet.to n = some msg) : packet = ⟨n, msg⟩ := by
  obtain ⟨k, other⟩ := packet
  by_cases hk : k = n
  · subst hk
    rw [Packet.to_self] at h
    rw [Option.some.inj h]
  · rw [Packet.to_of_ne hk] at h
    cases h

end Network

open Network in
/-- The threads of a program and how they are wired. -/
structure Network {ν : Type} [LinearOrder ν] (Msg Reading Local : ν → Type) where
  init : ∀ n, Local n
  /-- The nodes that hold a sender of a node's inbox. -/
  senders : ν → List ν
  /-- The new local state and the sends that follow from one receive. -/
  handle : ∀ n, Local n → Reading n → Option (Msg n) → Local n × List (Packet Msg)
  /-- The thread has left its loop. -/
  halted : ∀ n, Local n → Bool
  /-- The new local state and the sends still made after a failed one. -/
  refuse : ∀ n, Local n → Packet Msg → List (Packet Msg) → Local n × List (Packet Msg)
  upstream : ∀ {p n}, p ∈ senders n → p < n
  addressed : ∀ n s r i, ∀ packet ∈ (handle n s r i).2, n ∈ senders packet.1
  closes : ∀ n s r, senders n ≠ [] → halted n (handle n s r none).1 = true
  refuse_sublist : ∀ n s packet rest, (refuse n s packet rest).2.Sublist rest
  refuse_halted : ∀ n s packet rest, halted n s = true → halted n (refuse n s packet rest).1 = true

namespace Network

variable {ν : Type} {Msg Reading Local : ν → Type}

/-- One thread: its local state, its inbox (each message with its sender), the sends it still has to
make, whether it has ended, and its histories. -/
structure Node (Msg Reading Local : ν → Type) (n : ν) where
  current : Local n
  queue : List (ν × Msg n)
  outbox : List (Packet Msg)
  ended : Bool
  /-- What it has received so far, with the readings taken. -/
  taken : List (Reading n × Option (ν × Msg n))
  /-- The sends it has made so far. -/
  sent : List (Packet Msg)
  /-- One of its sends has failed. -/
  refused : Bool

/-- The inputs a node has handled. -/
def Node.inputs {n : ν} (node : Node Msg Reading Local n) : List (Reading n × Option (Msg n)) :=
  node.taken.map fun i => (i.1, i.2.map Prod.snd)

/-- Everything that was ever put into a node's inbox. -/
def Node.arrived {n : ν} (node : Node Msg Reading Local n) : List (ν × Msg n) :=
  node.taken.filterMap Prod.snd ++ node.queue

/-- The messages of one sender. -/
def only [DecidableEq ν] {n : ν} (p : ν) (msgs : List (ν × Msg n)) : List (Msg n) :=
  msgs.filterMap fun m => if m.1 = p then some m.2 else none

/-- What has arrived at a node from one sender. -/
def Node.arrivedFrom [DecidableEq ν] {n : ν} (node : Node Msg Reading Local n) (p : ν) :
    List (Msg n) :=
  only p node.arrived

/-- What a node has sent to another one. -/
def Node.sentTo [DecidableEq ν] {p : ν} (node : Node Msg Reading Local p) (n : ν) : List (Msg n) :=
  node.sent.filterMap (Packet.to n)

abbrev Config (Msg Reading Local : ν → Type) := ∀ n, Node Msg Reading Local n

/-- One thread receives (with a reading), makes its next send, or ends. -/
inductive Action (Reading : ν → Type)
  | recv (n : ν) (reading : Reading n)
  | send (n : ν)
  | finish (n : ν)

variable [LinearOrder ν] (net : Network Msg Reading Local)

def start : Config Msg Reading Local := fun n =>
  { current := net.init n, queue := [], outbox := [], ended := false, taken := [], sent := [],
    refused := false }

/-- The thread is at the receive of its loop. -/
def Waiting {n : ν} (node : Node Msg Reading Local n) : Bool :=
  !node.ended && node.outbox.isEmpty && !net.halted n node.current

/-- The node after a receive that left `queue` in the inbox. -/
def receive {n : ν} (node : Node Msg Reading Local n) (reading : Reading n)
    (input : Option (ν × Msg n)) (queue : List (ν × Msg n)) : Node Msg Reading Local n :=
  { node with
    current := (net.handle n node.current reading (input.map Prod.snd)).1
    outbox := (net.handle n node.current reading (input.map Prod.snd)).2
    queue
    taken := node.taken ++ [(reading, input)] }

/-- The node after its next send succeeded. -/
def dispatched {n : ν} (node : Node Msg Reading Local n) (packet : Packet Msg)
    (rest : List (Packet Msg)) : Node Msg Reading Local n :=
  { node with outbox := rest, sent := node.sent ++ [packet] }

/-- The node after its next send failed. -/
def rebuffed {n : ν} (node : Node Msg Reading Local n) (packet : Packet Msg)
    (rest : List (Packet Msg)) : Node Msg Reading Local n :=
  { node with
    current := (net.refuse n node.current packet rest).1
    outbox := (net.refuse n node.current packet rest).2
    refused := true }

/-- The node with one more message in its inbox. -/
def enqueued {n : ν} (node : Node Msg Reading Local n) (p : ν) (msg : Msg n) :
    Node Msg Reading Local n :=
  { node with queue := node.queue ++ [(p, msg)] }

/-- The configuration after `packet` was put into the inbox it is addressed to. -/
def deliver (s : Config Msg Reading Local) (p : ν) (packet : Packet Msg) :
    Config Msg Reading Local :=
  Function.update s packet.1 (enqueued (s packet.1) p packet.2)

def step (s : Config Msg Reading Local) : Action Reading → Option (Config Msg Reading Local)
  | .recv n reading =>
    if net.Waiting (s n) then
      match (s n).queue with
      | msg :: queue => some (Function.update s n (net.receive (s n) reading (some msg) queue))
      | [] =>
        if (net.senders n).all fun p => (s p).ended then
          some (Function.update s n (net.receive (s n) reading none []))
        else
          none
    else
      none
  | .send n =>
    match (s n).outbox with
    | packet :: rest =>
      if (s packet.1).ended then
        some (Function.update s n (net.rebuffed (s n) packet rest))
      else
        some (deliver (Function.update s n (dispatched (s n) packet rest)) n packet)
    | [] => none
  | .finish n =>
    if !(s n).ended && (s n).outbox.isEmpty && net.halted n (s n).current then
      some (Function.update s n { s n with ended := true })
    else
      none

/-- The configuration after a schedule, if every action of it could be taken. -/
def exec (s : Config Msg Reading Local) : List (Action Reading) → Option (Config Msg Reading Local)
  | [] => some s
  | a :: as => (net.step s a).bind fun t => exec t as

/-- The configuration after a schedule, if every action of it could be taken and met `ok`. -/
def execWithin (ok : Config Msg Reading Local → Action Reading → Prop) [∀ s a, Decidable (ok s a)]
    (s : Config Msg Reading Local) : List (Action Reading) → Option (Config Msg Reading Local)
  | [] => some s
  | a :: as => if ok s a then (net.step s a).bind fun t => execWithin ok t as else none

/-! ### What a step does -/

/-- What a receive can return: the head of the inbox, or nothing once all senders are gone. -/
inductive Offers (s : Config Msg Reading Local) (n : ν) :
    Option (ν × Msg n) → List (ν × Msg n) → Prop
  | message {msg queue} (hqueue : (s n).queue = msg :: queue) : Offers s n (some msg) queue
  | closed (hqueue : (s n).queue = []) (hgone : ∀ p ∈ net.senders n, (s p).ended = true) :
      Offers s n none []

/-- The four things a step can do. -/
inductive Does (s : Config Msg Reading Local) : Action Reading → Config Msg Reading Local → Prop
  | recv {n reading input queue} (hended : (s n).ended = false) (houtbox : (s n).outbox = [])
      (hhalted : net.halted n (s n).current = false) (hoffer : net.Offers s n input queue) :
      Does s (.recv n reading) (Function.update s n (net.receive (s n) reading input queue))
  | send {n packet rest} (houtbox : (s n).outbox = packet :: rest)
      (hended : (s packet.1).ended = false) :
      Does s (.send n) (deliver (Function.update s n (dispatched (s n) packet rest)) n packet)
  | refuse {n packet rest} (houtbox : (s n).outbox = packet :: rest)
      (hended : (s packet.1).ended = true) :
      Does s (.send n) (Function.update s n (net.rebuffed (s n) packet rest))
  | finish {n} (hended : (s n).ended = false) (houtbox : (s n).outbox = [])
      (hhalted : net.halted n (s n).current = true) :
      Does s (.finish n) (Function.update s n { s n with ended := true })

variable {net}

theorem step_cases {s t : Config Msg Reading Local} {a : Action Reading}
    (h : net.step s a = some t) : net.Does s a t := by
  cases a with
  | recv n reading =>
    unfold step at h
    dsimp only at h
    by_cases hwaiting : net.Waiting (s n)
    swap
    · rw [if_neg hwaiting] at h
      cases h
    rw [if_pos hwaiting] at h
    simp only [Waiting, Bool.and_eq_true, Bool.not_eq_true', List.isEmpty_iff] at hwaiting
    obtain ⟨⟨hended, houtbox⟩, hhalted⟩ := hwaiting
    split at h
    · rename_i msg queue hqueue
      cases h
      exact .recv hended houtbox hhalted (.message hqueue)
    · rename_i hqueue
      split_ifs at h with hgone
      cases h
      exact .recv hended houtbox hhalted (.closed hqueue (by simpa using hgone))
  | send n =>
    unfold step at h
    dsimp only at h
    split at h
    · rename_i packet rest houtbox
      split_ifs at h with hended <;> cases h
      · exact .refuse houtbox hended
      · exact .send houtbox (by simpa using hended)
    · cases h
  | finish n =>
    unfold step at h
    dsimp only at h
    split_ifs at h with hfinish
    simp only [Bool.and_eq_true, Bool.not_eq_true', List.isEmpty_iff] at hfinish
    cases h
    exact .finish hfinish.1.1 hfinish.1.2 hfinish.2

/-! ### Runs -/

/-- The configurations reached through steps that all meet `ok`. -/
inductive Reach (net : Network Msg Reading Local)
    (ok : Config Msg Reading Local → Action Reading → Prop) : Config Msg Reading Local → Prop
  | start : Reach net ok net.start
  | step {s a t} (hs : Reach net ok s) (hok : ok s a) (h : net.step s a = some t) : Reach net ok t

/-- The configurations some schedule reaches. -/
abbrev Reachable (net : Network Msg Reading Local) : Config Msg Reading Local → Prop :=
  net.Reach fun _ _ => True

theorem Reach.reachable {ok : Config Msg Reading Local → Action Reading → Prop}
    {s : Config Msg Reading Local} (hs : net.Reach ok s) : net.Reachable s := by
  induction hs with
  | start => exact .start
  | step _ _ h ih => exact .step ih trivial h

theorem Reachable.exec {s t : Config Msg Reading Local} {as : List (Action Reading)}
    (hs : net.Reachable s) (h : net.exec s as = some t) : net.Reachable t := by
  induction as generalizing s with
  | nil => exact (Option.some.inj h) ▸ hs
  | cons a as ih =>
    obtain ⟨u, hu, hrest⟩ := Option.bind_eq_some_iff.mp h
    exact ih (.step hs trivial hu) hrest

theorem Reach.execWithin {ok : Config Msg Reading Local → Action Reading → Prop}
    [∀ s a, Decidable (ok s a)] {s t : Config Msg Reading Local} {as : List (Action Reading)}
    (hs : net.Reach ok s) (h : net.execWithin ok s as = some t) : net.Reach ok t := by
  induction as generalizing s with
  | nil => exact (Option.some.inj h) ▸ hs
  | cons a as ih =>
    unfold Network.execWithin at h
    split_ifs at h with hok
    obtain ⟨u, hu, hrest⟩ := Option.bind_eq_some_iff.mp h
    exact ih (.step hs hok hu) hrest

/-- What holds at the start and is kept by every step from a reached configuration holds of all
reached configurations. -/
theorem Reach.invariant {ok : Config Msg Reading Local → Action Reading → Prop}
    {I : Config Msg Reading Local → Prop} (hstart : I net.start)
    (hstep : ∀ s a t, net.Reach ok s → ok s a → net.Does s a t → I s → I t)
    {s : Config Msg Reading Local} (hs : net.Reach ok s) : I s := by
  induction hs with
  | start => exact hstart
  | step hs hok h ih => exact hstep _ _ _ hs hok (step_cases h) ih

/-! ### Deliveries -/

theorem deliver_eq (s : Config Msg Reading Local) (p k : ν) (packet : Packet Msg) :
    deliver s p packet k =
      { s k with queue := (s k).queue ++ (packet.to k).toList.map (p, ·) } := by
  by_cases h : packet.1 = k
  · subst h
    rw [deliver, Function.update_self, enqueued]
    obtain ⟨k, msg⟩ := packet
    rw [Packet.to_self]
    rfl
  · rw [deliver, Function.update_of_ne (Ne.symm h), Packet.to_of_ne h]
    simp

/-! ### One node's turn -/

variable {ok : Config Msg Reading Local → Action Reading → Prop} {s t : Config Msg Reading Local}

/-- What a step does to one node `n`: nothing but messages for it, or its own action. -/
inductive Turn (net : Network Msg Reading Local) (s : Config Msg Reading Local) (n : ν) :
    Action Reading → Node Msg Reading Local n → Prop
  | idle {a} (queue) : Turn net s n a { s n with queue }
  | recv {reading input queue} (hended : (s n).ended = false) (houtbox : (s n).outbox = [])
      (hhalted : net.halted n (s n).current = false) (hoffer : net.Offers s n input queue) :
      Turn net s n (.recv n reading) (net.receive (s n) reading input queue)
  | send {packet rest} (queue) (houtbox : (s n).outbox = packet :: rest)
      (hended : (s packet.1).ended = false) :
      Turn net s n (.send n) { dispatched (s n) packet rest with queue }
  | refuse {packet rest} (houtbox : (s n).outbox = packet :: rest)
      (hended : (s packet.1).ended = true) :
      Turn net s n (.send n) (net.rebuffed (s n) packet rest)
  | finish (hended : (s n).ended = false) (houtbox : (s n).outbox = [])
      (hhalted : net.halted n (s n).current = true) :
      Turn net s n (.finish n) { s n with ended := true }

theorem Does.turn {a : Action Reading} (hdoes : net.Does s a t) (n : ν) :
    net.Turn s n a (t n) := by
  cases hdoes with
  | @recv k reading input queue hended houtbox hhalted hoffer =>
    by_cases hk : n = k
    · subst hk
      rw [Function.update_self]
      exact .recv hended houtbox hhalted hoffer
    · rw [Function.update_of_ne hk]
      exact .idle (s n).queue
  | @send k packet rest houtbox hended =>
    by_cases hk : n = k
    · subst hk
      rw [deliver_eq, Function.update_self]
      exact .send _ houtbox hended
    · rw [deliver_eq, Function.update_of_ne hk]
      exact .idle _
  | @refuse k packet rest houtbox hended =>
    by_cases hk : n = k
    · subst hk
      rw [Function.update_self]
      exact .refuse houtbox hended
    · rw [Function.update_of_ne hk]
      exact .idle (s n).queue
  | @finish k hended houtbox hhalted =>
    by_cases hk : n = k
    · subst hk
      rw [Function.update_self]
      exact .finish hended houtbox hhalted
    · rw [Function.update_of_ne hk]
      exact .idle (s n).queue

theorem Reach.node_invariant {n : ν} {I : Node Msg Reading Local n → Prop} (hstart : I (net.start n))
    (hstep : ∀ s a node, net.Reach ok s → net.Turn s n a node → I (s n) → I node)
    (hs : net.Reach ok s) : I (s n) :=
  hs.invariant (I := fun s => I (s n)) hstart fun s a _ hs _ hdoes ih =>
    hstep s a _ hs (hdoes.turn n) ih

/-! ### Histories -/

/-- The handler of a node, over what its receives return. -/
def handler (net : Network Msg Reading Local) (n : ν) :
    Transducer (Local n) (Reading n × Option (Msg n)) (Packet Msg) :=
  fun s i => net.handle n s i.1 i.2

/-- As long as none of its sends failed, a node is the transducer of its handler. -/
theorem Reach.run_eq (hs : net.Reach ok s) (n : ν) :
    (s n).refused = false →
      (net.handler n).run (net.init n) (s n).inputs =
        ((s n).current, (s n).sent ++ (s n).outbox) := by
  refine hs.node_invariant (I := fun node => node.refused = false →
    (net.handler n).run (net.init n) node.inputs = (node.current, node.sent ++ node.outbox))
    (fun _ => rfl) ?_
  intro s a node _ hturn ih
  cases hturn with
  | idle => exact ih
  | @recv reading input queue hended houtbox hhalted hoffer =>
    intro hrefused
    have hrun := ih hrefused
    rw [houtbox, List.append_nil] at hrun
    have hinputs : (net.receive (s n) reading input queue).inputs =
        (s n).inputs ++ [(reading, input.map Prod.snd)] := by
      simp [Node.inputs, receive]
    rw [hinputs, Transducer.run_concat, hrun]
    rfl
  | send queue houtbox hended =>
    intro hrefused
    have hrun := ih hrefused
    rw [houtbox] at hrun
    simpa [dispatched, Node.inputs] using hrun
  | refuse houtbox hended =>
    intro hrefused
    cases hrefused
  | finish => exact ih

theorem Offers.arrived {n : ν} {input : Option (ν × Msg n)} {queue : List (ν × Msg n)}
    (hoffer : net.Offers s n input queue) (reading : Reading n) :
    (net.receive (s n) reading input queue).arrived = (s n).arrived := by
  cases hoffer with
  | message hqueue => simp [Node.arrived, receive, hqueue]
  | closed hqueue hgone => simp [Node.arrived, receive, hqueue]

theorem Does.messages {a : Action Reading} {t : Config Msg Reading Local}
    (hdoes : net.Does s a t) :
    (∀ k, (t k).arrived = (s k).arrived ∧ (t k).sent = (s k).sent) ∨
      ∃ n packet rest, a = .send n ∧ (s n).outbox = packet :: rest ∧ (s packet.1).ended = false ∧
        ∀ k, (t k).arrived = (s k).arrived ++ (packet.to k).toList.map (n, ·) ∧
          (t k).sent = (s k).sent ++ if k = n then [packet] else [] := by
  cases hdoes with
  | @recv n reading input queue hended houtbox hhalted hoffer =>
    refine .inl fun k => ?_
    by_cases hk : k = n
    · subst hk
      rw [Function.update_self]
      exact ⟨hoffer.arrived reading, rfl⟩
    · rw [Function.update_of_ne hk]
      exact ⟨rfl, rfl⟩
  | @send n packet rest houtbox hended =>
    refine .inr ⟨n, packet, rest, rfl, houtbox, hended, fun k => ?_⟩
    rw [deliver_eq]
    by_cases hk : k = n
    · subst hk
      rw [Function.update_self, if_pos rfl]
      exact ⟨(List.append_assoc ..).symm, rfl⟩
    · rw [Function.update_of_ne hk, if_neg hk, List.append_nil]
      exact ⟨(List.append_assoc ..).symm, rfl⟩
  | @refuse n packet rest houtbox hended =>
    refine .inl fun k => ?_
    by_cases hk : k = n
    · subst hk
      rw [Function.update_self]
      exact ⟨rfl, rfl⟩
    · rw [Function.update_of_ne hk]
      exact ⟨rfl, rfl⟩
  | @finish n hended houtbox hhalted =>
    refine .inl fun k => ?_
    by_cases hk : k = n
    · subst hk
      rw [Function.update_self]
      exact ⟨rfl, rfl⟩
    · rw [Function.update_of_ne hk]
      exact ⟨rfl, rfl⟩

/-- What has arrived at a node from another one is what that one sent to it, in order. -/
theorem Reach.arrived_from (hs : net.Reach ok s) (n p : ν) :
    (s n).arrivedFrom p = (s p).sentTo n := by
  refine Reach.invariant (I := fun s => (s n).arrivedFrom p = (s p).sentTo n) rfl ?_ hs
  intro s a t _ _ hdoes ih
  rcases hdoes.messages with hsame | ⟨k, packet, rest, -, -, -, hmsg⟩
  · rw [Node.arrivedFrom, (hsame n).1, Node.sentTo, (hsame p).2]
    exact ih
  · rw [Node.arrivedFrom, (hmsg n).1, Node.sentTo, (hmsg p).2, only, List.filterMap_append,
      List.filterMap_append]
    refine congrArg₂ (· ++ ·) ih ?_
    by_cases hp : p = k
    · subst hp
      cases hto : packet.to n <;> simp [hto]
    · cases hto : packet.to n <;> simp [hp, Ne.symm hp]

theorem Reach.addressed (hs : net.Reach ok s) (n : ν) :
    ∀ packet ∈ (s n).sent ++ (s n).outbox, n ∈ net.senders packet.1 := by
  refine hs.node_invariant
    (I := fun node => ∀ packet ∈ node.sent ++ node.outbox, n ∈ net.senders packet.1)
    (fun packet hmem => absurd hmem List.not_mem_nil) ?_
  intro s a node _ hturn ih
  cases hturn with
  | idle => exact ih
  | recv hended houtbox hhalted hoffer =>
    intro packet hmem
    rcases List.mem_append.mp hmem with hsent | hout
    · exact ih packet (List.mem_append_left _ hsent)
    · exact net.addressed _ _ _ _ packet hout
  | send queue houtbox hended =>
    rw [houtbox] at ih
    simpa [dispatched] using ih
  | refuse houtbox hended =>
    intro other hmem
    rcases List.mem_append.mp hmem with hsent | hout
    · exact ih other (List.mem_append_left _ hsent)
    · have hrest := (net.refuse_sublist _ _ _ _).subset hout
      exact ih other (List.mem_append_right _ (houtbox ▸ List.mem_cons_of_mem _ hrest))
  | finish => exact ih

theorem Reach.sent_of_arrived (hs : net.Reach ok s) {n : ν} {msg : ν × Msg n}
    (hmem : msg ∈ (s n).arrived) : (⟨n, msg.2⟩ : Packet Msg) ∈ (s msg.1).sent := by
  have hfrom : msg.2 ∈ (s n).arrivedFrom msg.1 :=
    List.mem_filterMap.mpr ⟨msg, hmem, by simp⟩
  rw [hs.arrived_from, Node.sentTo, List.mem_filterMap] at hfrom
  obtain ⟨packet, hsent, hto⟩ := hfrom
  exact Packet.eq_of_to hto ▸ hsent

theorem Reach.from_sender (hs : net.Reach ok s) {n : ν} {msg : ν × Msg n}
    (hmem : msg ∈ (s n).arrived) : msg.1 ∈ net.senders n :=
  hs.addressed msg.1 _ (List.mem_append_left _ (hs.sent_of_arrived hmem))

/-! ### Ends -/

theorem Reach.done_of_ended (hs : net.Reach ok s) (n : ν) :
    (s n).ended = true → (s n).outbox = [] ∧ net.halted n (s n).current = true := by
  refine hs.node_invariant (I := fun node => node.ended = true →
    node.outbox = [] ∧ net.halted n node.current = true) (fun h => by cases h) ?_
  intro s a node _ hturn ih
  cases hturn with
  | idle => exact ih
  | recv hended houtbox hhalted hoffer =>
    intro h
    exact absurd (hended.symm.trans h) Bool.false_ne_true
  | send queue houtbox hended =>
    intro h
    cases houtbox.symm.trans (ih h).1
  | refuse houtbox hended =>
    intro h
    cases houtbox.symm.trans (ih h).1
  | finish hended houtbox hhalted => exact fun _ => ⟨houtbox, hhalted⟩

theorem Does.ended_mono {a : Action Reading} (hdoes : net.Does s a t) {n : ν}
    (h : (s n).ended = true) : (t n).ended = true := by
  have hturn := hdoes.turn n
  revert hturn
  generalize t n = node
  intro hturn
  cases hturn with
  | idle => exact h
  | recv => exact h
  | send => exact h
  | refuse => exact h
  | finish => rfl

/-- The inbox of `n` is empty and stays so: every thread that holds a sender of it has ended. -/
def Closed (net : Network Msg Reading Local) (s : Config Msg Reading Local) (n : ν) : Prop :=
  (s n).queue = [] ∧ ∀ p ∈ net.senders n, (s p).ended = true

theorem Reach.closed_step (hs : net.Reach ok s) {a : Action Reading} (hdoes : net.Does s a t)
    {n : ν} (hclosed : net.Closed s n) : net.Closed t n := by
  refine ⟨?_, fun p hp => hdoes.ended_mono (hclosed.2 p hp)⟩
  cases hdoes with
  | @recv k reading input queue hended houtbox hhalted hoffer =>
    by_cases hk : n = k
    · subst hk
      rw [Function.update_self]
      cases hoffer with
      | message hqueue => cases hqueue.symm.trans hclosed.1
      | closed => rfl
    · rw [Function.update_of_ne hk]
      exact hclosed.1
  | @send k packet rest houtbox hended =>
    have hto : packet.to n = none := by
      refine Packet.to_of_ne fun hdst => ?_
      have hsender := hs.addressed k packet (List.mem_append_right _ (houtbox ▸ List.mem_cons_self))
      have hgone := (hs.done_of_ended k (hclosed.2 k (hdst ▸ hsender))).1
      cases houtbox.symm.trans hgone
    rw [deliver_eq, hto]
    by_cases hk : n = k
    · subst hk
      rw [Function.update_self]
      simpa [dispatched] using hclosed.1
    · rw [Function.update_of_ne hk]
      simpa using hclosed.1
  | @refuse k packet rest houtbox hended =>
    by_cases hk : n = k
    · subst hk
      rw [Function.update_self]
      exact hclosed.1
    · rw [Function.update_of_ne hk]
      exact hclosed.1
  | @finish k hended houtbox hhalted =>
    by_cases hk : n = k
    · subst hk
      rw [Function.update_self]
      exact hclosed.1
    · rw [Function.update_of_ne hk]
      exact hclosed.1

theorem Reach.closed (hs : net.Reach ok s) {n : ν} {reading : Reading n}
    (hmem : (reading, none) ∈ (s n).taken) : net.Closed s n := by
  revert hmem
  refine Reach.invariant (I := fun s => (reading, none) ∈ (s n).taken → net.Closed s n)
    (fun h => absurd h List.not_mem_nil) ?_ hs
  intro s a t hs _ hdoes ih hmem
  by_cases hbefore : (reading, none) ∈ (s n).taken
  · exact hs.closed_step hdoes (ih hbefore)
  · have hturn := hdoes.turn n
    revert hturn hmem
    generalize hnode : t n = node
    intro hmem hturn
    cases hturn with
    | idle => exact absurd hmem hbefore
    | recv hended houtbox hhalted hoffer =>
      have hinput := (List.mem_append.mp hmem).resolve_left hbefore
      rw [List.mem_singleton, Prod.mk.injEq] at hinput
      obtain ⟨-, rfl⟩ := hinput
      cases hoffer with
      | closed hqueue hgone => exact hs.closed_step hdoes ⟨hqueue, hgone⟩
    | send => exact absurd hmem hbefore
    | refuse => exact absurd hmem hbefore
    | finish => exact absurd hmem hbefore

theorem Reach.none_refused {N : ν → Prop}
    (hlive : ∀ s, net.Reach ok s → (∀ n, N n → (s n).refused = false) →
      ∀ n packet rest, N n → (s n).outbox = packet :: rest → (s packet.1).ended = false)
    (hs : net.Reach ok s) : ∀ n, N n → (s n).refused = false := by
  refine Reach.invariant (I := fun s => ∀ n, N n → (s n).refused = false) (fun _ _ => rfl) ?_ hs
  intro s a t hs _ hdoes ih n hn
  have hturn := hdoes.turn n
  revert hturn
  generalize t n = node
  intro hturn
  cases hturn with
  | idle => exact ih n hn
  | recv => exact ih n hn
  | send => exact ih n hn
  | refuse houtbox hended =>
    exact absurd ((hlive s hs ih n _ _ hn houtbox).symm.trans hended) Bool.false_ne_true
  | finish => exact ih n hn

theorem Reach.not_after {n p : ν} {last : ν × Msg n}
    (hdone : ∀ s, net.Reach ok s → last ∈ (s n).arrived → (s p).outbox = [])
    (hs : net.Reach ok s) :
    ∀ before after, (s n).arrived = before ++ last :: after → ∀ msg ∈ after, msg.1 ≠ p := by
  refine Reach.invariant (I := fun s => ∀ before after, (s n).arrived = before ++ last :: after →
    ∀ msg ∈ after, msg.1 ≠ p) (fun before after h => ?_) ?_ hs
  · have hmem : last ∈ (net.start n).arrived := h ▸ List.mem_append_right before List.mem_cons_self
    exact absurd hmem List.not_mem_nil
  intro s a t hs _ hdoes ih before after harrived
  rcases hdoes.messages with hsame | ⟨k, packet, rest, -, houtbox, -, hmsg⟩
  · exact ih before after ((hsame n).1.symm.trans harrived)
  · rw [(hmsg n).1] at harrived
    cases hto : packet.to n with
    | none =>
      rw [hto, Option.toList_none, List.map_nil, List.append_nil] at harrived
      exact ih before after harrived
    | some msg =>
      rw [hto, Option.toList_some, List.map_cons, List.map_nil] at harrived
      rcases List.eq_nil_or_concat' after with rfl | ⟨front, newest, rfl⟩
      · simp
      · rw [← List.cons_append, ← List.append_assoc] at harrived
        obtain ⟨hfront, hnewest⟩ := List.append_inj' harrived rfl
        intro other hother
        rcases List.mem_append.mp hother with hother | hother
        · exact ih before front hfront other hother
        · obtain rfl : other = (k, msg) :=
            (List.mem_singleton.mp hother).trans (List.singleton_inj.mp hnewest).symm
          rintro rfl
          have hmem : last ∈ (s n).arrived := hfront ▸ List.mem_append_right before List.mem_cons_self
          cases houtbox.symm.trans (hdone s hs hmem)

theorem Reach.only_before (hs : net.Reach ok s) {n p q : ν} {m : Msg n}
    (hdone : ∀ s, net.Reach ok s → (q, m) ∈ (s n).arrived → (s p).outbox = [])
    {before after : List (ν × Msg n)} (harrived : (s n).arrived = before ++ (q, m) :: after) :
    (s p).sentTo n = only p before ++ if q = p then [m] else [] := by
  have hnone : only p after = [] := by
    refine List.filterMap_eq_nil_iff.mpr fun msg hmsg => if_neg ?_
    exact Reach.not_after hdone hs before after harrived msg hmsg
  rw [← hs.arrived_from, Node.arrivedFrom, harrived, only, List.filterMap_append,
    List.filterMap_cons]
  dsimp only
  split_ifs
  · exact congrArg (fun rest => only p before ++ m :: rest) hnone
  · exact congrArg (only p before ++ ·) hnone

theorem Reach.sent_prefix {n m : ν} (honly : ∀ k, n ∈ net.senders k → k = m) (hs : net.Reach ok s) :
    ∃ inputs, inputs <+: (s n).inputs ∧ (s n).sent <+: ((net.handler n).run (net.init n) inputs).2 := by
  have hall : ((s n).refused = true → (s m).ended = true) ∧ ∃ inputs, inputs <+: (s n).inputs ∧
      (s n).sent <+: ((net.handler n).run (net.init n) inputs).2 := by
    refine Reach.invariant (I := fun s => ((s n).refused = true → (s m).ended = true) ∧
      ∃ inputs, inputs <+: (s n).inputs ∧ (s n).sent <+: ((net.handler n).run (net.init n) inputs).2)
      ⟨nofun, [], List.nil_prefix, List.nil_prefix⟩ ?_ hs
    rintro s a t hs - hdoes ⟨hended, inputs, hinputs, hsent⟩
    have hto : ∀ packet rest, (s n).outbox = packet :: rest → packet.1 = m := fun packet rest houtbox =>
      honly _ (hs.addressed n packet (List.mem_append_right _ (houtbox ▸ List.mem_cons_self)))
    have hmono : (s m).ended = true → (t m).ended = true := hdoes.ended_mono
    have hturn := hdoes.turn n
    revert hturn
    generalize t n = node
    intro hturn
    cases hturn with
    | idle => exact ⟨fun h => hmono (hended h), inputs, hinputs, hsent⟩
    | @recv reading input queue =>
      refine ⟨fun h => hmono (hended h), inputs, hinputs.trans ?_, hsent⟩
      simp [Node.inputs, receive]
    | @send packet rest queue houtbox hopen =>
      have hrefused : (s n).refused = false := by
        rw [hto packet rest houtbox] at hopen
        by_contra h
        exact Bool.false_ne_true (hopen.symm.trans (hended (Bool.eq_true_of_not_eq_false h)))
      have hrun := hs.run_eq n hrefused
      refine ⟨fun h => hmono (hended h), (s n).inputs, List.prefix_rfl, rest, ?_⟩
      rw [hrun, houtbox]
      exact List.append_assoc ..
    | @refuse packet rest houtbox hgone =>
      exact ⟨fun _ => hmono (hto packet rest houtbox ▸ hgone), inputs, hinputs, hsent⟩
    | finish => exact ⟨fun h => hmono (hended h), inputs, hinputs, hsent⟩
  exact hall.2

end Network
