import Kronical.Lib.Network

/-!
# Last messages

How a thread of a network ends, and what the others can conclude from its last message. A `Farewell`
is a message that a thread sends last of all it sends, or last of what it sends to one node: whoever
has received it has received everything (`Farewell.received_all`). `Reach.halted_cause` finds the
receive a thread has left its loop with, `Reach.answers` the receive a packet answers.
-/

namespace Network

variable {ν : Type} [LinearOrder ν] {Msg Reading Local : ν → Type} {net : Network Msg Reading Local}
  {ok : Config Msg Reading Local → Action Reading → Prop} {s t : Config Msg Reading Local}

theorem Reach.answers_within (hs : net.Reach ok s) (n : ν) {I : Local n → Prop} (hinit : I (net.init n))
    (hhandle : ∀ state reading input, I state → I (net.handle n state reading input).1)
    (hrefuse : ∀ state packet rest, I state → I (net.refuse n state packet rest).1) :
    I (s n).current ∧ ∀ packet ∈ (s n).sent ++ (s n).outbox,
      ∃ state reading input, I state ∧ packet ∈ (net.handle n state reading input).2 := by
  refine hs.node_invariant (I := fun node => I node.current ∧ ∀ packet ∈ node.sent ++ node.outbox,
    ∃ state reading input, I state ∧ packet ∈ (net.handle n state reading input).2)
    ⟨hinit, fun packet hmem => absurd hmem List.not_mem_nil⟩ ?_
  intro s a node _ hturn ih
  obtain ⟨hcurrent, hanswers⟩ := ih
  cases hturn with
  | idle => exact ⟨hcurrent, hanswers⟩
  | recv hended houtbox hhalted hoffer =>
    refine ⟨hhandle _ _ _ hcurrent, fun packet hmem => ?_⟩
    rcases List.mem_append.mp hmem with hsent | hout
    · exact hanswers packet (List.mem_append_left _ hsent)
    · exact ⟨_, _, _, hcurrent, hout⟩
  | send queue houtbox hended =>
    rw [houtbox] at hanswers
    exact ⟨hcurrent, by simpa [dispatched] using hanswers⟩
  | refuse houtbox hended =>
    refine ⟨hrefuse _ _ _ hcurrent, fun packet hmem => ?_⟩
    rcases List.mem_append.mp hmem with hsent | hout
    · exact hanswers packet (List.mem_append_left _ hsent)
    · have hrest := (net.refuse_sublist _ _ _ _).subset hout
      exact hanswers packet (List.mem_append_right _ (houtbox ▸ List.mem_cons_of_mem _ hrest))
  | finish => exact ⟨hcurrent, hanswers⟩

/-- Every packet a node sends answers a receive. -/
theorem Reach.answers (hs : net.Reach ok s) (n : ν) :
    ∀ packet ∈ (s n).sent ++ (s n).outbox,
      ∃ state reading input, packet ∈ (net.handle n state reading input).2 := by
  obtain ⟨-, hanswers⟩ := hs.answers_within n (I := fun _ => True) trivial (fun _ _ _ _ => trivial)
    fun _ _ _ _ => trivial
  intro packet hmem
  obtain ⟨state, reading, input, -, hout⟩ := hanswers packet hmem
  exact ⟨state, reading, input, hout⟩

theorem Reach.arrived_answers (hs : net.Reach ok s) {n : ν} {msg : ν × Msg n}
    (hmem : msg ∈ (s n).arrived) :
    ∃ state reading input,
      (⟨n, msg.2⟩ : Packet Msg) ∈ (net.handle msg.1 state reading input).2 :=
  hs.answers msg.1 _ (List.mem_append_left _ (hs.sent_of_arrived hmem))

/-- A thread that has left its loop did so with one of its receives, unless a failed send can end
it. -/
theorem Reach.halted_cause (hs : net.Reach ok s) {n : ν} (hinit : net.halted n (net.init n) = false) :
    ((s n).refused = false ∨ ∀ state packet rest,
        net.halted n (net.refuse n state packet rest).1 = true → net.halted n state = true) →
      net.halted n (s n).current = true →
      ∃ state reading input, (reading, input) ∈ (s n).taken ∧ net.halted n state = false ∧
        net.halted n (net.handle n state reading (input.map Prod.snd)).1 = true := by
  refine hs.node_invariant (I := fun node =>
    (node.refused = false ∨ ∀ state packet rest,
        net.halted n (net.refuse n state packet rest).1 = true → net.halted n state = true) →
      net.halted n node.current = true →
      ∃ state reading input, (reading, input) ∈ node.taken ∧ net.halted n state = false ∧
        net.halted n (net.handle n state reading (input.map Prod.snd)).1 = true)
    (fun _ h => absurd (hinit.symm.trans h) Bool.false_ne_true) ?_
  intro s a node _ hturn ih
  cases hturn with
  | idle => exact ih
  | @recv reading input queue hended houtbox hhalted hoffer =>
    intro _ hstops
    exact ⟨_, reading, input, List.mem_append_right _ List.mem_cons_self, hhalted, hstops⟩
  | send => exact ih
  | refuse houtbox hended =>
    intro hkeep hstops
    have hkeep := hkeep.resolve_left fun hrefused => Bool.false_ne_true hrefused.symm
    exact ih (.inr hkeep) (hkeep _ _ _ hstops)
  | finish => exact ih

/-! ### Farewells -/

/-- Of what `f` selects of the answer to a receive nothing is a `last` one, or only what comes last,
and the receive ends the node's loop. -/
def Farewell (net : Network Msg Reading Local) (n : ν) {α : Type} (f : Packet Msg → Option α)
    (last : α → Prop) : Prop :=
  ∀ state reading input,
    (∀ m ∈ (net.handle n state reading input).2.filterMap f, ¬ last m) ∨
      ∃ front m, (net.handle n state reading input).2.filterMap f = front ++ [m] ∧
        (∀ other ∈ front, ¬ last other) ∧
        net.halted n (net.handle n state reading input).1 = true

section

variable {n : ν} {α : Type} {f : Packet Msg → Option α} {last : α → Prop}

theorem Farewell.parting (hfarewell : net.Farewell n f last) (hs : net.Reach ok s) :
    (s n).refused = false → ∀ pre m post,
      ((s n).sent ++ (s n).outbox).filterMap f = pre ++ m :: post → last m →
        post = [] ∧ net.halted n (s n).current = true := by
  refine hs.node_invariant (I := fun node => node.refused = false → ∀ pre m post,
    (node.sent ++ node.outbox).filterMap f = pre ++ m :: post → last m →
      post = [] ∧ net.halted n node.current = true)
    (fun _ pre m post hsplit => absurd hsplit (by simp [start])) ?_
  intro s a node _ hturn ih
  cases hturn with
  | idle => exact ih
  | @recv reading input queue hended houtbox hhalted hoffer =>
    intro hrefused pre m post hsplit hlast
    -- the node had not halted, so it had sent no farewell
    have hnone : ∀ m ∈ (s n).sent.filterMap f, ¬ last m := by
      intro m hm hlast
      obtain ⟨front, back, hfront⟩ := List.append_of_mem hm
      rw [houtbox, List.append_nil] at ih
      have hstopped := (ih hrefused front m back hfront hlast).2
      exact absurd (hhalted.symm.trans hstopped) Bool.false_ne_true
    change ((s n).sent ++ (net.handle n (s n).current reading (input.map Prod.snd)).2).filterMap f =
      pre ++ m :: post at hsplit
    rw [List.filterMap_append] at hsplit
    rcases hfarewell (s n).current reading (input.map Prod.snd) with
      hquiet | ⟨front, final, hout, hfront, hstops⟩
    · have hmem := hsplit ▸ List.mem_append_right pre (List.mem_cons_self (a := m) (l := post))
      rcases List.mem_append.mp hmem with hmem | hmem
      · exact absurd hlast (hnone m hmem)
      · exact absurd hlast (hquiet m hmem)
    · refine ⟨?_, hstops⟩
      rcases List.eq_nil_or_concat' post with rfl | ⟨middle, newest, rfl⟩
      · rfl
      · rw [hout, ← List.append_assoc, ← List.cons_append, ← List.append_assoc] at hsplit
        obtain ⟨hbefore, -⟩ := List.append_inj' hsplit rfl
        have hmem := hbefore ▸ List.mem_append_right pre (List.mem_cons_self (a := m) (l := middle))
        rcases List.mem_append.mp hmem with hmem | hmem
        · exact absurd hlast (hnone m hmem)
        · exact absurd hlast (hfront m hmem)
  | send queue houtbox hended =>
    intro hrefused
    have hsame := ih hrefused
    rw [houtbox] at hsame
    simpa [dispatched] using hsame
  | refuse houtbox hended =>
    intro hrefused
    cases hrefused
  | finish => exact ih

theorem Farewell.done (hfarewell : net.Farewell n f last) (hs : net.Reach ok s)
    (hrefused : (s n).refused = false) {m : α} (hsent : m ∈ (s n).sent.filterMap f)
    (hlast : last m) : (s n).outbox.filterMap f = [] ∧ net.halted n (s n).current = true := by
  obtain ⟨pre, post, hsplit⟩ := List.append_of_mem hsent
  have hall : ((s n).sent ++ (s n).outbox).filterMap f =
      pre ++ m :: (post ++ (s n).outbox.filterMap f) := by
    rw [List.filterMap_append, hsplit, List.append_assoc, List.cons_append]
  obtain ⟨hpost, hhalted⟩ := hfarewell.parting hs hrefused pre m _ hall hlast
  exact ⟨(List.append_eq_nil_iff.mp hpost).2, hhalted⟩

theorem Farewell.split (hfarewell : net.Farewell n f last) (hs : net.Reach ok s)
    (hrefused : (s n).refused = false) {pre post : List α} {m : α}
    (hsent : (s n).sent.filterMap f = pre ++ m :: post) (hlast : last m) :
    post = [] ∧ ∀ other ∈ pre, ¬ last other := by
  have hnothing := hfarewell.parting hs hrefused
  rw [List.filterMap_append, hsent] at hnothing
  refine ⟨?_, fun other hother hlast' => ?_⟩
  · have hpost := (hnothing pre m (post ++ (s n).outbox.filterMap f) (by simp) hlast).1
    exact (List.append_eq_nil_iff.mp hpost).1
  · obtain ⟨front, back, rfl⟩ := List.append_of_mem hother
    have hback := (hnothing front other (back ++ m :: post ++ (s n).outbox.filterMap f)
      (by simp) hlast').1
    simp at hback

end

theorem Farewell.to {n k : ν} {m : Msg k} (h : net.Farewell n some (· = ⟨k, m⟩)) :
    net.Farewell n (Packet.to k) (· = m) := by
  have hquiet : ∀ packets : List (Packet Msg), (∀ packet ∈ packets, packet ≠ ⟨k, m⟩) →
      ∀ msg ∈ packets.filterMap (Packet.to k), msg ≠ m := by
    rintro packets hother _ hmem rfl
    obtain ⟨⟨dst, msg⟩, hpacket, hto⟩ := List.mem_filterMap.mp hmem
    by_cases hdst : dst = k
    · subst hdst
      rw [Packet.to_self] at hto
      exact hother _ hpacket (congrArg _ (Option.some.inj hto))
    · rw [Packet.to_of_ne hdst] at hto
      cases hto
  intro state reading input
  have hanswer := h state reading input
  rw [List.filterMap_some] at hanswer
  rcases hanswer with hother | ⟨front, packet, hout, hfront, hstops⟩
  · exact .inl (hquiet _ hother)
  · rw [hout, List.filterMap_append]
    by_cases hpacket : packet = ⟨k, m⟩
    · refine .inr ⟨front.filterMap (Packet.to k), m, ?_, hquiet front hfront, hstops⟩
      rw [hpacket, List.filterMap_cons, Packet.to_self]
      rfl
    · refine .inl fun msg hmem => ?_
      rw [← List.filterMap_append] at hmem
      refine hquiet _ (fun other hother => ?_) msg hmem
      rcases List.mem_append.mp hother with hother | hother
      · exact hfront other hother
      · rwa [List.mem_singleton.mp hother]

theorem Reach.arrived_of_sent (hs : net.Reach ok s) {n p : ν} {m : Msg n}
    (hmem : (⟨n, m⟩ : Packet Msg) ∈ (s p).sent) : (p, m) ∈ (s n).arrived := by
  have hsent : m ∈ (s p).sentTo n := List.mem_filterMap.mpr ⟨_, hmem, Packet.to_self n m⟩
  rw [← hs.arrived_from, Node.arrivedFrom, only, List.mem_filterMap] at hsent
  obtain ⟨⟨q, msg⟩, harrived, hfrom⟩ := hsent
  dsimp only at hfrom
  split_ifs at hfrom with hq
  rw [← hq, ← Option.some.inj hfrom]
  exact harrived

omit [LinearOrder ν] in
theorem Node.mem_arrived {n : ν} {node : Node Msg Reading Local n} {reading : Reading n}
    {msg : ν × Msg n} (h : (reading, some msg) ∈ node.taken) : msg ∈ node.arrived :=
  List.mem_append_left _ (List.mem_filterMap.mpr ⟨_, h, rfl⟩)

/-- A node that has received a farewell of `p` to it has received everything from `p`. -/
theorem Farewell.received_all {n p : ν} {last : Msg n → Prop}
    (hfarewell : net.Farewell p (Packet.to n) last) (hs : net.Reach ok s)
    (hrefused : (s p).refused = false) {m : Msg n} (hlast : last m)
    {reading : Reading n} (htaken : (reading, some (p, m)) ∈ (s n).taken) :
    only p (s n).queue = [] := by
  have hall : (s p).sentTo n = only p ((s n).taken.filterMap Prod.snd) ++ only p (s n).queue :=
    (hs.arrived_from n p).symm.trans List.filterMap_append
  have hmem : m ∈ only p ((s n).taken.filterMap Prod.snd) :=
    List.mem_filterMap.mpr ⟨(p, m), List.mem_filterMap.mpr ⟨_, htaken, rfl⟩, if_pos rfl⟩
  obtain ⟨pre, post, hsplit⟩ := List.append_of_mem hmem
  rw [hsplit, List.append_assoc, List.cons_append] at hall
  have hpost := (hfarewell.split hs hrefused hall hlast).1
  exact (List.append_eq_nil_iff.mp hpost).2

theorem filterMap_only {n p : ν} {β : Type} {f : Msg n → Option β} {msgs : List (ν × Msg n)}
    (honly : ∀ msg ∈ msgs, msg.1 ≠ p → f msg.2 = none) :
    (msgs.map Prod.snd).filterMap f = (only p msgs).filterMap f := by
  rw [List.filterMap_map, only, List.filterMap_filterMap]
  refine List.filterMap_congr fun msg hmem => ?_
  by_cases hp : msg.1 = p
  · rw [if_pos hp]
    rfl
  · rw [if_neg hp]
    exact honly msg hmem hp

end Network
