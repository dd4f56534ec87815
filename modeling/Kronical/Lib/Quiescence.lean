import Mathlib.Data.DFinsupp.WellFounded
import Mathlib.Data.Prod.Lex
import Kronical.Lib.Network

/-!
# Networks come to rest

The nodes of a network are ordered along its channels. Left to itself, without readings for the
nodes that wait for no inbox, a network takes finitely many steps (`wellFounded_internal`): each step
makes one node smaller and touches only nodes behind it. When it has come to rest and the nodes
without an inbox have halted, every thread has ended (`Reach.all_ended`).
-/

namespace Network

variable {ν : Type} [LinearOrder ν] {Msg Reading Local : ν → Type} {net : Network Msg Reading Local}
  {ok : Config Msg Reading Local → Action Reading → Prop} {s t : Config Msg Reading Local}

/-- An action that no reading from outside sets off. -/
def Internal (net : Network Msg Reading Local) : Action Reading → Prop
  | .recv n _ => net.senders n ≠ []
  | .send _ => True
  | .finish _ => True

/-- What is left to do at a node: whether it runs, whether it receives, the messages it has not
received and the sends it has not made. -/
def remaining (net : Network Msg Reading Local) {n : ν} (node : Node Msg Reading Local n) :
    ℕ ×ₗ ℕ ×ₗ ℕ ×ₗ ℕ :=
  toLex (if node.ended then 0 else 1,
    toLex (if net.halted n node.current then 0 else 1,
      toLex (node.queue.length, node.outbox.length)))

theorem remaining_eq {n : ν} {node node' : Node Msg Reading Local n} (hended : node'.ended = node.ended)
    (hcurrent : node'.current = node.current) (hqueue : node'.queue = node.queue)
    (houtbox : node'.outbox = node.outbox) : net.remaining node' = net.remaining node := by
  rw [remaining, hended, hcurrent, hqueue, houtbox, remaining]

theorem remaining_receive {n : ν} {reading : Reading n} {input : Option (ν × Msg n)}
    {queue : List (ν × Msg n)} (hhalted : net.halted n (s n).current = false)
    (hoffer : net.Offers s n input queue) (hinternal : net.senders n ≠ []) :
    net.remaining (net.receive (s n) reading input queue) < net.remaining (s n) := by
  rw [remaining, remaining, Prod.Lex.toLex_lt_toLex]
  refine .inr ⟨rfl, ?_⟩
  rw [hhalted, Prod.Lex.toLex_lt_toLex]
  by_cases hstops : net.halted n (net.receive (s n) reading input queue).current = true
  · rw [if_pos hstops]
    exact .inl Nat.zero_lt_one
  · rw [if_neg hstops]
    refine .inr ⟨rfl, ?_⟩
    rw [Prod.Lex.toLex_lt_toLex]
    cases hoffer with
    | message hqueue =>
      refine .inl ?_
      rw [hqueue]
      exact Nat.lt_succ_self _
    | closed => exact absurd (net.closes n _ _ hinternal) hstops

theorem remaining_dispatched {n : ν} {packet : Packet Msg} {rest : List (Packet Msg)}
    (houtbox : (s n).outbox = packet :: rest) :
    net.remaining (dispatched (s n) packet rest) < net.remaining (s n) := by
  rw [remaining, remaining, houtbox]
  simp only [Prod.Lex.toLex_lt_toLex]
  exact .inr ⟨rfl, .inr ⟨rfl, .inr ⟨rfl, Nat.lt_succ_self _⟩⟩⟩

theorem remaining_rebuffed {n : ν} {packet : Packet Msg} {rest : List (Packet Msg)}
    (houtbox : (s n).outbox = packet :: rest) :
    net.remaining (net.rebuffed (s n) packet rest) < net.remaining (s n) := by
  have hlength : (net.refuse n (s n).current packet rest).2.length < (s n).outbox.length := by
    rw [houtbox]
    exact Nat.lt_succ_of_le (net.refuse_sublist _ _ _ _).length_le
  rw [remaining, remaining, Prod.Lex.toLex_lt_toLex]
  refine .inr ⟨rfl, ?_⟩
  rw [Prod.Lex.toLex_lt_toLex]
  by_cases hhalted : net.halted n (s n).current = true
  · have hstays := net.refuse_halted n _ packet rest hhalted
    refine .inr ⟨by rw [if_pos hhalted]; exact if_pos hstays, ?_⟩
    rw [Prod.Lex.toLex_lt_toLex]
    exact .inr ⟨rfl, hlength⟩
  · rw [if_neg hhalted]
    by_cases hstops : net.halted n (net.rebuffed (s n) packet rest).current = true
    · rw [if_pos hstops]
      exact .inl Nat.zero_lt_one
    · rw [if_neg hstops]
      refine .inr ⟨rfl, ?_⟩
      rw [Prod.Lex.toLex_lt_toLex]
      exact .inr ⟨rfl, hlength⟩

theorem remaining_finish {n : ν} (hended : (s n).ended = false) :
    net.remaining { s n with ended := true } < net.remaining (s n) := by
  simp only [remaining, Prod.Lex.toLex_lt_toLex, hended]
  exact .inl Nat.zero_lt_one

theorem Reach.remaining_lt (hs : net.Reach ok s) {a : Action Reading} (hinternal : net.Internal a)
    (hdoes : net.Does s a t) :
    ∃ n, (∀ k < n, net.remaining (t k) = net.remaining (s k)) ∧
      net.remaining (t n) < net.remaining (s n) := by
  cases hdoes with
  | @recv n reading input queue hended houtbox hhalted hoffer =>
    refine ⟨n, fun k hk => ?_, ?_⟩
    · rw [Function.update_of_ne hk.ne]
    · rw [Function.update_self]
      exact remaining_receive hhalted hoffer hinternal
  | @send n packet rest houtbox hended =>
    have hbehind : n < packet.1 := net.upstream
      (hs.addressed n packet (List.mem_append_right _ (houtbox ▸ List.mem_cons_self)))
    refine ⟨n, fun k hk => ?_, ?_⟩
    · rw [deliver_eq, Function.update_of_ne hk.ne, Packet.to_of_ne (hk.trans hbehind).ne']
      exact remaining_eq rfl rfl (List.append_nil _) rfl
    · rw [deliver_eq, Function.update_self, Packet.to_of_ne hbehind.ne']
      refine lt_of_eq_of_lt ?_ (remaining_dispatched houtbox)
      exact remaining_eq rfl rfl (List.append_nil _) rfl
  | @refuse n packet rest houtbox hended =>
    refine ⟨n, fun k hk => ?_, ?_⟩
    · rw [Function.update_of_ne hk.ne]
    · rw [Function.update_self]
      exact remaining_rebuffed houtbox
  | @finish n hended houtbox hhalted =>
    refine ⟨n, fun k hk => ?_, ?_⟩
    · rw [Function.update_of_ne hk.ne]
    · rw [Function.update_self]
      exact remaining_finish hended

/-- There is no endless run of internal steps. -/
theorem wellFounded_internal [Finite ν] (net : Network Msg Reading Local) :
    WellFounded fun t s => net.Reachable s ∧ ∃ a, net.Internal a ∧ net.step s a = some t := by
  have hwf : WellFounded (Pi.Lex (· < ·) fun {_ : ν} (x y : ℕ ×ₗ ℕ ×ₗ ℕ ×ₗ ℕ) => x < y) :=
    Pi.Lex.wellFounded _ fun _ => wellFounded_lt
  refine Subrelation.wf ?_ (InvImage.wf (fun s n => net.remaining (s n)) hwf)
  rintro t s ⟨hs, a, hinternal, hstep⟩
  exact hs.remaining_lt hinternal (step_cases hstep)

/-- At rest, and once the nodes without an inbox have halted, every thread has ended. -/
theorem all_ended [Finite ν] [∀ n, Nonempty (Reading n)]
    (hrest : ∀ a, net.Internal a → net.step s a = none)
    (hsource : ∀ n, net.senders n = [] → net.halted n (s n).current = true) (n : ν) :
    (s n).ended = true := by
  induction n using WellFoundedLT.induction with
  | ind n ih =>
    by_contra hended
    rw [Bool.not_eq_true] at hended
    have houtbox : (s n).outbox = [] := by
      have hsend := hrest (.send n) trivial
      unfold step at hsend
      cases hout : (s n).outbox with
      | nil => rfl
      | cons packet rest =>
        simp only [hout] at hsend
        split_ifs at hsend
    have hhalted : net.halted n (s n).current = false := by
      have hfinish := hrest (.finish n) trivial
      simpa [step, hended, houtbox] using hfinish
    have hinbox : net.senders n ≠ [] := fun h =>
      absurd (hhalted.symm.trans (hsource n h)) Bool.false_ne_true
    have hgone : ((net.senders n).all fun p => (s p).ended) = true :=
      List.all_eq_true.mpr fun p hp => ih p (net.upstream hp)
    obtain ⟨reading⟩ := ‹∀ n, Nonempty (Reading n)› n
    have hrecv := hrest (.recv n reading) hinbox
    cases hqueue : (s n).queue <;>
      simp [Network.step, Waiting, hended, houtbox, hhalted, hqueue, hgone] at hrecv

end Network
