import Mathlib.Data.List.Sublists
import Mathlib.Tactic.Common
import Kronical.Lib.Machine

/-!
# Watch channels

A channel that only keeps the value sent last. A receiver gets the current value when it asks for the
first time, and then whenever another one has been sent; what was sent and replaced in between it never
sees. So what a receiver gets is a part of what was sent, in order and without repetition, and it has got
the current value as soon as there is nothing new for it (`Sound`).
-/

/-- The values sent so far, from the initial one on, and the receivers. -/
structure Watch (α : Type*) where
  sent : List α
  receivers : List (Nat × List α)

namespace Watch

variable {α : Type*}

/-- A channel with its initial value. -/
def channel (initial : α) : Watch α := ⟨[initial], []⟩

def current? (self : Watch α) : Option α := self.sent.getLast?

def send (self : Watch α) (value : α) : Watch α := { self with sent := self.sent ++ [value] }

/-- A receiver has the number of values that it can no longer get, and what it got. -/
def subscribe (self : Watch α) : Watch α := { self with receivers := self.receivers ++ [(0, [])] }

/-- The receiver gets the current value, unless it is the one it got before. -/
def poll (self : Watch α) (i : Nat) : Option (Watch α) :=
  match self.receivers[i]?, self.current? with
  | some (seen, got), some value =>
    if seen < self.sent.length then
      some { self with receivers := self.receivers.set i (self.sent.length, got ++ [value]) }
    else none
  | _, _ => none

/-- There is nothing new for the receiver. -/
def UpToDate (self : Watch α) (receiver : Nat × List α) : Prop := receiver.1 = self.sent.length

/-- What holds of a receiver: it got a part of what it has passed, and the last of that last. -/
structure Sound (sent : List α) (receiver : Nat × List α) : Prop where
  bounded : receiver.1 ≤ sent.length
  sublist : receiver.2.Sublist (sent.take receiver.1)
  last : receiver.2.getLast? = (sent.take receiver.1).getLast?

theorem Sound.new (sent : List α) : Sound sent (0, []) :=
  ⟨Nat.zero_le _, by simp, by simp⟩

theorem Sound.send {sent : List α} {receiver : Nat × List α} (h : Sound sent receiver) (value : α) :
    Sound (sent ++ [value]) receiver := by
  have htake : (sent ++ [value]).take receiver.1 = sent.take receiver.1 :=
    List.take_append_of_le_length h.bounded
  refine ⟨?_, ?_, ?_⟩
  · rw [List.length_append]
    exact h.bounded.trans (Nat.le_add_right _ _)
  · rw [htake]
    exact h.sublist
  · rw [htake]
    exact h.last

theorem Sound.poll {sent : List α} {seen : Nat} {got : List α} (h : Sound sent (seen, got))
    (hseen : seen < sent.length) {value : α} (hvalue : sent.getLast? = some value) :
    Sound sent (sent.length, got ++ [value]) := by
  obtain ⟨before, rfl⟩ : ∃ before, sent = before ++ [value] := by
    obtain ⟨before, hbefore⟩ := List.getLast?_eq_some_iff.mp hvalue
    exact ⟨before, hbefore⟩
  have hlength : seen ≤ before.length := by simpa [Nat.lt_succ_iff] using hseen
  refine ⟨le_rfl, ?_, ?_⟩
  · rw [List.take_length]
    refine List.Sublist.append ?_ (List.Sublist.refl [value])
    have hgot := h.sublist
    rw [List.take_append_of_le_length hlength] at hgot
    exact hgot.trans (List.take_sublist _ _)
  · show (got ++ [value]).getLast? = _
    rw [List.take_length, List.getLast?_concat, List.getLast?_concat]

/-- All receivers of a channel. -/
def AllSound (self : Watch α) : Prop := ∀ receiver ∈ self.receivers, Sound self.sent receiver

theorem allSound_channel (initial : α) : (channel initial).AllSound := by
  simp [AllSound, channel]

theorem AllSound.send {self : Watch α} (h : self.AllSound) (value : α) : (self.send value).AllSound :=
  fun receiver hmem => (h receiver hmem).send value

theorem AllSound.subscribe {self : Watch α} (h : self.AllSound) : self.subscribe.AllSound := by
  intro receiver hmem
  rcases List.mem_append.mp hmem with hmem | hmem
  · exact h receiver hmem
  · rw [List.mem_singleton.mp hmem]
    exact Sound.new _

theorem AllSound.poll {self next : Watch α} (h : self.AllSound) {i : Nat}
    (hpoll : self.poll i = some next) : next.AllSound := by
  unfold Watch.poll at hpoll
  split at hpoll
  · rename_i seen got value hreceiver hvalue
    split_ifs at hpoll with hseen
    obtain rfl := Option.some.inj hpoll
    intro receiver hmem
    rcases List.mem_or_eq_of_mem_set hmem with hmem | rfl
    · exact h receiver hmem
    · exact (h _ (List.mem_of_getElem? hreceiver)).poll hseen hvalue
  · cases hpoll

theorem poll_sent {self next : Watch α} {i : Nat} (hpoll : self.poll i = some next) :
    next.sent = self.sent := by
  unfold Watch.poll at hpoll
  split at hpoll
  · split_ifs at hpoll
    obtain rfl := Option.some.inj hpoll
    rfl
  · cases hpoll

theorem Sound.current {self : Watch α} {receiver : Nat × List α} (h : Sound self.sent receiver)
    (hupToDate : self.UpToDate receiver) : receiver.2.getLast? = self.current? := by
  rw [h.last, hupToDate, List.take_length]
  rfl

end Watch
