/-
# Closing a channel

A channel is to close when its last sender is dropped: its receiver learns that nothing will come
any more.  The senders are counted right, but `remove_sender` looks at the count from before, as
if it were the one after; so no channel ever closes.
-/
import Recapn.Channel.Balance

namespace Recapn.Channel

open Recapn.Lib

variable {C : Chan}

namespace World

/-- Someone holds a sender of the channel: the program, or the resolution of another channel. -/
def HasSender (w : World C) (c : ChannelId) : Prop :=
  ⟨⟨c⟩, true⟩ ∈ w.senders ∨
    ∃ c' < w.channels, w.freed c' = false ∧ (w.channel c').held = some ⟨c⟩

/-- The receiver sees the channel closed when it should: not while there is a sender, and when
there is none any more and nothing is queued, the task that waits for it has been woken, and
`poll_closed` and `poll_recv` are ready. -/
structure ClosesInTime (w : World C) (c : ChannelId) : Prop where
  opened : w.HasSender c → (w.channel c).isClosed = false
  closed : ¬ w.HasSender c → (w.channel c).requests = [] →
    (w.channel c).isClosed = true ∧
    ((w.channel c).state.isClosedTaskSet = true → ∀ waker ∈ (w.channel c).closedTask, waker ∈ w.woken) ∧
    (∀ waker, ∃ w', pollClosed c waker w = .ok (.ready ()) w') ∧
    ∀ waker, ∃ w', pollRecv c waker w = .ok (.ready none) w'

instance (w : World C) (c : ChannelId) : Decidable (w.HasSender c) :=
  inferInstanceAs (Decidable (_ ∨ _))

end World

/-- **Senders are counted.**  In every world that is reached, the count of a channel is the number
of its senders that the program and the resolutions of channels hold. -/
theorem Reachable.senderCount {w : World C} (h : Reachable w) (c : ChannelId) :
    (w.channel c).senderCount = w.books.handles c := by
  obtain ⟨steps, hrun⟩ := h
  exact hrun.sound.count c

/-- **Channels never close.**  In every world that is reached the receiver sees the channel closed
in time exactly if it has a sender still or something is queued. -/
theorem closesInTime_iff {w : World C} (h : Reachable w) (c : ChannelId) :
    w.ClosesInTime c ↔ w.HasSender c ∨ (w.channel c).requests ≠ [] := by
  have hopen : (w.channel c).isClosed = false := by
    obtain ⟨steps, hrun⟩ := h
    exact hrun.sound.isOpen c
  constructor
  · intro hcloses
    by_contra hnot
    rw [not_or, not_not] at hnot
    have hclosed := (hcloses.closed hnot.1 hnot.2).1
    rw [hopen] at hclosed
    cases hclosed
  · intro hor
    refine ⟨fun _ => hopen, fun hsender hempty => ?_⟩
    exact absurd hor (not_or.2 ⟨hsender, not_not.2 hempty⟩)

/-- A channel of units. -/
def unitChan : Chan := ⟨Unit, Unit, Unit, Unit, Unit, Unit, inferInstance, fun _ => ()⟩

theorem closesInTime_iff_new :
    ∃ w : World unitChan, Reachable w ∧ w.HasSender 0 ∧ w.ClosesInTime 0 := by
  have hreach : Reachable _ := reachable_empty.runCalls
    (show runCalls [.channel] (World.empty : World unitChan) = some _ from rfl)
  refine ⟨_, hreach, by decide, (closesInTime_iff hreach 0).2 (Or.inl (by decide))⟩

/-- The only sender of a new channel is dropped: the channel is not closed, and the receiver waits
on. -/
theorem not_closesInTime :
    ∃ w : World unitChan, Reachable w ∧ w.receiver 0 = true ∧ ¬ w.ClosesInTime 0 ∧
      (w.channel 0).isClosed = false ∧ ∃ w', pollRecv 0 0 w = .ok .pending w' := by
  have hreach : Reachable _ := reachable_empty.runCalls
    (show runCalls [.channel, .dropSender 0] (World.empty : World unitChan) = some _ from rfl)
  refine ⟨_, hreach, rfl, fun hcloses => ?_, rfl, _, rfl⟩
  have hclosed := (hcloses.closed (by decide) rfl).1
  cases hclosed

end Recapn.Channel
