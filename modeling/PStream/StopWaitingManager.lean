import PStream.Wire.Frame

/-! `stopWaitingManager` (`public_reset.go`, lines 141-189): the least-unacked bookkeeping behind
STOP_WAITING frames. Its two raise operations are one function, `raise`. The lemmas here are
about one call; what holds across a handler run is in `SentPacketHandler.StopWaiting`.
A raise to `p + 1` wraps when `p` is the largest `uint64`, so the facts that need the raise
to move the counter up take `p.toNat + 1 < 2 ^ 64`. -/

namespace PStream

structure StopWaitingManager where
  largestLeastUnackedSent : PacketNumber
  nextLeastUnacked : PacketNumber
  lastStopWaitingFrame : Option StopWaitingFrame
  deriving DecidableEq, Repr

namespace StopWaitingManager

def empty : StopWaitingManager := ⟨0, 0, none⟩

def getStopWaitingFrame (s : StopWaitingManager) (force : Bool) :
    Option StopWaitingFrame × StopWaitingManager :=
  if s.nextLeastUnacked ≤ s.largestLeastUnackedSent then
    if force then
      if s.lastStopWaitingFrame = none ∧ 0 < s.largestLeastUnackedSent then
        let swf : StopWaitingFrame := ⟨s.nextLeastUnacked, 0, 0⟩
        (some swf, { s with lastStopWaitingFrame := some swf })
      else
        (s.lastStopWaitingFrame, s)
    else
      (none, s)
  else
    let swf : StopWaitingFrame := ⟨s.nextLeastUnacked, 0, 0⟩
    (some swf, { s with largestLeastUnackedSent := s.nextLeastUnacked,
                        lastStopWaitingFrame := some swf })

/-- The common body of `ReceivedAck` and `QueuedRetransmissionForPacketNumber`. -/
def raise (s : StopWaitingManager) (p : PacketNumber) : StopWaitingManager :=
  if s.nextLeastUnacked ≤ p then { s with nextLeastUnacked := p + 1 } else s

def receivedAck (s : StopWaitingManager) (ack : AckFrame) : StopWaitingManager :=
  s.raise ack.largestAcked

def queuedRetransmissionForPacketNumber (s : StopWaitingManager) (p : PacketNumber) :
    StopWaitingManager :=
  s.raise p

@[simp] theorem raise_largestLeastUnackedSent (s : StopWaitingManager) (p : PacketNumber) :
    (s.raise p).largestLeastUnackedSent = s.largestLeastUnackedSent := by
  unfold raise; split <;> rfl

@[simp] theorem raise_lastStopWaitingFrame (s : StopWaitingManager) (p : PacketNumber) :
    (s.raise p).lastStopWaitingFrame = s.lastStopWaitingFrame := by
  unfold raise; split <;> rfl

theorem raise_nextLeastUnacked (s : StopWaitingManager) {p : PacketNumber}
    (hp : p.toNat + 1 < 2 ^ 64) :
    s.nextLeastUnacked ≤ (s.raise p).nextLeastUnacked ∧ p < (s.raise p).nextLeastUnacked := by
  unfold raise
  split
  · dsimp only; bv_omega
  · bv_omega

theorem raise_nextLeastUnacked_cases (s : StopWaitingManager) (p : PacketNumber) :
    (s.raise p).nextLeastUnacked = s.nextLeastUnacked ∨
      (s.raise p).nextLeastUnacked = p + 1 := by
  unfold raise
  split
  · exact .inr rfl
  · exact .inl rfl

/-- The manager's own invariant: the last frame is present exactly when something was sent,
and it carries the largest least-unacked sent, which never passes the next one. -/
structure Wf (s : StopWaitingManager) : Prop where
  largest_le_next : s.largestLeastUnackedSent ≤ s.nextLeastUnacked
  last_isSome : s.lastStopWaitingFrame.isSome ↔ 0 < s.largestLeastUnackedSent
  last_leastUnacked : ∀ f, s.lastStopWaitingFrame = some f →
    f.leastUnacked = s.largestLeastUnackedSent

theorem wf_empty : empty.Wf :=
  ⟨by decide, by decide, by simp [empty]⟩

theorem Wf.raise {s : StopWaitingManager} (h : s.Wf) {p : PacketNumber}
    (hp : p.toNat + 1 < 2 ^ 64) : (s.raise p).Wf := by
  have hnext := (s.raise_nextLeastUnacked hp).1
  refine ⟨?_, ?_, ?_⟩
  · rw [raise_largestLeastUnackedSent]; exact BitVec.le_trans h.largest_le_next hnext
  · simpa using h.last_isSome
  · simpa using h.last_leastUnacked

theorem Wf.getStopWaitingFrame_eq {s : StopWaitingManager} (h : s.Wf) (force : Bool) :
    s.getStopWaitingFrame force =
      if s.nextLeastUnacked ≤ s.largestLeastUnackedSent then
        (if force then s.lastStopWaitingFrame else none, s)
      else
        (some ⟨s.nextLeastUnacked, 0, 0⟩,
          { s with largestLeastUnackedSent := s.nextLeastUnacked,
                   lastStopWaitingFrame := some ⟨s.nextLeastUnacked, 0, 0⟩ }) := by
  have hsyn : ¬(s.lastStopWaitingFrame = none ∧ 0 < s.largestLeastUnackedSent) :=
    fun hs => absurd (h.last_isSome.2 hs.2) (by simp [hs.1])
  unfold getStopWaitingFrame
  rw [if_neg hsyn]
  cases force <;> rfl

theorem Wf.getStopWaitingFrame {s : StopWaitingManager} (h : s.Wf) (force : Bool) :
    (s.getStopWaitingFrame force).2.Wf := by
  rw [h.getStopWaitingFrame_eq]
  split
  · exact h
  · refine ⟨BitVec.le_refl _, ?_, fun f hf => ?_⟩
    · simp only [Option.isSome_some, true_iff]; bv_omega
    · cases hf; rfl

theorem getStopWaitingFrame_largest (s : StopWaitingManager) (force : Bool) :
    (s.getStopWaitingFrame force).2.largestLeastUnackedSent = s.largestLeastUnackedSent ∧
        s.nextLeastUnacked ≤ s.largestLeastUnackedSent ∨
      s.largestLeastUnackedSent < s.nextLeastUnacked ∧
        (s.getStopWaitingFrame force).2.largestLeastUnackedSent = s.nextLeastUnacked ∧
        (s.getStopWaitingFrame force).1 = some ⟨s.nextLeastUnacked, 0, 0⟩ := by
  unfold getStopWaitingFrame
  split_ifs with hle <;> first | exact .inl ⟨rfl, hle⟩ | exact .inr ⟨by bv_omega, rfl, rfl⟩

@[simp] theorem getStopWaitingFrame_nextLeastUnacked (s : StopWaitingManager) (force : Bool) :
    (s.getStopWaitingFrame force).2.nextLeastUnacked = s.nextLeastUnacked := by
  unfold getStopWaitingFrame; split_ifs <;> rfl

theorem Wf.getStopWaitingFrame_force {s : StopWaitingManager} (h : s.Wf) {p : PacketNumber}
    (hp : p < s.nextLeastUnacked) :
    ∃ f, (s.getStopWaitingFrame true).1 = some f ∧ p < f.leastUnacked := by
  rw [h.getStopWaitingFrame_eq]
  split
  · have hpos : 0 < s.largestLeastUnackedSent := by bv_omega
    obtain ⟨f, hf⟩ := Option.isSome_iff_exists.1 (h.last_isSome.2 hpos)
    refine ⟨f, by simp [hf], ?_⟩
    rw [h.last_leastUnacked f hf]
    bv_omega
  · exact ⟨_, rfl, hp⟩

theorem getStopWaitingFrame_largest_mono (s : StopWaitingManager) (force : Bool) :
    s.largestLeastUnackedSent ≤ (s.getStopWaitingFrame force).2.largestLeastUnackedSent := by
  rcases s.getStopWaitingFrame_largest force with ⟨e, -⟩ | ⟨hlt, e, -⟩ <;> rw [e]
  · exact BitVec.le_refl _
  · bv_omega

theorem Wf.getStopWaitingFrame_unforced {s : StopWaitingManager} (h : s.Wf)
    {f : StopWaitingFrame} (hf : (s.getStopWaitingFrame false).1 = some f) :
    s.largestLeastUnackedSent < f.leastUnacked ∧
      f.leastUnacked = (s.getStopWaitingFrame false).2.largestLeastUnackedSent := by
  rcases s.getStopWaitingFrame_largest false with ⟨-, hle⟩ | ⟨hlt, e, hr⟩
  · rw [h.getStopWaitingFrame_eq, if_pos hle] at hf
    cases hf
  · rw [hr] at hf
    cases hf
    exact ⟨hlt, e.symm⟩

end StopWaitingManager

end PStream
