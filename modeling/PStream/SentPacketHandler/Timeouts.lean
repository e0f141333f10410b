import PStream.SentPacketHandler.Run
import Mathlib.Algebra.Order.Ring.Int

/-! The RTO backoff of `computeRTOTimeout` (`sent_packet_handler.go`, lines 607-616). While
`rto << rtoCount` stays inside `int64`, the timeout lies in `[minRTOTimeout, maxRTOTimeout]` and
grows with `rtoCount`, so the RTO alarm of `updateLossDetectionAlarm` never moves earlier. The
shift has no guard: with the default delay the 35th consecutive firing shifts the 500 ms out of
`int64`, the clamp at `maxRTOTimeout` lets the negative value through, and the alarm falls back
from 60 s to `minRetransmissionTime` after the last send. -/

namespace PStream

namespace SentPacketHandler

def baseRTOTimeout (d : Duration) : Duration :=
  max (if d = 0 then defaultRTOTimeout else d) minRTOTimeout

theorem minRTOTimeout_le_baseRTOTimeout (d : Duration) : minRTOTimeout ≤ baseRTOTimeout d :=
  le_max_right _ _

theorem computeRTOTimeout_eq (c : Collaborators) (h : SentPacketHandler) :
    h.computeRTOTimeout c = min (BitVec.ofInt 64 (baseRTOTimeout (c.retransmissionDelay h.rttStats))
      <<< h.rtoCount.toNat).toInt maxRTOTimeout := rfl

theorem toInt_shiftLeft_of_lt {x : Int} (n : Nat) (h0 : 0 ≤ x) (hlt : x * 2 ^ n < 2 ^ 63) :
    (BitVec.ofInt 64 x <<< n).toInt = x * 2 ^ n := by
  obtain ⟨m, rfl⟩ := Int.eq_ofNat_of_zero_le h0
  have hlt' : m * 2 ^ n < 2 ^ 63 := by exact_mod_cast hlt
  have hm : m < 2 ^ 64 := by
    have := Nat.le_mul_of_pos_right m (Nat.two_pow_pos n)
    omega
  rw [BitVec.toInt_eq_toNat_cond, BitVec.ofInt_natCast, BitVec.toNat_shiftLeft,
    BitVec.toNat_ofNat, Nat.shiftLeft_eq, Nat.mod_eq_of_lt hm, Nat.mod_eq_of_lt (by omega),
    if_pos (by omega)]
  push_cast
  rfl

section

variable (c : Collaborators)

theorem computeRTOTimeout_mem {h : SentPacketHandler}
    (hno : baseRTOTimeout (c.retransmissionDelay h.rttStats) * 2 ^ h.rtoCount.toNat < 2 ^ 63) :
    minRTOTimeout ≤ h.computeRTOTimeout c ∧ h.computeRTOTimeout c ≤ maxRTOTimeout := by
  have hb := minRTOTimeout_le_baseRTOTimeout (c.retransmissionDelay h.rttStats)
  have h0 : (0 : Int) ≤ baseRTOTimeout (c.retransmissionDelay h.rttStats) :=
    le_trans (by decide) hb
  rw [computeRTOTimeout_eq, toInt_shiftLeft_of_lt _ h0 hno]
  refine ⟨le_min (le_trans hb (le_mul_of_one_le_right h0 (one_le_pow₀ (by decide))))
    (by decide), min_le_right _ _⟩

theorem computeRTOTimeout_le_of_rtoCount_le {h h' : SentPacketHandler}
    (hr : h'.rttStats = h.rttStats) (hle : h.rtoCount.toNat ≤ h'.rtoCount.toNat)
    (hno : baseRTOTimeout (c.retransmissionDelay h'.rttStats) * 2 ^ h'.rtoCount.toNat < 2 ^ 63) :
    h.computeRTOTimeout c ≤ h'.computeRTOTimeout c := by
  rw [hr] at hno
  have h0 : (0 : Int) ≤ baseRTOTimeout (c.retransmissionDelay h.rttStats) :=
    le_trans (by decide) (minRTOTimeout_le_baseRTOTimeout _)
  have hmul := mul_le_mul_of_nonneg_left (pow_le_pow_right₀ (by decide : (1 : Int) ≤ 2) hle) h0
  rw [computeRTOTimeout_eq, computeRTOTimeout_eq, hr, toInt_shiftLeft_of_lt _ h0 hno,
    toInt_shiftLeft_of_lt _ h0 (lt_of_le_of_lt hmul hno)]
  exact min_le_min_right _ hmul

/-- While the shift stays inside `int64`, a firing that keeps the RTT statistics lengthens the
timeout or keeps it, inside `[minRTOTimeout, maxRTOTimeout]`. -/
theorem computeRTOTimeout_backoff {h h' : SentPacketHandler} (hr : h'.rttStats = h.rttStats)
    (hle : h.rtoCount.toNat ≤ h'.rtoCount.toNat)
    (hno : baseRTOTimeout (c.retransmissionDelay h'.rttStats) * 2 ^ h'.rtoCount.toNat < 2 ^ 63) :
    minRTOTimeout ≤ h.computeRTOTimeout c ∧ h.computeRTOTimeout c ≤ h'.computeRTOTimeout c ∧
      h'.computeRTOTimeout c ≤ maxRTOTimeout := by
  have h0 : (0 : Int) ≤ baseRTOTimeout (c.retransmissionDelay h.rttStats) :=
    le_trans (by decide) (minRTOTimeout_le_baseRTOTimeout _)
  have hno' : baseRTOTimeout (c.retransmissionDelay h.rttStats) * 2 ^ h.rtoCount.toNat < 2 ^ 63 :=
    lt_of_le_of_lt (mul_le_mul_of_nonneg_left (pow_le_pow_right₀ (by decide) hle) h0) (hr ▸ hno)
  exact ⟨(computeRTOTimeout_mem c hno').1, computeRTOTimeout_le_of_rtoCount_le c hr hle hno,
    (computeRTOTimeout_mem c hno).2⟩

end

def afterRTOFirings (n : BitVec 32) : SentPacketHandler :=
  { new ⟨0, 0⟩ with
    packetHistory := [⟨1, [.ping], 1200, .forwardSecure, 0⟩]
    tlpCount := maxTailLossProbes
    rtoCount := n }

theorem computeRTOTimeout_backoff_sample :
    (afterRTOFirings 3).rttStats = (afterRTOFirings 1).rttStats ∧
      (afterRTOFirings 1).rtoCount.toNat ≤ (afterRTOFirings 3).rtoCount.toNat ∧
      baseRTOTimeout (sampleCollaborators.retransmissionDelay (afterRTOFirings 3).rttStats) *
        2 ^ (afterRTOFirings 3).rtoCount.toNat < 2 ^ 63 ∧
      (afterRTOFirings 1).computeRTOTimeout sampleCollaborators = 1000000000 ∧
      (afterRTOFirings 3).computeRTOTimeout sampleCollaborators = 4000000000 ∧
      minRTOTimeout ≤ (afterRTOFirings 1).computeRTOTimeout sampleCollaborators ∧
      (afterRTOFirings 1).computeRTOTimeout sampleCollaborators ≤
        (afterRTOFirings 3).computeRTOTimeout sampleCollaborators ∧
      (afterRTOFirings 3).computeRTOTimeout sampleCollaborators ≤ maxRTOTimeout :=
  ⟨rfl, by decide, by decide, by decide, by decide,
    computeRTOTimeout_backoff sampleCollaborators rfl (by decide) (by decide)⟩

/-- The 35th firing overflows `500 ms << 35`: the timeout drops from `maxRTOTimeout` to a
negative duration, and `0` from the 64th on, and the RTO alarm comes `minRetransmissionTime`
after the last send instead of 60 s. -/
theorem rtoTimeout_wraps :
    (afterRTOFirings 34).computeRTOTimeout sampleCollaborators = maxRTOTimeout ∧
    (afterRTOFirings 35).computeRTOTimeout sampleCollaborators < 0 ∧
    (afterRTOFirings 64).computeRTOTimeout sampleCollaborators = 0 ∧
    ((afterRTOFirings 34).updateLossDetectionAlarm sampleCollaborators).alarm = maxRTOTimeout ∧
    ((afterRTOFirings 35).updateLossDetectionAlarm sampleCollaborators).alarm =
      minRetransmissionTime := by decide

end SentPacketHandler

end PStream
