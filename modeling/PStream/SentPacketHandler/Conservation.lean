import PStream.SentPacketHandler.Run
import Mathlib.Data.Multiset.Nodup

/-! Where a recorded packet can be. The congestion-controller calls and results of a run say
which packet numbers `SentPacket` recorded as retransmittable, which were acknowledged and
declared lost, and which packets `DequeuePacketForRetransmission` handed out. Along every run,
the recorded numbers are, as a multiset, exactly the numbers of the history, the
retransmission queue, the handed-out packets and the acknowledged ones, and every loss call
names a packet of the queue or handed out. As the recorded numbers strictly increase, each
packet sits in exactly one place and gets at most one acknowledgement or loss call. -/

namespace PStream

namespace CongestionCall

def recorded? : CongestionCall → Option PacketNumber
  | .onPacketSent _ _ pn _ true => some pn
  | _ => none

def acked? : CongestionCall → Option PacketNumber
  | .onPacketAcked pn _ _ => some pn
  | _ => none

def lost? : CongestionCall → Option PacketNumber
  | .onPacketLost pn _ _ => some pn
  | _ => none

end CongestionCall

def HandlerResult.dequeued? : HandlerResult → Option Packet
  | .packet p => p
  | _ => none

namespace Observation

variable (os : List Observation)

def recordedNumbers : List PacketNumber := os.flatMap fun o => o.calls.filterMap CongestionCall.recorded?
def ackedNumbers : List PacketNumber := os.flatMap fun o => o.calls.filterMap CongestionCall.acked?
def lostNumbers : List PacketNumber := os.flatMap fun o => o.calls.filterMap CongestionCall.lost?
def dequeuedPackets : List Packet := os.filterMap fun o => o.result.dequeued?

variable (o : Observation)

@[simp] theorem recordedNumbers_snoc :
    recordedNumbers (os ++ [o]) = recordedNumbers os ++ o.calls.filterMap CongestionCall.recorded? := by
  simp [recordedNumbers]

@[simp] theorem ackedNumbers_snoc :
    ackedNumbers (os ++ [o]) = ackedNumbers os ++ o.calls.filterMap CongestionCall.acked? := by
  simp [ackedNumbers]

@[simp] theorem lostNumbers_snoc :
    lostNumbers (os ++ [o]) = lostNumbers os ++ o.calls.filterMap CongestionCall.lost? := by
  simp [lostNumbers]

@[simp] theorem dequeuedPackets_snoc :
    dequeuedPackets (os ++ [o]) = dequeuedPackets os ++ o.result.dequeued?.toList := by
  cases h : o.result.dequeued? <;> simp [dequeuedPackets, h]

end Observation

open Observation

namespace SentPacketHandler

def numbers (ps : List Packet) : List PacketNumber := ps.map Packet.packetNumber

@[simp] theorem numbers_nil : numbers [] = [] := rfl

@[simp] theorem numbers_cons (p : Packet) (ps : List Packet) :
    numbers (p :: ps) = p.packetNumber :: numbers ps := rfl

@[simp] theorem numbers_append (ps qs : List Packet) :
    numbers (ps ++ qs) = numbers ps ++ numbers qs :=
  List.map_append _ _ _

@[simp] theorem mem_numbers {n : PacketNumber} {ps : List Packet} :
    n ∈ numbers ps ↔ ∃ p ∈ ps, p.packetNumber = n :=
  List.mem_map

/-- What a call that hands out nothing may do to the tracked packets, counted as multisets:
move numbers out of history and queue only into acknowledgement calls, grow the queue by at
least the lost packets, and record nothing. -/
structure Shifts (h h' : SentPacketHandler) (cs : List CongestionCall) : Prop where
  perm : (numbers h.packetHistory : Multiset PacketNumber) + numbers h.retransmissionQueue =
    numbers h'.packetHistory + numbers h'.retransmissionQueue + cs.filterMap CongestionCall.acked?
  lost : (numbers h.retransmissionQueue : Multiset PacketNumber) +
    cs.filterMap CongestionCall.lost? ≤ numbers h'.retransmissionQueue
  recorded : cs.filterMap CongestionCall.recorded? = []
  lastSent : h'.lastSentPacketNumber = h.lastSentPacketNumber

theorem Shifts.same {h h' : SentPacketHandler} {cs : List CongestionCall}
    (e₁ : h'.packetHistory = h.packetHistory)
    (e₂ : h'.retransmissionQueue = h.retransmissionQueue)
    (e₃ : h'.lastSentPacketNumber = h.lastSentPacketNumber)
    (ha : cs.filterMap CongestionCall.acked? = []) (hl : cs.filterMap CongestionCall.lost? = [])
    (hr : cs.filterMap CongestionCall.recorded? = []) : Shifts h h' cs :=
  ⟨by simp [e₁, e₂, ha], by simp [e₂, hl], hr, e₃⟩

theorem Shifts.refl (h : SentPacketHandler) : Shifts h h [] :=
  .same rfl rfl rfl rfl rfl rfl

theorem Shifts.trans {h₁ h₂ h₃ : SentPacketHandler} {cs₁ cs₂ : List CongestionCall}
    (s₁ : Shifts h₁ h₂ cs₁) (s₂ : Shifts h₂ h₃ cs₂) : Shifts h₁ h₃ (cs₁ ++ cs₂) where
  perm := by
    rw [s₁.perm, s₂.perm, List.filterMap_append, ← Multiset.coe_add]
    ac_rfl
  lost := by
    rw [List.filterMap_append, ← Multiset.coe_add, ← add_assoc]
    exact (add_le_add_right s₁.lost _).trans s₂.lost
  recorded := by rw [List.filterMap_append, s₁.recorded, s₂.recorded]; rfl
  lastSent := s₂.lastSent.trans s₁.lastSent

@[simp] theorem ackPackets_acked (h : SentPacketHandler) (ps : List Packet) :
    (h.ackPackets ps).2.filterMap CongestionCall.acked? = numbers ps := by
  induction ps generalizing h with
  | nil => rfl
  | cons p ps ih => simp [ackPackets, CongestionCall.acked?, ih]

@[simp] theorem ackPackets_lost (h : SentPacketHandler) (ps : List Packet) :
    (h.ackPackets ps).2.filterMap CongestionCall.lost? = [] := by
  induction ps generalizing h with
  | nil => rfl
  | cons p ps ih => simp [ackPackets, CongestionCall.lost?, ih]

@[simp] theorem ackPackets_recorded (h : SentPacketHandler) (ps : List Packet) :
    (h.ackPackets ps).2.filterMap CongestionCall.recorded? = [] := by
  induction ps generalizing h with
  | nil => rfl
  | cons p ps ih => simp [ackPackets, CongestionCall.recorded?, ih]

@[simp] theorem queueLostPackets_acked (h : SentPacketHandler) (ps : List Packet) :
    (h.queueLostPackets ps).2.filterMap CongestionCall.acked? = [] := by
  induction ps generalizing h with
  | nil => rfl
  | cons p ps ih => simp [queueLostPackets, CongestionCall.acked?, ih]

@[simp] theorem queueLostPackets_lost (h : SentPacketHandler) (ps : List Packet) :
    (h.queueLostPackets ps).2.filterMap CongestionCall.lost? = numbers ps := by
  induction ps generalizing h with
  | nil => rfl
  | cons p ps ih => simp [queueLostPackets, CongestionCall.lost?, ih]

@[simp] theorem queueLostPackets_recorded (h : SentPacketHandler) (ps : List Packet) :
    (h.queueLostPackets ps).2.filterMap CongestionCall.recorded? = [] := by
  induction ps generalizing h with
  | nil => rfl
  | cons p ps ih => simp [queueLostPackets, CongestionCall.recorded?, ih]

theorem numbers_of_perm {H hist ps : List Packet} (hperm : (hist ++ ps).Perm H) :
    (numbers H : Multiset PacketNumber) = numbers hist + numbers ps := by
  rw [Multiset.coe_add, Multiset.coe_eq_coe, ← numbers_append]
  exact (hperm.map _).symm

theorem Shifts.ackPackets (h : SentPacketHandler) {ps : List Packet}
    (hs : ps.Sublist h.packetHistory) : Shifts h (h.ackPackets ps).1 (h.ackPackets ps).2 := by
  obtain ⟨hist, _, _, e, hperm, -⟩ := h.ackPackets_eq ps hs
  have e₁ : (h.ackPackets ps).1.packetHistory = hist := by rw [e]
  have e₂ : (h.ackPackets ps).1.retransmissionQueue = h.retransmissionQueue := by rw [e]
  refine ⟨?_, by simp [e₂], ackPackets_recorded h ps, by rw [e]⟩
  rw [e₁, e₂, ackPackets_acked, numbers_of_perm hperm]
  exact add_right_comm _ _ _

theorem Shifts.queueLostPackets (h : SentPacketHandler) {ps : List Packet}
    (hs : ps.Sublist h.packetHistory) :
    Shifts h (h.queueLostPackets ps).1 (h.queueLostPackets ps).2 := by
  obtain ⟨hist, e, hperm, -⟩ := h.queueLostPackets_eq ps hs
  have e₁ : (h.queueLostPackets ps).1.packetHistory = hist := by rw [e]
  have e₂ : (numbers (h.queueLostPackets ps).1.retransmissionQueue : Multiset PacketNumber) =
      numbers h.retransmissionQueue + numbers ps := by
    rw [e, Multiset.coe_add, ← numbers_append]
  refine ⟨?_, by rw [e₂, queueLostPackets_lost], queueLostPackets_recorded h ps, by rw [e]⟩
  rw [e₁, e₂, queueLostPackets_acked, numbers_of_perm hperm, Multiset.coe_nil, add_zero]
  ac_rfl

theorem Moves.shifts {h h' : SentPacketHandler} {cs : List CongestionCall} (m : Moves h h' cs) :
    Shifts h h' cs := by
  induction m with
  | frame e₁ e₂ _ e₄ => exact .same e₁ e₂ e₄ rfl rfl rfl
  | ack hs => exact .ackPackets _ hs
  | lose hs => exact .queueLostPackets _ hs
  | @probe h p hp =>
    have s := Shifts.queueLostPackets h (List.singleton_sublist.2 hp)
    refine ⟨by simpa using s.perm, le_trans ?_ s.lost, rfl, s.lastSent⟩
    simp
  | raise => exact .same rfl rfl rfl rfl rfl rfl
  | emit hx => rcases hx with rfl | rfl <;> exact .same rfl rfl rfl rfl rfl rfl
  | trans _ _ ih₁ ih₂ => exact ih₁.trans ih₂

/-- The conservation invariant of a handler reached with the observations `os`. -/
structure Conserved (h : SentPacketHandler) (os : List Observation) : Prop where
  perm : (recordedNumbers os : Multiset PacketNumber) = numbers h.packetHistory +
    numbers h.retransmissionQueue + numbers (dequeuedPackets os) + ackedNumbers os
  lost : (lostNumbers os : Multiset PacketNumber) ≤
    numbers h.retransmissionQueue + numbers (dequeuedPackets os)
  sorted : (recordedNumbers os).Pairwise (· < ·)
  le_lastSent : ∀ n ∈ recordedNumbers os, n ≤ h.lastSentPacketNumber

theorem conserved_new (r : RTTStats) : Conserved (new r) [] :=
  ⟨rfl, le_rfl, .nil, by simp [recordedNumbers]⟩

variable {h h' : SentPacketHandler} {os : List Observation}

theorem Conserved.mono (hc : Conserved h os) (e₁ : h'.packetHistory = h.packetHistory)
    (e₂ : h'.retransmissionQueue = h.retransmissionQueue)
    (e₃ : h.lastSentPacketNumber ≤ h'.lastSentPacketNumber) : Conserved h' os :=
  ⟨e₁ ▸ e₂ ▸ hc.perm, e₂ ▸ hc.lost, hc.sorted, fun n hn => BitVec.le_trans (hc.le_lastSent n hn) e₃⟩

theorem Conserved.shift (hc : Conserved h os) {cs : List CongestionCall} (s : Shifts h h' cs)
    {res : HandlerResult} (hres : res.dequeued? = none) : Conserved h' (os ++ [⟨cs, res⟩]) where
  perm := by
    simp only [recordedNumbers_snoc, ackedNumbers_snoc, dequeuedPackets_snoc, hres, s.recorded,
      Option.toList_none, List.append_nil, ← Multiset.coe_add]
    rw [hc.perm, s.perm]
    ac_rfl
  lost := by
    simp only [lostNumbers_snoc, dequeuedPackets_snoc, hres, Option.toList_none, List.append_nil,
      ← Multiset.coe_add]
    calc (lostNumbers os : Multiset PacketNumber) + cs.filterMap CongestionCall.lost?
        ≤ numbers h.retransmissionQueue + numbers (dequeuedPackets os) +
            cs.filterMap CongestionCall.lost? := add_le_add_right hc.lost _
      _ = numbers h.retransmissionQueue + cs.filterMap CongestionCall.lost? +
            numbers (dequeuedPackets os) := add_right_comm _ _ _
      _ ≤ _ := add_le_add_right s.lost _
  sorted := by simpa [s.recorded] using hc.sorted
  le_lastSent n hn := s.lastSent ▸ hc.le_lastSent n (by simpa [s.recorded] using hn)

variable (c : Collaborators) (cfg : Config)

theorem Conserved.updateLossDetectionAlarm (hc : Conserved h os) :
    Conserved (h.updateLossDetectionAlarm c) os := by
  obtain ⟨a, ha⟩ := updateLossDetectionAlarm_eq c h
  exact hc.mono (by rw [ha]) (by rw [ha]) (by rw [ha]; exact BitVec.le_refl _)

theorem Conserved.sent (hc : Conserved h os) {p : Packet} {pn : PacketNumber}
    (hp : p.packetNumber = pn) (hlt : h.lastSentPacketNumber < pn) {isR : Bool}
    (e₁ : h'.packetHistory = if isR then h.packetHistory ++ [p] else h.packetHistory)
    (e₂ : h'.retransmissionQueue = h.retransmissionQueue)
    (e₃ : h'.lastSentPacketNumber = pn) {t : Time} {b len : ByteCount}
    {res : HandlerResult} (hres : res.dequeued? = none) :
    Conserved h' (os ++ [⟨[.onPacketSent t b pn len isR], res⟩]) := by
  have hlt' : ∀ n ∈ recordedNumbers os, n < pn := fun n hn => by
    have := hc.le_lastSent n hn; bv_omega
  have hlost : (lostNumbers os : Multiset PacketNumber) ≤
      numbers h'.retransmissionQueue + numbers (dequeuedPackets os) := e₂ ▸ hc.lost
  cases isR
  · exact ⟨by simpa [CongestionCall.recorded?, CongestionCall.acked?, hres, e₁, e₂] using hc.perm,
      by simpa [CongestionCall.lost?, hres] using hlost,
      by simpa [CongestionCall.recorded?] using hc.sorted,
      by simpa [CongestionCall.recorded?, e₃] using fun n hn => by have := hlt' n hn; bv_omega⟩
  · refine ⟨?_, by simpa [CongestionCall.lost?, hres] using hlost, ?_, ?_⟩
    · simp only [recordedNumbers_snoc, ackedNumbers_snoc, dequeuedPackets_snoc, hres, e₁, e₂, hp,
        CongestionCall.recorded?, CongestionCall.acked?, List.filterMap_cons, List.filterMap_nil,
        Option.toList_none, List.append_nil, if_true, numbers_append, numbers_cons, numbers_nil,
        ← Multiset.coe_add]
      rw [hc.perm]
      ac_rfl
    · simpa [CongestionCall.recorded?, List.pairwise_append] using ⟨hc.sorted, hlt'⟩
    · simp only [recordedNumbers_snoc, CongestionCall.recorded?, List.filterMap_cons,
        List.filterMap_nil, List.mem_append, List.mem_singleton, e₃]
      rintro n (hn | rfl)
      · have := hlt' n hn; bv_omega
      · exact BitVec.le_refl _

theorem Conserved.sentPacket (hc : Conserved h os) (packet : Packet) (now : Time) :
    Conserved (step c cfg h (.sentPacket packet now)).1
      (os ++ [(step c cfg h (.sentPacket packet now)).2]) := by
  simp only [step, SentPacketHandler.sentPacket]
  split_ifs with hpn htr hne
  · exact hc.shift (.refl h) rfl
  · exact hc.shift (.refl h) rfl
  · apply Conserved.updateLossDetectionAlarm
    refine hc.sent
      (p := { packet with frames := stripNonRetransmittableFrames packet.frames, sendTime := now })
      rfl (BitVec.not_le.1 hpn) ?_ ?_ ?_ rfl
    · rw [if_pos hne]
    · rfl
    · rfl
  · apply Conserved.updateLossDetectionAlarm
    refine hc.sent (p := packet) rfl (BitVec.not_le.1 hpn) ?_ ?_ ?_ rfl
    · rw [if_neg hne]
    · rfl
    · rfl

theorem Conserved.dequeue (hc : Conserved h os) {p : Packet} {ps : List Packet}
    (hq : h.retransmissionQueue = p :: ps) :
    Conserved { h with retransmissionQueue := ps } (os ++ [⟨[], .packet (some p)⟩]) := by
  have hsplit : (numbers h.retransmissionQueue : Multiset PacketNumber) =
      numbers ps + {p.packetNumber} := by
    rw [hq, numbers_cons, ← Multiset.cons_coe, ← Multiset.singleton_add, add_comm]
  refine ⟨?_, ?_, by simpa using hc.sorted, by simpa using hc.le_lastSent⟩ <;>
    simp only [recordedNumbers_snoc, ackedNumbers_snoc, lostNumbers_snoc, dequeuedPackets_snoc,
      HandlerResult.dequeued?, Option.toList_some, List.filterMap_nil, List.append_nil,
      numbers_append, numbers_cons, numbers_nil, ← Multiset.coe_add, Multiset.coe_singleton]
  · rw [hc.perm, hsplit]; ac_rfl
  · exact hc.lost.trans_eq (by rw [hsplit]; ac_rfl)

theorem Conserved.step (hc : Conserved h os) (e : HandlerEvent) :
    Conserved (step c cfg h e).1 (os ++ [(step c cfg h e).2]) := by
  cases e with
  | sentPacket p now => exact hc.sentPacket c cfg p now
  | receivedAck ack w rcvTime now =>
    exact hc.shift (receivedAck_moves c h ack w rcvTime now).shifts rfl
  | receivedClosePath f w => exact hc.shift (receivedClosePath_moves h f w).shifts rfl
  | onAlarm now failed => exact hc.shift (onAlarm_moves c h now failed).shifts rfl
  | dequeuePacketForRetransmission =>
    show Conserved h.dequeuePacketForRetransmission.handler (os ++
      [⟨h.dequeuePacketForRetransmission.calls, .packet h.dequeuePacketForRetransmission.result⟩])
    unfold dequeuePacketForRetransmission
    split
    · exact hc.dequeue ‹_›
    · exact hc.shift (.refl h) rfl
  | getStopWaitingFrame force =>
    exact hc.shift (show Shifts h (h.getStopWaitingFrame force).handler [] from
      .same rfl rfl rfl rfl rfl rfl) rfl

theorem Conserved.run (hc : Conserved h os) (es : List HandlerEvent) :
    Conserved (run c cfg h es).1 (os ++ (run c cfg h es).2) := by
  induction es generalizing h os with
  | nil => simpa [SentPacketHandler.run] using hc
  | cons e es ih => simpa [SentPacketHandler.run] using ih (hc.step c cfg e)

/-- Along any run from `NewSentPacketHandler`, the recorded packet numbers are those of the
history, the retransmission queue, the handed-out packets and the acknowledged packets, each
in exactly one of them, and no packet gets two acknowledgement or loss calls. -/
theorem run_packets_conserved (r : RTTStats) (es : List HandlerEvent) :
    let o := run c cfg (new r) es
    let places := numbers o.1.packetHistory ++ numbers o.1.retransmissionQueue ++
      numbers (dequeuedPackets o.2) ++ ackedNumbers o.2
    (recordedNumbers o.2).Perm places ∧ places.Nodup ∧
      (ackedNumbers o.2 ++ lostNumbers o.2).Nodup := by
  intro o places
  have hc : Conserved o.1 o.2 := by simpa using (conserved_new r).run c cfg es
  have hperm : (recordedNumbers o.2).Perm places := by
    simpa only [places, ← Multiset.coe_eq_coe, ← Multiset.coe_add] using hc.perm
  have hrec : (recordedNumbers o.2).Nodup :=
    hc.sorted.imp BitVec.ne_of_lt
  have hnodup : places.Nodup := hperm.nodup_iff.1 hrec
  refine ⟨hperm, hnodup, Multiset.coe_nodup.1 (Multiset.nodup_of_le ?_ (Multiset.coe_nodup.2
    hnodup))⟩
  simp only [places, ← Multiset.coe_add]
  calc (ackedNumbers o.2 : Multiset PacketNumber) + lostNumbers o.2
      ≤ ackedNumbers o.2 + (numbers o.1.retransmissionQueue + numbers (dequeuedPackets o.2)) :=
        add_le_add_left hc.lost _
    _ ≤ _ := (Multiset.le_add_left _ (numbers o.1.packetHistory : Multiset PacketNumber)).trans_eq
        (by ac_rfl)

end SentPacketHandler

end PStream
