import PStream.SentPacketHandler.Run

/-! `LargestAcked` under `ReceivedAck`. The check that ignores a repeated ACK compares the
ACK's `LargestAcked` with `largestInOrderAcked()`, one below the oldest packet still in the
history, and not with `LargestAcked`, which it then overwrites. While an older packet is
outstanding, an ACK whose `LargestAcked` lies between the two lowers `LargestAcked`. -/

namespace PStream

namespace SentPacketHandler

variable (c : Collaborators) (h : SentPacketHandler)

@[simp] theorem ackPackets_largestAcked (ps : List Packet) :
    (h.ackPackets ps).1.largestAcked = h.largestAcked := by
  induction ps generalizing h with
  | nil => rfl
  | cons p ps ih => exact ih _

@[simp] theorem queueLostPackets_largestAcked (ps : List Packet) :
    (h.queueLostPackets ps).1.largestAcked = h.largestAcked := by
  induction ps generalizing h with
  | nil => rfl
  | cons p ps ih => exact ih _

@[simp] theorem updateLossDetectionAlarm_largestAcked :
    (h.updateLossDetectionAlarm c).largestAcked = h.largestAcked := by
  obtain ⟨a, ha⟩ := updateLossDetectionAlarm_eq c h
  rw [ha]

@[simp] theorem maybeUpdateRTT_largestAcked (la : PacketNumber) (d : Duration)
    (rcvTime now : Time) : (h.maybeUpdateRTT c la d rcvTime now).2.largestAcked = h.largestAcked := by
  obtain ⟨r, hr⟩ := maybeUpdateRTT_eq c h la d rcvTime now
  rw [hr]

def ackOfNewestRun : List HandlerEvent :=
  [.sentPacket ⟨1, [.ping], 100, .forwardSecure, 0⟩ 10,
   .sentPacket ⟨2, [.ping], 100, .forwardSecure, 0⟩ 10,
   .sentPacket ⟨3, [.ping], 100, .forwardSecure, 0⟩ 10,
   .receivedAck ⟨⟨3, 3, []⟩, 0, 0⟩ 1 10 10]

def lowerAck : HandlerEvent := .receivedAck ⟨⟨2, 2, []⟩, 0, 0⟩ 2 10 10

theorem largestAcked_decreases_on_lower_ack :
    (run sampleCollaborators sampleConfig (new ⟨0, 0⟩) ackOfNewestRun).1.largestAcked = 3 ∧
      (run sampleCollaborators sampleConfig (new ⟨0, 0⟩)
        (ackOfNewestRun ++ [lowerAck])).1.largestAcked = 2 := by
  decide

end SentPacketHandler

end PStream
