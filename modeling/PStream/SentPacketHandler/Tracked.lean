import PStream.SentPacketHandler.Conservation

/-! Where the packets the handler tracks come from. Every packet of the history and of the
retransmission queue, and every packet `DequeuePacketForRetransmission` hands out, is a packet
some `SentPacket` call recorded: the packet given to it, with its ACK and STOP_WAITING frames
stripped and its send time set. So any property of the packets `SentPacket` records holds of
all of them, along every run. -/

namespace PStream

namespace SentPacketHandler

open Observation

def recordedPacket (packet : Packet) (now : Time) : Packet :=
  { packet with frames := stripNonRetransmittableFrames packet.frames, sendTime := now }

theorem Moves.tracked_subset {h h' : SentPacketHandler} {cs : List CongestionCall}
    (m : Moves h h' cs) :
    ∀ p ∈ h'.packetHistory ++ h'.retransmissionQueue,
      p ∈ h.packetHistory ++ h.retransmissionQueue := by
  induction m with
  | frame e₁ e₂ => intro p; rw [e₁, e₂]; exact id
  | @ack h ps hs =>
    obtain ⟨hist, _, _, e, -, hsub⟩ := h.ackPackets_eq ps hs
    simp only [e, List.mem_append]
    exact fun p => Or.imp_left (hsub.subset ·)
  | @lose h ps hs =>
    obtain ⟨hist, e, -, hsub⟩ := h.queueLostPackets_eq ps hs
    simp only [e, List.mem_append]
    rintro p (hp | hp | hp)
    · exact .inl (hsub.subset hp)
    · exact .inr hp
    · exact .inl (hs.subset hp)
  | @probe h p hp =>
    simp only [queuePacketForRetransmission, List.mem_append, List.mem_singleton]
    rintro q (hq | hq | rfl)
    · exact .inl (List.mem_of_mem_erase hq)
    · exact .inr hq
    · exact .inl hp
  | raise => exact fun _ => id
  | emit => exact fun _ => id
  | trans _ _ ih₁ ih₂ => exact fun p hp => ih₁ p (ih₂ p hp)

section

variable (P : Packet → Prop)

def AllTracked (h : SentPacketHandler) (os : List Observation) : Prop :=
  ∀ p ∈ h.packetHistory ++ h.retransmissionQueue ++ dequeuedPackets os, P p

theorem allTracked_new (r : RTTStats) : AllTracked P (new r) [] := by
  simp [AllTracked, new, dequeuedPackets]

variable {P} {h h' : SentPacketHandler} {os : List Observation}

theorem AllTracked.shift (ht : AllTracked P h os)
    (hsub : ∀ p ∈ h'.packetHistory ++ h'.retransmissionQueue,
      p ∈ h.packetHistory ++ h.retransmissionQueue)
    {o : Observation} (hres : o.result.dequeued? = none) : AllTracked P h' (os ++ [o]) := by
  intro p hp
  rw [dequeuedPackets_snoc, hres, Option.toList_none, List.append_nil, List.mem_append] at hp
  rcases hp with hp | hp
  · exact ht p (List.mem_append_left _ (hsub p hp))
  · exact ht p (List.mem_append_right _ hp)

variable (c : Collaborators) (cfg : Config)

theorem AllTracked.updateLossDetectionAlarm (ht : AllTracked P h os) :
    AllTracked P (h.updateLossDetectionAlarm c) os := by
  obtain ⟨a, ha⟩ := updateLossDetectionAlarm_eq c h
  rwa [AllTracked, ha]

theorem AllTracked.sentPacket (ht : AllTracked P h os) (packet : Packet) (now : Time)
    (hp : stripNonRetransmittableFrames packet.frames ≠ [] → P (recordedPacket packet now)) :
    AllTracked P (step c cfg h (.sentPacket packet now)).1
      (os ++ [(step c cfg h (.sentPacket packet now)).2]) := by
  simp only [step, SentPacketHandler.sentPacket]
  split_ifs with hpn htr hne
  · exact ht.shift (fun _ => id) rfl
  · exact ht.shift (fun _ => id) rfl
  · apply AllTracked.updateLossDetectionAlarm
    intro q hq
    simp only [dequeuedPackets_snoc, HandlerResult.dequeued?, Option.toList_none,
      List.append_nil, List.mem_append, List.mem_singleton] at hq
    rcases hq with ((hq | rfl) | hq) | hq
    · exact ht q (List.mem_append_left _ (List.mem_append_left _ hq))
    · exact hp (of_decide_eq_true hne)
    · exact ht q (List.mem_append_left _ (List.mem_append_right _ hq))
    · exact ht q (List.mem_append_right _ hq)
  · exact AllTracked.updateLossDetectionAlarm c (ht.shift (fun _ => id) rfl)

theorem AllTracked.step (ht : AllTracked P h os) (e : HandlerEvent)
    (he : ∀ packet now, e = .sentPacket packet now →
      stripNonRetransmittableFrames packet.frames ≠ [] → P (recordedPacket packet now)) :
    AllTracked P (step c cfg h e).1 (os ++ [(step c cfg h e).2]) := by
  cases e with
  | sentPacket p now => exact ht.sentPacket c cfg p now (he p now rfl)
  | receivedAck ack w rcvTime now =>
    exact ht.shift (receivedAck_moves c h ack w rcvTime now).tracked_subset rfl
  | receivedClosePath f w => exact ht.shift (receivedClosePath_moves h f w).tracked_subset rfl
  | onAlarm now failed => exact ht.shift (onAlarm_moves c h now failed).tracked_subset rfl
  | dequeuePacketForRetransmission =>
    show AllTracked P h.dequeuePacketForRetransmission.handler (os ++
      [⟨h.dequeuePacketForRetransmission.calls, .packet h.dequeuePacketForRetransmission.result⟩])
    unfold dequeuePacketForRetransmission
    split
    · rename_i p ps hq
      intro q hq'
      simp only [dequeuedPackets_snoc, HandlerResult.dequeued?, Option.toList_some,
        List.mem_append, List.mem_singleton] at hq'
      apply ht q
      rw [List.mem_append, List.mem_append, hq]
      rcases hq' with (hq' | hq') | hq' | rfl
      · exact .inl (.inl hq')
      · exact .inl (.inr (List.mem_cons_of_mem _ hq'))
      · exact .inr hq'
      · exact .inl (.inr (List.mem_cons_self _ _))
    · exact ht.shift (fun _ => id) rfl
  | getStopWaitingFrame force => exact ht.shift (fun _ => id) rfl

theorem AllTracked.run (ht : AllTracked P h os) (es : List HandlerEvent)
    (hes : ∀ packet now, .sentPacket packet now ∈ es →
      stripNonRetransmittableFrames packet.frames ≠ [] → P (recordedPacket packet now)) :
    AllTracked P (run c cfg h es).1 (os ++ (run c cfg h es).2) := by
  induction es generalizing h os with
  | nil => simpa [SentPacketHandler.run] using ht
  | cons e es ih =>
    simpa [SentPacketHandler.run] using
      ih (ht.step c cfg e fun p now he => hes p now (he ▸ List.mem_cons_self _ _))
        fun p now hp => hes p now (List.mem_cons_of_mem _ hp)

end

structure TrackedFrames (fs : List Frame) : Prop where
  ne_nil : fs ≠ []
  retransmittable : ∀ f ∈ fs, isFrameRetransmittable f = true
  dataLenLast : DataLenLast fs

theorem run_dequeued_frames (c : Collaborators) (cfg : Config) (r : RTTStats)
    (es : List HandlerEvent)
    (hes : ∀ packet now, .sentPacket packet now ∈ es → DataLenLast packet.frames) :
    ∀ p ∈ dequeuedPackets (run c cfg (new r) es).2, TrackedFrames p.frames := by
  have ht := (allTracked_new (fun p => TrackedFrames p.frames) r).run c cfg es
    fun packet now hp hne =>
      ⟨hne, fun f hf => (List.mem_filter.1 hf).2, (hes packet now hp).filter _⟩
  exact fun p hp => ht p (List.mem_append_right _ (by simpa using hp))

end SentPacketHandler

end PStream
