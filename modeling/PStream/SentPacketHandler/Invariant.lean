import PStream.SentPacketHandler.Run
import Mathlib.Algebra.Order.BigOperators.Group.List
import Mathlib.Algebra.Order.Ring.Nat

/-! The bookkeeping invariant of one path's handler: the history is ordered by packet number
below the last sent number and holds only packets with frames; history and retransmission
queue together stay within `MaxTrackedSentPackets`; and `bytesInFlight` is the byte count of the
history, with no wrap, so the subtractions of `onPacketAcked` and `queuePacketForRetransmission`
never wrap. The byte count needs the lengths bounded: each sent packet is at most
`MaxPacketSize` long (what `writeAndSealPacket` checks), and the protocol constants, which are
not in the sources, satisfy `Config.Bounded`. -/

namespace PStream

/-- The bounds the protocol constants are taken to satisfy: one packet more than the tracking
limit, and a full history of largest packets, both fit in a `uint64`. -/
structure Config.Bounded (cfg : Config) : Prop where
  tracked_lt : cfg.maxTrackedSentPackets.toNat + 1 < 2 ^ 64
  bytes_lt : cfg.maxTrackedSentPackets.toNat * cfg.maxPacketSize.toNat < 2 ^ 64

namespace SentPacketHandler

def historyBytes (ps : List Packet) : Nat := (ps.map fun p => p.length.toNat).sum

@[simp] theorem historyBytes_nil : historyBytes [] = 0 := rfl

@[simp] theorem historyBytes_cons (p : Packet) (ps : List Packet) :
    historyBytes (p :: ps) = p.length.toNat + historyBytes ps := by
  simp [historyBytes]

@[simp] theorem historyBytes_append (ps qs : List Packet) :
    historyBytes (ps ++ qs) = historyBytes ps + historyBytes qs := by
  simp [historyBytes]

theorem historyBytes_perm {ps qs : List Packet} (h : ps.Perm qs) :
    historyBytes ps = historyBytes qs :=
  (h.map _).sum_eq

theorem length_le_historyBytes {p : Packet} {ps : List Packet} (hp : p ∈ ps) :
    p.length.toNat ≤ historyBytes ps :=
  List.le_sum_of_mem (List.mem_map_of_mem _ hp)

theorem historyBytes_le {ps : List Packet} {b : ByteCount} (h : ∀ p ∈ ps, p.length ≤ b) :
    historyBytes ps ≤ ps.length * b.toNat := by
  induction ps with
  | nil => simp
  | cons p ps ih =>
    have hp := BitVec.le_def.1 (h p (List.mem_cons_self _ _))
    have hps := ih fun q hq => h q (List.mem_cons_of_mem _ hq)
    simp only [historyBytes_cons, List.length_cons, Nat.succ_mul]
    omega

theorem foldl_sub_toNat (ps : List Packet) (b : ByteCount) (hb : historyBytes ps ≤ b.toNat) :
    (ps.foldl (fun b p => b - p.length) b).toNat = b.toNat - historyBytes ps := by
  induction ps generalizing b with
  | nil => rfl
  | cons p ps ih =>
    rw [historyBytes_cons] at hb
    have hp : (b - p.length).toNat = b.toNat - p.length.toNat :=
      BitVec.toNat_sub_of_le (BitVec.le_def.2 (by omega))
    rw [List.foldl_cons, ih _ (by omega), hp, historyBytes_cons]
    omega

variable {cfg : Config}

structure Inv (cfg : Config) (h : SentPacketHandler) : Prop where
  sorted : h.packetHistory.Pairwise fun p q => p.packetNumber < q.packetNumber
  le_lastSent : ∀ p ∈ h.packetHistory, p.packetNumber ≤ h.lastSentPacketNumber
  frames_ne_nil : ∀ p ∈ h.packetHistory, p.frames ≠ []
  length_le : ∀ p ∈ h.packetHistory, p.length ≤ cfg.maxPacketSize
  tracked_le :
    h.retransmissionQueue.length + h.packetHistory.length ≤ cfg.maxTrackedSentPackets.toNat
  bytesInFlight_eq : h.bytesInFlight.toNat = historyBytes h.packetHistory

theorem inv_new (r : RTTStats) : Inv cfg (new r) :=
  ⟨.nil, by simp [new], by simp [new], by simp [new], by simp [new], rfl⟩

theorem Inv.length_le_bytesInFlight {h : SentPacketHandler} (hi : Inv cfg h) {p : Packet}
    (hp : p ∈ h.packetHistory) : p.length ≤ h.bytesInFlight :=
  BitVec.le_def.2 (hi.bytesInFlight_eq ▸ length_le_historyBytes hp)

theorem Inv.mono {h h' : SentPacketHandler} (hi : Inv cfg h)
    (e₁ : h'.packetHistory = h.packetHistory)
    (e₂ : h'.retransmissionQueue.length ≤ h.retransmissionQueue.length)
    (e₃ : h'.bytesInFlight = h.bytesInFlight)
    (e₄ : h.lastSentPacketNumber ≤ h'.lastSentPacketNumber) : Inv cfg h' where
  sorted := e₁ ▸ hi.sorted
  le_lastSent p hp := BitVec.le_trans (hi.le_lastSent p (e₁ ▸ hp)) e₄
  frames_ne_nil p hp := hi.frames_ne_nil p (e₁ ▸ hp)
  length_le p hp := hi.length_le p (e₁ ▸ hp)
  tracked_le := by have := hi.tracked_le; rw [e₁]; omega
  bytesInFlight_eq := by rw [e₁, e₃]; exact hi.bytesInFlight_eq

theorem Inv.remove {h h' : SentPacketHandler} (hi : Inv cfg h) {ps hist : List Packet}
    (hperm : (hist ++ ps).Perm h.packetHistory) (hsub : hist.Sublist h.packetHistory)
    (e₁ : h'.packetHistory = hist)
    (e₂ : h'.retransmissionQueue.length ≤ h.retransmissionQueue.length + ps.length)
    (e₃ : h'.bytesInFlight = ps.foldl (fun b p => b - p.length) h.bytesInFlight)
    (e₄ : h'.lastSentPacketNumber = h.lastSentPacketNumber) : Inv cfg h' := by
  have hb : historyBytes hist + historyBytes ps = historyBytes h.packetHistory := by
    rw [← historyBytes_append, historyBytes_perm hperm]
  have hl : hist.length + ps.length = h.packetHistory.length := by
    rw [← List.length_append, hperm.length_eq]
  subst e₁
  refine ⟨hi.sorted.sublist hsub, fun p hp => e₄ ▸ hi.le_lastSent p (hsub.subset hp),
    fun p hp => hi.frames_ne_nil p (hsub.subset hp), fun p hp => hi.length_le p (hsub.subset hp),
    by have := hi.tracked_le; omega, ?_⟩
  have hc := hi.bytesInFlight_eq
  rw [e₃, foldl_sub_toNat _ _ (by omega), hc]
  omega

theorem Inv.ackPackets {h : SentPacketHandler} (hi : Inv cfg h) {ps : List Packet}
    (hs : ps.Sublist h.packetHistory) : Inv cfg (h.ackPackets ps).1 := by
  obtain ⟨hist, _, _, e, hperm, hsub⟩ := h.ackPackets_eq ps hs
  exact hi.remove hperm hsub (by rw [e]) (by rw [e]; exact Nat.le_add_right _ _) (by rw [e])
    (by rw [e])

theorem Inv.queueLostPackets {h : SentPacketHandler} (hi : Inv cfg h) {ps : List Packet}
    (hs : ps.Sublist h.packetHistory) : Inv cfg (h.queueLostPackets ps).1 := by
  obtain ⟨hist, e, hperm, hsub⟩ := h.queueLostPackets_eq ps hs
  exact hi.remove hperm hsub (by rw [e]) (by rw [e]; simp) (by rw [e]) (by rw [e])

theorem Moves.inv {h h' : SentPacketHandler} {cs : List CongestionCall} (m : Moves h h' cs)
    (hi : Inv cfg h) : Inv cfg h' := by
  induction m with
  | frame e₁ e₂ e₃ e₄ => exact hi.mono e₁ (by rw [e₂]) e₃ (by rw [e₄]; exact BitVec.le_refl _)
  | ack hs => exact hi.ackPackets hs
  | lose hs => exact hi.queueLostPackets hs
  | probe hp => exact hi.queueLostPackets (List.singleton_sublist.2 hp)
  | raise => exact hi.mono rfl le_rfl rfl (BitVec.le_refl _)
  | emit => exact hi
  | trans _ _ ih₁ ih₂ => exact ih₂ (ih₁ hi)

variable (c : Collaborators) {h : SentPacketHandler}

theorem Inv.updateLossDetectionAlarm (hi : Inv cfg h) : Inv cfg (h.updateLossDetectionAlarm c) :=
  ((Moves.refl h).updateLossDetectionAlarm c).inv hi

theorem tracked_succ_le (hb : cfg.Bounded) (hi : Inv cfg h)
    (htr : ¬cfg.maxTrackedSentPackets <
      BitVec.ofNat 64 (h.retransmissionQueue.length + h.packetHistory.length + 1)) :
    h.retransmissionQueue.length + h.packetHistory.length + 1 ≤
      cfg.maxTrackedSentPackets.toNat := by
  have := hi.tracked_le
  have := hb.tracked_lt
  rwa [BitVec.not_lt, BitVec.le_def, BitVec.toNat_ofNat, Nat.mod_eq_of_lt (by omega)] at htr

theorem Inv.sentPacket (hb : cfg.Bounded) (hi : Inv cfg h) {packet : Packet}
    (hlen : packet.length ≤ cfg.maxPacketSize) (now : Time) :
    Inv cfg (h.sentPacket c cfg packet now).handler := by
  unfold SentPacketHandler.sentPacket
  dsimp only
  split_ifs with hpn htr hne
  · exact hi
  · exact hi
  · have hlt : h.lastSentPacketNumber < packet.packetNumber := BitVec.not_le.1 hpn
    have htr' := tracked_succ_le hb hi htr
    have hsum : historyBytes h.packetHistory + packet.length.toNat < 2 ^ 64 := by
      have h₁ := historyBytes_le hi.length_le
      have h₂ := Nat.mul_le_mul_right cfg.maxPacketSize.toNat
        (show h.packetHistory.length + 1 ≤ cfg.maxTrackedSentPackets.toNat by omega)
      have := BitVec.le_def.1 hlen
      have := hb.bytes_lt
      rw [Nat.succ_mul] at h₂
      omega
    apply Inv.updateLossDetectionAlarm
    refine ⟨List.pairwise_append.2 ⟨hi.sorted, List.pairwise_singleton _ _, ?_⟩, ?_, ?_, ?_,
      by simp only [List.length_append, List.length_singleton]; omega, ?_⟩
    · simp only [List.mem_singleton]
      rintro p hp _ rfl
      have := hi.le_lastSent p hp
      bv_omega
    · simp only [List.mem_append, List.mem_singleton]
      rintro p (hp | rfl)
      · have := hi.le_lastSent p hp
        bv_omega
      · exact BitVec.le_refl _
    · simp only [List.mem_append, List.mem_singleton]
      rintro p (hp | rfl)
      · exact hi.frames_ne_nil p hp
      · simpa using hne
    · simp only [List.mem_append, List.mem_singleton]
      rintro p (hp | rfl)
      · exact hi.length_le p hp
      · exact hlen
    · simp only [historyBytes_append, historyBytes_cons, historyBytes_nil]
      rw [BitVec.toNat_add_of_lt (by rw [hi.bytesInFlight_eq]; exact hsum), hi.bytesInFlight_eq]
      omega
  · apply Inv.updateLossDetectionAlarm
    exact hi.mono rfl le_rfl rfl (by bv_omega)

theorem Inv.step (hb : cfg.Bounded) (hi : Inv cfg h) (e : HandlerEvent)
    (he : ∀ p now, e = .sentPacket p now → p.length ≤ cfg.maxPacketSize) :
    Inv cfg (step c cfg h e).1 := by
  cases e with
  | sentPacket p now => exact hi.sentPacket c hb (he p now rfl) now
  | receivedAck ack w rcvTime now => exact (receivedAck_moves c h ack w rcvTime now).inv hi
  | receivedClosePath f w => exact (receivedClosePath_moves h f w).inv hi
  | onAlarm now failed => exact (onAlarm_moves c h now failed).inv hi
  | dequeuePacketForRetransmission =>
    show Inv cfg h.dequeuePacketForRetransmission.handler
    unfold dequeuePacketForRetransmission
    split
    · exact hi.mono rfl (by simp [*]) rfl (BitVec.le_refl _)
    · exact hi
  | getStopWaitingFrame force => exact hi.mono rfl le_rfl rfl (BitVec.le_refl _)

theorem Inv.run (hb : cfg.Bounded) (hi : Inv cfg h) (es : List HandlerEvent)
    (hes : ∀ p now, .sentPacket p now ∈ es → p.length ≤ cfg.maxPacketSize) :
    Inv cfg (run c cfg h es).1 := by
  induction es generalizing h with
  | nil => exact hi
  | cons e es ih =>
    exact ih (hi.step c hb e fun p now he => hes p now (he ▸ List.mem_cons_self _ _))
      fun p now hp => hes p now (List.mem_cons_of_mem _ hp)

/-- After any run from `NewSentPacketHandler` the invariant holds, and no history packet is
longer than the bytes in flight, so no subtraction of a packet's length wraps. -/
theorem run_bookkeeping (hb : cfg.Bounded) (r : RTTStats) (es : List HandlerEvent)
    (hes : ∀ p now, .sentPacket p now ∈ es → p.length ≤ cfg.maxPacketSize) :
    Inv cfg (run c cfg (new r) es).1 ∧
      ∀ p ∈ (run c cfg (new r) es).1.packetHistory,
        p.length ≤ (run c cfg (new r) es).1.bytesInFlight :=
  have hi := (inv_new r).run c hb es hes
  ⟨hi, fun _ hp => hi.length_le_bytesInFlight hp⟩

theorem run_bookkeeping_sample :
    Inv sampleConfig (run sampleCollaborators sampleConfig (new ⟨0, 0⟩) sampleRun).1 ∧
      ∀ p ∈ (run sampleCollaborators sampleConfig (new ⟨0, 0⟩) sampleRun).1.packetHistory,
        p.length ≤ (run sampleCollaborators sampleConfig (new ⟨0, 0⟩) sampleRun).1.bytesInFlight :=
  run_bookkeeping sampleCollaborators ⟨by decide, by decide⟩ ⟨0, 0⟩ sampleRun (by
    intro p now hp
    simp only [sampleRun, List.mem_cons, HandlerEvent.sentPacket.injEq, List.mem_singleton,
      reduceCtorEq, or_false, List.not_mem_nil] at hp
    rcases hp with ⟨rfl, -⟩ | ⟨rfl, -⟩ <;> decide)

end SentPacketHandler

end PStream
