import PStream.SentPacketHandler.Acknowledged

/-! Loss detection and the CLOSE_PATH sweep. `detectLostPackets` scans the history up to
`LargestAcked`: a packet sent more than `delayUntilLost` ago is lost, and the first packet that
is not sets the loss time. On a reachable history whose send times do not decrease, the lost
packets are a prefix of the history, they move to the retransmission queue in order, and the
loss time is the earliest deadline of the packets still awaited. `SetInflightAsLost` sweeps the
history up to the handler's `LargestAcked`, which `ReceivedClosePath`, unlike `ReceivedAck`,
never sets from the frame: unacknowledged packets below the frame's `LargestAcked` stay in the
history of the closed path. -/

namespace PStream

namespace SentPacketHandler

section Prefix

variable {α : Type} (P : α → Bool)

theorem filter_eq_takeWhile {l : List α} (hl : l.Pairwise fun a b => P b → P a) :
    l.filter P = l.takeWhile P ∧ l.filter (fun a => !P a) = l.dropWhile P := by
  induction l with
  | nil => exact ⟨rfl, rfl⟩
  | cons a l ih =>
    obtain ⟨ha, hl⟩ := List.pairwise_cons.1 hl
    cases hpa : P a
    · have hnone : ∀ b ∈ l, P b = false := fun b hb => by
        cases hpb : P b
        · rfl
        · exact absurd (ha b hb hpb) (by simp [hpa])
      simpa [hpa, List.filter_eq_nil_iff, List.filter_eq_self] using hnone
    · simp [hpa, ih hl]

end Prefix

theorem min?_eq_head? {l : List Int} (hl : l.Pairwise (· ≤ ·)) : l.min? = l.head? := by
  cases l with
  | nil => rfl
  | cons x l =>
    rw [List.min?_cons', List.head?_cons, Option.some_inj]
    induction l generalizing x with
    | nil => rfl
    | cons y l ih =>
      obtain ⟨hxy, hl⟩ := List.pairwise_cons.1 hl
      rw [List.foldl_cons, min_eq_left (hxy y (List.mem_cons_self _ _))]
      exact ih x (List.pairwise_cons.2 ⟨fun z hz => hxy z (List.mem_cons_of_mem _ hz),
        (List.pairwise_cons.1 hl).2⟩)

section Scan

variable (la : PacketNumber) (now : Time) (d : Duration)

theorem lossScan_fst (l : List Packet) (lt : Time) :
    (lossScan la now d l lt).1 =
      (l.takeWhile fun p => p.packetNumber ≤ la).filter fun p => d < now - p.sendTime := by
  induction l generalizing lt with
  | nil => rfl
  | cons p l ih =>
    unfold lossScan
    by_cases hla : la < p.packetNumber
    · simp [hla, BitVec.not_le.2 hla]
    · simp only [if_neg hla, List.takeWhile_cons, decide_eq_true (BitVec.not_lt.1 hla)]
      split_ifs with hlost <;> simp [ih, hlost]

theorem lossScan_snd (l : List Packet) (lt : Time) (hne : ∀ p ∈ l, p.sendTime + d ≠ 0) :
    (lossScan la now d l lt).2 =
      if lt = 0 then
        ((((l.takeWhile fun p => p.packetNumber ≤ la).filter
          fun p => !decide (d < now - p.sendTime)).head?.map fun p => p.sendTime + d).getD 0)
      else lt := by
  induction l generalizing lt with
  | nil => split_ifs with h <;> simp [lossScan, h]
  | cons p l ih =>
    have ih' := fun lt => ih lt fun q hq => hne q (List.mem_cons_of_mem _ hq)
    unfold lossScan
    by_cases hla : la < p.packetNumber
    · split_ifs with h <;> simp [hla, BitVec.not_le.2 hla, h]
    · simp only [if_neg hla, List.takeWhile_cons, decide_eq_true (BitVec.not_lt.1 hla)]
      by_cases hlost : d < now - p.sendTime
      · simp [hlost, ih']
      · have hdl : now + (d - (now - p.sendTime)) = p.sendTime + d := by
          show (_ : Int) = _; omega
        by_cases h0 : lt = 0
        · simp [hlost, h0, hdl, ih', hne p (List.mem_cons_self _ _)]
        · simp [hlost, h0, ih']

end Scan

theorem queueLostPackets_front (h : SentPacketHandler) {ps rest : List Packet}
    (hh : h.packetHistory = ps ++ rest) : (h.queueLostPackets ps).1.packetHistory = rest := by
  induction ps generalizing h with
  | nil => exact hh
  | cons p ps ih =>
    refine ih (h.queuePacketForRetransmission p) ?_
    simp [queuePacketForRetransmission, hh]

@[simp] theorem updateLossDetectionAlarm_packetHistory (c : Collaborators) (h : SentPacketHandler) :
    (h.updateLossDetectionAlarm c).packetHistory = h.packetHistory := by
  obtain ⟨a, ha⟩ := updateLossDetectionAlarm_eq c h
  rw [ha]

def sentTime? : HandlerEvent → Option Time
  | .sentPacket _ now => some now
  | _ => none

theorem step_history_sublist (c : Collaborators) (cfg : Config) (h : SentPacketHandler)
    (e : HandlerEvent) : ∃ extra : List Packet,
      (step c cfg h e).1.packetHistory.Sublist (h.packetHistory ++ extra) ∧
      ∀ q ∈ extra, some q.sendTime = sentTime? e := by
  have hmove {h' : SentPacketHandler} {cs : List CongestionCall} (m : Moves h h' cs) :
      ∃ extra : List Packet, h'.packetHistory.Sublist (h.packetHistory ++ extra) ∧
        ∀ q ∈ extra, some q.sendTime = sentTime? e :=
    ⟨[], by simpa using m.history_sublist, by simp⟩
  cases e with
  | sentPacket p now =>
    simp only [step, SentPacketHandler.sentPacket]
    split_ifs
    · exact hmove (.refl h)
    · exact hmove (.refl h)
    · exact ⟨[{ p with frames := stripNonRetransmittableFrames p.frames, sendTime := now }],
        by simp, by simp [sentTime?]⟩
    · exact ⟨[], by simp, by simp⟩
  | receivedAck ack w rcvTime now => exact hmove (receivedAck_moves c h ack w rcvTime now)
  | receivedClosePath f w => exact hmove (receivedClosePath_moves h f w)
  | onAlarm now failed => exact hmove (onAlarm_moves c h now failed)
  | dequeuePacketForRetransmission =>
    show ∃ extra : List Packet, h.dequeuePacketForRetransmission.handler.packetHistory.Sublist _ ∧ _
    unfold dequeuePacketForRetransmission
    split <;> exact ⟨[], by simp, by simp⟩
  | getStopWaitingFrame force => exact ⟨[], by simp [step, getStopWaitingFrame], by simp⟩

theorem run_sendTimes_sorted (c : Collaborators) (cfg : Config) (h : SentPacketHandler)
    (es : List HandlerEvent) (hs : h.packetHistory.Pairwise fun p q => p.sendTime ≤ q.sendTime)
    (hes : (es.filterMap sentTime?).Pairwise (· ≤ ·))
    (hle : ∀ p ∈ h.packetHistory, ∀ t ∈ es.filterMap sentTime?, p.sendTime ≤ t) :
    (run c cfg h es).1.packetHistory.Pairwise fun p q => p.sendTime ≤ q.sendTime := by
  induction es generalizing h with
  | nil => exact hs
  | cons e es ih =>
    obtain ⟨extra, hsub, hextra⟩ := step_history_sublist c cfg h e
    -- the history before the call, with what it appends, is in order and below what comes
    suffices hnext : (h.packetHistory ++ extra).Pairwise (fun p q => p.sendTime ≤ q.sendTime) ∧
        (es.filterMap sentTime?).Pairwise (· ≤ ·) ∧
        ∀ p ∈ h.packetHistory ++ extra, ∀ t ∈ es.filterMap sentTime?, p.sendTime ≤ t from
      ih _ (hnext.1.sublist hsub) hnext.2.1 fun p hp => hnext.2.2 p (hsub.subset hp)
    cases ht : sentTime? e with
    | none =>
      have hnil : extra = [] :=
        List.eq_nil_iff_forall_not_mem.2 fun q hq => by simpa [ht] using hextra q hq
      rw [List.filterMap_cons_none ht] at hes hle
      rw [hnil, List.append_nil]
      exact ⟨hs, hes, hle⟩
    | some t =>
      rw [List.filterMap_cons_some ht] at hes hle
      obtain ⟨hts, hes⟩ := List.pairwise_cons.1 hes
      have hq : ∀ q ∈ extra, q.sendTime = t := fun q hq => by simpa [ht] using hextra q hq
      refine ⟨List.pairwise_append.2 ⟨hs, List.pairwise_of_forall_mem_list fun a ha b hb => by
          rw [hq a ha, hq b hb], fun p hp q hq' => hq q hq' ▸ hle p hp t (List.mem_cons_self _ _)⟩,
        hes, fun p hp t' ht' => ?_⟩
      rcases List.mem_append.1 hp with hp | hp
      · exact hle p hp t' (List.mem_cons_of_mem _ ht')
      · exact hq p hp ▸ hts t' ht'

def timedOut (h : SentPacketHandler) (now : Time) (p : Packet) : Bool :=
  decide (p.packetNumber ≤ h.largestAcked ∧ delayUntilLost h.rttStats < now - p.sendTime)

def awaited (h : SentPacketHandler) (now : Time) (p : Packet) : Bool :=
  decide (p.packetNumber ≤ h.largestAcked ∧ ¬delayUntilLost h.rttStats < now - p.sendTime)

/-- On a reachable history whose send times do not decrease, `detectLostPackets` takes out of
the history exactly the packets `timedOut` holds of, which are a prefix of it, appends them to
the retransmission queue in history order, and sets the loss time to the earliest deadline
`SendTime + delayUntilLost` of the packets still awaited, or the zero time when there is none.
Clock readings are after the zero time and `delayUntilLost` is not negative. -/
theorem detectLostPackets_exact {c : Collaborators} {cfg : Config} {h : SentPacketHandler}
    (hr : Reachable c cfg h) (now : Time)
    (htimes : h.packetHistory.Pairwise fun p q => p.sendTime ≤ q.sendTime)
    (hpos : ∀ p ∈ h.packetHistory, 0 < p.sendTime) (hd : 0 ≤ delayUntilLost h.rttStats) :
    (h.detectLostPackets now).1.packetHistory =
        h.packetHistory.filter (fun p => !timedOut h now p) ∧
      h.packetHistory.filter (timedOut h now) <+: h.packetHistory ∧
      (h.detectLostPackets now).1.retransmissionQueue =
        h.retransmissionQueue ++ h.packetHistory.filter (timedOut h now) ∧
      (h.detectLostPackets now).1.lossTime =
        (((h.packetHistory.filter (awaited h now)).map
          fun p => p.sendTime + delayUntilLost h.rttStats).min?).getD 0 := by
  have hn := hr.numbered
  -- up to `LargestAcked` the scan reads the packets numbered up to it
  have hupto := (filter_eq_takeWhile (fun p : Packet => decide (p.packetNumber ≤ h.largestAcked))
    (hn.sorted.imp fun hlt hle => by simp only [decide_eq_true_eq] at hle ⊢; bv_omega)).1
  -- a packet timed out makes every earlier packet timed out
  have hlost := filter_eq_takeWhile (timedOut h now) ((hn.sorted.and htimes).imp fun ⟨hlt, hle⟩ => by
    simp only [timedOut, decide_eq_true_eq, and_imp]
    intro hb hdb
    exact ⟨by bv_omega, lt_of_lt_of_le hdb (Int.sub_le_sub_left hle now)⟩)
  have hfst : (lossScan h.largestAcked now (delayUntilLost h.rttStats) h.packetHistory 0).1 =
      h.packetHistory.filter (timedOut h now) := by
    rw [lossScan_fst, ← hupto, List.filter_filter]
    exact List.filter_congr fun p _ => by simp [timedOut, Bool.and_comm]
  have hpend : ((h.packetHistory.takeWhile fun p => p.packetNumber ≤ h.largestAcked).filter
      fun p => !decide (delayUntilLost h.rttStats < now - p.sendTime)) =
      h.packetHistory.filter (awaited h now) := by
    rw [← hupto, List.filter_filter]
    exact List.filter_congr fun p _ => by
      by_cases hx : delayUntilLost h.rttStats < now - p.sendTime <;> simp [awaited, hx]
  have hsplit : h.packetHistory = h.packetHistory.filter (timedOut h now) ++
      h.packetHistory.filter (fun p => !timedOut h now p) := by
    rw [hlost.1, hlost.2, List.takeWhile_append_dropWhile]
  unfold detectLostPackets
  dsimp only
  rw [hfst]
  obtain ⟨hist, he, -, -⟩ := queueLostPackets_eq
    { h with lossTime := (lossScan h.largestAcked now (delayUntilLost h.rttStats)
      h.packetHistory 0).2 } (h.packetHistory.filter (timedOut h now)) (List.filter_sublist _)
  refine ⟨queueLostPackets_front _ hsplit, hlost.1 ▸ List.takeWhile_prefix _, by rw [he], ?_⟩
  have hsorted : ((h.packetHistory.filter (awaited h now)).map
      fun p => p.sendTime + delayUntilLost h.rttStats).Pairwise (· ≤ ·) :=
    List.Pairwise.map _ (fun _ _ hle => Int.add_le_add_right hle _)
      (htimes.sublist (List.filter_sublist _))
  rw [he, lossScan_snd _ _ _ _ _ fun p hp => ne_of_gt (Int.add_pos_of_pos_of_nonneg (hpos p hp) hd),
    if_pos rfl, hpend, min?_eq_head? hsorted, List.head?_map]

def lossRun : List HandlerEvent :=
  [.sentPacket ⟨1, [.ping], 1000, .forwardSecure, 0⟩ 10,
   .sentPacket ⟨2, [.ping], 1000, .forwardSecure, 0⟩ 20,
   .sentPacket ⟨3, [.ping], 1000, .forwardSecure, 0⟩ 30,
   .receivedAck ⟨⟨3, 3, []⟩, 0, 0⟩ 1 40 40]

def lossHandler : SentPacketHandler :=
  (run sampleCollaborators sampleConfig (new ⟨80, 80⟩) lossRun).1

theorem detectLostPackets_exact_sample :
    Reachable sampleCollaborators sampleConfig lossHandler ∧
      lossHandler.packetHistory.Pairwise (fun p q => p.sendTime ≤ q.sendTime) ∧
      (∀ p ∈ lossHandler.packetHistory, 0 < p.sendTime) ∧
      0 ≤ delayUntilLost lossHandler.rttStats ∧
      delayUntilLost lossHandler.rttStats = 90 ∧
      lossHandler.packetHistory.filter (timedOut lossHandler 105) =
        [⟨1, [.ping], 1000, .forwardSecure, 10⟩] ∧
      lossHandler.packetHistory.filter (awaited lossHandler 105) =
        [⟨2, [.ping], 1000, .forwardSecure, 20⟩] ∧
      (lossHandler.detectLostPackets 105).1.packetHistory =
        lossHandler.packetHistory.filter (fun p => !timedOut lossHandler 105 p) ∧
      lossHandler.packetHistory.filter (timedOut lossHandler 105) <+: lossHandler.packetHistory ∧
      (lossHandler.detectLostPackets 105).1.retransmissionQueue =
        lossHandler.retransmissionQueue ++
          lossHandler.packetHistory.filter (timedOut lossHandler 105) ∧
      (lossHandler.detectLostPackets 105).1.lossTime =
        (((lossHandler.packetHistory.filter (awaited lossHandler 105)).map
          fun p => p.sendTime + delayUntilLost lossHandler.rttStats).min?).getD 0 :=
  have hpos : ∀ p ∈ lossHandler.packetHistory, 0 < p.sendTime := by decide
  have hsorted : lossHandler.packetHistory.Pairwise (fun p q => p.sendTime ≤ q.sendTime) :=
    run_sendTimes_sorted sampleCollaborators sampleConfig _ lossRun List.Pairwise.nil (by decide)
      fun _ hp => absurd hp (List.not_mem_nil _)
  ⟨⟨_, _, rfl⟩, hsorted, hpos, by decide, by decide, by decide, by decide,
    detectLostPackets_exact ⟨_, _, rfl⟩ 105 hsorted hpos (by decide)⟩

/-- A `ReceivedClosePath` that returns `nil` on a numbered history, for a well-formed frame,
leaves no packet the frame acknowledges, and none numbered up to the handler's own
`LargestAcked`. -/
theorem Numbered.receivedClosePath_history_unacked {h : SentPacketHandler} (hn : Numbered h)
    {f : ClosePathFrame} (hf : f.WellFormed) (w : PacketNumber) (hok : (h.receivedClosePath f w).result = none) :
    ∀ p ∈ (h.receivedClosePath f w).handler.packetHistory,
      f.acksPacket p.packetNumber = false ∧ h.largestAcked < p.packetNumber := by
  have hnd : h.packetHistory.Nodup :=
    hn.sorted.imp fun hlt he => by subst he; exact BitVec.lt_irrefl _ hlt
  unfold SentPacketHandler.receivedClosePath at hok ⊢
  dsimp only at hok ⊢
  split_ifs at hok ⊢
  rw [determineNewlyAckedPacketsClosePath,
    determineNewlyAcked_eq_filter { h with largestReceivedPacketWithAck := w } hf _ hn.sorted] at hok ⊢
  dsimp only at hok ⊢
  set acked := h.packetHistory.filter fun p => f.acksPacket p.packetNumber
  obtain ⟨hist, _, _, ha, hperm, hhist⟩ :=
    ({ h with largestReceivedPacketWithAck := w } : SentPacketHandler).ackPackets_eq acked
      (List.filter_sublist _)
  have hdisj := List.disjoint_of_nodup_append (hperm.nodup_iff.2 hnd)
  have hsorted : hist.Pairwise fun p q => p.packetNumber < q.packetNumber := hn.sorted.sublist hhist
  -- the sweep takes the packets up to `LargestAcked`, a prefix of what is left
  have hsweep := (filter_eq_takeWhile (fun p : Packet => decide (p.packetNumber ≤ h.largestAcked))
    (hsorted.imp fun hlt hle => by simp only [decide_eq_true_eq] at hle ⊢; bv_omega)).2
  intro p hp
  simp only [setInflightAsLost, garbageCollectSkippedPackets, ha] at hp
  rw [queueLostPackets_front _ (List.takeWhile_append_dropWhile _ hist).symm, ← hsweep,
    List.mem_filter] at hp
  refine ⟨?_, by simpa using hp.2⟩
  by_contra hc
  exact hdisj hp.1 (List.mem_filter.2 ⟨hhist.subset hp.1, by simpa using hc⟩)

def closePathWithGap : ClosePathFrame := ⟨⟨3, 1, [⟨3, 3⟩, ⟨1, 1⟩]⟩, 0⟩

def closePathRun : List HandlerEvent :=
  [.sentPacket ⟨1, [.ping], 1200, .forwardSecure, 0⟩ 10,
   .sentPacket ⟨2, [.ping], 1200, .forwardSecure, 0⟩ 20,
   .sentPacket ⟨3, [.ping], 1200, .forwardSecure, 0⟩ 30,
   .receivedClosePath closePathWithGap 1]

def threeSent : SentPacketHandler :=
  (run sampleCollaborators sampleConfig (new ⟨0, 0⟩) (closePathRun.take 3)).1

theorem receivedClosePath_history_unacked_sample :
    Numbered threeSent ∧ closePathWithGap.WellFormed ∧
      (threeSent.receivedClosePath closePathWithGap 1).result = none ∧
      (threeSent.receivedClosePath closePathWithGap 1).handler.packetHistory.map
        Packet.packetNumber = [2] ∧
      ∀ p ∈ (threeSent.receivedClosePath closePathWithGap 1).handler.packetHistory,
        closePathWithGap.acksPacket p.packetNumber = false ∧ threeSent.largestAcked < p.packetNumber :=
  have hn : Numbered threeSent := Reachable.numbered ⟨_, _, rfl⟩
  have hf : closePathWithGap.WellFormed := ⟨by decide, by decide, by decide, by decide⟩
  have hok : (threeSent.receivedClosePath closePathWithGap 1).result = none := by decide
  ⟨hn, hf, hok, by decide, hn.receivedClosePath_history_unacked hf 1 hok⟩

/-- `ReceivedClosePath` returns `nil` and acknowledges packets 1 and 3, but packet 2, below the
frame's `LargestAcked`, stays in the history: `SetInflightAsLost` sweeps up to the handler's
`LargestAcked`, still `0`. -/
theorem closePath_strands_unacked :
    closePathWithGap.WellFormed ∧
      ((run sampleCollaborators sampleConfig (new ⟨0, 0⟩) closePathRun).2.map
        Observation.result).getLast? = some (.error none) ∧
      (run sampleCollaborators sampleConfig (new ⟨0, 0⟩) closePathRun).1.packetHistory.map
        Packet.packetNumber = [2] ∧
      (run sampleCollaborators sampleConfig (new ⟨0, 0⟩) closePathRun).1.retransmissionQueue = [] :=
  ⟨⟨by decide, by decide, by decide, by decide⟩, by decide, by decide, by decide⟩

end SentPacketHandler

end PStream
