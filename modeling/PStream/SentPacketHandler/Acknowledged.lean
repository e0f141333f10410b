import PStream.SentPacketHandler.Conservation

/-! Which packets an ACK or CLOSE_PATH frame acknowledges. The walk of
`determineNewlyAckedPackets` and `determineNewlyAckedPacketsClosePath` moves a range index up
from the lowest range while it scans the history. On a history ordered by packet number and a
well-formed frame it never reports a wrong packet, and it returns exactly the history packets
`AcksPacket` holds, in history order. So a `ReceivedAck` that returns `nil` leaves no packet of
the frame in the history, and reports each of them once to `OnPacketAcked`. Along every run the
history is ordered by packet number, above `0` and up to the last sent number (`Numbered`); the
check that ignores stale ACKs relies on the `0`: with packet `0` in the history,
`largestInOrderAcked()` would wrap and every ACK would be ignored. -/

namespace PStream

namespace AckBlock

def coveredBy (rs : List AckRange) (pn : PacketNumber) : Bool :=
  rs.any fun r => decide (r.first ≤ pn ∧ pn ≤ r.last)

theorem acksPacket_eq (f : AckBlock) (pn : PacketNumber) :
    f.acksPacket pn = (decide (f.lowestAcked ≤ pn ∧ pn ≤ f.largestAcked) &&
      (!f.hasMissingRanges || coveredBy f.ackRanges pn)) := rfl

@[simp] theorem coveredBy_append (rs rs' : List AckRange) (pn : PacketNumber) :
    coveredBy (rs ++ rs') pn = (coveredBy rs pn || coveredBy rs' pn) := List.any_append

theorem coveredBy_of_lt {rs : List AckRange} {pn : PacketNumber} (h : ∀ r ∈ rs, r.last < pn) :
    coveredBy rs pn = false := by
  simp only [coveredBy, List.any_eq_false, decide_eq_true_eq, not_and, BitVec.not_le]
  exact fun r hr _ => h r hr

theorem coveredBy_cons_of_le {r : AckRange} {rs : List AckRange} {pn : PacketNumber}
    (hasc : (r :: rs).Pairwise fun a b => a.last < b.first) (hle : pn ≤ r.last) :
    coveredBy (r :: rs) pn = decide (r.first ≤ pn) := by
  have hrs : coveredBy rs pn = false := by
    simp only [coveredBy, List.any_eq_false, decide_eq_true_eq, not_and]
    intro s hs hs'
    have := (List.pairwise_cons.1 hasc).1 s hs
    bv_omega
  simp only [coveredBy] at hrs
  rw [coveredBy, List.any_cons, hrs, Bool.or_false]
  simp [hle]

/-- A well-formed acknowledgement block: the ranges descend without overlap, each from `First`
up to `Last`, the first ending at `LargestAcked` and the last starting at `LowestAcked`. -/
structure WellFormed (f : AckBlock) : Prop where
  descending : f.ackRanges.Pairwise fun a b => b.last < a.first
  first_le_last : ∀ r ∈ f.ackRanges, r.first ≤ r.last
  largest : ∀ r ∈ f.ackRanges.head?, r.last = f.largestAcked
  lowest : ∀ r ∈ f.ackRanges.getLast?, r.first = f.lowestAcked

end AckBlock

namespace SentPacketHandler

open Observation AckBlock

/-- The history is ordered by packet number, above `0` and up to the last sent number. -/
structure Numbered (h : SentPacketHandler) : Prop where
  sorted : h.packetHistory.Pairwise fun p q => p.packetNumber < q.packetNumber
  pos : ∀ p ∈ h.packetHistory, 0 < p.packetNumber
  le_lastSent : ∀ p ∈ h.packetHistory, p.packetNumber ≤ h.lastSentPacketNumber

theorem numbered_new (r : RTTStats) : Numbered (new r) := ⟨.nil, by simp [new], by simp [new]⟩

theorem Moves.history_sublist {h h' : SentPacketHandler} {cs : List CongestionCall}
    (m : Moves h h' cs) : h'.packetHistory.Sublist h.packetHistory := by
  induction m with
  | frame e => rw [e]
  | @ack h ps hs => obtain ⟨_, _, _, e, -, hsub⟩ := h.ackPackets_eq ps hs; rwa [e]
  | @lose h ps hs => obtain ⟨_, e, -, hsub⟩ := h.queueLostPackets_eq ps hs; rwa [e]
  | probe => exact List.erase_sublist _ _
  | raise => exact List.Sublist.refl _
  | emit => exact List.Sublist.refl _
  | trans _ _ ih₁ ih₂ => exact ih₂.trans ih₁

variable {h h' : SentPacketHandler}

theorem Numbered.mono (hn : Numbered h) (hsub : h'.packetHistory.Sublist h.packetHistory)
    (hls : h.lastSentPacketNumber ≤ h'.lastSentPacketNumber) : Numbered h' :=
  ⟨hn.sorted.sublist hsub, fun p hp => hn.pos p (hsub.subset hp),
    fun p hp => BitVec.le_trans (hn.le_lastSent p (hsub.subset hp)) hls⟩

theorem Moves.numbered {cs : List CongestionCall} (m : Moves h h' cs) (hn : Numbered h) :
    Numbered h' :=
  hn.mono m.history_sublist (m.lastSentPacketNumber_eq ▸ BitVec.le_refl _)

variable (c : Collaborators) (cfg : Config)

theorem Numbered.sentPacket (hn : Numbered h) (packet : Packet) (now : Time) :
    Numbered (h.sentPacket c cfg packet now).handler := by
  unfold SentPacketHandler.sentPacket
  dsimp only
  split_ifs with hpn htr hne
  · exact hn
  · exact hn
  · have hlt : h.lastSentPacketNumber < packet.packetNumber := BitVec.not_le.1 hpn
    refine ((Moves.refl _).updateLossDetectionAlarm c).numbered
      ⟨List.pairwise_append.2 ⟨hn.sorted, List.pairwise_singleton _ _, ?_⟩, ?_, ?_⟩
    · simp only [List.mem_singleton]
      rintro p hp _ rfl
      have := hn.le_lastSent p hp
      bv_omega
    · simp only [List.mem_append, List.mem_singleton]
      rintro p (hp | rfl)
      · exact hn.pos p hp
      · bv_omega
    · simp only [List.mem_append, List.mem_singleton]
      rintro p (hp | rfl)
      · have := hn.le_lastSent p hp
        bv_omega
      · exact BitVec.le_refl _
  · exact ((Moves.refl _).updateLossDetectionAlarm c).numbered
      (hn.mono (List.Sublist.refl _) (by have := BitVec.not_le.1 hpn; bv_omega))

theorem Numbered.step (hn : Numbered h) (e : HandlerEvent) : Numbered (step c cfg h e).1 := by
  cases e with
  | sentPacket p now => exact hn.sentPacket c cfg p now
  | receivedAck ack w rcvTime now => exact (receivedAck_moves c h ack w rcvTime now).numbered hn
  | receivedClosePath f w => exact (receivedClosePath_moves h f w).numbered hn
  | onAlarm now failed => exact (onAlarm_moves c h now failed).numbered hn
  | dequeuePacketForRetransmission =>
    show Numbered h.dequeuePacketForRetransmission.handler
    unfold dequeuePacketForRetransmission
    split <;> exact hn.mono (List.Sublist.refl _) (BitVec.le_refl _)
  | getStopWaitingFrame force => exact hn.mono (List.Sublist.refl _) (BitVec.le_refl _)

theorem Numbered.run (hn : Numbered h) (es : List HandlerEvent) : Numbered (run c cfg h es).1 := by
  induction es generalizing h with
  | nil => exact hn
  | cons e es ih => exact ih (hn.step c cfg e)

def Reachable (h : SentPacketHandler) : Prop :=
  ∃ r es, (run c cfg (new r) es).1 = h

variable {c cfg} in
theorem Reachable.numbered (hr : Reachable c cfg h) : Numbered h := by
  obtain ⟨r, es, rfl⟩ := hr
  exact (numbered_new r).run c cfg es

theorem advanceRange_spec (pn : PacketNumber) (cur : AckRange) (rest : List AckRange) :
    ∃ passed, passed ++ (advanceRange pn cur rest).1 :: (advanceRange pn cur rest).2 =
        cur :: rest ∧ (∀ r ∈ passed, r.last < pn) ∧
      (pn ≤ (advanceRange pn cur rest).1.last ∨ (advanceRange pn cur rest).2 = []) := by
  induction rest generalizing cur with
  | nil => exact ⟨[], rfl, by simp, .inr rfl⟩
  | cons next rest ih =>
    rw [advanceRange]
    split_ifs with hlt
    · obtain ⟨passed, he, hp, hr⟩ := ih next
      refine ⟨cur :: passed, by rw [List.cons_append, he], ?_, hr⟩
      simpa [hlt] using hp
    · exact ⟨[], rfl, by simp, .inl (BitVec.not_lt.1 hlt)⟩

/-- What the walk needs of the ranges ahead of it when the frame has missing ranges: they
ascend without overlap, one of them reaches `LargestAcked`, and on the packets left they cover
what the whole frame covers. -/
def RangesAhead (f : AckBlock) (l : List Packet) (cur : AckRange) (rest : List AckRange) : Prop :=
  f.hasMissingRanges = true →
    (cur :: rest).Pairwise (fun a b => a.last < b.first) ∧
    (∃ r ∈ cur :: rest, f.largestAcked ≤ r.last) ∧
    ∀ p ∈ l, coveredBy f.ackRanges p.packetNumber = coveredBy (cur :: rest) p.packetNumber

theorem newlyAcked_eq_filter (f : AckBlock)
    (wrong : PacketNumber → PacketNumber → PacketNumber → HandlerError) (l : List Packet)
    (hl : l.Pairwise fun p q => p.packetNumber < q.packetNumber) (cur : AckRange)
    (rest : List AckRange) (hr : RangesAhead f l cur rest) :
    newlyAcked f wrong l cur rest = .ok (l.filter fun p => f.acksPacket p.packetNumber) := by
  induction l generalizing cur rest with
  | nil => rfl
  | cons p l ih =>
    have hl' := (List.pairwise_cons.1 hl).2
    have hr' : RangesAhead f l cur rest :=
      fun hm => (hr hm).imp_right (And.imp_right fun h q hq => h q (List.mem_cons_of_mem _ hq))
    rw [newlyAcked]
    by_cases hlo : p.packetNumber < f.lowestAcked
    · rw [if_pos hlo, List.filter_cons_of_neg (by simp [acksPacket_eq, BitVec.not_le.2 hlo])]
      exact ih hl' cur rest hr'
    rw [if_neg hlo]
    by_cases hhi : f.largestAcked < p.packetNumber
    · -- every packet left lies above `LargestAcked`
      have hnone : (p :: l).filter (fun q => f.acksPacket q.packetNumber) = [] := by
        refine List.filter_eq_nil_iff.2 fun q hq => ?_
        have hq' : f.largestAcked < q.packetNumber := by
          rcases List.mem_cons.1 hq with rfl | hq
          · exact hhi
          · have := (List.pairwise_cons.1 hl).1 q hq
            bv_omega
        simp [acksPacket_eq, BitVec.not_le.2 hq']
      rw [if_pos hhi, hnone]
    rw [if_neg hhi]
    have hin : f.lowestAcked ≤ p.packetNumber ∧ p.packetNumber ≤ f.largestAcked :=
      ⟨BitVec.not_lt.1 hlo, BitVec.not_lt.1 hhi⟩
    cases hm : f.hasMissingRanges
    · rw [if_neg Bool.false_ne_true, List.filter_cons_of_pos (by simp [acksPacket_eq, hm, hin]),
        ih hl' cur rest hr']
      rfl
    obtain ⟨hasc, ⟨t, ht, htop⟩, hcov⟩ := hr hm
    obtain ⟨passed, he, hpassed, hreach⟩ := advanceRange_spec p.packetNumber cur rest
    generalize advanceRange p.packetNumber cur rest = r at he hreach
    rw [← he] at hasc ht
    have hasc' := (List.pairwise_append.1 hasc).2.1
    have ht' : t ∈ r.1 :: r.2 := by
      rcases List.mem_append.1 ht with ht | ht
      · have := hpassed t ht
        bv_omega
      · exact ht
    have hle : p.packetNumber ≤ r.1.last := by
      rcases hreach with hle | hnil
      · exact hle
      · rw [hnil, List.mem_singleton] at ht'
        subst ht'
        bv_omega
    -- the ranges passed end below every packet left
    have hnext : RangesAhead f l r.1 r.2 := fun _ => ⟨hasc', ⟨t, ht', htop⟩, fun q hq => by
      have := (List.pairwise_cons.1 hl).1 q hq
      rw [hcov q (List.mem_cons_of_mem _ hq), ← he, coveredBy_append,
        coveredBy_of_lt fun s hs => by have := hpassed s hs; bv_omega, Bool.false_or]⟩
    have hcovp : coveredBy f.ackRanges p.packetNumber = decide (r.1.first ≤ p.packetNumber) := by
      rw [hcov p (List.mem_cons_self _ _), ← he, coveredBy_append, coveredBy_of_lt hpassed,
        Bool.false_or, coveredBy_cons_of_le hasc' hle]
    simp only [if_true]
    split_ifs with h₁ h₂
    · exact absurd h₂ (BitVec.not_lt.2 hle)
    · rw [List.filter_cons_of_pos (by simp [acksPacket_eq, hm, hin, hcovp, h₁]), ih hl' _ _ hnext]
      rfl
    · rw [List.filter_cons_of_neg (by simp [acksPacket_eq, hm, hcovp, h₁]), ih hl' _ _ hnext]

theorem determineNewlyAcked_eq_filter (h : SentPacketHandler) {f : AckBlock} (hf : f.WellFormed)
    (wrong : PacketNumber → PacketNumber → PacketNumber → HandlerError)
    (hs : h.packetHistory.Pairwise fun p q => p.packetNumber < q.packetNumber) :
    h.determineNewlyAcked f wrong =
      .ok (h.packetHistory.filter fun p => f.acksPacket p.packetNumber) := by
  refine newlyAcked_eq_filter f wrong _ hs _ _ fun hm => ?_
  obtain ⟨a, as, ha⟩ : ∃ a as, f.ackRanges = a :: as :=
    List.exists_cons_of_ne_nil fun h => by simp [AckBlock.hasMissingRanges, h] at hm
  obtain ⟨r, rs, hrev⟩ : ∃ r rs, f.ackRanges.reverse = r :: rs :=
    List.exists_cons_of_ne_nil (by simp [ha])
  rw [show firstRange f = (r, rs) by simp [firstRange, hrev], ← hrev]
  refine ⟨List.pairwise_reverse.2 hf.descending, ⟨a, by simp [ha], ?_⟩, fun _ _ => ?_⟩
  · rw [hf.largest a (by simp [ha])]
    exact BitVec.le_refl _
  · simp [coveredBy]

theorem Numbered.not_acks_of_le_largestInOrderAcked (hn : Numbered h) {f : AckBlock}
    (hle : f.largestAcked ≤ h.largestInOrderAcked) :
    ∀ p ∈ h.packetHistory, f.acksPacket p.packetNumber = false := by
  unfold largestInOrderAcked at hle
  split at hle
  · rename_i q qs hq
    intro p hp
    have hqp : q.packetNumber ≤ p.packetNumber := by
      have hs := hn.sorted
      rw [hq] at hs hp
      rcases List.mem_cons.1 hp with rfl | hp
      · exact BitVec.le_refl _
      · have := (List.pairwise_cons.1 hs).1 p hp
        bv_omega
    have hq0 := hn.pos q (by simp [hq])
    simp only [acksPacket_eq, Bool.and_eq_false_iff, decide_eq_false_iff_not, not_and]
    exact .inl fun _ hpl => by bv_omega
  · intro p hp
    simp_all

theorem receivedAck_of_ok {ack : AckFrame} {w : PacketNumber} {rcvTime now : Time}
    (hok : (h.receivedAck c ack w rcvTime now).result = none) :
    (ack.largestAcked ≤ h.largestInOrderAcked ∧
      h.receivedAck c ack w rcvTime now = ⟨{ h with largestReceivedPacketWithAck := w }, [], none⟩) ∨
    ∃ (h' : SentPacketHandler) (acked : List Packet) (b : Bool),
      h'.packetHistory = h.packetHistory ∧ h'.skippedPackets = h.skippedPackets ∧
      h'.largestAcked = ack.largestAcked ∧ h.skippedPacketsAcked ack = false ∧
      h'.determineNewlyAckedPackets ack = .ok acked ∧
      h.receivedAck c ack w rcvTime now =
        ⟨{ (((h'.ackPackets acked).1.detectLostPackets now).1.updateLossDetectionAlarm
              c).garbageCollectSkippedPackets with
            stopWaitingManager := ((((h'.ackPackets acked).1.detectLostPackets
              now).1.updateLossDetectionAlarm c).garbageCollectSkippedPackets).stopWaitingManager.receivedAck ack },
          (if b then [.maybeExitSlowStart] else []) ++ (h'.ackPackets acked).2 ++
            ((h'.ackPackets acked).1.detectLostPackets now).2, none⟩ := by
  -- one guard at a time: a guard that fails returns an error, which `hok` rules out
  unfold SentPacketHandler.receivedAck at hok ⊢
  by_cases h₁ : h.lastSentPacketNumber < ack.largestAcked
  · rw [if_pos h₁] at hok; cases hok
  rw [if_neg h₁] at hok ⊢
  by_cases h₂ : w ≤ h.largestReceivedPacketWithAck
  · rw [if_pos h₂] at hok; cases hok
  rw [if_neg h₂] at hok ⊢
  dsimp only at hok ⊢
  by_cases h₃ : ack.largestAcked ≤
      ({ h with largestReceivedPacketWithAck := w } : SentPacketHandler).largestInOrderAcked
  · rw [if_pos h₃]
    exact .inl ⟨h₃, rfl⟩
  rw [if_neg h₃] at hok ⊢
  by_cases h₄ : ({ h with largestReceivedPacketWithAck := w, largestAcked := ack.largestAcked } :
      SentPacketHandler).skippedPacketsAcked ack = true
  · rw [if_pos h₄] at hok; cases hok
  rw [if_neg h₄] at hok ⊢
  obtain ⟨r, hr⟩ := maybeUpdateRTT_eq c
    { h with largestReceivedPacketWithAck := w, largestAcked := ack.largestAcked }
    ack.largestAcked ack.delayTime rcvTime now
  rcases hd : (maybeUpdateRTT c
    { h with largestReceivedPacketWithAck := w, largestAcked := ack.largestAcked }
    ack.largestAcked ack.delayTime rcvTime now).2.determineNewlyAckedPackets ack with _ | acked
  · simp [hd] at hok
  · simp only [hd]
    exact .inr ⟨_, acked, _, by rw [hr], by rw [hr], by rw [hr], Bool.eq_false_iff.2 h₄, hd, rfl⟩

theorem Numbered.receivedAck (hn : Numbered h) {ack : AckFrame} (hf : ack.WellFormed)
    (w : PacketNumber) (rcvTime now : Time)
    (hok : (h.receivedAck c ack w rcvTime now).result = none) :
    (∀ p ∈ (h.receivedAck c ack w rcvTime now).handler.packetHistory,
        ack.acksPacket p.packetNumber = false) ∧
      (h.receivedAck c ack w rcvTime now).calls.filterMap CongestionCall.acked? =
        numbers (h.packetHistory.filter fun p => ack.acksPacket p.packetNumber) := by
  have hnd : h.packetHistory.Nodup :=
    hn.sorted.imp fun hlt he => by subst he; exact BitVec.lt_irrefl _ hlt
  rcases receivedAck_of_ok c hok with ⟨hle, he⟩ | ⟨h', acked, b, e₁, -, -, -, hd, he⟩
  · have hnone := hn.not_acks_of_le_largestInOrderAcked hle
    rw [he]
    refine ⟨hnone, ?_⟩
    rw [List.filter_eq_nil_iff.2 fun p hp => by simp [hnone p hp]]
    rfl
  rw [determineNewlyAckedPackets, determineNewlyAcked_eq_filter h' hf _ (e₁ ▸ hn.sorted), e₁] at hd
  cases hd
  rw [he]
  obtain ⟨hist, _, _, ha, hperm, hhist⟩ := h'.ackPackets_eq
    (h.packetHistory.filter fun p => ack.acksPacket p.packetNumber)
    (by rw [e₁]; exact List.filter_sublist _)
  have hdisj := List.disjoint_of_nodup_append (hperm.nodup_iff.2 (e₁ ▸ hnd))
  refine ⟨fun p hp => ?_, ?_⟩
  · set acked := h.packetHistory.filter fun p => ack.acksPacket p.packetNumber
    obtain ⟨a, ha'⟩ := updateLossDetectionAlarm_eq c ((h'.ackPackets acked).1.detectLostPackets now).1
    have hsub := (detectLostPackets_moves (h'.ackPackets acked).1 now).history_sublist
    simp only [ha', garbageCollectSkippedPackets] at hp
    have hp' : p ∈ hist := by
      have := hsub.subset hp
      rwa [ha] at this
    by_contra hc
    exact hdisj hp' (List.mem_filter.2 ⟨e₁ ▸ hhist.subset hp', by simpa using hc⟩)
  · cases b <;> simp [detectLostPackets, CongestionCall.acked?]

/-- On any history ordered by packet number, `determineNewlyAckedPackets` and
`determineNewlyAckedPacketsClosePath` of a well-formed frame return no error and exactly the
history packets the frame acknowledges, in history order. On any reachable state, a
`ReceivedAck` of a well-formed frame that returns `nil` leaves none of them in the history and
reports each of them to `OnPacketAcked` exactly once. -/
theorem newlyAcked_exact (c : Collaborators) (cfg : Config) :
    (∀ (h : SentPacketHandler) (ack : AckFrame) (f : ClosePathFrame),
      h.packetHistory.Pairwise (fun p q => p.packetNumber < q.packetNumber) →
      (ack.WellFormed → h.determineNewlyAckedPackets ack =
        .ok (h.packetHistory.filter fun p => ack.acksPacket p.packetNumber)) ∧
      (f.WellFormed → h.determineNewlyAckedPacketsClosePath f =
        .ok (h.packetHistory.filter fun p => f.acksPacket p.packetNumber))) ∧
    ∀ (h : SentPacketHandler) (ack : AckFrame) (w : PacketNumber) (rcvTime now : Time),
      Reachable c cfg h → ack.WellFormed → (h.receivedAck c ack w rcvTime now).result = none →
      (∀ p ∈ (h.receivedAck c ack w rcvTime now).handler.packetHistory,
        ack.acksPacket p.packetNumber = false) ∧
      (h.receivedAck c ack w rcvTime now).calls.filterMap CongestionCall.acked? =
        numbers (h.packetHistory.filter fun p => ack.acksPacket p.packetNumber) ∧
      ((h.receivedAck c ack w rcvTime now).calls.filterMap CongestionCall.acked?).Nodup := by
  refine ⟨fun h ack f hs => ⟨fun hf => determineNewlyAcked_eq_filter h hf _ hs,
    fun hf => determineNewlyAcked_eq_filter h hf _ hs⟩, fun h ack w rcvTime now hr hf hok => ?_⟩
  have hn := hr.numbered
  obtain ⟨hnone, hcalls⟩ := hn.receivedAck c hf w rcvTime now hok
  refine ⟨hnone, hcalls, ?_⟩
  rw [hcalls]
  exact ((hn.sorted.filter _).map Packet.packetNumber fun _ _ => id).imp fun hlt he => by
    rw [he] at hlt; exact BitVec.lt_irrefl _ hlt

def sixSends : List HandlerEvent :=
  [.sentPacket ⟨1, [.ping], 1000, .forwardSecure, 0⟩ 10,
    .sentPacket ⟨2, [.ping], 1000, .forwardSecure, 0⟩ 20,
    .sentPacket ⟨3, [.ping], 1000, .forwardSecure, 0⟩ 30,
    .sentPacket ⟨4, [.ping], 1000, .forwardSecure, 0⟩ 40,
    .sentPacket ⟨5, [.ping], 1000, .forwardSecure, 0⟩ 50,
    .sentPacket ⟨6, [.ping], 1000, .forwardSecure, 0⟩ 60]

def gapAck : AckFrame := ⟨⟨6, 1, [⟨5, 6⟩, ⟨1, 2⟩]⟩, 0, 0⟩

theorem newlyAcked_exact_sample :
    gapAck.WellFormed ∧
      ((run sampleCollaborators sampleConfig (new ⟨0, 0⟩) sixSends).1.receivedAck
        sampleCollaborators gapAck 1 70 70).result = none ∧
      ((run sampleCollaborators sampleConfig (new ⟨0, 0⟩) sixSends).1.receivedAck
        sampleCollaborators gapAck 1 70 70).calls.filterMap CongestionCall.acked? = [1, 2, 5, 6] ∧
      ∀ p ∈ ((run sampleCollaborators sampleConfig (new ⟨0, 0⟩) sixSends).1.receivedAck
        sampleCollaborators gapAck 1 70 70).handler.packetHistory,
        gapAck.acksPacket p.packetNumber = false := by
  have hwf : gapAck.WellFormed := ⟨by decide, by decide, by decide, by decide⟩
  have hok : ((run sampleCollaborators sampleConfig (new ⟨0, 0⟩) sixSends).1.receivedAck
      sampleCollaborators gapAck 1 70 70).result = none := by decide
  have h := (newlyAcked_exact _ _).2 _ gapAck 1 70 70 ⟨_, _, rfl⟩ hwf hok
  refine ⟨hwf, hok, ?_, h.1⟩
  rw [h.2.1]
  decide

end SentPacketHandler

end PStream
