import PStream.SentPacketHandler.LossDetection

/-! The skipped packet numbers. `SentPacket` appends every number it jumps over, dropping the
oldest beyond `MaxTrackedSkippedPackets`, and `garbageCollectSkippedPackets` cuts the list after
the last number at or below `largestInOrderAcked()`. Along every run the list ascends, stays
within its cap, and holds only numbers below the last sent number that no successful
`SentPacket` reported; so an ACK that acknowledges only sent packets is never rejected as
acknowledging a skipped one, and a non-stale ACK is rejected exactly when it acknowledges a
listed number. The cut finds its index by a scan that relies on the order: on the ascending
list it removes every number at or below `largestInOrderAcked()`. -/

namespace PStream

namespace CongestionCall

def sent? : CongestionCall → Option PacketNumber
  | .onPacketSent _ _ pn _ _ => some pn
  | _ => none

end CongestionCall

namespace Observation

def sentNumbers (os : List Observation) : List PacketNumber :=
  os.flatMap fun o => o.calls.filterMap CongestionCall.sent?

@[simp] theorem sentNumbers_snoc (os : List Observation) (o : Observation) :
    sentNumbers (os ++ [o]) = sentNumbers os ++ o.calls.filterMap CongestionCall.sent? := by
  simp [sentNumbers]

end Observation

open Observation

namespace SentPacketHandler

theorem recordSkipped_spec (m : Nat) (sk : List PacketNumber) (p : PacketNumber) (n : Nat)
    (hs : sk.Pairwise (· < ·)) (hlt : ∀ s ∈ sk, s < p) (hlen : sk.length ≤ m)
    (hn : p.toNat + n < 2 ^ 64) :
    (recordSkipped m sk p n).Pairwise (· < ·) ∧ (recordSkipped m sk p n).length ≤ m ∧
      ∀ s ∈ recordSkipped m sk p n, s ∈ sk ∨ p.toNat ≤ s.toNat ∧ s.toNat < p.toNat + n := by
  induction n generalizing sk p with
  | zero => exact ⟨hs, hlen, fun s hs => .inl hs⟩
  | succ n ih =>
    have hp : (p + 1).toNat = p.toNat + 1 := by bv_omega
    have hs' : (sk ++ [p]).Pairwise (· < ·) :=
      List.pairwise_append.2 ⟨hs, List.pairwise_singleton _ _, by simpa using hlt⟩
    -- the list after one step, with the oldest number dropped beyond the cap
    have hstep : ∀ sk' : List PacketNumber, sk'.Sublist (sk ++ [p]) → sk'.length ≤ m →
        (recordSkipped m sk' (p + 1) n).Pairwise (· < ·) ∧
          (recordSkipped m sk' (p + 1) n).length ≤ m ∧
          ∀ s ∈ recordSkipped m sk' (p + 1) n,
            s ∈ sk ∨ p.toNat ≤ s.toNat ∧ s.toNat < p.toNat + (n + 1) := by
      intro sk' hsub hlen'
      obtain ⟨h₁, h₂, h₃⟩ := ih sk' (p + 1) (hs'.sublist hsub) (fun s hs => by
        rcases List.mem_append.1 (hsub.subset hs) with hs | hs
        · have := hlt s hs; bv_omega
        · rw [List.mem_singleton.1 hs]; bv_omega) hlen' (by omega)
      refine ⟨h₁, h₂, fun s hs => ?_⟩
      rcases h₃ s hs with hs | hs
      · rcases List.mem_append.1 (hsub.subset hs) with hs | hs
        · exact .inl hs
        · rw [List.mem_singleton.1 hs]; exact .inr ⟨le_rfl, by omega⟩
      · exact .inr ⟨by omega, by omega⟩
    rw [recordSkipped]
    split_ifs with hcap
    · exact hstep _ (List.tail_sublist _) (by simp at hcap ⊢; omega)
    · exact hstep _ (List.Sublist.refl _) (by simp at hcap ⊢; omega)

theorem deleteIndex_eq (lioa : PacketNumber) (l : List PacketNumber) (hl : l.Pairwise (· < ·))
    (i d : Nat) :
    deleteIndex lioa l i d =
      if l.takeWhile (· ≤ lioa) = [] then d else i + (l.takeWhile (· ≤ lioa)).length := by
  induction l generalizing i d with
  | nil => simp [deleteIndex]
  | cons p l ih =>
    rw [deleteIndex, ih (List.pairwise_cons.1 hl).2]
    by_cases hp : p ≤ lioa
    · simp only [hp, if_true, List.takeWhile_cons, decide_eq_true_eq, List.length_cons,
        reduceCtorEq, if_false]
      split_ifs with hnil
      · simp [hnil]
      · omega
    · have hnil : l.takeWhile (· ≤ lioa) = [] := by
        cases l with
        | nil => rfl
        | cons q l =>
          have := (List.pairwise_cons.1 hl).1 q (List.mem_cons_self _ _)
          simp only [List.takeWhile_cons, decide_eq_true_eq]
          rw [if_neg (by bv_omega)]
      simp [hp, hnil]

theorem garbageCollectSkippedPackets_filter (h : SentPacketHandler)
    (hs : h.skippedPackets.Pairwise (· < ·)) :
    h.garbageCollectSkippedPackets.skippedPackets =
      h.skippedPackets.filter fun s => h.largestInOrderAcked < s := by
  have hcut := (filter_eq_takeWhile (fun s : PacketNumber => decide (s ≤ h.largestInOrderAcked))
    (hs.imp fun hlt hle => by simp only [decide_eq_true_eq] at hle ⊢; bv_omega))
  have hlen : deleteIndex h.largestInOrderAcked h.skippedPackets 0 0 =
      (h.skippedPackets.takeWhile (· ≤ h.largestInOrderAcked)).length := by
    rw [deleteIndex_eq _ _ hs]
    split_ifs with hnil <;> simp [hnil]
  have hdrop := List.drop_left (h.skippedPackets.takeWhile (· ≤ h.largestInOrderAcked))
    (h.skippedPackets.dropWhile (· ≤ h.largestInOrderAcked))
  rw [List.takeWhile_append_dropWhile] at hdrop
  rw [garbageCollectSkippedPackets, hlen, hdrop, ← hcut.2]
  exact List.filter_congr fun s _ => by simp [← BitVec.not_le]

section Fields

variable (c : Collaborators) (h : SentPacketHandler)

@[simp] theorem ackPackets_skippedPackets (ps : List Packet) :
    (h.ackPackets ps).1.skippedPackets = h.skippedPackets := by
  induction ps generalizing h with
  | nil => rfl
  | cons p ps ih => exact ih _

@[simp] theorem queueLostPackets_skippedPackets (ps : List Packet) :
    (h.queueLostPackets ps).1.skippedPackets = h.skippedPackets := by
  induction ps generalizing h with
  | nil => rfl
  | cons p ps ih => exact ih _

@[simp] theorem updateLossDetectionAlarm_skippedPackets :
    (h.updateLossDetectionAlarm c).skippedPackets = h.skippedPackets := by
  obtain ⟨a, ha⟩ := updateLossDetectionAlarm_eq c h
  rw [ha]

@[simp] theorem updateLossDetectionAlarm_lastSentPacketNumber :
    (h.updateLossDetectionAlarm c).lastSentPacketNumber = h.lastSentPacketNumber := by
  obtain ⟨a, ha⟩ := updateLossDetectionAlarm_eq c h
  rw [ha]

@[simp] theorem maybeUpdateRTT_skippedPackets (la : PacketNumber) (d : Duration)
    (rcvTime now : Time) :
    (h.maybeUpdateRTT c la d rcvTime now).2.skippedPackets = h.skippedPackets := by
  obtain ⟨r, hr⟩ := maybeUpdateRTT_eq c h la d rcvTime now
  rw [hr]

@[simp] theorem retransmitTLP_skippedPackets : h.retransmitTLP.skippedPackets = h.skippedPackets := by
  unfold retransmitTLP
  split <;> rfl

@[simp] theorem retransmitOldestPacket_skippedPackets :
    h.retransmitOldestPacket.1.skippedPackets = h.skippedPackets := by
  unfold retransmitOldestPacket
  split <;> simp [queueRTO]

@[simp] theorem detectLostPackets_skippedPackets (now : Time) :
    (h.detectLostPackets now).1.skippedPackets = h.skippedPackets := by
  simp [detectLostPackets]

theorem onAlarm_skippedPackets (now : Time) (failed : Bool) :
    (h.onAlarm c now failed).handler.skippedPackets = h.skippedPackets := by
  unfold onAlarm
  split
  · rfl
  · dsimp only
    split_ifs <;> simp [retransmitAllPackets, retransmitOldestTwoPackets]

end Fields

theorem receivedAck_skippedPackets_sublist (c : Collaborators) (h : SentPacketHandler)
    (ack : AckFrame) (w : PacketNumber) (rcvTime now : Time) :
    (h.receivedAck c ack w rcvTime now).handler.skippedPackets.Sublist h.skippedPackets := by
  unfold receivedAck
  by_cases h₁ : h.lastSentPacketNumber < ack.largestAcked
  · rw [if_pos h₁]
  rw [if_neg h₁]
  by_cases h₂ : w ≤ h.largestReceivedPacketWithAck
  · rw [if_pos h₂]
  rw [if_neg h₂]
  dsimp only
  split
  · exact List.Sublist.refl _
  split
  · exact List.Sublist.refl _
  split
  · simp
  · simpa [garbageCollectSkippedPackets] using List.drop_sublist _ _

theorem receivedClosePath_skippedPackets_sublist (h : SentPacketHandler) (f : ClosePathFrame)
    (w : PacketNumber) :
    (h.receivedClosePath f w).handler.skippedPackets.Sublist h.skippedPackets := by
  unfold receivedClosePath
  dsimp only
  split_ifs
  all_goals first
    | exact List.Sublist.refl _
    | split
      · exact List.Sublist.refl _
      · simpa [garbageCollectSkippedPackets, setInflightAsLost] using List.drop_sublist _ _

@[simp] theorem ackPackets_sent (h : SentPacketHandler) (ps : List Packet) :
    (h.ackPackets ps).2.filterMap CongestionCall.sent? = [] := by
  induction ps generalizing h with
  | nil => rfl
  | cons p ps ih => simp [ackPackets, CongestionCall.sent?, ih]

@[simp] theorem queueLostPackets_sent (h : SentPacketHandler) (ps : List Packet) :
    (h.queueLostPackets ps).2.filterMap CongestionCall.sent? = [] := by
  induction ps generalizing h with
  | nil => rfl
  | cons p ps ih => simp [queueLostPackets, CongestionCall.sent?, ih]

theorem Moves.sent_none {h h' : SentPacketHandler} {cs : List CongestionCall}
    (m : Moves h h' cs) : cs.filterMap CongestionCall.sent? = [] := by
  induction m with
  | emit hx => rcases hx with rfl | rfl <;> rfl
  | trans _ _ ih₁ ih₂ => rw [List.filterMap_append, ih₁, ih₂, List.nil_append]
  | _ => simp

/-- What a run keeps of the skipped list: it ascends, stays within its cap, and holds only
numbers below the last sent number that no successful `SentPacket` of the run `os` reported;
and every reported number is at most the last sent one. -/
structure SkipInv (cfg : Config) (h : SentPacketHandler) (os : List Observation) : Prop where
  sorted : h.skippedPackets.Pairwise (· < ·)
  length_le : h.skippedPackets.length ≤ cfg.maxTrackedSkippedPackets
  lt_lastSent : ∀ s ∈ h.skippedPackets, s < h.lastSentPacketNumber
  not_sent : ∀ s ∈ h.skippedPackets, s ∉ sentNumbers os
  sent_le : ∀ n ∈ sentNumbers os, n ≤ h.lastSentPacketNumber

theorem skipInv_new (cfg : Config) (r : RTTStats) : SkipInv cfg (new r) [] where
  sorted := List.Pairwise.nil
  length_le := Nat.zero_le _
  lt_lastSent := fun _ hs => absurd hs (List.not_mem_nil _)
  not_sent := fun _ hs => absurd hs (List.not_mem_nil _)
  sent_le := fun _ hn => absurd hn (List.not_mem_nil _)

section

variable {cfg : Config} {h h' : SentPacketHandler} {os : List Observation}

theorem SkipInv.shift (hi : SkipInv cfg h os) (hsub : h'.skippedPackets.Sublist h.skippedPackets)
    (hlast : h'.lastSentPacketNumber = h.lastSentPacketNumber) {o : Observation}
    (hcalls : o.calls.filterMap CongestionCall.sent? = []) : SkipInv cfg h' (os ++ [o]) where
  sorted := hi.sorted.sublist hsub
  length_le := hsub.length_le.trans hi.length_le
  lt_lastSent s hs := hlast ▸ hi.lt_lastSent s (hsub.subset hs)
  not_sent s hs := by
    rw [sentNumbers_snoc, hcalls, List.append_nil]
    exact hi.not_sent s (hsub.subset hs)
  sent_le n hn := by
    rw [sentNumbers_snoc, hcalls, List.append_nil] at hn
    exact hlast ▸ hi.sent_le n hn

theorem SkipInv.moves (hi : SkipInv cfg h os) {cs : List CongestionCall} (m : Moves h h' cs)
    (hsub : h'.skippedPackets.Sublist h.skippedPackets) (r : HandlerResult) :
    SkipInv cfg h' (os ++ [⟨cs, r⟩]) :=
  hi.shift hsub m.lastSentPacketNumber_eq m.sent_none

theorem SkipInv.sent (hi : SkipInv cfg h os) (pn : PacketNumber)
    (hpn : h.lastSentPacketNumber < pn)
    (hsk : h'.skippedPackets = recordSkipped cfg.maxTrackedSkippedPackets h.skippedPackets
      (h.lastSentPacketNumber + 1) (pn.toNat - h.lastSentPacketNumber.toNat - 1))
    (hlast : h'.lastSentPacketNumber = pn) {o : Observation}
    (hcalls : o.calls.filterMap CongestionCall.sent? = [pn]) : SkipInv cfg h' (os ++ [o]) := by
  have hp : (h.lastSentPacketNumber + 1).toNat = h.lastSentPacketNumber.toNat + 1 := by bv_omega
  obtain ⟨hsorted, hlen, hmem⟩ := recordSkipped_spec cfg.maxTrackedSkippedPackets
    h.skippedPackets (h.lastSentPacketNumber + 1) (pn.toNat - h.lastSentPacketNumber.toNat - 1)
    hi.sorted (fun s hs => by have := hi.lt_lastSent s hs; bv_omega) hi.length_le (by bv_omega)
  rw [← hsk] at hsorted hlen hmem
  -- every number of the new list is an old one or lies strictly between the two sends
  have hlt : ∀ s ∈ h'.skippedPackets, s < pn ∧ s ∉ sentNumbers os := fun s hs => by
    rcases hmem s hs with hs | hs
    · have := hi.lt_lastSent s hs
      exact ⟨by bv_omega, hi.not_sent s hs⟩
    · refine ⟨by bv_omega, fun hn => ?_⟩
      have := hi.sent_le s hn
      bv_omega
  refine ⟨hsorted, hlen, fun s hs => hlast ▸ (hlt s hs).1, fun s hs => ?_, fun n hn => ?_⟩
  · rw [sentNumbers_snoc, hcalls, List.mem_append, List.mem_singleton, not_or]
    obtain ⟨hs, hn⟩ := hlt s hs
    exact ⟨hn, fun he => by bv_omega⟩
  · rw [sentNumbers_snoc, hcalls, List.mem_append, List.mem_singleton] at hn
    rw [hlast]
    rcases hn with hn | rfl
    · have := hi.sent_le n hn
      bv_omega
    · bv_omega

end

section

variable (c : Collaborators) (cfg : Config) {h : SentPacketHandler} {os : List Observation}

theorem SkipInv.step (hi : SkipInv cfg h os) (e : HandlerEvent) :
    SkipInv cfg (step c cfg h e).1 (os ++ [(step c cfg h e).2]) := by
  cases e with
  | sentPacket packet now =>
    simp only [SentPacketHandler.step, SentPacketHandler.sentPacket]
    split_ifs with hpn
    · exact hi.shift (List.Sublist.refl _) rfl (by rfl)
    · exact hi.shift (List.Sublist.refl _) rfl (by rfl)
    all_goals exact hi.sent packet.packetNumber (by bv_omega) (by simp) (by simp) (by rfl)
  | receivedAck ack w rcvTime now =>
    exact hi.moves (receivedAck_moves c h ack w rcvTime now)
      (receivedAck_skippedPackets_sublist c h ack w rcvTime now) _
  | receivedClosePath f w =>
    exact hi.moves (receivedClosePath_moves h f w) (receivedClosePath_skippedPackets_sublist h f w) _
  | onAlarm now failed =>
    exact hi.moves (onAlarm_moves c h now failed)
      (onAlarm_skippedPackets c h now failed ▸ List.Sublist.refl _) _
  | dequeuePacketForRetransmission =>
    simp only [SentPacketHandler.step, dequeuePacketForRetransmission]
    split <;> exact hi.shift (by exact List.Sublist.refl _) (by rfl) (by rfl)
  | getStopWaitingFrame force => exact hi.shift (by exact List.Sublist.refl _) (by rfl) (by rfl)

theorem SkipInv.run (hi : SkipInv cfg h os) (es : List HandlerEvent) :
    SkipInv cfg (run c cfg h es).1 (os ++ (run c cfg h es).2) := by
  induction es generalizing h os with
  | nil => simpa [SentPacketHandler.run] using hi
  | cons e es ih => simpa [SentPacketHandler.run] using ih (hi.step c cfg e)

end

theorem newlyAcked_error (f : AckBlock)
    (wrong : PacketNumber → PacketNumber → PacketNumber → HandlerError) (ps : List Packet)
    (cur : AckRange) (rest : List AckRange) (e : HandlerError)
    (he : newlyAcked f wrong ps cur rest = .error e) : ∃ pn first last, e = wrong pn first last := by
  induction ps generalizing cur rest with
  | nil => cases he
  | cons p ps ih =>
    rw [newlyAcked] at he
    dsimp only at he
    split_ifs at he
    all_goals first
      | exact ih _ _ he
      | exact ⟨_, _, _, (Except.error.inj he).symm⟩
      | cases he
      | (revert he
         cases hx : newlyAcked f wrong ps _ _
         · intro he; cases he; exact ih _ _ hx
         · intro he; cases he)

section

variable (c : Collaborators) (h : SentPacketHandler)

theorem receivedAck_rejects_skipped (ack : AckFrame) (w : PacketNumber) (rcvTime now : Time) :
    (h.receivedAck c ack w rcvTime now).result = some .ackForSkippedPacket ↔
      ¬ h.lastSentPacketNumber < ack.largestAcked ∧ ¬ w ≤ h.largestReceivedPacketWithAck ∧
      ¬ ack.largestAcked ≤ h.largestInOrderAcked ∧ h.skippedPacketsAcked ack = true := by
  unfold receivedAck
  by_cases h₁ : h.lastSentPacketNumber < ack.largestAcked
  · rw [if_pos h₁]; exact iff_of_false (by simp) fun h => h.1 h₁
  rw [if_neg h₁]
  by_cases h₂ : w ≤ h.largestReceivedPacketWithAck
  · rw [if_pos h₂]; exact iff_of_false (by simp) fun h => h.2.1 h₂
  rw [if_neg h₂]
  dsimp only
  by_cases h₃ : ack.largestAcked ≤
      ({ h with largestReceivedPacketWithAck := w } : SentPacketHandler).largestInOrderAcked
  · rw [if_pos h₃]; exact iff_of_false (by simp) fun h => h.2.2.1 h₃
  rw [if_neg h₃]
  by_cases h₄ : ({ h with largestReceivedPacketWithAck := w, largestAcked := ack.largestAcked } :
      SentPacketHandler).skippedPacketsAcked ack = true
  · rw [if_pos h₄]; exact iff_of_true rfl ⟨h₁, h₂, h₃, h₄⟩
  rw [if_neg h₄]
  -- past every check the result is `nil` or the error of the scan
  refine iff_of_false ?_ fun h => h₄ h.2.2.2
  split
  · rename_i e he
    obtain ⟨_, _, _, rfl⟩ := newlyAcked_error _ _ _ _ _ _ he
    simp
  · simp

theorem garbageCollectSkippedPackets_gt (hs : h.skippedPackets.Pairwise (· < ·)) :
    ∀ s ∈ h.garbageCollectSkippedPackets.skippedPackets, h.largestInOrderAcked < s := by
  rw [garbageCollectSkippedPackets_filter h hs]
  exact fun s hs => of_decide_eq_true (List.mem_filter.1 hs).2

@[simp] theorem largestInOrderAcked_stopWaitingManager (s : StopWaitingManager) :
    { h with stopWaitingManager := s }.largestInOrderAcked = h.largestInOrderAcked :=
  rfl

theorem receivedAck_skippedPackets_gt (hs : h.skippedPackets.Pairwise (· < ·)) {ack : AckFrame}
    {w : PacketNumber} {rcvTime now : Time}
    (hok : (h.receivedAck c ack w rcvTime now).result = none)
    (hfresh : h.largestInOrderAcked < ack.largestAcked) :
    ∀ s ∈ (h.receivedAck c ack w rcvTime now).handler.skippedPackets,
      (h.receivedAck c ack w rcvTime now).handler.largestInOrderAcked < s := by
  rcases receivedAck_of_ok c hok with ⟨hstale, -⟩ | ⟨h', acked, b, -, hsk, -, -, -, he⟩
  · exact absurd hstale (by bv_omega)
  · rw [he, largestInOrderAcked_stopWaitingManager]
    dsimp only
    exact garbageCollectSkippedPackets_gt _ (by simpa [hsk] using hs)

theorem receivedClosePath_skippedPackets_gt (hs : h.skippedPackets.Pairwise (· < ·))
    {f : ClosePathFrame} {w : PacketNumber} (hok : (h.receivedClosePath f w).result = none) :
    ∀ s ∈ (h.receivedClosePath f w).handler.skippedPackets,
      (h.receivedClosePath f w).handler.largestInOrderAcked < s := by
  unfold receivedClosePath at hok ⊢
  dsimp only at hok ⊢
  split_ifs at hok ⊢
  split at hok
  · cases hok
  · rename_i acked hd
    simp only [hd]
    exact garbageCollectSkippedPackets_gt _ (by simpa [setInflightAsLost] using hs)

end

/-- Along every run from `NewSentPacketHandler` the skipped list keeps `SkipInv`; a
`ReceivedAck` or `ReceivedClosePath` that reaches the cut leaves only numbers above
`largestInOrderAcked()`; an ACK is rejected for a skipped packet exactly when it passes the
unsent and duplicate checks, is not stale, and acknowledges a listed number; and an ACK of sent
numbers only is never so rejected. -/
theorem skippedPackets_invariant (c : Collaborators) (cfg : Config) (r : RTTStats)
    (es : List HandlerEvent) (h : SentPacketHandler) (os : List Observation)
    (hr : run c cfg (new r) es = (h, os)) :
    SkipInv cfg h os ∧
    (∀ ack w rcvTime now, (h.receivedAck c ack w rcvTime now).result = none →
      h.largestInOrderAcked < ack.largestAcked →
      ∀ s ∈ (h.receivedAck c ack w rcvTime now).handler.skippedPackets,
        (h.receivedAck c ack w rcvTime now).handler.largestInOrderAcked < s) ∧
    (∀ f w, (h.receivedClosePath f w).result = none →
      ∀ s ∈ (h.receivedClosePath f w).handler.skippedPackets,
        (h.receivedClosePath f w).handler.largestInOrderAcked < s) ∧
    (∀ ack w rcvTime now,
      (h.receivedAck c ack w rcvTime now).result = some .ackForSkippedPacket ↔
        ¬ h.lastSentPacketNumber < ack.largestAcked ∧ ¬ w ≤ h.largestReceivedPacketWithAck ∧
        ¬ ack.largestAcked ≤ h.largestInOrderAcked ∧
        ∃ s ∈ h.skippedPackets, ack.acksPacket s = true) ∧
    (∀ ack w rcvTime now, (∀ pn, ack.acksPacket pn = true → pn ∈ sentNumbers os) →
      (h.receivedAck c ack w rcvTime now).result ≠ some .ackForSkippedPacket) := by
  have hi : SkipInv cfg h os := by simpa [hr] using (skipInv_new cfg r).run c cfg es
  refine ⟨hi, fun _ _ _ _ hok hfresh => receivedAck_skippedPackets_gt c h hi.sorted hok hfresh,
    fun _ _ hok => receivedClosePath_skippedPackets_gt h hi.sorted hok,
    fun ack w rcvTime now => by
      rw [receivedAck_rejects_skipped, skippedPacketsAcked, List.any_eq_true],
    fun ack w rcvTime now hsent hrej => ?_⟩
  obtain ⟨-, -, -, hcov⟩ := (receivedAck_rejects_skipped c h ack w rcvTime now).1 hrej
  obtain ⟨s, hs, hacks⟩ := List.any_eq_true.1 hcov
  exact hi.not_sent s hs (hsent s hacks)

def skipRun : List HandlerEvent :=
  [.sentPacket ⟨1, [.ping], 1200, .forwardSecure, 0⟩ 10,
   .sentPacket ⟨3, [.ping], 1200, .forwardSecure, 0⟩ 20]

theorem skippedPackets_invariant_sample :
    ((run sampleCollaborators sampleConfig (new ⟨0, 0⟩) skipRun).1.receivedAck
      sampleCollaborators ⟨⟨3, 1, []⟩, 0, 0⟩ 1 30 30).result = some .ackForSkippedPacket ∧
    ∀ s ∈ ((run sampleCollaborators sampleConfig (new ⟨0, 0⟩) skipRun).1.receivedAck
        sampleCollaborators ⟨⟨1, 1, []⟩, 0, 0⟩ 1 30 30).handler.skippedPackets,
      ((run sampleCollaborators sampleConfig (new ⟨0, 0⟩) skipRun).1.receivedAck
        sampleCollaborators ⟨⟨1, 1, []⟩, 0, 0⟩ 1 30 30).handler.largestInOrderAcked < s :=
  have hrun := skippedPackets_invariant sampleCollaborators sampleConfig ⟨0, 0⟩ skipRun _ _ rfl
  ⟨(hrun.2.2.2.1 _ _ _ _).2 ⟨by decide, by decide, by decide, 2, by decide, by decide⟩,
    hrun.2.1 _ _ _ _ (by decide) (by decide)⟩

end SentPacketHandler

end PStream
