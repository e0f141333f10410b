import PStream.SentPacketHandler.Basic
import Mathlib.Data.List.Perm.Basic

/-! Runs of one path's handler: every exported call the sources make on it, applied in any
order from `NewSentPacketHandler`. A run returns the handler after its last call and, per
call, the congestion-controller calls and the Go result. The lemmas below say once what the
loops of the handler can do to its history and queue; the invariant modules only use them. -/

namespace PStream

inductive HandlerEvent
  | sentPacket (packet : Packet) (now : Time)
  | receivedAck (ack : AckFrame) (withPacketNumber : PacketNumber) (rcvTime now : Time)
  | receivedClosePath (f : ClosePathFrame) (withPacketNumber : PacketNumber)
  | onAlarm (now : Time) (potentiallyFailed : Bool)
  | dequeuePacketForRetransmission
  | getStopWaitingFrame (force : Bool)
  deriving DecidableEq, Repr

inductive HandlerResult
  | error (e : Option HandlerError)
  | done
  | packet (p : Option Packet)
  | stopWaitingFrame (f : Option StopWaitingFrame)
  deriving DecidableEq, Repr

/-- What one call shows to the outside: its congestion-controller calls and its result. -/
structure Observation where
  calls : List CongestionCall
  result : HandlerResult
  deriving DecidableEq, Repr

namespace SentPacketHandler

section

variable (c : Collaborators) (cfg : Config)

def step (h : SentPacketHandler) : HandlerEvent → SentPacketHandler × Observation
  | .sentPacket p now =>
    let o := h.sentPacket c cfg p now
    (o.handler, ⟨o.calls, .error o.result⟩)
  | .receivedAck ack w rcvTime now =>
    let o := h.receivedAck c ack w rcvTime now
    (o.handler, ⟨o.calls, .error o.result⟩)
  | .receivedClosePath f w =>
    let o := h.receivedClosePath f w
    (o.handler, ⟨o.calls, .error o.result⟩)
  | .onAlarm now failed =>
    let o := h.onAlarm c now failed
    (o.handler, ⟨o.calls, .done⟩)
  | .dequeuePacketForRetransmission =>
    let o := h.dequeuePacketForRetransmission
    (o.handler, ⟨o.calls, .packet o.result⟩)
  | .getStopWaitingFrame force =>
    let o := h.getStopWaitingFrame force
    (o.handler, ⟨o.calls, .stopWaitingFrame o.result⟩)

def run (h : SentPacketHandler) : List HandlerEvent → SentPacketHandler × List Observation
  | [] => (h, [])
  | e :: es =>
    let s := step c cfg h e
    let r := run s.1 es
    (r.1, s.2 :: r.2)

theorem run_length (h : SentPacketHandler) (es : List HandlerEvent) :
    (run c cfg h es).2.length = es.length := by
  induction es generalizing h with
  | nil => rfl
  | cons e es ih => simp [run, ih]

end

def sampleConfig : Config := ⟨2000, 10, 19, 1350, 14⟩

def sampleRun : List HandlerEvent :=
  [.sentPacket ⟨1, [.ping], 1200, .forwardSecure, 0⟩ 10,
   .sentPacket ⟨2, [.ping], 1000, .forwardSecure, 0⟩ 20,
   .receivedAck ⟨⟨1, 1, []⟩, 0, 0⟩ 1 30 30]

def sampleCollaborators : Collaborators := ⟨fun r _ _ _ => r, fun _ => 0⟩

variable (c : Collaborators) (h : SentPacketHandler)

theorem updateLossDetectionAlarm_eq :
    ∃ a, h.updateLossDetectionAlarm c = { h with alarm := a } := by
  unfold updateLossDetectionAlarm
  split_ifs <;> exact ⟨_, rfl⟩

theorem garbageCollectSkippedPackets_eq :
    ∃ sk, h.garbageCollectSkippedPackets = { h with skippedPackets := sk } := ⟨_, rfl⟩

theorem maybeUpdateRTT_eq (la : PacketNumber) (d : Duration) (rcvTime now : Time) :
    ∃ r, (h.maybeUpdateRTT c la d rcvTime now).2 = { h with rttStats := r } := by
  unfold maybeUpdateRTT
  split
  · exact ⟨_, rfl⟩
  · exact ⟨h.rttStats, rfl⟩

theorem ackPackets_eq (ps : List Packet) (hs : ps.Sublist h.packetHistory) :
    ∃ hist rto tlp, (h.ackPackets ps).1 =
      { h with packetHistory := hist, rtoCount := rto, tlpCount := tlp,
               bytesInFlight := ps.foldl (fun b p => b - p.length) h.bytesInFlight } ∧
      (hist ++ ps).Perm h.packetHistory ∧ hist.Sublist h.packetHistory := by
  induction ps generalizing h with
  | nil => exact ⟨_, _, _, rfl, by simp, List.Sublist.refl _⟩
  | cons p ps ih =>
    have hmem : p ∈ h.packetHistory := hs.subset (List.mem_cons_self _ _)
    have hs' : ps.Sublist (h.onPacketAcked p).packetHistory := by
      simpa using hs.erase p
    obtain ⟨hist, rto, tlp, heq, hperm, hsub⟩ := ih (h.onPacketAcked p) hs'
    refine ⟨hist, rto, tlp, by rw [ackPackets, heq]; rfl, ?_, ?_⟩
    · have hp : (hist ++ ps).Perm (h.packetHistory.erase p) := hperm
      exact (List.perm_middle.trans (hp.cons p)).trans (List.perm_cons_erase hmem).symm
    · exact hsub.trans (List.erase_sublist _ _)

theorem queueLostPackets_eq (ps : List Packet) (hs : ps.Sublist h.packetHistory) :
    ∃ hist, (h.queueLostPackets ps).1 =
      { h with packetHistory := hist,
               bytesInFlight := ps.foldl (fun b p => b - p.length) h.bytesInFlight,
               retransmissionQueue := h.retransmissionQueue ++ ps,
               stopWaitingManager := ps.foldl (fun s p => s.raise p.packetNumber)
                 h.stopWaitingManager } ∧
      (hist ++ ps).Perm h.packetHistory ∧ hist.Sublist h.packetHistory := by
  induction ps generalizing h with
  | nil => exact ⟨h.packetHistory, by simp [queueLostPackets], by simp, List.Sublist.refl _⟩
  | cons p ps ih =>
    have hmem : p ∈ h.packetHistory := hs.subset (List.mem_cons_self _ _)
    have hs' : ps.Sublist (h.queuePacketForRetransmission p).packetHistory := by
      simpa [queuePacketForRetransmission] using hs.erase p
    obtain ⟨hist, heq, hperm, hsub⟩ := ih (h.queuePacketForRetransmission p) hs'
    refine ⟨hist, ?_, ?_, ?_⟩
    · rw [queueLostPackets, heq]
      simp [queuePacketForRetransmission, StopWaitingManager.queuedRetransmissionForPacketNumber]
    · have hp : (hist ++ ps).Perm (h.packetHistory.erase p) := hperm
      exact (List.perm_middle.trans (hp.cons p)).trans (List.perm_cons_erase hmem).symm
    · exact hsub.trans (List.erase_sublist _ _)

theorem map_cons_eq_ok {e : Except HandlerError (List Packet)} {p : Packet} {ps : List Packet}
    (h : (p :: ·) <$> e = .ok ps) : ∃ ps', e = .ok ps' ∧ ps = p :: ps' := by
  cases e <;> simp_all [Functor.map, Except.map]

theorem newlyAcked_sublist (f : AckBlock) (wrong : PacketNumber → PacketNumber → PacketNumber →
    HandlerError) (l : List Packet) (cur : AckRange) (rest : List AckRange) {ps : List Packet}
    (h : newlyAcked f wrong l cur rest = .ok ps) : ps.Sublist l := by
  induction l generalizing cur rest ps with
  | nil => cases h; exact List.nil_sublist _
  | cons p l ih =>
    unfold newlyAcked at h
    dsimp only at h
    split_ifs at h
    all_goals first
      | exact (ih _ _ h).cons p
      | (cases h; exact List.nil_sublist _)
      | (obtain ⟨ps', hps', rfl⟩ := map_cons_eq_ok h; exact (ih _ _ hps').cons₂ p)

theorem determineNewlyAcked_sublist {f : AckBlock} {wrong : PacketNumber → PacketNumber →
    PacketNumber → HandlerError} {ps : List Packet} (hd : h.determineNewlyAcked f wrong = .ok ps) :
    ps.Sublist h.packetHistory :=
  newlyAcked_sublist f wrong _ _ _ hd

theorem lossScan_sublist (la : PacketNumber) (now : Time) (d : Duration) (l : List Packet)
    (lt : Time) : (lossScan la now d l lt).1.Sublist l := by
  induction l generalizing lt with
  | nil => exact List.Sublist.refl _
  | cons p l ih =>
    unfold lossScan
    dsimp only
    split_ifs
    · exact List.nil_sublist _
    · exact (ih lt).cons₂ p
    · exact (ih _).cons p
    · exact (ih lt).cons p

/-- The moves of `ReceivedAck`, `ReceivedClosePath` and `OnAlarm`: acknowledge packets of the
history, declare them lost, probe one with a tail-loss probe, raise the stop-waiting manager to
a sent number, emit a call that moves no packet, or change bookkeeping only. -/
inductive Moves : SentPacketHandler → SentPacketHandler → List CongestionCall → Prop
  | frame {h h' : SentPacketHandler} : h'.packetHistory = h.packetHistory →
      h'.retransmissionQueue = h.retransmissionQueue → h'.bytesInFlight = h.bytesInFlight →
      h'.lastSentPacketNumber = h.lastSentPacketNumber →
      h'.stopWaitingManager = h.stopWaitingManager → Moves h h' []
  | ack {h : SentPacketHandler} {ps : List Packet} : ps.Sublist h.packetHistory →
      Moves h (h.ackPackets ps).1 (h.ackPackets ps).2
  | lose {h : SentPacketHandler} {ps : List Packet} : ps.Sublist h.packetHistory →
      Moves h (h.queueLostPackets ps).1 (h.queueLostPackets ps).2
  | probe {h : SentPacketHandler} {p : Packet} : p ∈ h.packetHistory →
      Moves h (h.queuePacketForRetransmission p) []
  | raise {h : SentPacketHandler} {p : PacketNumber} : p ≤ h.lastSentPacketNumber →
      Moves h { h with stopWaitingManager := h.stopWaitingManager.raise p } []
  | emit {h : SentPacketHandler} {x : CongestionCall} :
      x = .maybeExitSlowStart ∨ x = .onRetransmissionTimeout true → Moves h h [x]
  | trans {h₁ h₂ h₃ : SentPacketHandler} {cs₁ cs₂ : List CongestionCall} :
      Moves h₁ h₂ cs₁ → Moves h₂ h₃ cs₂ → Moves h₁ h₃ (cs₁ ++ cs₂)

namespace Moves

theorem refl (h : SentPacketHandler) : Moves h h [] := .frame rfl rfl rfl rfl rfl

theorem post_frame {h h' : SentPacketHandler} {cs : List CongestionCall} (m : Moves h h' cs)
    (h'' : SentPacketHandler) (e₁ : h''.packetHistory = h'.packetHistory)
    (e₂ : h''.retransmissionQueue = h'.retransmissionQueue)
    (e₃ : h''.bytesInFlight = h'.bytesInFlight)
    (e₄ : h''.lastSentPacketNumber = h'.lastSentPacketNumber)
    (e₅ : h''.stopWaitingManager = h'.stopWaitingManager) : Moves h h'' cs := by
  simpa using m.trans (.frame e₁ e₂ e₃ e₄ e₅)

theorem lastSentPacketNumber_eq {h h' : SentPacketHandler} {cs : List CongestionCall}
    (m : Moves h h' cs) : h'.lastSentPacketNumber = h.lastSentPacketNumber := by
  induction m with
  | frame _ _ _ e => exact e
  | @ack h ps hs => obtain ⟨_, _, _, e, -⟩ := h.ackPackets_eq ps hs; rw [e]
  | @lose h ps hs => obtain ⟨_, e, -⟩ := h.queueLostPackets_eq ps hs; rw [e]
  | probe => rfl
  | raise => rfl
  | emit => rfl
  | trans _ _ ih₁ ih₂ => rw [ih₂, ih₁]

theorem post_raise {h h' : SentPacketHandler} {cs : List CongestionCall} (m : Moves h h' cs)
    {p : PacketNumber} (hp : p ≤ h.lastSentPacketNumber) :
    Moves h { h' with stopWaitingManager := h'.stopWaitingManager.raise p } cs := by
  simpa using m.trans (.raise (m.lastSentPacketNumber_eq ▸ hp))

theorem pre {h h' h'' : SentPacketHandler} {cs : List CongestionCall} (m : Moves h' h'' cs)
    (e₁ : h'.packetHistory = h.packetHistory)
    (e₂ : h'.retransmissionQueue = h.retransmissionQueue)
    (e₃ : h'.bytesInFlight = h.bytesInFlight)
    (e₄ : h'.lastSentPacketNumber = h.lastSentPacketNumber)
    (e₅ : h'.stopWaitingManager = h.stopWaitingManager) : Moves h h'' cs := by
  simpa using (Moves.frame e₁ e₂ e₃ e₄ e₅).trans m

end Moves

theorem Moves.updateLossDetectionAlarm {h h' : SentPacketHandler} {cs : List CongestionCall}
    (m : Moves h h' cs) : Moves h (h'.updateLossDetectionAlarm c) cs := by
  obtain ⟨a, ha⟩ := updateLossDetectionAlarm_eq c h'
  rw [ha]
  exact m.post_frame _ rfl rfl rfl rfl rfl

theorem detectLostPackets_moves (now : Time) :
    Moves h (h.detectLostPackets now).1 (h.detectLostPackets now).2 := by
  have hs := lossScan_sublist h.largestAcked now (delayUntilLost h.rttStats) h.packetHistory 0
  exact (Moves.lose (h := { h with lossTime :=
    (lossScan h.largestAcked now (delayUntilLost h.rttStats) h.packetHistory 0).2 }) hs).pre
      rfl rfl rfl rfl rfl

theorem setInflightAsLost_moves :
    Moves h h.setInflightAsLost.1 h.setInflightAsLost.2 :=
  .lose (List.takeWhile_sublist _)

theorem retransmitTLP_moves : Moves h h.retransmitTLP [] := by
  unfold retransmitTLP
  split
  · exact .probe (List.mem_of_getLast?_eq_some ‹_›)
  · exact .refl h

theorem retransmitOldestPacket_moves :
    Moves h h.retransmitOldestPacket.1 h.retransmitOldestPacket.2 := by
  unfold retransmitOldestPacket
  split
  · exact .lose (by simp [*])
  · exact .refl h

theorem retransmitAllPackets_moves :
    Moves h h.retransmitAllPackets.1 h.retransmitAllPackets.2 :=
  (Moves.lose (List.Sublist.refl _)).trans (.emit (.inr rfl))

theorem retransmitOldestTwoPackets_moves :
    Moves h h.retransmitOldestTwoPackets.1 h.retransmitOldestTwoPackets.2 := by
  have m₁ := h.retransmitOldestPacket_moves
  have m₂ := h.retransmitOldestPacket.1.retransmitOldestPacket_moves
  exact (m₁.trans m₂).trans (.emit (.inr rfl))

theorem Moves.slowStart {h h' : SentPacketHandler} (m : Moves h h' []) (b : Bool) :
    Moves h h' (if b then [CongestionCall.maybeExitSlowStart] else []) := by
  cases b
  · exact m
  · simpa using m.trans (.emit (.inl rfl))

theorem receivedAck_moves (ack : AckFrame) (w : PacketNumber) (rcvTime now : Time) :
    Moves h (h.receivedAck c ack w rcvTime now).handler
      (h.receivedAck c ack w rcvTime now).calls := by
  unfold receivedAck
  by_cases hsent : h.lastSentPacketNumber < ack.largestAcked
  · rw [if_pos hsent]; exact .refl h
  rw [if_neg hsent]
  by_cases hdup : w ≤ h.largestReceivedPacketWithAck
  · rw [if_pos hdup]; exact .refl h
  rw [if_neg hdup]
  dsimp only
  split
  · exact .frame rfl rfl rfl rfl rfl
  split
  · exact .frame rfl rfl rfl rfl rfl
  let h₂ := { h with largestReceivedPacketWithAck := w, largestAcked := ack.largestAcked }
  obtain ⟨r, hr⟩ := maybeUpdateRTT_eq c h₂ ack.largestAcked ack.delayTime rcvTime now
  rw [hr]
  generalize (h₂.maybeUpdateRTT c ack.largestAcked ack.delayTime rcvTime now).1 = b
  have m₀ : Moves h { h₂ with rttStats := r } [] := .frame rfl rfl rfl rfl rfl
  have m₁ := m₀.slowStart b
  split
  · exact m₁
  · rename_i acked hd
    have m₂ := (m₁.trans (.ack (determineNewlyAcked_sublist _ hd))).trans
      (detectLostPackets_moves _ now)
    -- the cut changes only the skipped list
    obtain ⟨sk, hsk⟩ := garbageCollectSkippedPackets_eq
      (((ackPackets { h₂ with rttStats := r } acked).1.detectLostPackets now).1.updateLossDetectionAlarm c)
    rw [hsk]
    exact ((m₂.updateLossDetectionAlarm c).post_frame _ (by rfl) (by rfl) (by rfl) (by rfl)
      (by rfl)).post_raise (p := ack.largestAcked) (by bv_omega)

theorem receivedClosePath_moves (f : ClosePathFrame) (w : PacketNumber) :
    Moves h (h.receivedClosePath f w).handler (h.receivedClosePath f w).calls := by
  unfold receivedClosePath
  dsimp only
  split_ifs
  · exact .refl h
  · exact .refl h
  · exact .frame rfl rfl rfl rfl rfl
  · split
    · exact .frame rfl rfl rfl rfl rfl
    · rename_i acked hd
      have m := (Moves.ack (determineNewlyAcked_sublist _ hd)).trans (setInflightAsLost_moves _)
      exact (m.pre (h := h) rfl rfl rfl rfl rfl).post_frame
        (SentPacketHandler.garbageCollectSkippedPackets _) rfl rfl rfl rfl rfl

theorem onAlarm_moves (now : Time) (failed : Bool) :
    Moves h (h.onAlarm c now failed).handler (h.onAlarm c now failed).calls := by
  unfold onAlarm
  split
  · exact .frame rfl rfl rfl rfl rfl
  · refine Moves.updateLossDetectionAlarm c ?_
    dsimp only
    split_ifs
    · exact h.detectLostPackets_moves now
    · exact h.retransmitTLP_moves.post_frame _ rfl rfl rfl rfl rfl
    · exact h.retransmitAllPackets_moves.post_frame _ rfl rfl rfl rfl rfl
    · exact h.retransmitOldestTwoPackets_moves.post_frame _ rfl rfl rfl rfl rfl

end SentPacketHandler

end PStream
