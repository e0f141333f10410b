import PStream.SentPacketHandler.Conservation

/-! The stop-waiting manager along runs of the handler. Loss and tail-loss probes raise
`nextLeastUnacked` above each packet they queue, and `ReceivedAck` above the ACK's
`LargestAcked`; both raise to a packet number plus one, which wraps to `0` when that number is
the largest `uint64`. So the facts below hold along runs whose sent packet numbers stay below
`2 ^ 64 - 1`, and fail on the run that sends that number and probes it. A packet ever queued
for retransmission is in the queue or was handed out (`Conservation`). -/

namespace PStream

namespace SentPacketHandler

open Observation

structure Raises (h h' : SentPacketHandler) : Prop where
  wf : h.stopWaitingManager.Wf → h'.stopWaitingManager.Wf
  largest : h'.stopWaitingManager.largestLeastUnackedSent =
    h.stopWaitingManager.largestLeastUnackedSent
  next_mono : h.stopWaitingManager.nextLeastUnacked ≤ h'.stopWaitingManager.nextLeastUnacked
  next_le : h.stopWaitingManager.nextLeastUnacked.toNat ≤ h.lastSentPacketNumber.toNat + 1 →
    h'.stopWaitingManager.nextLeastUnacked.toNat ≤ h'.lastSentPacketNumber.toNat + 1
  queued : ∀ p ∈ h'.retransmissionQueue, p ∈ h.retransmissionQueue ∨
    p.packetNumber < h'.stopWaitingManager.nextLeastUnacked
  lastSent : h'.lastSentPacketNumber = h.lastSentPacketNumber
  history : ∀ p ∈ h'.packetHistory, p ∈ h.packetHistory

namespace Raises

theorem same {h h' : SentPacketHandler} (e₁ : ∀ p ∈ h'.packetHistory, p ∈ h.packetHistory)
    (e₂ : h'.retransmissionQueue = h.retransmissionQueue)
    (e₃ : h'.lastSentPacketNumber = h.lastSentPacketNumber)
    (e₄ : h'.stopWaitingManager = h.stopWaitingManager) : Raises h h' :=
  ⟨fun hw => e₄ ▸ hw, by rw [e₄], by rw [e₄]; exact BitVec.le_refl _, by rw [e₄, e₃]; exact id,
    fun p hp => .inl (e₂ ▸ hp), e₃, e₁⟩

theorem trans {h₁ h₂ h₃ : SentPacketHandler} (r₁ : Raises h₁ h₂) (r₂ : Raises h₂ h₃) :
    Raises h₁ h₃ where
  wf := r₂.wf ∘ r₁.wf
  largest := r₂.largest.trans r₁.largest
  next_mono := BitVec.le_trans r₁.next_mono r₂.next_mono
  next_le := r₂.next_le ∘ r₁.next_le
  queued p hp := (r₂.queued p hp).elim (fun hp₂ => (r₁.queued p hp₂).elim .inl
    fun hlt => .inr (by have := r₂.next_mono; bv_omega)) .inr
  lastSent := r₂.lastSent.trans r₁.lastSent
  history p hp := r₁.history p (r₂.history p hp)

theorem raise_sent {h : SentPacketHandler} (hb : h.lastSentPacketNumber.toNat + 1 < 2 ^ 64)
    {p : PacketNumber} (hp : p ≤ h.lastSentPacketNumber) {h' : SentPacketHandler}
    (e₁ : h'.packetHistory ⊆ h.packetHistory)
    (e₂ : h'.stopWaitingManager = h.stopWaitingManager.raise p)
    (e₃ : h'.lastSentPacketNumber = h.lastSentPacketNumber)
    (e₄ : ∀ q ∈ h'.retransmissionQueue, q ∈ h.retransmissionQueue ∨ q.packetNumber = p) :
    Raises h h' := by
  have hp' : p.toNat + 1 < 2 ^ 64 := by have := BitVec.le_def.1 hp; omega
  have hnext := h.stopWaitingManager.raise_nextLeastUnacked hp'
  refine ⟨fun hw => e₂ ▸ hw.raise hp', by simp [e₂], e₂ ▸ hnext.1, fun hn => ?_,
    fun q hq => (e₄ q hq).imp_right fun hq => by rw [e₂, hq]; exact hnext.2, e₃, e₁⟩
  rw [e₂, e₃]
  rcases h.stopWaitingManager.raise_nextLeastUnacked_cases p with e | e <;> rw [e]
  · exact hn
  · rw [BitVec.toNat_add_of_lt (by simpa using hp')]
    have := BitVec.le_def.1 hp
    simpa using this

theorem queuePacketForRetransmission {h : SentPacketHandler}
    (hb : h.lastSentPacketNumber.toNat + 1 < 2 ^ 64)
    (hh : ∀ q ∈ h.packetHistory, q.packetNumber ≤ h.lastSentPacketNumber)
    {p : Packet} (hp : p ∈ h.packetHistory) :
    Raises h (h.queuePacketForRetransmission p) :=
  raise_sent hb (hh p hp) (fun _ => List.mem_of_mem_erase) rfl rfl
    (fun q hq => (List.mem_append.1 hq).imp_right fun hq => by rw [List.mem_singleton.1 hq])

theorem queueLostPackets {h : SentPacketHandler} {ps : List Packet}
    (hs : ps.Sublist h.packetHistory) (hb : h.lastSentPacketNumber.toNat + 1 < 2 ^ 64)
    (hh : ∀ q ∈ h.packetHistory, q.packetNumber ≤ h.lastSentPacketNumber) :
    Raises h (h.queueLostPackets ps).1 := by
  induction ps generalizing h with
  | nil => exact .same (fun _ => id) rfl rfl rfl
  | cons p ps ih =>
    have r := queuePacketForRetransmission hb hh (hs.subset (List.mem_cons_self _ _))
    refine r.trans (ih ?_ (r.lastSent ▸ hb) fun q hq => r.lastSent ▸ hh q (r.history q hq))
    simpa [SentPacketHandler.queuePacketForRetransmission] using hs.erase p

theorem ackPackets {h : SentPacketHandler} {ps : List Packet}
    (hs : ps.Sublist h.packetHistory) : Raises h (h.ackPackets ps).1 := by
  obtain ⟨hist, _, _, e, -, hsub⟩ := h.ackPackets_eq ps hs
  exact .same (by rw [e]; exact hsub.subset) (by rw [e]) (by rw [e]) (by rw [e])

end Raises

theorem Moves.raises {h h' : SentPacketHandler} {cs : List CongestionCall} (m : Moves h h' cs)
    (hb : h.lastSentPacketNumber.toNat + 1 < 2 ^ 64)
    (hh : ∀ q ∈ h.packetHistory, q.packetNumber ≤ h.lastSentPacketNumber) : Raises h h' := by
  induction m with
  | frame e₁ e₂ _ e₄ e₅ => exact .same (fun p hp => e₁ ▸ hp) e₂ e₄ e₅
  | ack hs => exact .ackPackets hs
  | lose hs => exact .queueLostPackets hs hb hh
  | probe hp => exact .queuePacketForRetransmission hb hh hp
  | raise hp => exact .raise_sent hb hp (fun _ => id) rfl rfl fun q hq => .inl hq
  | emit => exact .same (fun _ => id) rfl rfl rfl
  | trans _ _ ih₁ ih₂ =>
    have r₁ := ih₁ hb hh
    exact r₁.trans (ih₂ (r₁.lastSent ▸ hb) fun q hq => r₁.lastSent ▸ hh q (r₁.history q hq))

def nonForcedLeastUnacked? : HandlerEvent × Observation → Option PacketNumber
  | (.getStopWaitingFrame false, ⟨_, .stopWaitingFrame (some f)⟩) => some f.leastUnacked
  | _ => none

theorem nonForcedLeastUnacked?_getStopWaitingFrame (force : Bool) (cs : List CongestionCall)
    (r : Option StopWaitingFrame) :
    nonForcedLeastUnacked? (.getStopWaitingFrame force, ⟨cs, .stopWaitingFrame r⟩) =
      if force then none else r.map (·.leastUnacked) := by
  cases force <;> cases r <;> rfl

/-- The stop-waiting invariant of a handler reached with the log of calls and observations
`log`. -/
structure StopWaitingInv (h : SentPacketHandler) (log : List (HandlerEvent × Observation)) :
    Prop where
  wf : h.stopWaitingManager.Wf
  next_le : h.stopWaitingManager.nextLeastUnacked.toNat ≤ h.lastSentPacketNumber.toNat + 1
  bound : h.lastSentPacketNumber.toNat + 1 < 2 ^ 64
  history_le : ∀ p ∈ h.packetHistory, p.packetNumber ≤ h.lastSentPacketNumber
  queued_lt : ∀ n ∈ numbers h.retransmissionQueue ++ numbers (dequeuedPackets (log.map Prod.snd)),
    n < h.stopWaitingManager.nextLeastUnacked
  frames_le : ∀ n ∈ log.filterMap nonForcedLeastUnacked?,
    n ≤ h.stopWaitingManager.largestLeastUnackedSent
  frames_sorted : (log.filterMap nonForcedLeastUnacked?).Pairwise (· < ·)

theorem stopWaitingInv_new (r : RTTStats) : StopWaitingInv (new r) [] :=
  ⟨StopWaitingManager.wf_empty, by simp [new, StopWaitingManager.empty], by simp [new],
    by simp [new], by simp [new, dequeuedPackets], by simp, .nil⟩

variable {h h' : SentPacketHandler} {log : List (HandlerEvent × Observation)}

theorem filterMap_snoc_of_none {x : HandlerEvent × Observation}
    (hf : nonForcedLeastUnacked? x = none) :
    (log ++ [x]).filterMap nonForcedLeastUnacked? = log.filterMap nonForcedLeastUnacked? := by
  simp [List.filterMap_append, hf]

theorem StopWaitingInv.shift (hi : StopWaitingInv h log) (r : Raises h h')
    {x : HandlerEvent × Observation} (hd : x.2.result.dequeued? = none)
    (hf : nonForcedLeastUnacked? x = none) : StopWaitingInv h' (log ++ [x]) where
  wf := r.wf hi.wf
  next_le := r.next_le hi.next_le
  bound := r.lastSent ▸ hi.bound
  history_le p hp := r.lastSent ▸ hi.history_le p (r.history p hp)
  queued_lt n hn := by
    have hmono := r.next_mono
    simp only [List.map_append, List.map_singleton, dequeuedPackets_snoc, hd, Option.toList_none,
      List.append_nil, List.mem_append, mem_numbers] at hn
    rcases hn with ⟨p, hp, rfl⟩ | ⟨p, hp, rfl⟩
    · rcases r.queued p hp with hq | hlt
      · have := hi.queued_lt _ (List.mem_append_left _ (mem_numbers.2 ⟨p, hq, rfl⟩)); bv_omega
      · exact hlt
    · have := hi.queued_lt _ (List.mem_append_right _ (mem_numbers.2 ⟨p, hp, rfl⟩)); bv_omega
  frames_le := by rw [filterMap_snoc_of_none hf, r.largest]; exact hi.frames_le
  frames_sorted := by rw [filterMap_snoc_of_none hf]; exact hi.frames_sorted

theorem StopWaitingInv.mono (hi : StopWaitingInv h log) (e₁ : h'.packetHistory = h.packetHistory)
    (e₂ : h'.retransmissionQueue = h.retransmissionQueue)
    (e₃ : h'.lastSentPacketNumber = h.lastSentPacketNumber)
    (e₄ : h'.stopWaitingManager = h.stopWaitingManager) : StopWaitingInv h' log :=
  ⟨e₄ ▸ hi.wf, e₄ ▸ e₃ ▸ hi.next_le, e₃ ▸ hi.bound, e₁ ▸ e₃ ▸ hi.history_le,
    e₂ ▸ e₄ ▸ hi.queued_lt, e₄ ▸ hi.frames_le, hi.frames_sorted⟩

theorem StopWaitingInv.sent (hi : StopWaitingInv h log) {pn : PacketNumber}
    (hlt : h.lastSentPacketNumber < pn) (hpn : pn.toNat + 1 < 2 ^ 64)
    (e₁ : ∀ p ∈ h'.packetHistory, p ∈ h.packetHistory ∨ p.packetNumber = pn)
    (e₂ : h'.retransmissionQueue = h.retransmissionQueue) (e₃ : h'.lastSentPacketNumber = pn)
    (e₄ : h'.stopWaitingManager = h.stopWaitingManager) {x : HandlerEvent × Observation}
    (hd : x.2.result.dequeued? = none) (hf : nonForcedLeastUnacked? x = none) :
    StopWaitingInv h' (log ++ [x]) where
  wf := e₄ ▸ hi.wf
  next_le := by have := hi.next_le; rw [e₄, e₃]; bv_omega
  bound := e₃ ▸ hpn
  history_le p hp := by
    rw [e₃]
    rcases e₁ p hp with hp | rfl
    · have := hi.history_le p hp; bv_omega
    · exact BitVec.le_refl _
  queued_lt := by simpa [e₂, e₄, hd] using hi.queued_lt
  frames_le := by rw [filterMap_snoc_of_none hf, e₄]; exact hi.frames_le
  frames_sorted := by rw [filterMap_snoc_of_none hf]; exact hi.frames_sorted

theorem StopWaitingInv.dequeue (hi : StopWaitingInv h log) {p : Packet} {ps : List Packet}
    (hq : h.retransmissionQueue = p :: ps) :
    StopWaitingInv { h with retransmissionQueue := ps }
      (log ++ [(.dequeuePacketForRetransmission, ⟨[], .packet (some p)⟩)]) := by
  have hf : nonForcedLeastUnacked? (.dequeuePacketForRetransmission, ⟨[], .packet (some p)⟩) =
    none := rfl
  refine ⟨hi.wf, hi.next_le, hi.bound, hi.history_le, fun n hn => hi.queued_lt n ?_,
    by rw [filterMap_snoc_of_none hf]; exact hi.frames_le,
    by rw [filterMap_snoc_of_none hf]; exact hi.frames_sorted⟩
  simp only [List.map_append, List.map_singleton, dequeuedPackets_snoc, HandlerResult.dequeued?,
    Option.toList_some, numbers_append, numbers_cons, numbers_nil, List.mem_append,
    List.mem_singleton] at hn
  rw [hq, numbers_cons, List.mem_append, List.mem_cons]
  tauto

theorem StopWaitingInv.getStopWaitingFrame (hi : StopWaitingInv h log) (force : Bool) :
    StopWaitingInv (h.getStopWaitingFrame force).handler (log ++
      [(.getStopWaitingFrame force, ⟨[], .stopWaitingFrame (h.getStopWaitingFrame force).result⟩)])
    := by
  have hmono := h.stopWaitingManager.getStopWaitingFrame_largest_mono force
  have hold : ∀ n ∈ log.filterMap nonForcedLeastUnacked?,
      n ≤ (h.stopWaitingManager.getStopWaitingFrame force).2.largestLeastUnackedSent :=
    fun n hn => BitVec.le_trans (hi.frames_le n hn) hmono
  refine ⟨hi.wf.getStopWaitingFrame force, by simpa [SentPacketHandler.getStopWaitingFrame]
    using hi.next_le, hi.bound, hi.history_le, by simpa [SentPacketHandler.getStopWaitingFrame,
    HandlerResult.dequeued?] using hi.queued_lt, ?_, ?_⟩ <;>
    simp only [List.filterMap_append, List.filterMap_cons, List.filterMap_nil,
      nonForcedLeastUnacked?_getStopWaitingFrame, SentPacketHandler.getStopWaitingFrame]
  all_goals cases force <;> cases hr : (h.stopWaitingManager.getStopWaitingFrame false).1 <;>
    simp only [hr, Option.map_none', Option.map_some', if_true, if_false, List.append_nil,
      Bool.false_eq_true]
  all_goals first
    | exact hold
    | exact hi.frames_sorted
    | obtain ⟨hlt, e⟩ := hi.wf.getStopWaitingFrame_unforced hr
      first
        | exact fun n hn => (List.mem_append.1 hn).elim (hold n) fun hn => by
            rw [List.mem_singleton.1 hn, e]; exact BitVec.le_refl _
        | exact List.pairwise_append.2 ⟨hi.frames_sorted, List.pairwise_singleton _ _,
            fun n hn m hm => by
            have := hi.frames_le n hn; rw [List.mem_singleton.1 hm]; bv_omega⟩

variable (c : Collaborators) (cfg : Config)

theorem StopWaitingInv.updateLossDetectionAlarm (hi : StopWaitingInv h log) :
    StopWaitingInv (h.updateLossDetectionAlarm c) log := by
  obtain ⟨a, ha⟩ := updateLossDetectionAlarm_eq c h
  exact hi.mono (by rw [ha]) (by rw [ha]) (by rw [ha]) (by rw [ha])

theorem StopWaitingInv.step (hi : StopWaitingInv h log) (e : HandlerEvent)
    (he : ∀ p now, e = .sentPacket p now → p.packetNumber.toNat + 1 < 2 ^ 64) :
    StopWaitingInv (step c cfg h e).1 (log ++ [(e, (step c cfg h e).2)]) := by
  have hmove {h' : SentPacketHandler} {cs : List CongestionCall} (m : Moves h h' cs) :=
    m.raises hi.bound hi.history_le
  cases e with
  | sentPacket p now =>
    simp only [SentPacketHandler.step, SentPacketHandler.sentPacket]
    split_ifs with hpn htr hne
    · exact hi.shift (.same (fun _ => id) rfl rfl rfl) rfl rfl
    · exact hi.shift (.same (fun _ => id) rfl rfl rfl) rfl rfl
    all_goals
      apply StopWaitingInv.updateLossDetectionAlarm
      refine hi.sent (BitVec.not_le.1 hpn) (he p now rfl) ?_ ?_ ?_ ?_ rfl rfl
      · intro q hq
        first
          | exact .inl hq
          | simp only [List.mem_append, List.mem_singleton] at hq
            exact hq.imp_right fun e => by rw [e]
      all_goals rfl
  | receivedAck ack w rcvTime now =>
    exact hi.shift (hmove (receivedAck_moves c h ack w rcvTime now)) rfl rfl
  | receivedClosePath f w => exact hi.shift (hmove (receivedClosePath_moves h f w)) rfl rfl
  | onAlarm now failed => exact hi.shift (hmove (onAlarm_moves c h now failed)) rfl rfl
  | dequeuePacketForRetransmission =>
    show StopWaitingInv h.dequeuePacketForRetransmission.handler (log ++ [(_,
      ⟨h.dequeuePacketForRetransmission.calls, .packet h.dequeuePacketForRetransmission.result⟩)])
    unfold dequeuePacketForRetransmission
    split
    · exact hi.dequeue ‹_›
    · exact hi.shift (.same (fun _ => id) rfl rfl rfl) rfl rfl
  | getStopWaitingFrame force => exact hi.getStopWaitingFrame force

theorem StopWaitingInv.run (hi : StopWaitingInv h log) (es : List HandlerEvent)
    (hes : ∀ p now, .sentPacket p now ∈ es → p.packetNumber.toNat + 1 < 2 ^ 64) :
    StopWaitingInv (run c cfg h es).1 (log ++ es.zip (run c cfg h es).2) := by
  induction es generalizing h log with
  | nil => simpa [SentPacketHandler.run] using hi
  | cons e es ih =>
    have hi' := hi.step c cfg e fun p now he => hes p now (he ▸ List.mem_cons_self _ _)
    simpa [SentPacketHandler.run] using
      ih hi' fun p now hp => hes p now (List.mem_cons_of_mem _ hp)

/-- Along any run from `NewSentPacketHandler` whose sent packet numbers stay below
`2 ^ 64 - 1`: the manager's counters are ordered below the last sent number plus one; every
packet queued for retransmission, whether still queued or handed out, is below
`nextLeastUnacked`; the last frame is present exactly when a least-unacked was sent, and
carries it; unforced frames strictly increase; and a forced call returns a frame above every
queued packet. -/
theorem run_stopWaiting (r : RTTStats) (es : List HandlerEvent)
    (hes : ∀ p now, .sentPacket p now ∈ es → p.packetNumber.toNat + 1 < 2 ^ 64) :
    let o := run c cfg (new r) es
    let s := o.1.stopWaitingManager
    let queued := numbers o.1.retransmissionQueue ++ numbers (dequeuedPackets o.2)
    s.largestLeastUnackedSent ≤ s.nextLeastUnacked ∧
      s.nextLeastUnacked ≤ o.1.lastSentPacketNumber + 1 ∧
      (∀ n ∈ queued, n < s.nextLeastUnacked) ∧
      (s.lastStopWaitingFrame.isSome ↔ 0 < s.largestLeastUnackedSent) ∧
      (∀ f, s.lastStopWaitingFrame = some f → f.leastUnacked = s.largestLeastUnackedSent) ∧
      ((es.zip o.2).filterMap nonForcedLeastUnacked?).Pairwise (· < ·) ∧
      ∀ n ∈ queued, ∃ f, (o.1.getStopWaitingFrame true).result = some f ∧ n < f.leastUnacked := by
  intro o s queued
  have hi : StopWaitingInv o.1 (es.zip o.2) := by
    simpa using (stopWaitingInv_new r).run c cfg es hes
  have hq : ∀ n ∈ queued, n < s.nextLeastUnacked := by
    simpa only [List.map_snd_zip _ _ (run_length c cfg _ es).le] using hi.queued_lt
  refine ⟨hi.wf.largest_le_next, ?_, hq, hi.wf.last_isSome, hi.wf.last_leastUnacked,
    hi.frames_sorted, fun n hn => hi.wf.getStopWaitingFrame_force (hq n hn)⟩
  have := hi.next_le
  have := hi.bound
  show o.1.stopWaitingManager.nextLeastUnacked ≤ o.1.lastSentPacketNumber + 1
  bv_omega

def stopWaitingRun : List HandlerEvent :=
  [.sentPacket ⟨1, [.ping], 1000, .forwardSecure, 0⟩ 10,
    .sentPacket ⟨2, [.ping], 1000, .forwardSecure, 0⟩ 20,
    .sentPacket ⟨3, [.ping], 1000, .forwardSecure, 0⟩ 30,
    .receivedAck ⟨⟨2, 2, []⟩, 0, 0⟩ 1 40 40, .getStopWaitingFrame false, .onAlarm 200 false,
    .getStopWaitingFrame false, .dequeuePacketForRetransmission, .getStopWaitingFrame false,
    .getStopWaitingFrame true]

theorem run_stopWaiting_sample :
    let o := run sampleCollaborators sampleConfig (new ⟨0, 0⟩) stopWaitingRun
    let s := o.1.stopWaitingManager
    let queued := numbers o.1.retransmissionQueue ++ numbers (dequeuedPackets o.2)
    queued = [3, 1] ∧ (stopWaitingRun.zip o.2).filterMap nonForcedLeastUnacked? = [3, 4] ∧
      s.largestLeastUnackedSent ≤ s.nextLeastUnacked ∧
      s.nextLeastUnacked ≤ o.1.lastSentPacketNumber + 1 ∧
      (∀ n ∈ queued, n < s.nextLeastUnacked) ∧
      (s.lastStopWaitingFrame.isSome ↔ 0 < s.largestLeastUnackedSent) ∧
      (∀ f, s.lastStopWaitingFrame = some f → f.leastUnacked = s.largestLeastUnackedSent) ∧
      ((stopWaitingRun.zip o.2).filterMap nonForcedLeastUnacked?).Pairwise (· < ·) ∧
      ∀ n ∈ queued, ∃ f, (o.1.getStopWaitingFrame true).result = some f ∧ n < f.leastUnacked :=
  ⟨by decide, by decide, run_stopWaiting sampleCollaborators sampleConfig ⟨0, 0⟩ stopWaitingRun (by
    intro p now hp
    simp only [stopWaitingRun, List.mem_cons, HandlerEvent.sentPacket.injEq, List.mem_singleton,
      reduceCtorEq, or_false, false_or, List.not_mem_nil] at hp
    rcases hp with ⟨rfl, -⟩ | ⟨rfl, -⟩ | ⟨rfl, -⟩ <;> decide)⟩

def wrapRun : List HandlerEvent :=
  [.sentPacket ⟨BitVec.allOnes 64, [.ping], 100, .forwardSecure, 0⟩ 0, .onAlarm 1 false]

theorem stopWaiting_wraps :
    numbers (run sampleCollaborators sampleConfig (new ⟨0, 0⟩) wrapRun).1.retransmissionQueue =
        [BitVec.allOnes 64] ∧
      (run sampleCollaborators sampleConfig (new ⟨0, 0⟩)
        wrapRun).1.stopWaitingManager.nextLeastUnacked = 0 ∧
      ((run sampleCollaborators sampleConfig (new ⟨0, 0⟩)
        wrapRun).1.getStopWaitingFrame true).result = none := by
  decide

end SentPacketHandler

end PStream
