import PStream.SentPacketHandler.Run
import Mathlib.Algebra.BigOperators.Group.List

/-! `scheduler.getRetransmissionOfPath` (`scheduler.go` lines 93-137). The loop takes packets
off the path's retransmission queue with `DequeuePacketForRetransmission` until the queue is
empty. The frames of a forward-secure packet go back to the stream framer (STREAM frames), to
the packer's control queue, or to a new PATHS frame. A packet below forward-secure encryption
ends the loop and is returned for `PackHandshakeRetransmission`, unless the handshake is
complete: then it is skipped with all its frames ("Don't retransmit handshake packets when the
handshake is complete"). A client's packer puts stream data in `EncryptionSecure` packets, so
such data is dropped when one of those packets is lost and dequeued after the handshake.

The session-wide `getRetransmission` (`scheduler.go` lines 39-91) runs the same loop over all
paths: each pass of its outer loop ranges over `s.paths` and takes the first packet a path
returns. Go ranges a map in a new order every time, so pass `k` lists the paths by a rank of its
own, `rank k`. Each path's queue is still taken from the front, so the calls made with one path's
packets are the calls `getRetransmissionOfPath` makes on it, in its order. -/

namespace PStream

/-- Modelled from the spec: `Packet.GetFramesForRetransmission` (`ackhandler/packet.go`, not in
the sources): the frames other than ACK and STOP_WAITING, as the comment at its call in
`getRetransmissionOfPath` says. -/
def Packet.getFramesForRetransmission (p : Packet) : List Frame :=
  stripNonRetransmittableFrames p.frames

structure RetransmissionEnv where
  handshakeComplete : Bool
  /-- `flowControlManager.GetReceiveWindow`; `none` is its error. -/
  getReceiveWindow : StreamID → Option ByteCount

/-- The calls `getRetransmissionOfPath` makes with the frames of a forward-secure packet. -/
inductive RetransmitAction
  | addFrameForRetransmission (f : StreamFrame)
  | queueControlFrame (f : Frame)
  | schedulePathsFrame
  deriving DecidableEq, Repr

/-- The body of the type switch over one frame. A WINDOW_UPDATE is queued again only if its
offset is at least the stream's current receive window. -/
def retransmitFrame (env : RetransmissionEnv) : Frame → List RetransmitAction
  | .stream f => [.addFrameForRetransmission f]
  | .windowUpdate f =>
    match env.getReceiveWindow f.streamID with
    | some currentOffset =>
      if currentOffset ≤ f.byteOffset then [.queueControlFrame (.windowUpdate f)] else []
    | none => []
  | .paths _ => [.schedulePathsFrame]
  | f => [.queueControlFrame f]

def retransmitFrames (env : RetransmissionEnv) (p : Packet) : List RetransmitAction :=
  p.getFramesForRetransmission.flatMap (retransmitFrame env)

structure RetransmissionResult where
  handler : SentPacketHandler
  actions : List RetransmitAction
  hasRetransmission : Bool
  retransmitPacket : Option Packet

def getRetransmissionOfPathLoop (env : RetransmissionEnv) :
    Nat → SentPacketHandler → List RetransmitAction → Bool → RetransmissionResult
  | 0, h, acts, has => ⟨h, acts, has, none⟩
  | fuel + 1, h, acts, has =>
    let o := h.dequeuePacketForRetransmission
    match o.result with
    | none => ⟨o.handler, acts, has, none⟩
    | some p =>
      if p.encryptionLevel ≠ .forwardSecure then
        if env.handshakeComplete then getRetransmissionOfPathLoop env fuel o.handler acts true
        else ⟨o.handler, acts, true, some p⟩
      else getRetransmissionOfPathLoop env fuel o.handler (acts ++ retransmitFrames env p) true

/-- Every iteration that goes on takes a packet off the queue, so the queue's length plus one
iterations end the loop (`getRetransmissionOfPathLoop_eq`). -/
def getRetransmissionOfPath (env : RetransmissionEnv) (h : SentPacketHandler) :
    RetransmissionResult :=
  getRetransmissionOfPathLoop env (h.retransmissionQueue.length + 1) h [] false

def drainQueue (env : RetransmissionEnv) :
    List Packet → List RetransmitAction × Option Packet × List Packet
  | [] => ([], none, [])
  | p :: ps =>
    if p.encryptionLevel ≠ .forwardSecure then
      if env.handshakeComplete then drainQueue env ps else ([], some p, ps)
    else
      let r := drainQueue env ps
      (retransmitFrames env p ++ r.1, r.2)

section

variable (env : RetransmissionEnv)

theorem getRetransmissionOfPathLoop_eq (fuel : Nat) (h : SentPacketHandler)
    (acts : List RetransmitAction) (has : Bool) (hfuel : h.retransmissionQueue.length < fuel) :
    getRetransmissionOfPathLoop env fuel h acts has =
      ⟨{ h with retransmissionQueue := (drainQueue env h.retransmissionQueue).2.2 },
        acts ++ (drainQueue env h.retransmissionQueue).1,
        has || !h.retransmissionQueue.isEmpty, (drainQueue env h.retransmissionQueue).2.1⟩ := by
  induction fuel generalizing h acts has with
  | zero => exact absurd hfuel (Nat.not_lt_zero _)
  | succ fuel ih =>
    cases hq : h.retransmissionQueue with
    | nil =>
      simp only [getRetransmissionOfPathLoop, SentPacketHandler.dequeuePacketForRetransmission,
        hq, drainQueue, List.append_nil, List.isEmpty_nil, Bool.not_true, Bool.or_false]
      rw [← hq]
    | cons p ps =>
      have hlen : ps.length < fuel := by simpa [hq] using hfuel
      simp only [getRetransmissionOfPathLoop, SentPacketHandler.dequeuePacketForRetransmission,
        hq, drainQueue]
      split_ifs with hfs hc
      · rw [ih _ _ _ hlen]
        simp
      · simp
      · rw [ih _ _ _ hlen]
        simp

theorem drainQueue_spec (q : List Packet) :
    ∃ taken, q = taken ++ (drainQueue env q).2.2 ∧
      (drainQueue env q).1 =
        (taken.filter (·.encryptionLevel = .forwardSecure)).flatMap (retransmitFrames env) ∧
      ∀ p ∈ taken, p.encryptionLevel ≠ .forwardSecure →
        env.handshakeComplete = true ∨ (drainQueue env q).2.1 = some p := by
  induction q with
  | nil => exact ⟨[], rfl, rfl, by simp⟩
  | cons p ps ih =>
    obtain ⟨taken, hq, hacts, hfate⟩ := ih
    by_cases hfs : p.encryptionLevel = .forwardSecure
    · refine ⟨p :: taken, ?_, ?_, ?_⟩
      · simpa [drainQueue, hfs] using hq
      · simp [drainQueue, hfs, hacts]
      · rintro q (_ | ⟨_, hmem⟩) hq'
        · exact absurd hfs hq'
        · simpa [drainQueue, hfs] using hfate q hmem hq'
    · cases hc : env.handshakeComplete
      · refine ⟨[p], ?_, ?_, ?_⟩ <;> simp [drainQueue, hfs, hc]
      · refine ⟨p :: taken, ?_, ?_, ?_⟩
        · simpa [drainQueue, hfs, hc] using hq
        · simp [drainQueue, hfs, hc, hacts]
        · simp [hc]

theorem drainQueue_of_handshakeComplete (hc : env.handshakeComplete = true) (q : List Packet) :
    (drainQueue env q).2.1 = none := by
  induction q with
  | nil => rfl
  | cons p ps ih =>
    by_cases hfs : p.encryptionLevel = .forwardSecure
    · simpa [drainQueue, hfs] using ih
    · simpa [drainQueue, hfs, hc] using ih

theorem eq_of_mem_retransmitFrame {f : Frame} {s : StreamFrame}
    (h : .addFrameForRetransmission s ∈ retransmitFrame env f) : f = .stream s := by
  cases f with
  | stream f => simpa [retransmitFrame, eq_comm] using h
  | windowUpdate f =>
    simp only [retransmitFrame] at h
    split at h
    · split at h <;> simp at h
    · simp at h
  | _ => simp [retransmitFrame] at h

/-- Where the STREAM frames of the packets `getRetransmissionOfPath` dequeues go: the calls it
makes are those of the forward-secure packets, so a STREAM frame of a forward-secure packet
goes back to the stream framer, and every frame handed back comes from such a packet; a packet
below forward-secure encryption is returned for a handshake retransmission while the handshake
is not complete, and once it is, the loop returns no packet and the packet's frames make no
call. -/
theorem getRetransmissionOfPath_stream_frames (h : SentPacketHandler) :
    let r := getRetransmissionOfPath env h
    ∃ dequeued, h.retransmissionQueue = dequeued ++ r.handler.retransmissionQueue ∧
      r.actions =
        (dequeued.filter (·.encryptionLevel = .forwardSecure)).flatMap (retransmitFrames env) ∧
      (∀ s, .addFrameForRetransmission s ∈ r.actions →
        ∃ q ∈ dequeued, q.encryptionLevel = .forwardSecure ∧ Frame.stream s ∈ q.frames) ∧
      ∀ p ∈ dequeued, ∀ s, Frame.stream s ∈ p.frames →
        (p.encryptionLevel = .forwardSecure ∧ .addFrameForRetransmission s ∈ r.actions) ∨
        (p.encryptionLevel ≠ .forwardSecure ∧ env.handshakeComplete = false ∧
          r.retransmitPacket = some p) ∨
        (p.encryptionLevel ≠ .forwardSecure ∧ env.handshakeComplete = true ∧
          r.retransmitPacket = none) := by
  intro r
  have hr : r = _ := getRetransmissionOfPathLoop_eq env _ h [] false (Nat.lt_succ_self _)
  obtain ⟨taken, hq, hacts, hfate⟩ := drainQueue_spec env h.retransmissionQueue
  rw [hr]
  simp only [List.nil_append]
  refine ⟨taken, hq, hacts, fun s hs => ?_, fun p hp s hs => ?_⟩
  · -- a frame handed back comes from a forward-secure packet that carries it
    simp only [hacts, List.mem_flatMap, List.mem_filter, decide_eq_true_eq, retransmitFrames,
      Packet.getFramesForRetransmission, stripNonRetransmittableFrames] at hs
    obtain ⟨q, ⟨hq, hfs⟩, f, ⟨hf, -⟩, hmem⟩ := hs
    exact ⟨q, hq, hfs, eq_of_mem_retransmitFrame env hmem ▸ hf⟩
  by_cases hfs : p.encryptionLevel = .forwardSecure
  · refine .inl ⟨hfs, ?_⟩
    simp only [hacts, List.mem_flatMap, List.mem_filter, decide_eq_true_eq]
    refine ⟨p, ⟨hp, hfs⟩, ?_⟩
    simp only [retransmitFrames, Packet.getFramesForRetransmission, stripNonRetransmittableFrames,
      List.mem_flatMap, List.mem_filter]
    exact ⟨.stream s, ⟨hs, rfl⟩, List.mem_singleton_self _⟩
  · cases hc : env.handshakeComplete
    · rcases hfate p hp hfs with hc' | hret
      · exact absurd (hc.symm.trans hc') Bool.false_ne_true
      · exact .inr (.inl ⟨hfs, rfl, hret⟩)
    · exact .inr (.inr ⟨hfs, rfl, drainQueue_of_handshakeComplete env hc _⟩)

end

def secureStreamRun : List HandlerEvent :=
  [.sentPacket ⟨1, [.stream ⟨3, false, 0, true, [7]⟩], 100, .secure, 0⟩ 0, .onAlarm 1 false]

def secureStreamHandler : SentPacketHandler :=
  (SentPacketHandler.run SentPacketHandler.sampleCollaborators SentPacketHandler.sampleConfig
    (.new ⟨0, 0⟩) secureStreamRun).1

def handshakeCompleteEnv : RetransmissionEnv := ⟨true, fun _ => none⟩

theorem secure_stream_frame_discarded :
    secureStreamHandler.retransmissionQueue =
        [⟨1, [.stream ⟨3, false, 0, true, [7]⟩], 100, .secure, 0⟩] ∧
      (getRetransmissionOfPath handshakeCompleteEnv secureStreamHandler).actions = [] ∧
      (getRetransmissionOfPath handshakeCompleteEnv secureStreamHandler).retransmitPacket = none ∧
      (getRetransmissionOfPath handshakeCompleteEnv
        secureStreamHandler).handler.retransmissionQueue = [] := by
  decide

structure SessionRetransmission where
  paths : List (PathID × SentPacketHandler)
  actions : List (PathID × RetransmitAction)
  hasRetransmission : Bool
  retransmitPacket : Option Packet
  pth : Option PathID

def dequeueFirst : List (PathID × SentPacketHandler) →
    Option (PathID × Packet) × List (PathID × SentPacketHandler)
  | [] => (none, [])
  | (pathID, h) :: paths =>
    let o := h.dequeuePacketForRetransmission
    match o.result with
    | some p => (some (pathID, p), (pathID, o.handler) :: paths)
    | none =>
      let r := dequeueFirst paths
      (r.1, (pathID, o.handler) :: r.2)

/-- The outer `for` loop, on `fuel` iterations from pass `k`; pass `k` ranges over the paths as
`rank k` lists them. -/
def getRetransmissionLoop (env : RetransmissionEnv) (rank : Nat → PathID → Nat) :
    Nat → Nat → List (PathID × SentPacketHandler) → List (PathID × RetransmitAction) → Bool →
      Option PathID → SessionRetransmission
  | 0, _, paths, acts, has, pth => ⟨paths, acts, has, none, pth⟩
  | fuel + 1, k, paths, acts, has, pth =>
    match dequeueFirst (rangeBy (rank k) paths) with
    | (none, paths) => ⟨paths, acts, has, none, pth⟩
    | (some (pathID, p), paths) =>
      if p.encryptionLevel ≠ .forwardSecure then
        if env.handshakeComplete then
          getRetransmissionLoop env rank fuel (k + 1) paths acts true (some pathID)
        else ⟨paths, acts, true, some p, some pathID⟩
      else
        getRetransmissionLoop env rank fuel (k + 1) paths
          (acts ++ (retransmitFrames env p).map (Prod.mk pathID)) true (some pathID)

def queuedPackets (paths : List (PathID × SentPacketHandler)) : Nat :=
  (paths.map fun e => e.2.retransmissionQueue.length).sum

/-- Every iteration that goes on takes a packet off a queue, so one iteration more than the
queued packets ends the loop. -/
def getRetransmission (env : RetransmissionEnv) (rank : Nat → PathID → Nat)
    (paths : List (PathID × SentPacketHandler)) : SessionRetransmission :=
  getRetransmissionLoop env rank (queuedPackets paths + 1) 0 paths [] false none

def callsOf (pid : PathID) (acts : List (PathID × RetransmitAction)) : List RetransmitAction :=
  (acts.filter fun a => a.1 = pid).map Prod.snd

section

variable (env : RetransmissionEnv)

theorem getRetransmissionOfPath_eq (h : SentPacketHandler) :
    getRetransmissionOfPath env h =
      ⟨{ h with retransmissionQueue := (drainQueue env h.retransmissionQueue).2.2 },
        (drainQueue env h.retransmissionQueue).1, !h.retransmissionQueue.isEmpty,
        (drainQueue env h.retransmissionQueue).2.1⟩ := by
  rw [getRetransmissionOfPath, getRetransmissionOfPathLoop_eq env _ h [] false (Nat.lt_succ_self _),
    List.nil_append, Bool.false_or]

theorem drainQueue_append_of_forwardSecure {taken : List Packet}
    (hfs : ∀ q ∈ taken, q.encryptionLevel = .forwardSecure) (rest : List Packet) :
    drainQueue env (taken ++ rest) =
      ((taken.filter (·.encryptionLevel = .forwardSecure)).flatMap (retransmitFrames env) ++
        (drainQueue env rest).1, (drainQueue env rest).2) := by
  induction taken with
  | nil => rfl
  | cons q taken ih =>
    have hq := hfs q (List.mem_cons_self _ _)
    simp [drainQueue, hq, ih fun x hx => hfs x (List.mem_cons_of_mem _ hx)]

theorem drainQueue_of_drained {q : List Packet}
    (hq : env.handshakeComplete = true ∨ ∀ p ∈ q, p.encryptionLevel = .forwardSecure) :
    drainQueue env q = ((q.filter (·.encryptionLevel = .forwardSecure)).flatMap
      (retransmitFrames env), none, []) := by
  rcases hq with hc | hfs
  · induction q with
    | nil => rfl
    | cons p ps ih => by_cases hp : p.encryptionLevel = .forwardSecure <;> simp [drainQueue, hp, hc, ih]
  · simpa [drainQueue] using drainQueue_append_of_forwardSecure env hfs []

@[simp] theorem callsOf_nil (pid : PathID) : callsOf pid [] = [] := rfl

theorem callsOf_append (pid : PathID) (a b : List (PathID × RetransmitAction)) :
    callsOf pid (a ++ b) = callsOf pid a ++ callsOf pid b := by
  simp [callsOf, List.filter_append]

theorem callsOf_map_mk (pid pid' : PathID) (xs : List RetransmitAction) :
    callsOf pid (xs.map (Prod.mk pid')) = if pid' = pid then xs else [] := by
  split <;> simp [callsOf, List.filter_map, Function.comp_def, *]

theorem queuedPackets_perm {l l' : List (PathID × SentPacketHandler)} (hp : l.Perm l') :
    queuedPackets l = queuedPackets l' :=
  (hp.map _).sum_eq

theorem queuedPackets_cons (e : PathID × SentPacketHandler)
    (paths : List (PathID × SentPacketHandler)) :
    queuedPackets (e :: paths) = e.2.retransmissionQueue.length + queuedPackets paths := rfl

theorem dequeueFirst_cons_nil {pathID : PathID} {h : SentPacketHandler}
    (paths : List (PathID × SentPacketHandler)) (hq : h.retransmissionQueue = []) :
    dequeueFirst ((pathID, h) :: paths) =
      ((dequeueFirst paths).1, (pathID, h) :: (dequeueFirst paths).2) := by
  simp [dequeueFirst, SentPacketHandler.dequeuePacketForRetransmission, hq]

theorem dequeueFirst_cons_cons {pathID : PathID} {h : SentPacketHandler} {p : Packet}
    {ps : List Packet} (paths : List (PathID × SentPacketHandler))
    (hq : h.retransmissionQueue = p :: ps) :
    dequeueFirst ((pathID, h) :: paths) =
      (some (pathID, p), (pathID, { h with retransmissionQueue := ps }) :: paths) := by
  simp [dequeueFirst, SentPacketHandler.dequeuePacketForRetransmission, hq]

theorem dequeueFirst_of_fst_eq_none {paths : List (PathID × SentPacketHandler)}
    (h : (dequeueFirst paths).1 = none) :
    (dequeueFirst paths).2 = paths ∧ ∀ e ∈ paths, e.2.retransmissionQueue = [] := by
  induction paths with
  | nil => simp [dequeueFirst]
  | cons e paths ih =>
    obtain ⟨pathID, hd⟩ := e
    cases hq : hd.retransmissionQueue with
    | nil =>
      rw [dequeueFirst_cons_nil paths hq] at h ⊢
      obtain ⟨h₁, h₂⟩ := ih h
      exact ⟨by rw [h₁], by simpa [hq] using h₂⟩
    | cons p ps => simp [dequeueFirst_cons_cons paths hq] at h

theorem dequeueFirst_of_fst_eq_some {paths paths' : List (PathID × SentPacketHandler)}
    {pid : PathID} {p : Packet} (hkeys : (paths.map Prod.fst).Nodup)
    (h : dequeueFirst paths = (some (pid, p), paths')) :
    ∃ hd ps, paths.lookup pid = some hd ∧ hd.retransmissionQueue = p :: ps ∧
      paths'.map Prod.fst = paths.map Prod.fst ∧
      ∀ q, paths'.lookup q =
        if q = pid then some { hd with retransmissionQueue := ps } else paths.lookup q := by
  induction paths generalizing paths' with
  | nil => simp [dequeueFirst] at h
  | cons e paths ih =>
    obtain ⟨k, hd⟩ := e
    simp only [List.map_cons, List.nodup_cons] at hkeys
    cases hq : hd.retransmissionQueue with
    | nil =>
      rw [dequeueFirst_cons_nil paths hq, Prod.mk.injEq] at h
      obtain ⟨h₁, rfl⟩ := h
      obtain ⟨hd', ps, hl, hq', hk, hlk⟩ := ih hkeys.2 (Prod.ext h₁ rfl)
      have hne : pid ≠ k := fun he =>
        hkeys.1 (he ▸ List.mem_map_of_mem Prod.fst (mem_of_lookup hl))
      refine ⟨hd', ps, by rw [lookup_cons_pair, if_neg hne, hl], hq', by simp [hk], fun q => ?_⟩
      rw [lookup_cons_pair, lookup_cons_pair, hlk]
      by_cases hqk : q = k <;> simp [hqk, hne.symm]
    | cons r rs =>
      rw [dequeueFirst_cons_cons paths hq, Prod.mk.injEq, Option.some.injEq, Prod.mk.injEq] at h
      obtain ⟨⟨rfl, rfl⟩, rfl⟩ := h
      refine ⟨hd, rs, by rw [lookup_cons_pair, if_pos rfl], hq, rfl, fun q => ?_⟩
      rw [lookup_cons_pair, lookup_cons_pair]
      split <;> rfl

theorem queuedPackets_dequeueFirst {paths paths' : List (PathID × SentPacketHandler)}
    {x : PathID × Packet} (h : dequeueFirst paths = (some x, paths')) :
    queuedPackets paths' + 1 = queuedPackets paths := by
  induction paths generalizing paths' with
  | nil => simp [dequeueFirst] at h
  | cons e paths ih =>
    obtain ⟨pathID, hd⟩ := e
    cases hq : hd.retransmissionQueue with
    | nil =>
      rw [dequeueFirst_cons_nil paths hq, Prod.mk.injEq] at h
      obtain ⟨h₁, rfl⟩ := h
      simpa [queuedPackets_cons, hq] using ih (Prod.ext h₁ rfl)
    | cons p ps =>
      rw [dequeueFirst_cons_cons paths hq, Prod.mk.injEq] at h
      obtain ⟨-, rfl⟩ := h
      simp only [queuedPackets_cons, hq, List.length_cons]
      omega

/-- Where the passes stand on the path `pid` whose handler was `h₀`: the packets taken off its
queue so far, all forward-secure unless the handshake is complete, the handler it holds now,
and the calls made with its packets. -/
def PathProgress (h₀ : SentPacketHandler) (pid : PathID) (paths : List (PathID × SentPacketHandler))
    (acts : List (PathID × RetransmitAction)) : Prop :=
  ∃ taken rest, h₀.retransmissionQueue = taken ++ rest ∧
    paths.lookup pid = some { h₀ with retransmissionQueue := rest } ∧
    callsOf pid acts =
      (taken.filter (·.encryptionLevel = .forwardSecure)).flatMap (retransmitFrames env) ∧
    (env.handshakeComplete = false → ∀ q ∈ taken, q.encryptionLevel = .forwardSecure)

def EndsAsPerPath (r : SessionRetransmission) (pid : PathID) (h₀ : SentPacketHandler) : Prop :=
  (pid, (getRetransmissionOfPath env h₀).handler) ∈ r.paths ∧
    callsOf pid r.actions = (getRetransmissionOfPath env h₀).actions

variable {env}

theorem PathProgress.dequeue {paths paths' : List (PathID × SentPacketHandler)}
    {acts : List (PathID × RetransmitAction)} {pid pid' : PathID} {p : Packet}
    {h₀ : SentPacketHandler} (hkeys : (paths.map Prod.fst).Nodup)
    (h : dequeueFirst paths = (some (pid', p), paths'))
    (hgo : env.handshakeComplete = false → p.encryptionLevel = .forwardSecure)
    (hp : PathProgress env h₀ pid paths acts) :
    PathProgress env h₀ pid paths' (acts ++ (if p.encryptionLevel = .forwardSecure then
      (retransmitFrames env p).map (Prod.mk pid') else [])) := by
  obtain ⟨taken, rest, hq, hl, hcalls, hfs⟩ := hp
  obtain ⟨hd, ps, hl', hq', -, hlk⟩ := dequeueFirst_of_fst_eq_some hkeys h
  by_cases hpid : pid = pid'
  · subst hpid
    rw [hl] at hl'
    cases hl'
    simp only at hq'
    subst hq'
    refine ⟨taken ++ [p], ps, by rw [hq, List.append_assoc, List.singleton_append],
      by rw [hlk, if_pos rfl], ?_, fun hc q hq => ?_⟩
    · rw [callsOf_append, hcalls, List.filter_append, List.flatMap_append]
      by_cases hp : p.encryptionLevel = .forwardSecure <;> simp [callsOf_map_mk, hp]
    · rcases List.mem_append.1 hq with hq | hq
      · exact hfs hc q hq
      · rw [List.mem_singleton.1 hq]; exact hgo hc
  · refine ⟨taken, rest, hq, by rw [hlk, if_neg hpid, hl], ?_, hfs⟩
    rw [callsOf_append, hcalls]
    split <;> simp [callsOf_map_mk, Ne.symm hpid]

theorem getRetransmissionLoop_per_path (rank : Nat → PathID → Nat)
    {paths₀ : List (PathID × SentPacketHandler)} :
    ∀ (fuel k : Nat) (paths : List (PathID × SentPacketHandler))
      (acts : List (PathID × RetransmitAction)) (has : Bool) (pth : Option PathID),
      (paths.map Prod.fst).Perm (paths₀.map Prod.fst) → (paths₀.map Prod.fst).Nodup →
      (∀ pid h₀, (pid, h₀) ∈ paths₀ → PathProgress env h₀ pid paths acts) →
      queuedPackets paths < fuel →
      let r := getRetransmissionLoop env rank fuel k paths acts has pth
      (r.retransmitPacket = none →
        ∀ pid h₀, (pid, h₀) ∈ paths₀ → EndsAsPerPath env r pid h₀) ∧
      ∀ p, r.retransmitPacket = some p → ∃ pid h₀, r.pth = some pid ∧ (pid, h₀) ∈ paths₀ ∧
        (getRetransmissionOfPath env h₀).retransmitPacket = some p ∧ EndsAsPerPath env r pid h₀
  | 0, _, _, _, _, _, _, _, _, hfuel => absurd hfuel (Nat.not_lt_zero _)
  | fuel + 1, k, paths, acts, has, pth, hkeys, hnodup, hprog, hfuel => by
    have hperm := rangeBy_perm (rank k) paths
    have hkeys' : ((rangeBy (rank k) paths).map Prod.fst).Perm (paths₀.map Prod.fst) :=
      (hperm.map Prod.fst).trans hkeys
    have hnodup' := hkeys'.nodup_iff.2 hnodup
    have hprog' : ∀ pid h₀, (pid, h₀) ∈ paths₀ →
        PathProgress env h₀ pid (rangeBy (rank k) paths) acts :=
      fun pid h₀ hm => by
        obtain ⟨taken, rest, hq, hl, hc, hfs⟩ := hprog pid h₀ hm
        exact ⟨taken, rest, hq, by rw [lookup_eq_of_perm hperm hnodup', hl], hc, hfs⟩
    rcases hd : dequeueFirst (rangeBy (rank k) paths) with ⟨_ | ⟨pid', p⟩, paths'⟩
    · -- no queue holds a packet: every path has been drained
      obtain ⟨h₁, h₂⟩ := dequeueFirst_of_fst_eq_none (by rw [hd])
      rw [hd] at h₁
      subst h₁
      simp only [getRetransmissionLoop, hd]
      refine ⟨fun _ pid h₀ hm => ?_, fun _ h => nomatch h⟩
      obtain ⟨taken, rest, hq, hl, hc, hfs⟩ := hprog' pid h₀ hm
      have hrest : rest = [] := h₂ _ (mem_of_lookup hl)
      subst hrest
      rw [List.append_nil] at hq
      have hdrain := drainQueue_of_drained env (q := h₀.retransmissionQueue) (by
        cases hc' : env.handshakeComplete
        · exact .inr (hq ▸ hfs hc')
        · exact .inl rfl)
      rw [EndsAsPerPath, getRetransmissionOfPath_eq, hdrain]
      exact ⟨mem_of_lookup hl, hc.trans (by rw [hq])⟩
    · have hqp : queuedPackets paths' < fuel := by
        have := queuedPackets_dequeueFirst hd
        rw [queuedPackets_perm hperm] at this
        omega
      obtain ⟨hd₀, ps, hl₀, hq₀, hk, hlk⟩ := dequeueFirst_of_fst_eq_some hnodup' hd
      have hkeys'' : (paths'.map Prod.fst).Perm (paths₀.map Prod.fst) := hk ▸ hkeys'
      have hnext := fun pid h₀ hm (hgo : env.handshakeComplete = false →
          p.encryptionLevel = .forwardSecure) =>
        (hprog' pid h₀ hm).dequeue hnodup' hd hgo
      by_cases hfs : p.encryptionLevel = .forwardSecure
      · -- a forward-secure packet: its frames make their calls, and the loop goes on
        simp only [getRetransmissionLoop, hd, hfs, ne_eq, not_true_eq_false, if_false]
        exact getRetransmissionLoop_per_path rank fuel (k + 1) paths' _ true _ hkeys'' hnodup
          (fun pid h₀ hm => by simpa [hfs] using hnext pid h₀ hm fun _ => hfs) hqp
      cases hc : env.handshakeComplete
      · -- a handshake packet before the handshake completes is returned
        simp only [getRetransmissionLoop, hd, hfs, hc, ne_eq, not_false_eq_true, if_true,
          Bool.false_eq_true, if_false]
        refine ⟨fun h => (nomatch h), fun p' hp' => ?_⟩
        cases hp'
        obtain ⟨⟨_, h₀⟩, hm, hpid⟩ := List.mem_map.1
          (hkeys'.subset (List.mem_map_of_mem Prod.fst (mem_of_lookup hl₀)))
        simp only at hpid
        subst hpid
        obtain ⟨taken, rest, hq, hl, hcalls, htaken⟩ := hprog' _ h₀ hm
        rw [hl] at hl₀
        cases hl₀
        simp only at hq₀
        subst hq₀
        have hdrain := drainQueue_append_of_forwardSecure env (htaken hc) (p :: ps)
        simp only [drainQueue, hfs, hc, ne_eq, not_false_eq_true, if_true, Bool.false_eq_true,
          if_false, List.append_nil] at hdrain
        refine ⟨_, h₀, rfl, hm, by rw [getRetransmissionOfPath_eq, hq, hdrain], ?_, ?_⟩
        · rw [getRetransmissionOfPath_eq, hq, hdrain]
          exact mem_of_lookup ((hlk _).trans (if_pos rfl))
        · rw [getRetransmissionOfPath_eq, hq, hdrain, hcalls]
      · -- a handshake packet once the handshake is complete is skipped
        simp only [getRetransmissionLoop, hd, hfs, hc, ne_eq, not_false_eq_true, if_true]
        exact getRetransmissionLoop_per_path rank fuel (k + 1) paths' _ true _ hkeys'' hnodup
          (fun pid h₀ hm => by simpa [hfs] using hnext pid h₀ hm (by simp [hc])) hqp

/-- Whatever order each pass of `getRetransmission` ranges the paths in, on a table with one
entry per path ID: when no handshake packet is returned, every path ends as
`getRetransmissionOfPath` leaves it, and the calls made with its packets are the calls that loop
makes, in its order; when one is returned, it is the packet `getRetransmissionOfPath` returns on
the path it came from, and that path ends likewise. -/
theorem getRetransmission_per_path (rank : Nat → PathID → Nat)
    {paths : List (PathID × SentPacketHandler)} (hkeys : (paths.map Prod.fst).Nodup) :
    let r := getRetransmission env rank paths
    (r.retransmitPacket = none → ∀ pid h, (pid, h) ∈ paths →
      (pid, (getRetransmissionOfPath env h).handler) ∈ r.paths ∧
        callsOf pid r.actions = (getRetransmissionOfPath env h).actions) ∧
    ∀ p, r.retransmitPacket = some p → ∃ pid h, r.pth = some pid ∧ (pid, h) ∈ paths ∧
      (getRetransmissionOfPath env h).retransmitPacket = some p ∧
      (pid, (getRetransmissionOfPath env h).handler) ∈ r.paths ∧
        callsOf pid r.actions = (getRetransmissionOfPath env h).actions :=
  getRetransmissionLoop_per_path rank _ 0 paths [] false none (List.Perm.refl _) hkeys
    (fun pid h hm => ⟨[], h.retransmissionQueue, rfl,
      by rw [lookup_of_mem_of_nodup hm hkeys], rfl, fun _ _ h => nomatch h⟩)
    (Nat.lt_succ_self _)

end

def alternateRank (k : Nat) (pid : PathID) : Nat :=
  if k % 2 = 0 then pid.toNat else 255 - pid.toNat

def twoPathQueues : List (PathID × SentPacketHandler) :=
  [(1, { SentPacketHandler.new ⟨0, 0⟩ with retransmissionQueue :=
      [⟨1, [.stream ⟨3, false, 0, true, [7]⟩], 100, .forwardSecure, 0⟩,
        ⟨2, [.stream ⟨5, false, 0, true, [8]⟩], 100, .forwardSecure, 0⟩] }),
    (2, { SentPacketHandler.new ⟨0, 0⟩ with retransmissionQueue :=
      [⟨1, [.stream ⟨7, false, 0, true, [9]⟩], 100, .forwardSecure, 0⟩,
        ⟨2, [.stream ⟨9, false, 0, true, [1]⟩], 100, .forwardSecure, 0⟩,
        ⟨3, [.ping], 100, .secure, 0⟩] })]

def handshakeOpenEnv : RetransmissionEnv := ⟨false, fun _ => none⟩

theorem getRetransmission_per_path_sample :
    (twoPathQueues.map Prod.fst).Nodup ∧
    (getRetransmission handshakeOpenEnv alternateRank twoPathQueues).actions =
      [(1, .addFrameForRetransmission ⟨3, false, 0, true, [7]⟩),
        (2, .addFrameForRetransmission ⟨7, false, 0, true, [9]⟩),
        (1, .addFrameForRetransmission ⟨5, false, 0, true, [8]⟩),
        (2, .addFrameForRetransmission ⟨9, false, 0, true, [1]⟩)] ∧
    let r := getRetransmission handshakeOpenEnv alternateRank twoPathQueues
    (r.retransmitPacket = none → ∀ pid h, (pid, h) ∈ twoPathQueues →
      (pid, (getRetransmissionOfPath handshakeOpenEnv h).handler) ∈ r.paths ∧
        callsOf pid r.actions = (getRetransmissionOfPath handshakeOpenEnv h).actions) ∧
    ∀ p, r.retransmitPacket = some p → ∃ pid h, r.pth = some pid ∧ (pid, h) ∈ twoPathQueues ∧
      (getRetransmissionOfPath handshakeOpenEnv h).retransmitPacket = some p ∧
      (pid, (getRetransmissionOfPath handshakeOpenEnv h).handler) ∈ r.paths ∧
        callsOf pid r.actions = (getRetransmissionOfPath handshakeOpenEnv h).actions :=
  ⟨by decide, by decide, @getRetransmission_per_path handshakeOpenEnv alternateRank _ (by decide)⟩

end PStream
