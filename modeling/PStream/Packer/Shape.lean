import PStream.Packer.Basic
import PStream.SentPacketHandler.Tracked

/-! The shape of the packets the packer builds, for every entry point and every packer queue
the session can reach. A packet has frames and is not a lone STOP_WAITING; it holds at most
one STOP_WAITING, stamped with the packet's number and number length, and at most one ACK; a
STREAM frame without a data length comes only last. The path's generator is popped once, for
the number the header peeked, and not at all when no packet is built.

The queues the session reaches hold only control frames in `controlFrames`. From such a queue
the compose functions, and the PING branch before them, leave such a queue and return a payload
of the shape `PayloadShape`; the checks of `PackPacket` turn that into a packet of the shape
`WellShaped`. A handshake retransmission carries the frames of a packet the sent-packet handler
handed out, which hold no ACK and no STOP_WAITING frame. -/

namespace PStream

def Frame.isControlFrame : Frame → Bool
  | .stream _ | .ack _ | .stopWaiting _ => false
  | _ => true

theorem Frame.isStopWaiting_of_isControlFrame {f : Frame} (h : f.isControlFrame = true) :
    f.isStopWaiting = false := by
  cases f <;> simp_all [Frame.isControlFrame, Frame.isStopWaiting]

theorem Frame.isAck_of_isControlFrame {f : Frame} (h : f.isControlFrame = true) :
    f.isAck = false := by
  cases f <;> simp_all [Frame.isControlFrame, Frame.isAck]

def PacketPacker.ControlOnly (pk : PacketPacker) : Prop :=
  ∀ f ∈ pk.controlFrames, f.isControlFrame = true

/-- The frames of a packet numbered `number`, whose header has the number length
`packetNumberLen`. -/
structure WellShaped (number : PacketNumber) (packetNumberLen : PacketNumberLen)
    (frames : List Frame) : Prop where
  ne_nil : frames ≠ []
  not_lone_stopWaiting : ∀ f, frames ≠ [.stopWaiting f]
  stopWaiting_le_one : frames.countP Frame.isStopWaiting ≤ 1
  ack_le_one : frames.countP Frame.isAck ≤ 1
  stopWaiting_stamped : ∀ f, Frame.stopWaiting f ∈ frames →
    f.packetNumber = number ∧ f.packetNumberLen = packetNumberLen
  dataLenLast : DataLenLast frames

theorem wellShaped_stream (number : PacketNumber) (packetNumberLen : PacketNumberLen)
    (s : StreamFrame) : WellShaped number packetNumberLen [.stream s] :=
  ⟨by simp, by simp, by simp [Frame.isStopWaiting], by simp [Frame.isAck], by simp,
    by simp [DataLenLast]⟩

theorem wellShaped_ack {number : PacketNumber} {packetNumberLen : PacketNumberLen}
    (ack : AckFrame) (sw : Option StopWaitingFrame)
    (hsw : ∀ f, sw = some f → f.packetNumber = number ∧ f.packetNumberLen = packetNumberLen) :
    WellShaped number packetNumberLen (.ack ack :: (sw.map .stopWaiting).toList) := by
  cases sw with
  | none => exact ⟨by simp, by simp, by simp [Frame.isStopWaiting], by simp [Frame.isAck],
      by simp, by simp [DataLenLast]⟩
  | some w => exact ⟨by simp, by simp, by simp [Frame.isStopWaiting], by simp [Frame.isAck],
      by simpa using hsw w rfl, by simp [DataLenLast]⟩

theorem wellShaped_handshake {number : PacketNumber} {packetNumberLen : PacketNumberLen}
    {sw : StopWaitingFrame} {fs : List Frame} (hfs : SentPacketHandler.TrackedFrames fs)
    (hsw : sw.packetNumber = number ∧ sw.packetNumberLen = packetNumberLen) :
    WellShaped number packetNumberLen (.stopWaiting sw :: fs) := by
  have hret : ∀ f ∈ fs, f.isAck = false ∧ f.isStopWaiting = false := fun f hf => by
    simpa using hfs.retransmittable f hf
  have hsw₀ : fs.countP Frame.isStopWaiting = 0 :=
    List.countP_eq_zero.2 fun f hf => by simp [(hret f hf).2]
  have hack₀ : fs.countP Frame.isAck = 0 := List.countP_eq_zero.2 fun f hf => by simp [(hret f hf).1]
  refine ⟨by simp, fun f h => hfs.ne_nil (List.cons.inj h).2, ?_, ?_, ?_,
    DataLenLast.append (a := [_]) (by simp) hfs.dataLenLast⟩
  · simp [List.countP_cons, Frame.isStopWaiting, hsw₀]
  · simp [List.countP_cons, Frame.isAck, hack₀]
  · rintro f (_ | ⟨_, hf⟩)
    · exact hsw
    · simpa [Frame.isStopWaiting] using (hret _ hf).2

/-- The shape of a payload built around the path's stamped STOP_WAITING `sw`. -/
structure PayloadShape (sw : Option StopWaitingFrame) (frames : List Frame) : Prop where
  stopWaiting_mem : ∀ f, Frame.stopWaiting f ∈ frames → sw = some f
  stopWaiting_le_one : frames.countP Frame.isStopWaiting ≤ 1
  ack_le_one : frames.countP Frame.isAck ≤ 1
  dataLenLast : DataLenLast frames

theorem payloadShape_ping (sw : Option StopWaitingFrame) : PayloadShape sw [.ping] :=
  ⟨by simp, by decide, by decide, by simp [DataLenLast]⟩

theorem payloadShape_composed (sw : Option StopWaitingFrame) (ack : Option AckFrame)
    {ctl : List Frame} {strs : List StreamFrame} (hctl : ∀ f ∈ ctl, f.isControlFrame = true)
    (hstrs : ∀ s ∈ strs, s.dataLenPresent = true) :
    PayloadShape sw ((sw.map .stopWaiting).toList ++ (ack.map .ack).toList ++ ctl ++
      (omitLastDataLen strs).map .stream) where
  stopWaiting_mem f hf := by
    have hc : Frame.stopWaiting f ∉ ctl := fun h => by simpa [Frame.isControlFrame] using hctl _ h
    cases sw <;> cases ack <;> simp_all
  stopWaiting_le_one := by
    have hc : ctl.countP Frame.isStopWaiting = 0 := List.countP_eq_zero.2 fun f hf => by
      simp [Frame.isStopWaiting_of_isControlFrame (hctl f hf)]
    cases sw <;> cases ack <;> simp [hc, Function.comp_def, Frame.isStopWaiting]
  ack_le_one := by
    have hc : ctl.countP Frame.isAck = 0 := List.countP_eq_zero.2 fun f hf => by
      simp [Frame.isAck_of_isControlFrame (hctl f hf)]
    cases sw <;> cases ack <;> simp [hc, Function.comp_def, Frame.isAck]
  dataLenLast := by
    refine DataLenLast.append (fun s hs => ?_) fun s hs => ?_
    · have hc : Frame.stream s ∉ ctl := fun h => by simpa [Frame.isControlFrame] using hctl _ h
      cases sw <;> cases ack <;> simp_all
    · rw [← List.map_dropLast, omitLastDataLen_dropLast] at hs
      obtain ⟨t, ht, ⟨⟩⟩ := List.mem_map.1 hs
      exact hstrs _ (List.dropLast_subset _ ht)

theorem PayloadShape.wellShaped {sw : Option StopWaitingFrame} {frames : List Frame}
    {number : PacketNumber} {packetNumberLen : PacketNumberLen} (hs : PayloadShape sw frames)
    (hne : frames ≠ []) (hlone : ¬(frames.length = 1 ∧ sw.isSome = true))
    (hsw : ∀ f, sw = some f → f.packetNumber = number ∧ f.packetNumberLen = packetNumberLen) :
    WellShaped number packetNumberLen frames where
  ne_nil := hne
  not_lone_stopWaiting f hf := hlone
    ⟨by rw [hf]; rfl, by rw [hs.stopWaiting_mem f (by simp [hf])]; rfl⟩
  stopWaiting_le_one := hs.stopWaiting_le_one
  ack_le_one := hs.ack_le_one
  stopWaiting_stamped f hf := hsw f (hs.stopWaiting_mem f hf)
  dataLenLast := hs.dataLenLast

theorem PacketPacker.stampStopWaiting_stamped (pk : PacketPacker) (pathID : PathID)
    (ph : PublicHeader) {f : StopWaitingFrame}
    (h : (pk.stampStopWaiting pathID ph).stopWaiting pathID = some f) :
    f.packetNumber = ph.packetNumber ∧ f.packetNumberLen = ph.packetNumberLen := by
  rw [stampStopWaiting_stopWaiting_self] at h
  obtain ⟨g, -, rfl⟩ := Option.map_eq_some'.1 h
  exact ⟨rfl, rfl⟩

section

variable {σ γ : Type} (env : PackerEnv) (sf : StreamFramer σ) (gen : PacketNumberGenerator γ)

/-- The stream framer hands out STREAM frames with a data-length field. -/
structure StreamFramer.DataLenSet (sf : StreamFramer σ) : Prop where
  popStreamFrames : ∀ fr m, ∀ s ∈ (sf.popStreamFrames fr m).1, s.dataLenPresent = true
  popStreamFramesOfPath : ∀ fr m pathID,
    ∀ s ∈ (sf.popStreamFramesOfPath fr m pathID).1, s.dataLenPresent = true
  popStreamFramesOfOneStream : ∀ fr m streamID,
    ∀ s ∈ (sf.popStreamFramesOfOneStream fr m streamID).1, s.dataLenPresent = true

structure KeepsControl (compose : ByteCount → Bool → PathID → PacketPacker → σ →
    PacketPacker × σ × Except PackerError (List Frame)) : Prop where
  controlOnly : ∀ m can pathID pk fr, pk.ControlOnly → (compose m can pathID pk fr).1.ControlOnly
  stopWaiting : ∀ m can pathID pk fr, (compose m can pathID pk fr).1.stopWaiting = pk.stopWaiting

def ShapesPayload (compose : ByteCount → Bool → PathID → PacketPacker → σ →
    PacketPacker × σ × Except PackerError (List Frame)) : Prop :=
  ∀ m can pathID pk fr frames, pk.ControlOnly → (compose m can pathID pk fr).2.2 = .ok frames →
    PayloadShape (pk.stopWaiting pathID) frames

theorem takeControlFrames_subset (m : ByteCount) (rev : List Frame) (len : ByteCount) :
    (∀ f ∈ (takeControlFrames env m rev len).1, f ∈ rev) ∧
      ∀ f ∈ (takeControlFrames env m rev len).2.1, f ∈ rev := by
  have h := takeControlFrames_append env m rev len
  exact ⟨fun f hf => h ▸ List.mem_append_left _ hf, fun f hf => h ▸ List.mem_append_right _ hf⟩

theorem composeWith_keepsControl (pop : σ → ByteCount → List StreamFrame × σ) :
    KeepsControl (composeWith env sf pop) where
  controlOnly m can pathID pk fr hctl := by
    have hrest : ∀ len, ∀ f ∈ (takeControlFrames env m pk.controlFrames.reverse len).2.1,
        f.isControlFrame = true := fun len f hf =>
      hctl f (List.mem_reverse.1 ((takeControlFrames_subset env m _ len).2 f hf))
    unfold composeWith
    dsimp only
    split_ifs
    · exact fun f hf => hrest _ f (List.mem_reverse.1 hf)
    · exact fun f hf => hrest _ f (List.mem_reverse.1 hf)
    · intro f hf
      rcases List.mem_append.1 hf with hf | hf
      · exact hrest _ f (List.mem_reverse.1 hf)
      · obtain ⟨_, _, rfl⟩ := List.mem_map.1 hf
        rfl
  stopWaiting m can pathID pk fr := by
    unfold composeWith
    dsimp only
    split_ifs <;> rfl

theorem composeWith_shapesPayload (pop : σ → ByteCount → List StreamFrame × σ)
    (hpop : ∀ fr m, ∀ s ∈ (pop fr m).1, s.dataLenPresent = true) :
    ShapesPayload (composeWith env sf pop) := by
  intro m can pathID pk fr frames hctl h
  have htaken : ∀ len, ∀ f ∈ (takeControlFrames env m pk.controlFrames.reverse len).1,
      f.isControlFrame = true := fun len f hf =>
    hctl f (List.mem_reverse.1 ((takeControlFrames_subset env m _ len).1 f hf))
  unfold composeWith at h
  dsimp only at h
  split_ifs at h <;> cases h
  · simpa [omitLastDataLen] using payloadShape_composed (pk.stopWaiting pathID)
      (pk.ackFrame pathID) (htaken _) fun s (hs : s ∈ []) => absurd hs (List.not_mem_nil _)
  · exact payloadShape_composed _ _ (htaken _) (hpop _ _)

variable {compose : ByteCount → Bool → PathID → PacketPacker → σ →
  PacketPacker × σ × Except PackerError (List Frame)}

theorem KeepsControl.pingOrCompose (hk : KeepsControl compose) :
    KeepsControl (pingOrCompose compose) where
  controlOnly m can pathID pk fr hctl := by
    unfold PStream.pingOrCompose
    split
    · rename_i rest heq
      exact fun f hf => hctl f (by rw [heq]; exact List.mem_cons_of_mem _ hf)
    · exact hk.controlOnly m can pathID pk fr hctl
  stopWaiting m can pathID pk fr := by
    unfold PStream.pingOrCompose
    split
    · rfl
    · exact hk.stopWaiting m can pathID pk fr

theorem ShapesPayload.pingOrCompose (hs : ShapesPayload compose) :
    ShapesPayload (pingOrCompose compose) := by
  intro m can pathID pk fr frames hctl h
  unfold PStream.pingOrCompose at h
  split at h
  · cases h
    exact payloadShape_ping _
  · exact hs m can pathID pk fr frames hctl h

/-- What a packing call returning `r`, on a path whose generator is at `g` and whose header is
built with `leastUnacked`, guarantees: a packet has the shape `WellShaped` for its number and
the header's number length, and the generator was popped once, handing out the number peeked
for the header; a call that returns no packet leaves the generator as it was. -/
structure PacksWell (g : γ) (leastUnacked : PacketNumber)
    (r : PackerState σ γ × Except PackerError (Option PackedPacket)) : Prop where
  packet : ∀ p, r.2 = .ok (some p) →
    WellShaped p.number (env.packetNumberLength p.number leastUnacked) p.frames ∧
      p.number = gen.peek g ∧ gen.pop g = (p.number, r.1.path.generator)
  none : r.2 = .ok none → r.1.path.generator = g

theorem packsWell_error (g : γ) (leastUnacked : PacketNumber) (st : PackerState σ γ)
    (e : PackerError) : PacksWell env gen g leastUnacked (st, .error e) :=
  ⟨fun _ h => (by cases h), fun h => (by cases h)⟩

theorem packsWell_none (leastUnacked : PacketNumber) (st : PackerState σ γ) (pk : PacketPacker)
    (fr : σ) : PacksWell env gen st.path.generator leastUnacked ({ st with packer := pk, framer := fr }, .ok none) :=
  ⟨fun _ h => (by cases h), fun _ => rfl⟩

theorem packsWell_sealed {encLevel : EncryptionLevel} {pth : PackerPath γ} {frames : List Frame}
    {st : PackerState σ γ} (hshape : WellShaped (gen.peek pth.generator)
      (env.packetNumberLength (gen.peek pth.generator) pth.leastUnacked) frames)
    (hpath : st.path = (writeAndSealPacket env gen (getPublicHeader env gen encLevel pth) frames
      encLevel pth).1) :
    PacksWell env gen pth.generator pth.leastUnacked (st,
      (writeAndSealPacket env gen (getPublicHeader env gen encLevel pth) frames encLevel pth).2.map
        fun n => some ⟨(getPublicHeader env gen encLevel pth).packetNumber, n, frames, encLevel⟩) := by
  cases hw : (writeAndSealPacket env gen (getPublicHeader env gen encLevel pth) frames encLevel
    pth).2 with
  | error e => exact ⟨fun _ h => (by cases h), fun h => (by cases h)⟩
  | ok n =>
    obtain ⟨hpop, hw'⟩ := writeAndSealPacket_ok env gen hw
    refine ⟨fun p hp => ?_, fun h => (by cases h)⟩
    cases hp
    exact ⟨hshape, rfl, Prod.ext hpop (by rw [hpath, hw'])⟩

theorem packCryptoPacket_spec (st : PackerState σ γ) :
    PacksWell env gen st.path.generator st.path.leastUnacked (packCryptoPacket env sf gen st) ∧
      (packCryptoPacket env sf gen st).1.packer = st.packer := by
  unfold packCryptoPacket
  dsimp only
  split
  · exact ⟨packsWell_error env gen _ _ st _, rfl⟩
  · exact ⟨packsWell_sealed env gen (wellShaped_stream _ _ _) rfl, rfl⟩

theorem packPacketWith_spec (hk : KeepsControl compose) (st : PackerState σ γ)
    (hctl : st.packer.ControlOnly) :
    (packPacketWith env sf gen compose st).1.packer.ControlOnly ∧
      (ShapesPayload compose → PacksWell env gen st.path.generator st.path.leastUnacked
        (packPacketWith env sf gen compose st)) := by
  have hk' := hk.pingOrCompose
  unfold packPacketWith
  split
  · obtain ⟨hw, hp⟩ := packCryptoPacket_spec env sf gen st
    exact ⟨hp ▸ hctl, fun _ => hw⟩
  dsimp only
  split
  · exact ⟨hctl, fun _ => packsWell_error env gen _ _ st _⟩
  have hctl' : (st.packer.stampStopWaiting st.path.pathID
      (getPublicHeader env gen env.sealerLevel st.path)).ControlOnly := hctl
  rename_i hl _
  have hc := hk'.controlOnly (env.config.maxPacketSize -
    BitVec.ofNat 64 (env.overhead env.sealerLevel) - hl) (canSendData env env.sealerLevel)
    st.path.pathID _ st.framer hctl'
  split
  · exact ⟨hc, fun _ => packsWell_error env gen _ _ _ _⟩
  rename_i frames hframes
  split_ifs with hne hlone
  · exact ⟨hc, fun _ => packsWell_none env gen _ st _ _⟩
  · exact ⟨hc, fun _ => packsWell_none env gen _ st _ _⟩
  refine ⟨hc, fun hs => packsWell_sealed env gen ?_ rfl⟩
  rw [hk'.stopWaiting] at hlone
  exact (hs.pingOrCompose _ _ _ _ _ _ hctl' hframes).wellShaped hne hlone
    fun f hf => PacketPacker.stampStopWaiting_stamped _ _ _ hf

theorem packAckPacket_spec {st : PackerState σ γ} (hctl : st.packer.ControlOnly) :
    (packAckPacket env gen st).1.packer.ControlOnly ∧
      PacksWell env gen st.path.generator st.path.leastUnacked (packAckPacket env gen st) := by
  unfold packAckPacket
  dsimp only
  split
  · exact ⟨hctl, packsWell_error env gen _ _ st _⟩
  · refine ⟨hctl, packsWell_sealed env gen (wellShaped_ack _ _ fun f hf => ?_) rfl⟩
    obtain ⟨g, -, rfl⟩ := Option.map_eq_some'.1 hf
    exact ⟨rfl, rfl⟩

theorem packHandshakeRetransmission_spec (packet : Packet) {st : PackerState σ γ}
    (hctl : st.packer.ControlOnly) :
    (packHandshakeRetransmission env gen packet st).1.packer.ControlOnly ∧
      (SentPacketHandler.TrackedFrames packet.frames → PacksWell env gen st.path.generator
        st.path.leastUnacked (packHandshakeRetransmission env gen packet st)) := by
  unfold packHandshakeRetransmission
  dsimp only
  split_ifs
  · exact ⟨hctl, fun _ => packsWell_error env gen _ _ st _⟩
  · exact ⟨hctl, fun _ => packsWell_error env gen _ _ st _⟩
  split
  · exact ⟨hctl, fun _ => packsWell_error env gen _ _ st _⟩
  · exact ⟨hctl, fun hf => packsWell_sealed env gen (wellShaped_handshake hf ⟨rfl, rfl⟩) rfl⟩

end

/-- The packer's entry points, as `sendPacket`, the scheduler and the session call them. -/
inductive PackerCall
  | packPacket
  | packPacketOfPath
  | packPacketOfStream (streamID : StreamID)
  | packPing (leastUnacked : PacketNumber)
  | packAckPacket
  | packHandshakeRetransmission (packet : Packet)

namespace PackerCall

variable {σ γ : Type} (env : PackerEnv) (sf : StreamFramer σ) (gen : PacketNumberGenerator γ)

def run : PackerCall → PackerState σ γ → PackerState σ γ × Except PackerError (Option PackedPacket)
  | .packPacket => PStream.packPacket env sf gen
  | .packPacketOfPath => PStream.packPacketOfPath env sf gen
  | .packPacketOfStream streamID => PStream.packPacketOfStream env sf gen streamID
  | .packPing leastUnacked => PStream.packPing env sf gen leastUnacked
  | .packAckPacket => PStream.packAckPacket env gen
  | .packHandshakeRetransmission packet => PStream.packHandshakeRetransmission env gen packet

def leastUnacked : PackerCall → PacketNumber → PacketNumber
  | .packPing leastUnacked, _ => leastUnacked
  | _, pathLeastUnacked => pathLeastUnacked

theorem run_spec (call : PackerCall) {st : PackerState σ γ} (hctl : st.packer.ControlOnly) :
    (call.run env sf gen st).1.packer.ControlOnly ∧
      (sf.DataLenSet → (∀ packet, call = .packHandshakeRetransmission packet →
          SentPacketHandler.TrackedFrames packet.frames) →
        PacksWell env gen st.path.generator (call.leastUnacked st.path.leastUnacked)
          (call.run env sf gen st)) := by
  cases call with
  | packPacket =>
    obtain ⟨h₁, h₂⟩ := packPacketWith_spec env sf gen (composeWith_keepsControl env sf _) _ hctl
    exact ⟨h₁, fun hd _ => h₂ (composeWith_shapesPayload env sf _ hd.popStreamFrames)⟩
  | packPacketOfPath =>
    obtain ⟨h₁, h₂⟩ := packPacketWith_spec env sf gen (composeWith_keepsControl env sf _) _ hctl
    exact ⟨h₁, fun hd _ => h₂ (composeWith_shapesPayload env sf _ fun fr m =>
      hd.popStreamFramesOfPath fr m _)⟩
  | packPacketOfStream streamID =>
    obtain ⟨h₁, h₂⟩ := packPacketWith_spec env sf gen (composeWith_keepsControl env sf _) _ hctl
    exact ⟨h₁, fun hd _ => h₂ (composeWith_shapesPayload env sf _ fun fr m =>
      hd.popStreamFramesOfOneStream fr m streamID)⟩
  | packPing leastUnacked =>
    have hctl' : PacketPacker.ControlOnly
        { st.packer with controlFrames := .ping :: st.packer.controlFrames } := by
      rintro f (_ | ⟨_, hf⟩)
      · rfl
      · exact hctl f hf
    obtain ⟨h₁, h₂⟩ := packPacketWith_spec env sf gen (composeWith_keepsControl env sf _)
      { st with path := { st.path with leastUnacked },
                packer := { st.packer with controlFrames := .ping :: st.packer.controlFrames } } hctl'
    exact ⟨h₁, fun hd _ => h₂ (composeWith_shapesPayload env sf _ hd.popStreamFrames)⟩
  | packAckPacket =>
    obtain ⟨h₁, h₂⟩ := packAckPacket_spec env gen hctl
    exact ⟨h₁, fun _ _ => h₂⟩
  | packHandshakeRetransmission packet =>
    obtain ⟨h₁, h₂⟩ := packHandshakeRetransmission_spec env gen packet hctl
    exact ⟨h₁, fun _ hp => h₂ (hp packet rfl)⟩

end PackerCall

/-- The packer queues the session can reach from `newPacketPacker`: `QueueControlFrame` with a
frame that is not a STREAM frame (the session hands STREAM frames to the stream framer), and
any packing call, on any path, with any framer, crypto setup and generator. -/
inductive PacketPacker.Reachable : PacketPacker → Prop
  | new : Reachable .new
  | queueControlFrame {pk : PacketPacker} {f : Frame} (pathID : PathID) :
      Reachable pk → (∀ s, f ≠ .stream s) → Reachable (pk.queueControlFrame f pathID)
  | call {σ γ : Type} {pk : PacketPacker} (env : PackerEnv) (sf : StreamFramer σ)
      (gen : PacketNumberGenerator γ) (call : PackerCall) (fr : σ) (pth : PackerPath γ) :
      Reachable pk → Reachable (call.run env sf gen ⟨pk, fr, pth⟩).1.packer

theorem PacketPacker.Reachable.controlOnly {pk : PacketPacker} (h : pk.Reachable) :
    pk.ControlOnly := by
  induction h with
  | new => exact fun _ h => nomatch h
  | @queueControlFrame pk f pathID _ hf ih =>
    cases f with
    | stream s => exact absurd rfl (hf s)
    | ack => exact ih
    | stopWaiting => exact ih
    | _ =>
      intro g hg
      rcases List.mem_append.1 hg with hg | hg
      · exact ih g hg
      · rw [List.mem_singleton.1 hg]
        rfl
  | call env sf gen call fr pth _ ih => exact (call.run_spec env sf gen ih).1

section

variable {σ γ : Type} (env : PackerEnv) (sf : StreamFramer σ) (gen : PacketNumberGenerator γ)

/-- Every packing call from a reachable queue, with a framer that hands out STREAM frames with
a data length, builds a well-shaped packet and pops the path's generator once for it, or
builds none and leaves the generator alone; for a handshake retransmission, of a packet the
path's sent-packet handler handed out along a run in which every packet sent had a STREAM frame
without a data length only last. -/
theorem packing_calls_well_shaped (hdl : sf.DataLenSet) (st : PackerState σ γ)
    (hr : st.packer.Reachable) (call : PackerCall)
    (hcall : ∀ packet, call = .packHandshakeRetransmission packet →
      ∃ (c : Collaborators) (cfg : Config) (r : RTTStats) (es : List HandlerEvent),
        (∀ q now, .sentPacket q now ∈ es → DataLenLast q.frames) ∧
          packet ∈ Observation.dequeuedPackets (SentPacketHandler.run c cfg (.new r) es).2) :
    PacksWell env gen st.path.generator (call.leastUnacked st.path.leastUnacked)
      (call.run env sf gen st) :=
  (call.run_spec env sf gen hr.controlOnly).2 hdl fun packet h => by
    obtain ⟨c, cfg, r, es, hes, hp⟩ := hcall packet h
    exact SentPacketHandler.run_dequeued_frames c cfg r es hes packet hp

end

theorem popData_dataLenPresent (n : Nat) (b : ByteCount) :
    ∀ s ∈ (popData n b).1, s.dataLenPresent = true := by
  unfold popData
  split <;> simp

theorem dataFramer_dataLenSet : dataFramer.DataLenSet :=
  ⟨popData_dataLenPresent, fun n b _ => popData_dataLenPresent n b,
    fun n b _ => popData_dataLenPresent n b⟩

theorem busyPath_reachable : busyPath.packer.Reachable := by
  unfold busyPath
  dsimp only
  refine .queueControlFrame 0 (.queueControlFrame 0 (.queueControlFrame 0 .new ?_) ?_) ?_ <;>
    exact fun _ h => Frame.noConfusion h

def secureStreamPacket : Packet := ⟨1, [.stream ⟨1, false, 0, true, [7]⟩], 100, .secure, 0⟩

def secureLossRun : List HandlerEvent :=
  [.sentPacket secureStreamPacket 0, .onAlarm 1 false, .dequeuePacketForRetransmission]

theorem secureLossRun_dataLenLast :
    ∀ q now, HandlerEvent.sentPacket q now ∈ secureLossRun → DataLenLast q.frames := by
  rintro q now (_ | ⟨_, _ | ⟨_, _ | ⟨_, ⟨⟩⟩⟩⟩)
  simp [secureStreamPacket, DataLenLast]

theorem packing_calls_well_shaped_sample :
    dataFramer.DataLenSet ∧ busyPath.packer.Reachable ∧
      (PackerCall.packPacket.run samplePackerEnv dataFramer counterGenerator busyPath).2.map
          (·.map (·.frames)) =
        .ok (some [.stopWaiting ⟨1, 1, 2⟩, .ack ⟨⟨2, 1, []⟩, 0, 0⟩, .windowUpdate ⟨5, 100⟩,
          .stream ⟨5, false, 0, false, List.replicate 40 0⟩]) ∧
      PacksWell samplePackerEnv counterGenerator 1 1
        (PackerCall.packPacket.run samplePackerEnv dataFramer counterGenerator busyPath) ∧
      Observation.dequeuedPackets (SentPacketHandler.run SentPacketHandler.sampleCollaborators
          SentPacketHandler.sampleConfig (.new ⟨0, 0⟩) secureLossRun).2 =
        [secureStreamPacket] ∧
      ((PackerCall.packHandshakeRetransmission secureStreamPacket).run samplePackerEnv dataFramer
          counterGenerator busyPath).2.map
          (·.map (·.frames)) =
        .ok (some [.stopWaiting ⟨1, 1, 2⟩, .stream ⟨1, false, 0, true, [7]⟩]) ∧
      PacksWell samplePackerEnv counterGenerator 1 1
        ((PackerCall.packHandshakeRetransmission secureStreamPacket).run samplePackerEnv dataFramer
          counterGenerator busyPath) :=
  ⟨dataFramer_dataLenSet, busyPath_reachable, rfl,
    packing_calls_well_shaped samplePackerEnv dataFramer counterGenerator dataFramer_dataLenSet
      busyPath busyPath_reachable .packPacket fun _ h => (by cases h),
    by decide, rfl,
    packing_calls_well_shaped samplePackerEnv dataFramer counterGenerator dataFramer_dataLenSet
      busyPath busyPath_reachable (.packHandshakeRetransmission secureStreamPacket) fun _ h => by
        cases h
        exact ⟨SentPacketHandler.sampleCollaborators, SentPacketHandler.sampleConfig, ⟨0, 0⟩,
          secureLossRun, secureLossRun_dataLenLast, by decide⟩⟩

end PStream
