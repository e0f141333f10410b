import PStream.SentPacketHandler.Basic

/-! `packetPacker` (`packet_packer.go`, in `ackhandler/sent_packet_handler.go` lines 700-1345).
A call takes the packer's queues, the stream framer's state and the path, and returns them
afterwards with the Go result: an error, no packet, or a packet. The stream framer, the
packet-number generator, the crypto setup and the `wire` encodings are not in the sources and
come in as structures of functions; a frame's or header's `Write` is taken to succeed, and is
seen through the number of bytes it writes. `MinLength` and `GetLength` are parameters too;
`MinLength` fails only for unknown versions and is taken to succeed. -/

namespace PStream

/-- `wire.PublicHeader`: the fields the packer sets. The connection ID and the version number
are constants of the connection and are not kept. -/
structure PublicHeader where
  packetNumber : PacketNumber
  packetNumberLen : PacketNumberLen
  truncateConnectionID : Bool
  diversificationNonce : Bool
  versionFlag : Bool
  multipathFlag : Bool
  pathID : PathID
  deriving DecidableEq, Repr

structure PackedPacket where
  number : PacketNumber
  rawLength : Nat
  frames : List Frame
  encryptionLevel : EncryptionLevel
  deriving DecidableEq, Repr

inductive PackerError
  /-- The error of `PublicHeader.GetLength`. -/
  | headerLength
  /-- The error of `GetSealerWithEncryptionLevel`. -/
  | noSealer
  | noAckFrameQueued
  | forwardSecureHandshake
  | handshakeWithoutStopWaiting
  | payloadTooLarge (payloadLength maxFrameSize : ByteCount)
  | packetTooLarge
  | numbersMismatch
  deriving DecidableEq, Repr

def PackerError.message : PackerError → Option String
  | .headerLength => none
  | .noSealer => none
  | .noAckFrameQueued => some "packet packer BUG: no ack frame queued"
  | .forwardSecureHandshake => some
    "PacketPacker BUG: forward-secure encrypted handshake packets don't need special treatment"
  | .handshakeWithoutStopWaiting =>
    some "PacketPacker BUG: Handshake retransmissions must contain a StopWaitingFrame"
  | .payloadTooLarge l m => some ("Packet Packer BUG: packet payload (" ++ toString l.toNat ++
    ") too large (" ++ toString m.toNat ++ ")")
  | .packetTooLarge => some "PacketPacker BUG: packet too large"
  | .numbersMismatch => some "packetPacker BUG: Peeked and Popped packet numbers do not match"

/-- The stream framer's calls over its state `σ`. `popBlockedFrames` is the loop over
`PopBlockedFrame`, returning the streams of the blocked frames in order. -/
structure StreamFramer (σ : Type) where
  hasCryptoStreamFrame : σ → Bool
  popCryptoStreamFrame : σ → ByteCount → StreamFrame × σ
  popStreamFrames : σ → ByteCount → List StreamFrame × σ
  popStreamFramesOfPath : σ → ByteCount → PathID → List StreamFrame × σ
  popStreamFramesOfOneStream : σ → ByteCount → StreamID → List StreamFrame × σ
  popBlockedFrames : σ → List StreamID × σ

structure PacketNumberGenerator (γ : Type) where
  peek : γ → PacketNumber
  pop : γ → PacketNumber × γ

/-- What the packer reads from the crypto setup, the connection parameters and the `wire` and
`protocol` packages: the sealers' levels and overheads, header and frame lengths, and whether
the version is at least `VersionMP`. -/
structure PackerEnv where
  perspective : Perspective
  versionMP : Bool
  truncateConnectionID : Bool
  sealerLevel : EncryptionLevel
  cryptoStreamLevel : EncryptionLevel
  hasSealer : EncryptionLevel → Bool
  overhead : EncryptionLevel → Nat
  packetNumberLength : PacketNumber → PacketNumber → PacketNumberLen
  headerLength : PublicHeader → Option ByteCount
  headerWritten : PublicHeader → Nat
  minLength : Frame → ByteCount
  writtenLength : Frame → Nat
  config : Config

/-- The parts of a `path` the packer reads or changes; `handshakeComplete` is
`pth.sess != nil && pth.sess.handshakeComplete`. -/
structure PackerPath (γ : Type) where
  pathID : PathID
  leastUnacked : PacketNumber
  generator : γ
  handshakeComplete : Bool

structure PacketPacker where
  controlFrames : List Frame
  stopWaiting : PathID → Option StopWaitingFrame
  ackFrame : PathID → Option AckFrame

structure PackerState (σ γ : Type) where
  packer : PacketPacker
  framer : σ
  path : PackerPath γ

namespace PacketPacker

def new : PacketPacker := ⟨[], fun _ => none, fun _ => none⟩

def queueControlFrame (pk : PacketPacker) (frame : Frame) (pathID : PathID) : PacketPacker :=
  match frame with
  | .stopWaiting f => { pk with stopWaiting := Function.update pk.stopWaiting pathID (some f) }
  | .ack f => { pk with ackFrame := Function.update pk.ackFrame pathID (some f) }
  | f => { pk with controlFrames := pk.controlFrames ++ [f] }

def stampStopWaiting (pk : PacketPacker) (pathID : PathID) (ph : PublicHeader) : PacketPacker :=
  { pk with stopWaiting := Function.update pk.stopWaiting pathID ((pk.stopWaiting pathID).map
      fun f => { f with packetNumber := ph.packetNumber, packetNumberLen := ph.packetNumberLen }) }

def clearPath (pk : PacketPacker) (pathID : PathID) : PacketPacker :=
  { pk with stopWaiting := Function.update pk.stopWaiting pathID none,
            ackFrame := Function.update pk.ackFrame pathID none }

@[simp] theorem stampStopWaiting_controlFrames (pk : PacketPacker) (pathID : PathID)
    (ph : PublicHeader) : (pk.stampStopWaiting pathID ph).controlFrames = pk.controlFrames :=
  rfl

@[simp] theorem stampStopWaiting_stopWaiting_self (pk : PacketPacker) (pathID : PathID)
    (ph : PublicHeader) : (pk.stampStopWaiting pathID ph).stopWaiting pathID =
      (pk.stopWaiting pathID).map fun f =>
        { f with packetNumber := ph.packetNumber, packetNumberLen := ph.packetNumberLen } := by
  simp [stampStopWaiting]

@[simp] theorem clearPath_controlFrames (pk : PacketPacker) (pathID : PathID) :
    (pk.clearPath pathID).controlFrames = pk.controlFrames :=
  rfl

end PacketPacker

def omitLastDataLen : List StreamFrame → List StreamFrame
  | [] => []
  | [f] => [{ f with dataLenPresent := false }]
  | f :: fs => f :: omitLastDataLen fs

theorem omitLastDataLen_dropLast (fs : List StreamFrame) :
    (omitLastDataLen fs).dropLast = fs.dropLast := by
  induction fs using omitLastDataLen.induct with
  | case1 => rfl
  | case2 => rfl
  | case3 f fs hne ih =>
    have hne' : omitLastDataLen fs ≠ [] := by
      match fs, hne with
      | [_], _ => simp [omitLastDataLen]
      | _ :: _ :: _, _ => simp [omitLastDataLen]
    rw [omitLastDataLen, List.dropLast_cons_of_ne_nil hne', ih, List.dropLast_cons_of_ne_nil hne]
    exact hne

section

variable {σ γ : Type} (env : PackerEnv) (sf : StreamFramer σ) (gen : PacketNumberGenerator γ)

def getPublicHeader (encLevel : EncryptionLevel) (pth : PackerPath γ) : PublicHeader :=
  let pnum := gen.peek pth.generator
  let multipath := pth.handshakeComplete && env.versionMP
  { packetNumber := pnum
    packetNumberLen := env.packetNumberLength pnum pth.leastUnacked
    truncateConnectionID := !multipath && env.truncateConnectionID
    diversificationNonce := decide (env.perspective = .server ∧ encLevel = .secure)
    versionFlag := decide (env.perspective = .client ∧ encLevel ≠ .forwardSecure)
    multipathFlag := multipath
    pathID := if multipath then pth.pathID else 0 }

@[simp] theorem getPublicHeader_packetNumber (encLevel : EncryptionLevel) (pth : PackerPath γ) :
    (getPublicHeader env gen encLevel pth).packetNumber = gen.peek pth.generator :=
  rfl

@[simp] theorem getPublicHeader_packetNumberLen (encLevel : EncryptionLevel)
    (pth : PackerPath γ) : (getPublicHeader env gen encLevel pth).packetNumberLen =
      env.packetNumberLength (gen.peek pth.generator) pth.leastUnacked :=
  rfl

def writeAndSealPacket (ph : PublicHeader) (frames : List Frame) (encLevel : EncryptionLevel)
    (pth : PackerPath γ) : PackerPath γ × Except PackerError Nat :=
  let written := env.headerWritten ph + (frames.map env.writtenLength).sum
  if env.config.maxPacketSize < BitVec.ofNat 64 (written + env.overhead encLevel) then
    (pth, .error .packetTooLarge)
  else
    let r := gen.pop pth.generator
    let pth := { pth with generator := r.2 }
    if r.1 ≠ ph.packetNumber then (pth, .error .numbersMismatch)
    else (pth, .ok (written + env.overhead encLevel))

theorem writeAndSealPacket_ok {ph : PublicHeader} {frames : List Frame}
    {encLevel : EncryptionLevel} {pth : PackerPath γ} {n : Nat}
    (h : (writeAndSealPacket env gen ph frames encLevel pth).2 = .ok n) :
    (gen.pop pth.generator).1 = ph.packetNumber ∧
      (writeAndSealPacket env gen ph frames encLevel pth).1 =
        { pth with generator := (gen.pop pth.generator).2 } := by
  unfold writeAndSealPacket at h ⊢
  dsimp only at h ⊢
  split_ifs at h ⊢ with h₁ h₂
  exact ⟨not_not.1 h₂, rfl⟩

def canSendData (encLevel : EncryptionLevel) : Bool :=
  match env.perspective with
  | .client => decide (EncryptionLevel.secure.rank ≤ encLevel.rank)
  | .server => decide (encLevel = .forwardSecure)

/-- The loop over `controlFrames` from the back. `rev` holds the frames last first; they are
taken while the payload stays within `maxFrameSize`. Returns the frames taken, those left
(last first) and the payload length. -/
def takeControlFrames (maxFrameSize : ByteCount) :
    List Frame → ByteCount → List Frame × List Frame × ByteCount
  | [], len => ([], [], len)
  | f :: rev, len =>
    if maxFrameSize < len + env.minLength f then ([], f :: rev, len)
    else
      let r := takeControlFrames maxFrameSize rev (len + env.minLength f)
      (f :: r.1, r.2.1, r.2.2)

theorem takeControlFrames_append (m : ByteCount) (rev : List Frame) (len : ByteCount) :
    (takeControlFrames env m rev len).1 ++ (takeControlFrames env m rev len).2.1 = rev := by
  induction rev generalizing len with
  | nil => rfl
  | cons f rev ih =>
    unfold takeControlFrames
    split
    · rfl
    · exact congrArg (f :: ·) (ih _)

/-- `composeNextPacket`, `composeNextPacketOfPath` and `composeNextPacketOfStream`, which differ
only in the stream-frame call `popStreams`. -/
def composeWith (popStreams : σ → ByteCount → List StreamFrame × σ) (maxFrameSize : ByteCount)
    (canSendStreamFrames : Bool) (pathID : PathID) (pk : PacketPacker) (fr : σ) :
    PacketPacker × σ × Except PackerError (List Frame) :=
  let sw := (pk.stopWaiting pathID).map Frame.stopWaiting
  let ack := (pk.ackFrame pathID).map Frame.ack
  let len := (sw.map env.minLength).getD 0 + (ack.map env.minLength).getD 0
  let r := takeControlFrames env maxFrameSize pk.controlFrames.reverse len
  let pk := { pk with controlFrames := r.2.1.reverse }
  let payload := sw.toList ++ ack.toList ++ r.1
  if maxFrameSize < r.2.2 then (pk, fr, .error (.payloadTooLarge r.2.2 maxFrameSize))
  else if !canSendStreamFrames then (pk, fr, .ok payload)
  else
    let fs := popStreams fr (maxFrameSize + 2 - r.2.2)
    let b := sf.popBlockedFrames fs.2
    ({ pk with controlFrames := pk.controlFrames ++ b.1.map .blocked }, b.2,
      .ok (payload ++ (omitLastDataLen fs.1).map .stream))

def PackerEnv.cryptoBudget (hl : ByteCount) : ByteCount :=
  env.config.maxPacketSize - BitVec.ofNat 64 (env.overhead env.cryptoStreamLevel) -
    env.config.nonForwardSecurePacketSizeReduction - hl

def packCryptoPacket (st : PackerState σ γ) :
    PackerState σ γ × Except PackerError (Option PackedPacket) :=
  let encLevel := env.cryptoStreamLevel
  let ph := getPublicHeader env gen encLevel st.path
  match env.headerLength ph with
  | none => (st, .error .headerLength)
  | some hl =>
    let maxLen := env.config.maxPacketSize - BitVec.ofNat 64 (env.overhead encLevel) -
      env.config.nonForwardSecurePacketSizeReduction - hl
    let c := sf.popCryptoStreamFrame st.framer maxLen
    let frames := [Frame.stream c.1]
    let w := writeAndSealPacket env gen ph frames encLevel st.path
    ({ st with framer := c.2, path := w.1 },
      w.2.map fun n => some ⟨ph.packetNumber, n, frames, encLevel⟩)

/-- The payload step of `PackPacket` and its variants: a PING at the head of the control
frames is sent alone ("TODO (QDC): rework this part with PING"); otherwise the compose
function runs. -/
def pingOrCompose (compose : ByteCount → Bool → PathID → PacketPacker → σ →
      PacketPacker × σ × Except PackerError (List Frame)) (maxFrameSize : ByteCount)
    (canSendStreamFrames : Bool) (pathID : PathID) (pk : PacketPacker) (fr : σ) :
    PacketPacker × σ × Except PackerError (List Frame) :=
  match pk.controlFrames with
  | .ping :: rest => ({ pk with controlFrames := rest }, fr, .ok [.ping])
  | _ => compose maxFrameSize canSendStreamFrames pathID pk fr

/-- The common body of `PackPacket`, `PackPacketOfPath` and `PackPacketOfStream`; `compose` is
their compose function with the stream-frame call fixed. -/
def packPacketWith (compose : ByteCount → Bool → PathID → PacketPacker → σ →
      PacketPacker × σ × Except PackerError (List Frame)) (st : PackerState σ γ) :
    PackerState σ γ × Except PackerError (Option PackedPacket) :=
  if sf.hasCryptoStreamFrame st.framer then packCryptoPacket env sf gen st
  else
    let encLevel := env.sealerLevel
    let ph := getPublicHeader env gen encLevel st.path
    match env.headerLength ph with
    | none => (st, .error .headerLength)
    | some hl =>
      let pathID := st.path.pathID
      let pk := st.packer.stampStopWaiting pathID ph
      let c := pingOrCompose compose
        (env.config.maxPacketSize - BitVec.ofNat 64 (env.overhead encLevel) - hl)
        (canSendData env encLevel) pathID pk st.framer
      match c.2.2 with
      | .error e => ({ st with packer := c.1, framer := c.2.1 }, .error e)
      | .ok frames =>
        if frames = [] then ({ st with packer := c.1, framer := c.2.1 }, .ok none)
        else if frames.length = 1 ∧ (c.1.stopWaiting pathID).isSome then
          ({ st with packer := c.1, framer := c.2.1 }, .ok none)
        else
          let w := writeAndSealPacket env gen ph frames encLevel st.path
          (⟨c.1.clearPath pathID, c.2.1, w.1⟩,
            w.2.map fun n => some ⟨ph.packetNumber, n, frames, encLevel⟩)

def packPacket (st : PackerState σ γ) :
    PackerState σ γ × Except PackerError (Option PackedPacket) :=
  packPacketWith env sf gen (composeWith env sf sf.popStreamFrames) st

def packPacketOfPath (st : PackerState σ γ) :
    PackerState σ γ × Except PackerError (Option PackedPacket) :=
  packPacketWith env sf gen
    (composeWith env sf fun fr m => sf.popStreamFramesOfPath fr m st.path.pathID) st

def packPacketOfStream (streamID : StreamID) (st : PackerState σ γ) :
    PackerState σ γ × Except PackerError (Option PackedPacket) :=
  packPacketWith env sf gen
    (composeWith env sf fun fr m => sf.popStreamFramesOfOneStream fr m streamID) st

def packPing (leastUnacked : PacketNumber) (st : PackerState σ γ) :
    PackerState σ γ × Except PackerError (Option PackedPacket) :=
  packPacket env sf gen { st with
    path := { st.path with leastUnacked }
    packer := { st.packer with controlFrames := .ping :: st.packer.controlFrames } }

def packAckPacket (st : PackerState σ γ) :
    PackerState σ γ × Except PackerError (Option PackedPacket) :=
  let pathID := st.path.pathID
  match st.packer.ackFrame pathID with
  | none => (st, .error .noAckFrameQueued)
  | some ack =>
    let encLevel := env.sealerLevel
    let ph := getPublicHeader env gen encLevel st.path
    let sw := (st.packer.stopWaiting pathID).map fun f =>
      { f with packetNumber := ph.packetNumber, packetNumberLen := ph.packetNumberLen }
    let frames := .ack ack :: (sw.map Frame.stopWaiting).toList
    let w := writeAndSealPacket env gen ph frames encLevel st.path
    ({ st with packer := st.packer.clearPath pathID, path := w.1 },
      w.2.map fun n => some ⟨ph.packetNumber, n, frames, encLevel⟩)

def packHandshakeRetransmission (packet : Packet) (st : PackerState σ γ) :
    PackerState σ γ × Except PackerError (Option PackedPacket) :=
  let pathID := st.path.pathID
  if packet.encryptionLevel = .forwardSecure then (st, .error .forwardSecureHandshake)
  else if !env.hasSealer packet.encryptionLevel then (st, .error .noSealer)
  else
    match st.packer.stopWaiting pathID with
    | none => (st, .error .handshakeWithoutStopWaiting)
    | some sw =>
      let ph := getPublicHeader env gen packet.encryptionLevel st.path
      let sw := { sw with packetNumber := ph.packetNumber, packetNumberLen := ph.packetNumberLen }
      let frames := .stopWaiting sw :: packet.frames
      let pk := { st.packer with
        stopWaiting := Function.update st.packer.stopWaiting pathID none }
      let w := writeAndSealPacket env gen ph frames packet.encryptionLevel st.path
      ({ st with packer := pk, path := w.1 },
        w.2.map fun n => some ⟨ph.packetNumber, n, frames, packet.encryptionLevel⟩)

end

def samplePackerEnv : PackerEnv where
  perspective := .server
  versionMP := false
  truncateConnectionID := false
  sealerLevel := .forwardSecure
  cryptoStreamLevel := .secure
  hasSealer := fun _ => true
  overhead := fun _ => 12
  packetNumberLength := fun _ _ => 2
  headerLength := fun _ => some 10
  headerWritten := fun _ => 10
  minLength := fun _ => 10
  writtenLength := fun _ => 10
  config := ⟨2000, 10, 19, 1350, 14⟩

def idleFramer : StreamFramer Unit :=
  ⟨fun _ => false, fun u _ => (⟨1, false, 0, true, []⟩, u), fun u _ => ([], u),
    fun u _ _ => ([], u), fun u _ _ => ([], u), fun u => ([], u)⟩

def counterGenerator : PacketNumberGenerator PacketNumber := ⟨id, fun g => (g, g + 1)⟩

def popData (n : Nat) (b : ByteCount) : List StreamFrame × Nat :=
  if 15 < b.toNat ∧ 0 < n then
    ([⟨5, false, 0, true, List.replicate (min n (b.toNat - 15)) 0⟩], n - min n (b.toNat - 15))
  else ([], n)

def dataFramer : StreamFramer Nat :=
  ⟨fun _ => false, fun n b => (⟨1, false, 0, true, List.replicate (min 20 (b.toNat - 15)) 0⟩, n),
    popData, fun n b _ => popData n b, fun n b _ => popData n b, fun n => ([], n)⟩

def busyPath : PackerState Nat PacketNumber :=
  ⟨((PacketPacker.new.queueControlFrame (.stopWaiting ⟨1, 0, 0⟩) 0).queueControlFrame
      (.ack ⟨⟨2, 1, []⟩, 0, 0⟩) 0).queueControlFrame (.windowUpdate ⟨5, 100⟩) 0,
    40, ⟨0, 1, 1, false⟩⟩

end PStream
