import PStream.StopWaitingManager

/-! `sentPacketHandler` (`ackhandler/sent_packet_handler.go`, lines 15-657) as explicit state
passing. Each exported method is a function of the handler returning the handler afterwards,
the calls it made on its congestion controller in order, and its Go result; a method that
fails after mutating the handler returns the mutated handler, as Go does. The packet history
is a list kept in the Go list's order, and removing an element removes that packet.
The RTT estimator's update and the congestion controller's retransmission delay are not in the
sources and come in as `Collaborators`; the clock reading and the RTO callback's answer are
arguments of the calls. `bdwStats.UpdateBDW` is compiled out, as its `disable` is set, and is not
called here. The statistics counters only feed `GetStatistics` and are left out. -/

namespace PStream

structure Packet where
  packetNumber : PacketNumber
  frames : List Frame
  length : ByteCount
  encryptionLevel : EncryptionLevel
  sendTime : Time
  deriving DecidableEq, Repr

/-- Modelled from the spec: `Packet.IsRetransmittable` (`ackhandler/packet.go`, not in the
sources) holds when a retransmittable frame remains. -/
def Packet.isRetransmittable (p : Packet) : Bool := p.frames.any isFrameRetransmittable

structure RTTStats where
  latestRTT : Duration
  smoothedRTT : Duration
  deriving DecidableEq, Repr

/-- The collaborators the handler calls into whose code is not in the sources. -/
structure Collaborators where
  updateRTT : RTTStats → Duration → Duration → Time → RTTStats
  retransmissionDelay : RTTStats → Duration

inductive CongestionCall
  | onPacketSent (sentTime : Time) (bytesInFlight : ByteCount) (packetNumber : PacketNumber)
      (bytes : ByteCount) (isRetransmittable : Bool)
  | onPacketAcked (packetNumber : PacketNumber) (ackedBytes bytesInFlight : ByteCount)
  | onPacketLost (packetNumber : PacketNumber) (lostBytes bytesInFlight : ByteCount)
  | onRetransmissionTimeout (packetsRetransmitted : Bool)
  | maybeExitSlowStart
  deriving DecidableEq, Repr

inductive HandlerError
  | packetNumberNotIncreasing
  | tooManyTrackedSentPackets
  | ackForUnsentPacket
  | duplicateOrOutOfOrderAck
  | ackForSkippedPacket
  | ackedWrongPacket (packetNumber first last : PacketNumber)
  | ackedWrongPacketClosePath (packetNumber first last : PacketNumber)
  deriving DecidableEq, Repr

def hex (n : PacketNumber) : String := String.mk (Nat.toDigits 16 n.toNat)

def HandlerError.message : HandlerError → String
  | .packetNumberNotIncreasing => "Already sent a packet with a higher packet number"
  | .tooManyTrackedSentPackets =>
    "Too many outstanding non-acked and non-retransmitted packets"
  | .ackForUnsentPacket => "Received ACK for an unsent package"
  | .duplicateOrOutOfOrderAck => "SentPacketHandler: Duplicate or out-of-order ACK"
  | .ackForSkippedPacket => "Received an ACK for a skipped packet number"
  | .ackedWrongPacket p f l =>
    "BUG: ackhandler would have acked wrong packet 0x" ++ hex p ++
      ", while evaluating range 0x" ++ hex f ++ " -> 0x" ++ hex l
  | .ackedWrongPacketClosePath p f l =>
    "BUG: ackhandler would have acked wrong packet 0x" ++ hex p ++
      ", while evaluating range 0x" ++ hex f ++ " -> 0x" ++ hex l ++ " with ClosePath frame"

def ms : Duration := 1000000

def defaultRTOTimeout : Duration := 500 * ms
def minRTOTimeout : Duration := 200 * ms
def maxRTOTimeout : Duration := 60000 * ms
def maxTailLossProbes : BitVec 32 := 2
def minRetransmissionTime : Duration := 200 * ms
def minTailLossProbeTimeout : Duration := 10 * ms

structure SentPacketHandler where
  lastSentPacketNumber : PacketNumber
  skippedPackets : List PacketNumber
  numNonRetransmittablePackets : Nat
  largestAcked : PacketNumber
  largestReceivedPacketWithAck : PacketNumber
  packetHistory : List Packet
  stopWaitingManager : StopWaitingManager
  retransmissionQueue : List Packet
  bytesInFlight : ByteCount
  rttStats : RTTStats
  rtoCount : BitVec 32
  tlpCount : BitVec 32
  lossTime : Time
  lastSentTime : Time
  alarm : Time
  deriving DecidableEq, Repr

namespace SentPacketHandler

def new (rttStats : RTTStats) : SentPacketHandler :=
  ⟨0, [], 0, 0, 0, [], StopWaitingManager.empty, [], 0, rttStats, 0, 0, 0, 0, 0⟩

section

variable (c : Collaborators) (cfg : Config) (h : SentPacketHandler)

def largestInOrderAcked : PacketNumber :=
  match h.packetHistory with
  | f :: _ => f.packetNumber - 1
  | [] => h.largestAcked

def shouldSendRetransmittablePacket : Bool :=
  decide (cfg.maxNonRetransmittablePackets ≤ h.numNonRetransmittablePackets)

def getLeastUnacked : PacketNumber := h.largestInOrderAcked + 1

def hasOutstandingRetransmittablePacket : Bool := h.packetHistory.any Packet.isRetransmittable

def hasMultipleOutstandingRetransmittablePackets : Bool := 1 < h.packetHistory.length

def sendingAllowed (congestionWindow : ByteCount) : Bool :=
  let congestionLimited := decide (congestionWindow < h.bytesInFlight)
  let maxTrackedLimited := decide (cfg.maxTrackedSentPackets ≤
    BitVec.ofNat 64 (h.retransmissionQueue.length + h.packetHistory.length))
  let haveRetransmissions := decide (h.retransmissionQueue ≠ [])
  !maxTrackedLimited && (!congestionLimited || haveRetransmissions)

def computeRTOTimeout : Duration :=
  let rto := c.retransmissionDelay h.rttStats
  let rto := if rto = 0 then defaultRTOTimeout else rto
  let rto := max rto minRTOTimeout
  let rto := (BitVec.ofInt 64 rto <<< h.rtoCount.toNat).toInt
  min rto maxRTOTimeout

def computeTLPTimeout : Duration :=
  let rtt := h.rttStats.smoothedRTT
  if h.hasMultipleOutstandingRetransmittablePackets then
    max (2 * rtt) ((rtt * 3).tdiv 2 + minRetransmissionTime.tdiv 2)
  else
    max (2 * rtt) minTailLossProbeTimeout

def updateLossDetectionAlarm : SentPacketHandler :=
  if h.packetHistory = [] then { h with alarm := 0 }
  else if h.lossTime ≠ 0 then { h with alarm := h.lossTime }
  else if h.rttStats.smoothedRTT ≠ 0 ∧ h.tlpCount < maxTailLossProbes then
    { h with alarm := h.lastSentTime + h.computeTLPTimeout }
  else
    { h with alarm := h.lastSentTime + max (h.computeRTOTimeout c) minRetransmissionTime }

def onPacketAcked (p : Packet) : SentPacketHandler :=
  { h with bytesInFlight := h.bytesInFlight - p.length, rtoCount := 0, tlpCount := 0,
           packetHistory := h.packetHistory.erase p }

def queuePacketForRetransmission (p : Packet) : SentPacketHandler :=
  { h with bytesInFlight := h.bytesInFlight - p.length,
           retransmissionQueue := h.retransmissionQueue ++ [p],
           packetHistory := h.packetHistory.erase p,
           stopWaitingManager :=
             h.stopWaitingManager.queuedRetransmissionForPacketNumber p.packetNumber }

end

def ackPackets (h : SentPacketHandler) : List Packet → SentPacketHandler × List CongestionCall
  | [] => (h, [])
  | p :: ps =>
    let h' := h.onPacketAcked p
    let r := ackPackets h' ps
    (r.1, .onPacketAcked p.packetNumber p.length h'.bytesInFlight :: r.2)

def queueLostPackets (h : SentPacketHandler) :
    List Packet → SentPacketHandler × List CongestionCall
  | [] => (h, [])
  | p :: ps =>
    let h' := h.queuePacketForRetransmission p
    let r := queueLostPackets h' ps
    (r.1, .onPacketLost p.packetNumber p.length h'.bytesInFlight :: r.2)

def queueRTO (h : SentPacketHandler) (p : Packet) : SentPacketHandler × List CongestionCall :=
  queueLostPackets h [p]

/-- The scan of `detectLostPackets`: the lost packets up to `LargestAcked`, and the loss time
set by the first packet that is not lost yet. -/
def lossScan (largestAcked : PacketNumber) (now : Time) (delayUntilLost : Duration) :
    List Packet → Time → List Packet × Time
  | [], lossTime => ([], lossTime)
  | p :: ps, lossTime =>
    if largestAcked < p.packetNumber then ([], lossTime)
    else
      let timeSinceSent := now - p.sendTime
      if delayUntilLost < timeSinceSent then
        let r := lossScan largestAcked now delayUntilLost ps lossTime
        (p :: r.1, r.2)
      else if lossTime = 0 then
        lossScan largestAcked now delayUntilLost ps (now + (delayUntilLost - timeSinceSent))
      else
        lossScan largestAcked now delayUntilLost ps lossTime

/-- `(1.0 + timeReorderingFraction) * maxRTT` truncated to a `time.Duration`, in exact
arithmetic. -/
def delayUntilLost (r : RTTStats) : Duration := (9 * max r.latestRTT r.smoothedRTT).tdiv 8

def detectLostPackets (h : SentPacketHandler) (now : Time) :
    SentPacketHandler × List CongestionCall :=
  let scan := lossScan h.largestAcked now (delayUntilLost h.rttStats) h.packetHistory 0
  queueLostPackets { h with lossTime := scan.2 } scan.1

def setInflightAsLost (h : SentPacketHandler) : SentPacketHandler × List CongestionCall :=
  queueLostPackets h (h.packetHistory.takeWhile fun p => p.packetNumber ≤ h.largestAcked)

def retransmitTLP (h : SentPacketHandler) : SentPacketHandler :=
  match h.packetHistory.getLast? with
  | some p => h.queuePacketForRetransmission p
  | none => h

def retransmitAllPackets (h : SentPacketHandler) : SentPacketHandler × List CongestionCall :=
  let r := queueLostPackets h h.packetHistory
  (r.1, r.2 ++ [.onRetransmissionTimeout true])

def retransmitOldestPacket (h : SentPacketHandler) : SentPacketHandler × List CongestionCall :=
  match h.packetHistory with
  | p :: _ => h.queueRTO p
  | [] => (h, [])

def retransmitOldestTwoPackets (h : SentPacketHandler) :
    SentPacketHandler × List CongestionCall :=
  let r1 := h.retransmitOldestPacket
  let r2 := r1.1.retransmitOldestPacket
  (r2.1, r1.2 ++ r2.2 ++ [.onRetransmissionTimeout true])

def rttSamplePacket (largestAcked : PacketNumber) : List Packet → Option Packet
  | [] => none
  | p :: ps =>
    if p.packetNumber = largestAcked then some p
    else if largestAcked < p.packetNumber then none
    else rttSamplePacket largestAcked ps

def maybeUpdateRTT (c : Collaborators) (h : SentPacketHandler) (largestAcked : PacketNumber)
    (ackDelay : Duration) (rcvTime now : Time) : Bool × SentPacketHandler :=
  match rttSamplePacket largestAcked h.packetHistory with
  | some p => (true, { h with rttStats := c.updateRTT h.rttStats (rcvTime - p.sendTime) ackDelay now })
  | none => (false, h)

def advanceRange (pn : PacketNumber) : AckRange → List AckRange → AckRange × List AckRange
  | cur, next :: rest => if cur.last < pn then advanceRange pn next rest else (cur, next :: rest)
  | cur, [] => (cur, [])

/-- The history walk shared by `determineNewlyAckedPackets` and
`determineNewlyAckedPacketsClosePath`; `wrong` builds the error of each. -/
def newlyAcked (f : AckBlock) (wrong : PacketNumber → PacketNumber → PacketNumber → HandlerError) :
    List Packet → AckRange → List AckRange → Except HandlerError (List Packet)
  | [], _, _ => .ok []
  | p :: ps, cur, rest =>
    if p.packetNumber < f.lowestAcked then newlyAcked f wrong ps cur rest
    else if f.largestAcked < p.packetNumber then .ok []
    else if f.hasMissingRanges then
      let r := advanceRange p.packetNumber cur rest
      if r.1.first ≤ p.packetNumber then
        if r.1.last < p.packetNumber then .error (wrong p.packetNumber r.1.first r.1.last)
        else (p :: ·) <$> newlyAcked f wrong ps r.1 r.2
      else newlyAcked f wrong ps r.1 r.2
    else (p :: ·) <$> newlyAcked f wrong ps cur rest

def firstRange (f : AckBlock) : AckRange × List AckRange :=
  match f.ackRanges.reverse with
  | r :: rs => (r, rs)
  | [] => (⟨0, 0⟩, [])

def determineNewlyAcked (h : SentPacketHandler) (f : AckBlock)
    (wrong : PacketNumber → PacketNumber → PacketNumber → HandlerError) :
    Except HandlerError (List Packet) :=
  newlyAcked f wrong h.packetHistory (firstRange f).1 (firstRange f).2

def determineNewlyAckedPackets (h : SentPacketHandler) (ack : AckFrame) :
    Except HandlerError (List Packet) :=
  h.determineNewlyAcked ack.toAckBlock .ackedWrongPacket

def determineNewlyAckedPacketsClosePath (h : SentPacketHandler) (f : ClosePathFrame) :
    Except HandlerError (List Packet) :=
  h.determineNewlyAcked f.toAckBlock .ackedWrongPacketClosePath

def skippedPacketsAcked (h : SentPacketHandler) (ack : AckFrame) : Bool :=
  h.skippedPackets.any ack.acksPacket

def skippedPacketsAckedClosePath (h : SentPacketHandler) (f : ClosePathFrame) : Bool :=
  h.skippedPackets.any f.acksPacket

def deleteIndex (lioa : PacketNumber) : List PacketNumber → Nat → Nat → Nat
  | [], _, d => d
  | p :: ps, i, d => deleteIndex lioa ps (i + 1) (if p ≤ lioa then i + 1 else d)

def garbageCollectSkippedPackets (h : SentPacketHandler) : SentPacketHandler :=
  { h with skippedPackets :=
      h.skippedPackets.drop (deleteIndex h.largestInOrderAcked h.skippedPackets 0 0) }

/-- The skip loop of `SentPacket`: `n` numbers from `p` on are appended one at a time, and the
oldest is dropped whenever the list outgrows `MaxTrackedSkippedPackets`. -/
def recordSkipped (maxSkipped : Nat) : List PacketNumber → PacketNumber → Nat → List PacketNumber
  | skipped, _, 0 => skipped
  | skipped, p, n + 1 =>
    let skipped := skipped ++ [p]
    let skipped := if maxSkipped < skipped.length then skipped.tail else skipped
    recordSkipped maxSkipped skipped (p + 1) n

structure Outcome (α : Type) where
  handler : SentPacketHandler
  calls : List CongestionCall
  result : α

section

variable (c : Collaborators) (cfg : Config) (h : SentPacketHandler)

def sentPacket (packet : Packet) (now : Time) : Outcome (Option HandlerError) :=
  if packet.packetNumber ≤ h.lastSentPacketNumber then
    ⟨h, [], some .packetNumberNotIncreasing⟩
  else if cfg.maxTrackedSentPackets <
      BitVec.ofNat 64 (h.retransmissionQueue.length + h.packetHistory.length + 1) then
    ⟨h, [], some .tooManyTrackedSentPackets⟩
  else
    let skipped := recordSkipped cfg.maxTrackedSkippedPackets h.skippedPackets
      (h.lastSentPacketNumber + 1) (packet.packetNumber.toNat - h.lastSentPacketNumber.toNat - 1)
    let h := { h with skippedPackets := skipped, lastSentPacketNumber := packet.packetNumber,
                      lastSentTime := now }
    let frames := stripNonRetransmittableFrames packet.frames
    let isRetransmittable := decide (frames ≠ [])
    let h := if isRetransmittable then
        { h with bytesInFlight := h.bytesInFlight + packet.length,
                 packetHistory := h.packetHistory ++ [{ packet with frames, sendTime := now }],
                 numNonRetransmittablePackets := 0 }
      else
        { h with numNonRetransmittablePackets := h.numNonRetransmittablePackets + 1 }
    let call := CongestionCall.onPacketSent now h.bytesInFlight packet.packetNumber
      packet.length isRetransmittable
    ⟨h.updateLossDetectionAlarm c, [call], none⟩

def receivedAck (ack : AckFrame) (withPacketNumber : PacketNumber) (rcvTime now : Time) :
    Outcome (Option HandlerError) :=
  if h.lastSentPacketNumber < ack.largestAcked then ⟨h, [], some .ackForUnsentPacket⟩
  else if withPacketNumber ≤ h.largestReceivedPacketWithAck then
    ⟨h, [], some .duplicateOrOutOfOrderAck⟩
  else
    let h := { h with largestReceivedPacketWithAck := withPacketNumber }
    if ack.largestAcked ≤ h.largestInOrderAcked then ⟨h, [], none⟩
    else
      let h := { h with largestAcked := ack.largestAcked }
      if h.skippedPacketsAcked ack then ⟨h, [], some .ackForSkippedPacket⟩
      else
        let rtt := h.maybeUpdateRTT c ack.largestAcked ack.delayTime rcvTime now
        let h := rtt.2
        let slowStart := if rtt.1 then [CongestionCall.maybeExitSlowStart] else []
        match h.determineNewlyAckedPackets ack with
        | .error e => ⟨h, slowStart, some e⟩
        | .ok acked =>
          let a := h.ackPackets acked
          let l := a.1.detectLostPackets now
          let h := (l.1.updateLossDetectionAlarm c).garbageCollectSkippedPackets
          let h := { h with stopWaitingManager := h.stopWaitingManager.receivedAck ack }
          ⟨h, slowStart ++ a.2 ++ l.2, none⟩

def receivedClosePath (f : ClosePathFrame) (withPacketNumber : PacketNumber) :
    Outcome (Option HandlerError) :=
  if h.lastSentPacketNumber < f.largestAcked then ⟨h, [], some .ackForUnsentPacket⟩
  else if withPacketNumber ≤ h.largestReceivedPacketWithAck then
    ⟨h, [], some .duplicateOrOutOfOrderAck⟩
  else
    let h := { h with largestReceivedPacketWithAck := withPacketNumber }
    if h.skippedPacketsAckedClosePath f then ⟨h, [], some .ackForSkippedPacket⟩
    else
      match h.determineNewlyAckedPacketsClosePath f with
      | .error e => ⟨h, [], some e⟩
      | .ok acked =>
        let a := h.ackPackets acked
        let l := a.1.setInflightAsLost
        ⟨l.1.garbageCollectSkippedPackets, a.2 ++ l.2, none⟩

/-- `OnAlarm`; `potentiallyFailed` is what `onRTOCallback` answers (`false` without one). -/
def onAlarm (now : Time) (potentiallyFailed : Bool) : Outcome Unit :=
  if !h.hasOutstandingRetransmittablePacket then ⟨{ h with alarm := 0 }, [], ()⟩
  else
    let r :=
      if h.lossTime ≠ 0 then h.detectLostPackets now
      else if h.tlpCount < maxTailLossProbes then
        let h := h.retransmitTLP
        ({ h with tlpCount := h.tlpCount + 1 }, [])
      else
        let r := if potentiallyFailed then h.retransmitAllPackets
          else h.retransmitOldestTwoPackets
        ({ r.1 with rtoCount := r.1.rtoCount + 1 }, r.2)
    ⟨r.1.updateLossDetectionAlarm c, r.2, ()⟩

def dequeuePacketForRetransmission : Outcome (Option Packet) :=
  match h.retransmissionQueue with
  | p :: ps => ⟨{ h with retransmissionQueue := ps }, [], some p⟩
  | [] => ⟨h, [], none⟩

def getStopWaitingFrame (force : Bool) : Outcome (Option StopWaitingFrame) :=
  let r := h.stopWaitingManager.getStopWaitingFrame force
  ⟨{ h with stopWaitingManager := r.2 }, [], r.1⟩

/-- `DuplicatePacket`; nothing in the sources calls it, and runs leave it out. -/
def duplicatePacket (packet : Packet) : SentPacketHandler :=
  { h with retransmissionQueue := h.retransmissionQueue ++ [packet] }

end

end SentPacketHandler

end PStream
