import PStream.Protocol

/-! The frames of the `wire` package as a sum type, one constructor per frame the modelled
code names in a type switch or builds. Only the fields some modelled function reads are
kept. ACK and CLOSE_PATH frames share their acknowledgement block `AckBlock`. -/

namespace PStream

structure AckRange where
  first : PacketNumber
  last : PacketNumber
  deriving DecidableEq, Repr

structure AckBlock where
  largestAcked : PacketNumber
  lowestAcked : PacketNumber
  ackRanges : List AckRange
  deriving DecidableEq, Repr

structure AckFrame extends AckBlock where
  pathID : PathID
  delayTime : Duration
  deriving DecidableEq, Repr

structure ClosePathFrame extends AckBlock where
  pathID : PathID
  deriving DecidableEq, Repr

structure StopWaitingFrame where
  leastUnacked : PacketNumber
  packetNumber : PacketNumber
  packetNumberLen : PacketNumberLen
  deriving DecidableEq, Repr

structure StreamFrame where
  streamID : StreamID
  finBit : Bool
  offset : ByteCount
  dataLenPresent : Bool
  data : List UInt8
  deriving DecidableEq, Repr

structure WindowUpdateFrame where
  streamID : StreamID
  byteOffset : ByteCount
  deriving DecidableEq, Repr

structure ConnectionCloseFrame where
  errorCode : UInt32
  reasonPhrase : List UInt8
  deriving DecidableEq, Repr

structure PathsFrame where
  pathIDs : List PathID
  remoteAddrsIP : List String
  remoteAddrsPort : List String
  deriving DecidableEq, Repr

inductive Frame
  | stream (f : StreamFrame)
  | ack (f : AckFrame)
  | stopWaiting (f : StopWaitingFrame)
  | ping
  | windowUpdate (f : WindowUpdateFrame)
  | blocked (streamID : StreamID)
  | rstStream (streamID : StreamID) (byteOffset : ByteCount) (errorCode : UInt32)
  | connectionClose (f : ConnectionCloseFrame)
  | closePath (f : ClosePathFrame)
  | addAddress (ipVersion : UInt8) (addr : String)
  | paths (f : PathsFrame)
  deriving DecidableEq, Repr

namespace AckBlock

/-- Modelled from the spec: `HasMissingRanges` (`ack_frame.go`, not in the sources) is
`len(AckRanges) > 1`. -/
def hasMissingRanges (f : AckBlock) : Bool := 1 < f.ackRanges.length

/-- Modelled from the spec: `AcksPacket` (`ack_frame.go`, not in the sources). A number is
acknowledged when it lies in `[LowestAcked, LargestAcked]` and, when the frame has missing
ranges, in one of the ranges. -/
def acksPacket (f : AckBlock) (p : PacketNumber) : Bool :=
  decide (f.lowestAcked ≤ p ∧ p ≤ f.largestAcked) &&
    (!f.hasMissingRanges || f.ackRanges.any fun r => decide (r.first ≤ p ∧ p ≤ r.last))

end AckBlock

/-- Modelled from the spec: `IsFrameRetransmittable` (`ackhandler/frames.go`, not in the
sources). ACK and STOP_WAITING are the frames that are never retransmitted. -/
def isFrameRetransmittable : Frame → Bool
  | .ack _ => false
  | .stopWaiting _ => false
  | _ => true

/-- Modelled from the spec: `stripNonRetransmittableFrames`. -/
def stripNonRetransmittableFrames (fs : List Frame) : List Frame :=
  fs.filter isFrameRetransmittable

def Frame.isStopWaiting : Frame → Bool
  | .stopWaiting _ => true
  | _ => false

def Frame.isAck : Frame → Bool
  | .ack _ => true
  | _ => false

@[simp] theorem isFrameRetransmittable_iff (f : Frame) :
    isFrameRetransmittable f = (!f.isAck && !f.isStopWaiting) := by
  cases f <;> rfl

/-- A STREAM frame without a data-length field occurs only as the last frame. -/
def DataLenLast (fs : List Frame) : Prop :=
  ∀ s, Frame.stream s ∈ fs.dropLast → s.dataLenPresent = true

theorem dropLast_filter_sublist {α : Type} (p : α → Bool) (l : List α) :
    (l.filter p).dropLast.Sublist l.dropLast := by
  induction l with
  | nil => exact List.Sublist.refl _
  | cons a t ih =>
    have ht : t.dropLast.Sublist (a :: t).dropLast := by
      cases t with
      | nil => exact List.Sublist.refl _
      | cons b t => exact List.sublist_cons_self _ _
    by_cases hp : p a
    · rw [List.filter_cons_of_pos hp]
      cases hf : t.filter p with
      | nil => exact List.nil_sublist _
      | cons b r =>
        have hne : t ≠ [] := by rintro rfl; cases hf
        rw [hf] at ih
        rw [List.dropLast_cons₂, List.dropLast_cons_of_ne_nil hne]
        exact ih.cons₂ a
    · rw [List.filter_cons_of_neg hp]
      exact ih.trans ht

theorem DataLenLast.append {a b : List Frame}
    (ha : ∀ s, Frame.stream s ∈ a → s.dataLenPresent = true) (hb : DataLenLast b) :
    DataLenLast (a ++ b) := by
  intro s hs
  rw [List.dropLast_append] at hs
  split at hs
  · exact ha s (List.dropLast_subset _ hs)
  · rcases List.mem_append.1 hs with hs | hs
    · exact ha s hs
    · exact hb s hs

theorem DataLenLast.filter {fs : List Frame} (h : DataLenLast fs) (p : Frame → Bool) :
    DataLenLast (fs.filter p) :=
  fun s hs => h s ((dropLast_filter_sublist p fs).subset hs)

end PStream
