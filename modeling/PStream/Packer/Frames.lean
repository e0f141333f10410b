import PStream.Packer.Basic

/-! Which queued frames a packing call removes. The compose functions take the path's
STOP_WAITING and ACK and a run of control frames from the back of the queue, and every frame
they take is in the payload. The PING branch of `PackPacket`, `PackPacketOfPath` and
`PackPacketOfStream` takes the PING from the front of the queue and builds a payload of the
PING alone, yet the call then clears the path's STOP_WAITING and ACK as if they had been sent,
or, when a STOP_WAITING is queued, takes the single frame for that STOP_WAITING and returns no
packet, dropping the PING. -/

namespace PStream

variable {σ : Type} (env : PackerEnv) (sf : StreamFramer σ)

/-- A compose function that succeeds keeps every queued control frame it takes, and the path's
STOP_WAITING and ACK, in its payload. -/
theorem composeWith_keeps_frames (pop : σ → ByteCount → List StreamFrame × σ) (m : ByteCount)
    (canSend : Bool) (pathID : PathID) (pk : PacketPacker) (fr : σ) {payload : List Frame}
    (h : (composeWith env sf pop m canSend pathID pk fr).2.2 = .ok payload) :
    (∀ f ∈ pk.controlFrames,
      f ∈ (composeWith env sf pop m canSend pathID pk fr).1.controlFrames ∨ f ∈ payload) ∧
    (∀ w, pk.stopWaiting pathID = some w → .stopWaiting w ∈ payload) ∧
    (∀ a, pk.ackFrame pathID = some a → .ack a ∈ payload) := by
  have split := takeControlFrames_append env m pk.controlFrames.reverse
    ((((pk.stopWaiting pathID).map Frame.stopWaiting).map env.minLength).getD 0 +
      (((pk.ackFrame pathID).map Frame.ack).map env.minLength).getD 0)
  unfold composeWith at h ⊢
  dsimp only at h ⊢
  split_ifs at h ⊢ <;> cases h
  all_goals refine ⟨fun f hf => ?_, fun w hw => by simp [hw], fun a ha => by simp [ha]⟩
  all_goals
    rw [← List.mem_reverse, ← split, List.mem_append] at hf
    rcases hf with hf | hf
    · first
        | exact .inr (List.mem_append_right _ hf)
        | exact .inr (List.mem_append_left _ (List.mem_append_right _ hf))
    · first
        | exact .inl (List.mem_reverse.2 hf)
        | exact .inl (List.mem_append_left _ (List.mem_reverse.2 hf))

theorem composeWith_keeps_frames_sample :
    let c := composeWith samplePackerEnv dataFramer popData 25 true 0 busyPath.packer busyPath.framer
    let payload : List Frame := [.stopWaiting ⟨1, 0, 0⟩, .ack ⟨⟨2, 1, []⟩, 0, 0⟩]
    c.2.2 = .ok payload ∧ c.1.controlFrames = [.windowUpdate ⟨5, 100⟩] ∧
      (∀ f ∈ busyPath.packer.controlFrames, f ∈ c.1.controlFrames ∨ f ∈ payload) ∧
      (∀ w, busyPath.packer.stopWaiting 0 = some w → .stopWaiting w ∈ payload) ∧
      (∀ a, busyPath.packer.ackFrame 0 = some a → .ack a ∈ payload) :=
  ⟨rfl, rfl, composeWith_keeps_frames samplePackerEnv dataFramer popData 25 true 0 busyPath.packer
    busyPath.framer rfl⟩

def pingAndAck : PackerState Unit PacketNumber :=
  ⟨⟨[.ping], fun _ => none, fun _ => some ⟨⟨5, 5, []⟩, 0, 0⟩⟩, (), ⟨0, 0, 1, false⟩⟩

def pingAndStopWaiting : PackerState Unit PacketNumber :=
  ⟨⟨[.ping], fun _ => some ⟨1, 0, 0⟩, fun _ => none⟩, (), ⟨0, 0, 1, false⟩⟩

theorem packPacketOfPath_drops_queued_frames :
    (packPacketOfPath samplePackerEnv idleFramer counterGenerator pingAndAck).2 =
        .ok (some ⟨1, 32, [.ping], .forwardSecure⟩) ∧
      (packPacketOfPath samplePackerEnv idleFramer counterGenerator
        pingAndAck).1.packer.ackFrame 0 = none ∧
      (packPacketOfPath samplePackerEnv idleFramer counterGenerator pingAndStopWaiting).2 =
        .ok none ∧
      (packPacketOfPath samplePackerEnv idleFramer counterGenerator
        pingAndStopWaiting).1.packer.controlFrames = [] :=
  ⟨rfl, rfl, rfl, rfl⟩

end PStream
