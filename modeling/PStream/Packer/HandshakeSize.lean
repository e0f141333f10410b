import PStream.Packer.Basic

/-! Room for a handshake retransmission. `packCryptoPacket` keeps
`NonForwardSecurePacketSizeReduction` bytes of the packet free, so that a crypto packet can be
retransmitted with a STOP_WAITING in front of its frames. `PackPacket` and its variants size
their payload by `MaxPacketSize` alone, and a client fills an `EncryptionSecure` packet with
stream data (`canSendData`); such a packet, retransmitted before the handshake completes with
the STOP_WAITING the scheduler queues, no longer fits. The sizes below take the frames and the
header to write `MinLength` and `GetLength` bytes. -/

namespace PStream

section

variable {σ γ : Type} (env : PackerEnv) (sf : StreamFramer σ) (gen : PacketNumberGenerator γ)

/-- A packet that `packCryptoPacket` builds leaves `NonForwardSecurePacketSizeReduction` bytes
of `MaxPacketSize` free, when frames write at most `MinLength` bytes, the header writes
`GetLength` bytes, the framer's crypto frame fits the length it is given, and the subtractions
of the length budget do not wrap. -/
theorem packCryptoPacket_leaves_reduction
    (hw : ∀ f, env.writtenLength f ≤ (env.minLength f).toNat)
    (hh : ∀ ph l, env.headerLength ph = some l → env.headerWritten ph = l.toNat)
    (hcrypto : ∀ fr ph l, env.headerLength ph = some l →
      env.minLength (.stream (sf.popCryptoStreamFrame fr (env.cryptoBudget l)).1) ≤
        env.cryptoBudget l)
    (hfit : ∀ ph l, env.headerLength ph = some l →
      env.overhead env.cryptoStreamLevel + env.config.nonForwardSecurePacketSizeReduction.toNat +
        l.toNat ≤ env.config.maxPacketSize.toNat)
    (st : PackerState σ γ) {p : PackedPacket}
    (h : (packCryptoPacket env sf gen st).2 = .ok (some p)) :
    p.rawLength + env.config.nonForwardSecurePacketSizeReduction.toNat ≤
      env.config.maxPacketSize.toNat := by
  unfold packCryptoPacket at h
  dsimp only at h
  split at h
  · cases h
  rename_i hl hhl
  dsimp only at h
  unfold writeAndSealPacket at h
  dsimp only at h
  split_ifs at h with hbig hne
  · cases h
  · cases h
  · cases h
    have hfit' := hfit _ _ hhl
    have hov : env.overhead env.cryptoStreamLevel < 2 ^ 64 := by
      have := env.config.maxPacketSize.isLt; omega
    have hcr := BitVec.le_def.1 (hcrypto st.framer _ hl hhl)
    unfold PackerEnv.cryptoBudget at hcr
    have hwc := hw (.stream (sf.popCryptoStreamFrame st.framer (env.config.maxPacketSize -
      BitVec.ofNat 64 (env.overhead env.cryptoStreamLevel) -
      env.config.nonForwardSecurePacketSizeReduction - hl)).1)
    rw [hh _ _ hhl]
    simp only [List.map_cons, List.map_nil, List.sum_cons, List.sum_nil, Nat.add_zero]
    rw [BitVec.toNat_sub_of_le (by bv_omega), BitVec.toNat_sub_of_le (by bv_omega),
      BitVec.toNat_sub_of_le (by bv_omega), BitVec.toNat_ofNat,
      Nat.mod_eq_of_lt hov] at hcr
    omega

end

theorem packCryptoPacket_leaves_reduction_sample :
    (packCryptoPacket samplePackerEnv dataFramer counterGenerator busyPath).2 =
        .ok (some ⟨1, 32, [.stream ⟨1, false, 0, true, List.replicate 20 0⟩], .secure⟩) ∧
      32 + samplePackerEnv.config.nonForwardSecurePacketSizeReduction.toNat ≤
        samplePackerEnv.config.maxPacketSize.toNat :=
  ⟨rfl, packCryptoPacket_leaves_reduction samplePackerEnv dataFramer counterGenerator
    (fun _ => Nat.le_refl 10) (fun _ _ h => by cases h; rfl)
    (fun _ _ _ h => by
      cases h; exact show (10 : ByteCount) ≤ samplePackerEnv.cryptoBudget 10 by decide)
    (fun _ _ h => by cases h; decide) busyPath rfl⟩

def sampleFrameLength : Frame → ByteCount
  | .stream s => BitVec.ofNat 64 ((if s.dataLenPresent then 11 else 9) + s.data.length)
  | .stopWaiting f => BitVec.ofNat 64 (1 + f.packetNumberLen)
  | .ack _ => 10
  | _ => 5

def clientPackerEnv : PackerEnv where
  perspective := .client
  versionMP := false
  truncateConnectionID := false
  sealerLevel := .secure
  cryptoStreamLevel := .secure
  hasSealer := fun _ => true
  overhead := fun _ => 12
  packetNumberLength := fun _ _ => 2
  headerLength := fun ph => some (BitVec.ofNat 64 (13 + ph.packetNumberLen))
  headerWritten := fun ph => 13 + ph.packetNumberLen
  minLength := sampleFrameLength
  writtenLength := fun f => (sampleFrameLength f).toNat
  config := ⟨2000, 10, 19, 1350, 14⟩

def fillingFramer : StreamFramer Unit :=
  let fill (m : ByteCount) : StreamFrame := ⟨3, false, 0, true, List.replicate (m.toNat - 11) 0⟩
  ⟨fun _ => false, fun u m => (fill m, u), fun u m => ([fill m], u), fun u m _ => ([fill m], u),
    fun u m _ => ([fill m], u), fun u => ([], u)⟩

def fullSecurePacket : PackerState Unit PacketNumber × Except PackerError (Option PackedPacket) :=
  packPacket clientPackerEnv fillingFramer counterGenerator
    ⟨PacketPacker.new, (), ⟨0, 0, 1, false⟩⟩

set_option maxRecDepth 8000 in
theorem handshakeRetransmission_of_full_packet_too_large :
    fullSecurePacket.2 = .ok (some ⟨1, 1350,
        [.stream ⟨3, false, 0, false, List.replicate 1314 0⟩], .secure⟩) ∧
      (packHandshakeRetransmission clientPackerEnv counterGenerator
        ⟨1, stripNonRetransmittableFrames [.stream ⟨3, false, 0, false, List.replicate 1314 0⟩],
          1350, .secure, 0⟩
        { fullSecurePacket.1 with
          packer := fullSecurePacket.1.packer.queueControlFrame (.stopWaiting ⟨2, 0, 0⟩) 0 }).2 =
        .error .packetTooLarge :=
  ⟨rfl, rfl⟩

end PStream
