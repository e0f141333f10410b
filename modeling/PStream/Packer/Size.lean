import PStream.Packer.Basic
import Mathlib.Algebra.Order.BigOperators.Group.List

/-! Packet sizes of `PackPacket`, `PackPacketOfPath` and `PackPacketOfStream`. The compose
functions budget the payload by `maxFrameSize = MaxPacketSize − Overhead() − GetLength()`:
STOP_WAITING and ACK first, control frames from the back while they fit, and stream frames
from the framer with two bytes more, which the last stream frame gives back by dropping its data
length. So when the frames write at most their `MinLength` bytes, the header its `GetLength`
bytes, and the framer keeps to its budget, the payload stays within `maxFrameSize` and the
sealed packet within `MaxPacketSize`: neither "packet payload too large" nor "packet too large"
comes up. The PING packet and the crypto packet are sized the same way, by a PING's
`MinLength` and by the crypto budget. -/

namespace PStream

section

variable {σ γ : Type}

/-- What the stream framer promises for a budget `b`: frames with their data lengths set whose
`MinLength`s add up to at most `b`. -/
def FitsBudget (env : PackerEnv) (fs : List StreamFrame) (b : ByteCount) : Prop :=
  (∀ s ∈ fs, s.dataLenPresent = true) ∧ (fs.map fun s => (env.minLength (.stream s)).toNat).sum ≤ b.toNat

/-- The lengths the packer relies on, from the `wire` package and the stream framer, which are
not in the sources: every frame writes at most its `MinLength` bytes, and a STREAM frame without
its data length at most its `MinLength` with it minus 2; a header writes its `GetLength` bytes;
the framer's frames keep to the budget they are given, the crypto frame to the budget
`packCryptoPacket` gives it; and lengths are Go `int`s. -/
structure PackerEnv.Lengths (env : PackerEnv) (sf : StreamFramer σ) : Prop where
  written_le : ∀ f, env.writtenLength f ≤ (env.minLength f).toNat
  written_omitDataLen : ∀ s : StreamFrame,
    env.writtenLength (.stream { s with dataLenPresent := false }) + 2 ≤
      (env.minLength (.stream { s with dataLenPresent := true })).toNat
  header : ∀ ph l, env.headerLength ph = some l → env.headerWritten ph = l.toNat
  popStreamFrames : ∀ fr b, FitsBudget env (sf.popStreamFrames fr b).1 b
  popStreamFramesOfPath : ∀ fr b pathID, FitsBudget env (sf.popStreamFramesOfPath fr b pathID).1 b
  popStreamFramesOfOneStream : ∀ fr b streamID,
    FitsBudget env (sf.popStreamFramesOfOneStream fr b streamID).1 b
  popCryptoStreamFrame : ∀ fr ph l, env.headerLength ph = some l →
    env.minLength (.stream (sf.popCryptoStreamFrame fr (env.cryptoBudget l)).1) ≤
      env.cryptoBudget l
  minLength_lt : ∀ f, (env.minLength f).toNat < 2 ^ 63
  maxPacketSize_lt : env.config.maxPacketSize.toNat < 2 ^ 63

/-- Room for a payload under every header: a PING fits `maxFrameSize`, and the crypto budget
`MaxPacketSize − Overhead() − NonForwardSecurePacketSizeReduction − GetLength()` is not
negative. -/
def PackerEnv.Room (env : PackerEnv) : Prop :=
  ∀ ph l, env.headerLength ph = some l →
    env.overhead env.sealerLevel + l.toNat + (env.minLength .ping).toNat ≤
        env.config.maxPacketSize.toNat ∧
      env.overhead env.cryptoStreamLevel + env.config.nonForwardSecurePacketSizeReduction.toNat +
        l.toNat ≤ env.config.maxPacketSize.toNat

def queuedLength (env : PackerEnv) (pk : PacketPacker) (pathID : PathID) : Nat :=
  ((pk.stopWaiting pathID).map fun f => (env.minLength (.stopWaiting f)).toNat).getD 0 +
    ((pk.ackFrame pathID).map fun f => (env.minLength (.ack f)).toNat).getD 0

def Budgeted (env : PackerEnv) (compose : ByteCount → Bool → PathID → PacketPacker → σ →
      PacketPacker × σ × Except PackerError (List Frame)) : Prop :=
  ∀ m can pathID pk fr, m.toNat < 2 ^ 63 → queuedLength env pk pathID ≤ m.toNat →
    ∃ frames, (compose m can pathID pk fr).2.2 = .ok frames ∧
      (frames.map env.writtenLength).sum ≤ m.toNat

def SizedResult (env : PackerEnv) (r : PackerState σ γ × Except PackerError (Option PackedPacket)) :
    Prop :=
  (∀ l m, r.2 ≠ .error (.payloadTooLarge l m)) ∧ r.2 ≠ .error .packetTooLarge ∧
    ∀ p, r.2 = .ok (some p) → p.rawLength ≤ env.config.maxPacketSize.toNat

end

section

variable {σ γ : Type} {env : PackerEnv} {sf : StreamFramer σ} (gen : PacketNumberGenerator γ)

theorem writeAndSealPacket_sized (ph : PublicHeader) (frames : List Frame)
    (encLevel : EncryptionLevel) (pth : PackerPath γ)
    (hfit : env.headerWritten ph + (frames.map env.writtenLength).sum + env.overhead encLevel ≤
      env.config.maxPacketSize.toNat) :
    (∀ e, (writeAndSealPacket env gen ph frames encLevel pth).2 = .error e → e = .numbersMismatch) ∧
      ∀ n, (writeAndSealPacket env gen ph frames encLevel pth).2 = .ok n →
        n ≤ env.config.maxPacketSize.toNat := by
  have hlt : env.config.maxPacketSize.toNat < 2 ^ 64 := env.config.maxPacketSize.isLt
  unfold writeAndSealPacket
  dsimp only
  rw [if_neg (by rw [BitVec.lt_def, BitVec.toNat_ofNat, Nat.mod_eq_of_lt (by omega)]; omega)]
  split_ifs
  · exact ⟨fun _ h => (Except.error.inj h).symm, fun _ h => nomatch h⟩
  · exact ⟨fun _ h => (nomatch h), fun n h => by cases h; omega⟩

theorem sizedResult_of_sealed {st : PackerState σ γ} {w : Except PackerError Nat}
    {number : PacketNumber} {frames : List Frame} {encLevel : EncryptionLevel}
    (herr : ∀ e, w = .error e → e = .numbersMismatch)
    (hok : ∀ n, w = .ok n → n ≤ env.config.maxPacketSize.toNat) :
    SizedResult env (st, w.map fun n => some ⟨number, n, frames, encLevel⟩) := by
  cases w with
  | error e =>
    obtain rfl := herr e rfl
    exact ⟨fun _ _ h => (nomatch h), fun h => (nomatch h), fun _ h => nomatch h⟩
  | ok n => exact ⟨fun _ _ h => (nomatch h), fun h => (nomatch h), fun p h => by cases h; exact hok n rfl⟩

theorem PackerEnv.Lengths.written_sum_le (hlen : env.Lengths sf) (fs : List Frame) :
    (fs.map env.writtenLength).sum ≤ (fs.map fun f => (env.minLength f).toNat).sum :=
  List.sum_le_sum fun f _ => hlen.written_le f

theorem PackerEnv.Lengths.written_omitLastDataLen (hlen : env.Lengths sf) {fs : List StreamFrame}
    (hdl : ∀ s ∈ fs, s.dataLenPresent = true) (hne : fs ≠ []) :
    (((omitLastDataLen fs).map Frame.stream).map env.writtenLength).sum + 2 ≤
      (fs.map fun s => (env.minLength (.stream s)).toNat).sum := by
  induction fs using omitLastDataLen.induct with
  | case1 => exact absurd rfl hne
  | case2 f =>
    have hf : { f with dataLenPresent := true } = f := by
      have h := hdl f (List.mem_singleton_self f)
      cases f
      simp only at h
      rw [h]
    simpa [omitLastDataLen, hf] using hlen.written_omitDataLen f
  | case3 f fs hfs ih =>
    have := ih (fun s hs => hdl s (List.mem_cons_of_mem f hs)) hfs
    have := hlen.written_le (.stream f)
    simp only [omitLastDataLen, List.map_cons, List.sum_cons] at *
    omega

theorem PackerEnv.Lengths.takeControlFrames_len (hlen : env.Lengths sf) {m : ByteCount}
    (hm : m.toNat < 2 ^ 63) (rev : List Frame) {len : ByteCount} (hl : len.toNat ≤ m.toNat) :
    (takeControlFrames env m rev len).2.2.toNat =
        len.toNat + ((takeControlFrames env m rev len).1.map fun f => (env.minLength f).toNat).sum ∧
      (takeControlFrames env m rev len).2.2.toNat ≤ m.toNat := by
  induction rev generalizing len with
  | nil => exact ⟨by simp [PStream.takeControlFrames], hl⟩
  | cons f rev ih =>
    have hf := hlen.minLength_lt f
    have hadd : (len + env.minLength f).toNat = len.toNat + (env.minLength f).toNat := by
      rw [BitVec.toNat_add, Nat.mod_eq_of_lt (by omega)]
    unfold PStream.takeControlFrames
    split_ifs with hbig
    · exact ⟨by simp, hl⟩
    · obtain ⟨h₁, h₂⟩ := ih
        (show (len + env.minLength f).toNat ≤ m.toNat from BitVec.not_lt.1 hbig)
      refine ⟨?_, h₂⟩
      rw [h₁, hadd, List.map_cons, List.sum_cons]
      omega

theorem sum_map_toList {α : Type} (g : α → Nat) (o : Option α) :
    (o.toList.map g).sum = (o.map g).getD 0 := by
  cases o <;> simp

theorem PackerEnv.Lengths.composeWith_budgeted (hlen : env.Lengths sf)
    (pop : σ → ByteCount → List StreamFrame × σ) (hpop : ∀ fr b, FitsBudget env (pop fr b).1 b) :
    Budgeted env (composeWith env sf pop) := by
  intro m can pathID pk fr hm hq
  -- the STOP_WAITING and ACK lengths add up without wrapping
  have hopt : ∀ {α : Type} (o : Option α) (g : α → Frame),
      ((o.map g).map env.minLength |>.getD 0).toNat = (o.map fun x => (env.minLength (g x)).toNat).getD 0 ∧
        (o.map fun x => (env.minLength (g x)).toNat).getD 0 < 2 ^ 63 := fun o g => by
    cases o
    · exact ⟨rfl, by simp⟩
    · exact ⟨rfl, hlen.minLength_lt _⟩
  have hq0 : ((((pk.stopWaiting pathID).map Frame.stopWaiting).map env.minLength |>.getD 0) +
      (((pk.ackFrame pathID).map Frame.ack).map env.minLength |>.getD 0)).toNat =
      queuedLength env pk pathID := by
    obtain ⟨hs₁, hs₂⟩ := hopt (pk.stopWaiting pathID) Frame.stopWaiting
    obtain ⟨ha₁, ha₂⟩ := hopt (pk.ackFrame pathID) Frame.ack
    rw [BitVec.toNat_add, hs₁, ha₁, Nat.mod_eq_of_lt (by omega)]
    rfl
  unfold composeWith
  dsimp only
  obtain ⟨h₁, h₂⟩ := hlen.takeControlFrames_len hm pk.controlFrames.reverse (hq0 ▸ hq)
  generalize PStream.takeControlFrames env m pk.controlFrames.reverse _ = r at h₁ h₂
  rw [if_neg (BitVec.not_lt.2 h₂)]
  -- the frames always taken write at most the payload length counted so far
  have hpay : ((((pk.stopWaiting pathID).map Frame.stopWaiting).toList ++
      ((pk.ackFrame pathID).map Frame.ack).toList ++ r.1).map env.writtenLength).sum ≤
        r.2.2.toNat := by
    refine (hlen.written_sum_le _).trans (le_of_eq ?_)
    rw [h₁, hq0, List.map_append, List.map_append, List.sum_append, List.sum_append,
      sum_map_toList, sum_map_toList, queuedLength]
    cases pk.stopWaiting pathID <;> cases pk.ackFrame pathID <;> rfl
  split
  · exact ⟨_, rfl, hpay.trans h₂⟩
  · refine ⟨_, rfl, ?_⟩
    obtain ⟨hdl, hfit⟩ := hpop fr (m + 2 - r.2.2)
    have hb : (m + 2 - r.2.2).toNat = m.toNat + 2 - r.2.2.toNat := by bv_omega
    rw [List.map_append, List.sum_append]
    by_cases hne : (pop fr (m + 2 - r.2.2)).1 = []
    · rw [hne]
      simpa using hpay.trans h₂
    · have := hlen.written_omitLastDataLen hdl hne
      rw [List.map_map] at this ⊢
      omega

theorem PackerEnv.Lengths.pingOrCompose_budgeted (hlen : env.Lengths sf)
    {compose : ByteCount → Bool → PathID → PacketPacker → σ →
      PacketPacker × σ × Except PackerError (List Frame)} (hc : Budgeted env compose)
    {m : ByteCount} (hm : m.toNat < 2 ^ 63) (can : Bool) (pathID : PathID) (pk : PacketPacker)
    (fr : σ) (hq : queuedLength env pk pathID ≤ m.toNat)
    (hping : (env.minLength .ping).toNat ≤ m.toNat) :
    ∃ frames, (pingOrCompose compose m can pathID pk fr).2.2 = .ok frames ∧
      (frames.map env.writtenLength).sum ≤ m.toNat := by
  unfold pingOrCompose
  split
  · exact ⟨[.ping], rfl, by simpa using (hlen.written_le .ping).trans hping⟩
  · exact hc m can pathID pk fr hm hq

theorem PackerEnv.Lengths.packCryptoPacket_sized (hlen : env.Lengths sf) (hroom : env.Room)
    (st : PackerState σ γ) : SizedResult env (packCryptoPacket env sf gen st) := by
  unfold packCryptoPacket
  dsimp only
  split
  · exact ⟨fun _ _ h => (nomatch h), fun h => (nomatch h), fun _ h => nomatch h⟩
  rename_i hl hhl
  have hfit := (hroom _ _ hhl).2
  have hmps := hlen.maxPacketSize_lt
  have hov : (BitVec.ofNat 64 (env.overhead env.cryptoStreamLevel)).toNat =
      env.overhead env.cryptoStreamLevel := by
    rw [BitVec.toNat_ofNat, Nat.mod_eq_of_lt (by omega)]
  -- the crypto frame fits the budget, which does not wrap
  have hcr := BitVec.le_def.1 (hlen.popCryptoStreamFrame st.framer _ hl hhl)
  unfold PackerEnv.cryptoBudget at hcr
  have hbudget : (env.config.maxPacketSize - BitVec.ofNat 64 (env.overhead env.cryptoStreamLevel) -
      env.config.nonForwardSecurePacketSizeReduction - hl).toNat =
      env.config.maxPacketSize.toNat - env.overhead env.cryptoStreamLevel -
        env.config.nonForwardSecurePacketSizeReduction.toNat - hl.toNat := by
    bv_omega
  generalize (sf.popCryptoStreamFrame st.framer (env.config.maxPacketSize -
    BitVec.ofNat 64 (env.overhead env.cryptoStreamLevel) -
    env.config.nonForwardSecurePacketSizeReduction - hl)) = c at hcr ⊢
  have hw := hlen.written_le (.stream c.1)
  obtain ⟨herr, hok⟩ := writeAndSealPacket_sized gen
    (getPublicHeader env gen env.cryptoStreamLevel st.path) [.stream c.1] env.cryptoStreamLevel
    st.path (by
      rw [hlen.header _ _ hhl, List.map_singleton, List.sum_singleton]
      omega)
  exact sizedResult_of_sealed herr hok

theorem PackerEnv.Lengths.packPacketWith_sized (hlen : env.Lengths sf) (hroom : env.Room)
    {compose : ByteCount → Bool → PathID → PacketPacker → σ →
      PacketPacker × σ × Except PackerError (List Frame)} (hc : Budgeted env compose)
    (st : PackerState σ γ)
    (hq : ∀ l, env.headerLength (getPublicHeader env gen env.sealerLevel st.path) = some l →
      queuedLength env (st.packer.stampStopWaiting st.path.pathID
          (getPublicHeader env gen env.sealerLevel st.path)) st.path.pathID +
        env.overhead env.sealerLevel + l.toNat ≤ env.config.maxPacketSize.toNat) :
    SizedResult env (packPacketWith env sf gen compose st) := by
  unfold packPacketWith
  split
  · exact hlen.packCryptoPacket_sized gen hroom st
  dsimp only
  split
  · exact ⟨fun _ _ h => (nomatch h), fun h => (nomatch h), fun _ h => nomatch h⟩
  rename_i hl hhl
  have hq' := hq hl hhl
  have hping := (hroom _ _ hhl).1
  have hmps := hlen.maxPacketSize_lt
  have hov : (BitVec.ofNat 64 (env.overhead env.sealerLevel)).toNat =
      env.overhead env.sealerLevel := by
    rw [BitVec.toNat_ofNat, Nat.mod_eq_of_lt (by omega)]
  -- `maxFrameSize` does not wrap
  have hm : (env.config.maxPacketSize - BitVec.ofNat 64 (env.overhead env.sealerLevel) - hl).toNat =
      env.config.maxPacketSize.toNat - env.overhead env.sealerLevel - hl.toNat := by
    bv_omega
  obtain ⟨frames, hframes, hsum⟩ := hlen.pingOrCompose_budgeted hc
    (by rw [hm]; omega) (canSendData env env.sealerLevel) st.path.pathID
    (st.packer.stampStopWaiting st.path.pathID (getPublicHeader env gen env.sealerLevel st.path))
    st.framer (by rw [hm]; omega) (by rw [hm]; omega)
  simp only [hframes]
  split_ifs
  · exact ⟨fun _ _ h => (nomatch h), fun h => (nomatch h), fun _ h => nomatch h⟩
  · exact ⟨fun _ _ h => (nomatch h), fun h => (nomatch h), fun _ h => nomatch h⟩
  · obtain ⟨herr, hok⟩ := writeAndSealPacket_sized gen
      (getPublicHeader env gen env.sealerLevel st.path) frames env.sealerLevel st.path (by
        rw [hlen.header _ _ hhl]
        omega)
    exact sizedResult_of_sealed herr hok

end

/-- `PackPacket`, `PackPacketOfPath` and `PackPacketOfStream` never fail with "packet payload
too large" or "packet too large", and seal packets of at most `MaxPacketSize` bytes, whenever
the path's STOP_WAITING frame, stamped with the call's header, and its ACK frame fit
`maxFrameSize = MaxPacketSize − Overhead() − GetLength()`; given the lengths of `Lengths`, and
headers that leave room for a PING and for the crypto budget. -/
theorem packing_within_maxPacketSize {σ γ : Type} (env : PackerEnv) (sf : StreamFramer σ)
    (gen : PacketNumberGenerator γ) (hlen : env.Lengths sf) (hroom : env.Room)
    (st : PackerState σ γ)
    (hq : ∀ l, env.headerLength (getPublicHeader env gen env.sealerLevel st.path) = some l →
      queuedLength env (st.packer.stampStopWaiting st.path.pathID
          (getPublicHeader env gen env.sealerLevel st.path)) st.path.pathID +
        env.overhead env.sealerLevel + l.toNat ≤ env.config.maxPacketSize.toNat) :
    SizedResult env (packPacket env sf gen st) ∧ SizedResult env (packPacketOfPath env sf gen st) ∧
      ∀ streamID, SizedResult env (packPacketOfStream env sf gen streamID st) :=
  ⟨hlen.packPacketWith_sized gen hroom (hlen.composeWith_budgeted _ hlen.popStreamFrames) st hq,
    hlen.packPacketWith_sized gen hroom
      (hlen.composeWith_budgeted _ fun fr b => hlen.popStreamFramesOfPath fr b _) st hq,
    fun streamID => hlen.packPacketWith_sized gen hroom
      (hlen.composeWith_budgeted _ fun fr b => hlen.popStreamFramesOfOneStream fr b streamID) st hq⟩

def wireLength : Frame → ByteCount
  | .stream s =>
    BitVec.ofNat 64 (13 + (if s.dataLenPresent then 2 else 0) + min s.data.length 65535)
  | .ping => 1
  | _ => 10

def wirePackerEnv : PackerEnv :=
  { samplePackerEnv with
    minLength := wireLength
    writtenLength := fun f => (wireLength f).toNat }

theorem toNat_wireLength_stream (s : StreamFrame) :
    (wireLength (.stream s)).toNat =
      13 + (if s.dataLenPresent then 2 else 0) + min s.data.length 65535 := by
  rw [wireLength, BitVec.toNat_ofNat, Nat.mod_eq_of_lt]
  split <;> omega

theorem popData_fits (n : Nat) (b : ByteCount) : FitsBudget wirePackerEnv (popData n b).1 b := by
  unfold popData
  split
  · refine ⟨by simp, ?_⟩
    simp only [wirePackerEnv, List.map_cons, List.map_nil, List.sum_cons, List.sum_nil,
      toNat_wireLength_stream, List.length_replicate, if_true]
    omega
  · exact ⟨by simp, by simp⟩

theorem wirePackerEnv_lengths : wirePackerEnv.Lengths dataFramer where
  written_le _ := le_rfl
  written_omitDataLen s := by
    simp only [wirePackerEnv, toNat_wireLength_stream, Bool.false_eq_true, if_false, if_true]
    omega
  header _ _ h := by cases h; rfl
  popStreamFrames := popData_fits
  popStreamFramesOfPath n b _ := popData_fits n b
  popStreamFramesOfOneStream n b _ := popData_fits n b
  popCryptoStreamFrame _ _ _ h := by
    cases h
    show wireLength (.stream ⟨1, false, 0, true,
      List.replicate (min 20 ((wirePackerEnv.cryptoBudget 10).toNat - 15)) 0⟩) ≤ _
    decide
  minLength_lt f := by
    cases f
    case stream s =>
      show (wireLength (.stream s)).toNat < _
      rw [toNat_wireLength_stream]
      split <;> omega
    case ping => decide
    all_goals exact (by decide : (10 : ByteCount).toNat < 2 ^ 63)
  maxPacketSize_lt := by decide

theorem wirePackerEnv_room : wirePackerEnv.Room := fun _ _ h => by
  cases h
  decide

theorem packing_within_maxPacketSize_sample :
    wirePackerEnv.Lengths dataFramer ∧ wirePackerEnv.Room ∧
      (∀ l, wirePackerEnv.headerLength
          (getPublicHeader wirePackerEnv counterGenerator wirePackerEnv.sealerLevel busyPath.path) =
            some l →
        queuedLength wirePackerEnv (busyPath.packer.stampStopWaiting busyPath.path.pathID
            (getPublicHeader wirePackerEnv counterGenerator wirePackerEnv.sealerLevel
              busyPath.path)) busyPath.path.pathID +
          wirePackerEnv.overhead wirePackerEnv.sealerLevel + l.toNat ≤
            wirePackerEnv.config.maxPacketSize.toNat) ∧
      SizedResult wirePackerEnv (packPacket wirePackerEnv dataFramer counterGenerator busyPath) ∧
      SizedResult wirePackerEnv
        (packPacketOfPath wirePackerEnv dataFramer counterGenerator busyPath) ∧
      ∀ streamID, SizedResult wirePackerEnv
        (packPacketOfStream wirePackerEnv dataFramer counterGenerator streamID busyPath) :=
  have hq : ∀ l, wirePackerEnv.headerLength
      (getPublicHeader wirePackerEnv counterGenerator wirePackerEnv.sealerLevel busyPath.path) =
        some l →
      queuedLength wirePackerEnv (busyPath.packer.stampStopWaiting busyPath.path.pathID
          (getPublicHeader wirePackerEnv counterGenerator wirePackerEnv.sealerLevel
            busyPath.path)) busyPath.path.pathID +
        wirePackerEnv.overhead wirePackerEnv.sealerLevel + l.toNat ≤
          wirePackerEnv.config.maxPacketSize.toNat := fun _ h => by
    cases h
    decide
  ⟨wirePackerEnv_lengths, wirePackerEnv_room, hq,
    packing_within_maxPacketSize wirePackerEnv dataFramer counterGenerator wirePackerEnv_lengths
      wirePackerEnv_room busyPath hq⟩

end PStream
