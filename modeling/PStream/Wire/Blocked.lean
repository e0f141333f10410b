import PStream.Wire.ConnectionClose

/-! The BLOCKED frame (`wire/blocked_frame.go`): `Write`, `MinLength` and `ParseBlockedFrame`,
over the bytes of a buffer and of a reader. `Write` appends the type byte `0x05` and the stream
ID as a `uint32` in the version's byte order, `MinLength` bytes in all. The parser skips the
type byte without looking at it and reads the stream ID back, whatever follows it; a reader
holding fewer than `MinLength` bytes fails with `io.EOF`. -/

namespace PStream

structure BlockedFrame where
  streamID : StreamID
  deriving DecidableEq, Repr

namespace BlockedFrame

def write (f : BlockedFrame) (o : ByteOrder) (b : List UInt8) : List UInt8 :=
  b ++ [0x05] ++ o.writeUint32 f.streamID.toNat

def minLength (_ : BlockedFrame) : ByteCount := 1 + 4

end BlockedFrame

def parseBlockedFrame (o : ByteOrder) (r : List UInt8) :
    Except ParseError (BlockedFrame × List UInt8) := do
  let (_, r) ← readByte r
  let (sid, r) ← o.readUint32 r
  pure (⟨BitVec.ofNat 32 sid⟩, r)

theorem parseBlockedFrame_of_lt (o : ByteOrder) {r : List UInt8} (h : r.length < 5) :
    parseBlockedFrame o r = .error .eof := by
  match r, h with
  | [], _ => rfl
  | _ :: r, h =>
    have hr : r.length < 4 := Nat.lt_of_succ_lt_succ h
    simp only [parseBlockedFrame, readByte, bind, Except.bind, ByteOrder.readUint32,
      ByteOrder.readUint, if_pos hr]

/-- `Write` appends `MinLength` bytes, and `ParseBlockedFrame` reads them back to the frame and
leaves what follows them; a reader of fewer than `MinLength` bytes fails with `io.EOF`. -/
theorem blocked_write_parse (o : ByteOrder) (f : BlockedFrame) (b rest : List UInt8) :
    (∃ bs, f.write o b = b ++ bs ∧ bs.length = f.minLength.toNat ∧
      parseBlockedFrame o (bs ++ rest) = .ok (f, rest)) ∧
    ∀ r : List UInt8, r.length < f.minLength.toNat → parseBlockedFrame o r = .error .eof := by
  have hmin : f.minLength.toNat = 5 := rfl
  refine ⟨⟨[0x05] ++ o.writeUint32 f.streamID.toNat, by simp [BlockedFrame.write], ?_, ?_⟩,
    fun r hr => parseBlockedFrame_of_lt o (hmin ▸ hr)⟩
  · simp [hmin, ByteOrder.writeUint32]
  · have hsid : BitVec.ofNat 32 (f.streamID.toNat % 256 ^ 4) = f.streamID := by
      apply BitVec.eq_of_toNat_eq
      have := f.streamID.isLt
      rw [BitVec.toNat_ofNat]
      omega
    have hb : ∀ (b : UInt8) r, readByte (b :: r) = pure (b, r) := fun _ _ => rfl
    have hr : ∀ n x r, o.readUint n (o.writeUint n x ++ r) = pure (x % 256 ^ n, r) :=
      ByteOrder.readUint_writeUint o
    simp only [parseBlockedFrame, List.append_assoc, List.singleton_append, List.cons_append,
      List.nil_append, hb,
      ByteOrder.readUint32, ByteOrder.writeUint32, hr, pure_bind, hsid]
    rfl

end PStream
