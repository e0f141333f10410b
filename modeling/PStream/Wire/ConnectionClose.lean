import PStream.Wire.Frame

/-! The CONNECTION_CLOSE frame (`wire/public_reset.go`, lines 80-140): `Write`, `MinLength` and
`ParseConnectionCloseFrame`, over the bytes of a buffer and of a reader. A Go string is a byte
sequence, so the reason phrase is a list of bytes. `Write` and the parser agree on every frame
whose reason phrase is at most `uint16(MaxPacketSize)` bytes long: the bytes written are
`MinLength` long and parse back to the frame, whatever follows them. `Write` takes phrases of up
to 65535 bytes, and the parser rejects every phrase longer than `uint16(MaxPacketSize)`. -/

namespace PStream

def leBytes : Nat → Nat → List UInt8
  | 0, _ => []
  | n + 1, x => UInt8.ofNat (x % 256) :: leBytes n (x / 256)

def leValue : List UInt8 → Nat
  | [] => 0
  | b :: bs => b.toNat + 256 * leValue bs

@[simp] theorem length_leBytes (n x : Nat) : (leBytes n x).length = n := by
  induction n generalizing x <;> simp [leBytes, *]

theorem leValue_leBytes (n x : Nat) : leValue (leBytes n x) = x % 256 ^ n := by
  induction n generalizing x with
  | zero => simp [leBytes, leValue, Nat.mod_one]
  | succ n ih =>
    rw [leBytes, leValue, ih, UInt8.toNat_ofNat_of_lt (Nat.mod_lt _ (by decide)), Nat.pow_succ',
      Nat.mod_mul]

/-- Modelled from the spec: the `utils.ByteOrder` of a version (`utils/byteorder*.go`, not in
the sources) writes and reads fixed-width integers big or little endian. -/
inductive ByteOrder
  | bigEndian
  | littleEndian
  deriving DecidableEq, Repr

inductive ParseError
  | eof
  | unexpectedEOF
  | invalidConnectionCloseData (message : String)
  deriving DecidableEq, Repr

namespace ByteOrder

def writeUint (o : ByteOrder) (n x : Nat) : List UInt8 :=
  match o with
  | .bigEndian => (leBytes n x).reverse
  | .littleEndian => leBytes n x

def value (o : ByteOrder) (bs : List UInt8) : Nat :=
  match o with
  | .bigEndian => leValue bs.reverse
  | .littleEndian => leValue bs

def readUint (o : ByteOrder) (n : Nat) (r : List UInt8) : Except ParseError (Nat × List UInt8) :=
  if r.length < n then .error .eof else .ok (o.value (r.take n), r.drop n)

def writeUint16 (o : ByteOrder) (x : Nat) : List UInt8 := o.writeUint 2 x

def writeUint32 (o : ByteOrder) (x : Nat) : List UInt8 := o.writeUint 4 x

def readUint16 (o : ByteOrder) (r : List UInt8) : Except ParseError (Nat × List UInt8) :=
  o.readUint 2 r

def readUint32 (o : ByteOrder) (r : List UInt8) : Except ParseError (Nat × List UInt8) :=
  o.readUint 4 r

@[simp] theorem length_writeUint (o : ByteOrder) (n x : Nat) : (o.writeUint n x).length = n := by
  cases o <;> simp [writeUint]

theorem readUint_writeUint (o : ByteOrder) (n x : Nat) (r : List UInt8) :
    o.readUint n (o.writeUint n x ++ r) = .ok (x % 256 ^ n, r) := by
  have hv : o.value (o.writeUint n x) = x % 256 ^ n := by
    cases o <;> simp [value, writeUint, leValue_leBytes]
  simp [readUint, List.take_left', List.drop_left', hv]

end ByteOrder

theorem UInt32.ofNat_toNat_mod (e : UInt32) : UInt32.ofNat (e.toNat % 256 ^ 4) = e := by
  have hlt : e.toNat < 256 ^ 4 := e.toNat_lt_size
  rw [Nat.mod_eq_of_lt hlt]
  exact UInt32.toNat.inj (UInt32.toNat_ofNat_of_lt e.toNat_lt_size)

def readByte : List UInt8 → Except ParseError (UInt8 × List UInt8)
  | [] => .error .eof
  | b :: r => .ok (b, r)

/-- `io.ReadFull` of `n` bytes: `io.EOF` when nothing is left to read, `io.ErrUnexpectedEOF`
when fewer than `n` bytes are. -/
def readFull (n : Nat) (r : List UInt8) : Except ParseError (List UInt8 × List UInt8) :=
  if r.length < n then .error (if r = [] then .eof else .unexpectedEOF)
  else .ok (r.take n, r.drop n)

@[simp] theorem readFull_append {n : Nat} {bs : List UInt8} (h : bs.length = n) (r : List UInt8) :
    readFull n (bs ++ r) = pure (bs, r) := by
  subst h
  simp [readFull]
  rfl

theorem readFull_of_lt {n : Nat} {r : List UInt8} (h : r.length < n) :
    readFull n r = .error (if r = [] then .eof else .unexpectedEOF) := if_pos h

namespace ConnectionCloseFrame

def minLength (f : ConnectionCloseFrame) : ByteCount :=
  1 + 4 + 2 + BitVec.ofNat 64 f.reasonPhrase.length

/-- `Write` onto a buffer holding `b`: the buffer afterwards, and the error. The type byte and
the error code are in the buffer before the length check, as in Go. -/
def write (f : ConnectionCloseFrame) (o : ByteOrder) (b : List UInt8) :
    List UInt8 × Option String :=
  let b := b ++ [0x02] ++ o.writeUint32 f.errorCode.toNat
  if 65535 < f.reasonPhrase.length then (b, some "ConnectionFrame: ReasonPhrase too long")
  else
    let reasonPhraseLen := f.reasonPhrase.length % 2 ^ 16
    (b ++ o.writeUint16 reasonPhraseLen ++ f.reasonPhrase, none)

theorem write_of_le (f : ConnectionCloseFrame) (o : ByteOrder) (b : List UInt8)
    (h : f.reasonPhrase.length ≤ 65535) :
    f.write o b = (b ++ [0x02] ++ o.writeUint32 f.errorCode.toNat ++
      o.writeUint16 f.reasonPhrase.length ++ f.reasonPhrase, none) := by
  simp [write, Nat.not_lt.2 h, Nat.mod_eq_of_lt (Nat.lt_succ_of_le h)]

theorem length_le_of_write (f : ConnectionCloseFrame) (o : ByteOrder) (b : List UInt8)
    (hw : (f.write o b).2 = none) : f.reasonPhrase.length ≤ 65535 := by
  by_contra h
  simp [write, Nat.lt_of_not_le h] at hw

end ConnectionCloseFrame

/-- `ParseConnectionCloseFrame` of a reader holding `r`: the frame and what is left to read. -/
def parseConnectionCloseFrame (maxPacketSize : ByteCount) (o : ByteOrder) (r : List UInt8) :
    Except ParseError (ConnectionCloseFrame × List UInt8) := do
  let (_, r) ← readByte r
  let (errorCode, r) ← o.readUint32 r
  let (reasonPhraseLen, r) ← o.readUint16 r
  if maxPacketSize.toNat % 2 ^ 16 < reasonPhraseLen then
    throw (.invalidConnectionCloseData "reason phrase too long")
  let (reasonPhrase, r) ← readFull reasonPhraseLen r
  pure (⟨UInt32.ofNat errorCode, reasonPhrase⟩, r)

open ByteOrder in
theorem parseConnectionCloseFrame_written (maxPacketSize : ByteCount) (o : ByteOrder)
    (f : ConnectionCloseFrame) (rest : List UInt8) (h : f.reasonPhrase.length ≤ 65535) :
    parseConnectionCloseFrame maxPacketSize o ([0x02] ++ o.writeUint32 f.errorCode.toNat ++
        o.writeUint16 f.reasonPhrase.length ++ f.reasonPhrase ++ rest) =
      if maxPacketSize.toNat % 2 ^ 16 < f.reasonPhrase.length then
        .error (.invalidConnectionCloseData "reason phrase too long")
      else .ok (f, rest) := by
  have hl : f.reasonPhrase.length % 256 ^ 2 = f.reasonPhrase.length := Nat.mod_eq_of_lt (by omega)
  have hb : ∀ (b : UInt8) r, readByte (b :: r) = pure (b, r) := fun _ _ => rfl
  have hr : ∀ n x r, o.readUint n (o.writeUint n x ++ r) = pure (x % 256 ^ n, r) :=
    readUint_writeUint o
  simp only [parseConnectionCloseFrame, List.append_assoc, List.singleton_append, List.cons_append,
    List.nil_append, hb, readUint32, readUint16, writeUint32, writeUint16, hr, pure_bind, hl,
    readFull_append rfl, UInt32.ofNat_toNat_mod]
  split_ifs <;> rfl

/-- A successful `Write` appends `MinLength` bytes. `ParseConnectionCloseFrame` reads them back to
the frame and leaves what follows them, unless the reason phrase is longer than
`uint16(MaxPacketSize)` bytes: then it fails with "reason phrase too long". -/
theorem connectionClose_write_parse (maxPacketSize : ByteCount) (o : ByteOrder)
    (f : ConnectionCloseFrame) (b rest : List UInt8) (hw : (f.write o b).2 = none) :
    ∃ bs, (f.write o b).1 = b ++ bs ∧ bs.length = f.minLength.toNat ∧
      parseConnectionCloseFrame maxPacketSize o (bs ++ rest) =
        if maxPacketSize.toNat % 2 ^ 16 < f.reasonPhrase.length then
          .error (.invalidConnectionCloseData "reason phrase too long")
        else .ok (f, rest) := by
  have h := f.length_le_of_write o b hw
  rw [f.write_of_le o b h]
  refine ⟨_, by simp only [List.append_assoc], ?_, parseConnectionCloseFrame_written _ o f rest h⟩
  simp [ConnectionCloseFrame.minLength, ByteOrder.writeUint32, ByteOrder.writeUint16]
  omega

theorem connectionClose_write_parse_sample :
    (ConnectionCloseFrame.write ⟨7, [104, 105]⟩ .bigEndian []).2 = none ∧
      ∃ bs, (ConnectionCloseFrame.write ⟨7, [104, 105]⟩ .bigEndian []).1 = [] ++ bs ∧
        bs.length = (ConnectionCloseFrame.minLength ⟨7, [104, 105]⟩).toNat ∧
        parseConnectionCloseFrame 1350 .bigEndian (bs ++ []) =
          if (1350 : ByteCount).toNat % 2 ^ 16 < [104, 105].length then
            .error (.invalidConnectionCloseData "reason phrase too long")
          else .ok (⟨7, [104, 105]⟩, []) :=
  ⟨rfl, connectionClose_write_parse 1350 .bigEndian ⟨7, [104, 105]⟩ [] [] rfl⟩

def oversizedClose : ConnectionCloseFrame := ⟨0, List.replicate 1351 0⟩

theorem connectionClose_oversized_rejected :
    (oversizedClose.write .bigEndian []).2 = none ∧
      parseConnectionCloseFrame 1350 .bigEndian (oversizedClose.write .bigEndian []).1 =
        .error (.invalidConnectionCloseData "reason phrase too long") := by
  have h : oversizedClose.reasonPhrase.length ≤ 65535 := by
    rw [oversizedClose, List.length_replicate]; decide
  have hp := parseConnectionCloseFrame_written 1350 .bigEndian oversizedClose [] h
  rw [List.append_nil] at hp
  rw [oversizedClose.write_of_le _ _ h, List.nil_append, hp]
  exact ⟨rfl, if_pos (by rw [oversizedClose, List.length_replicate]; decide)⟩

end PStream
