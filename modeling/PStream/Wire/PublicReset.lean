import PStream.Wire.ConnectionClose

/-! The PUBLIC_RESET packet (`wire/public_reset.go`, lines 13-67): `WritePublicReset` and
`ParsePublicReset`. Its body is a crypto message of the `handshake` package, which is not in the
sources: `ParseHandshakeMessage` is modelled from the spec's account of the layout, a tag, a u32
count of entries, the tag table of entries (a tag and the u32 end offset of its value), then the
values. The parser reads back every message laid out so, and so every PUBLIC_RESET: the rejected
packet number and the nonce come back whatever their 64 bits. It rejects every proper prefix of
such a message, so a cut PUBLIC_RESET is never read as one. -/

namespace PStream

/-- Modelled from the spec: the tags `PRST`, `RNON` and `RSEQ` of the `handshake` package, four
ASCII characters read as a little-endian u32. -/
def tagPRST : UInt32 := 0x54535250
def tagRNON : UInt32 := 0x4E4F4E52
def tagRSEQ : UInt32 := 0x51455352

/-- Modelled from the spec: a `handshake.HandshakeMessage`. A Go map assignment replaces the
value of its key; here it puts the new entry first, and a lookup takes the first entry of a key. -/
structure HandshakeMessage where
  tag : UInt32
  data : List (UInt32 × List UInt8)
  deriving DecidableEq, Repr

def parseEntries : Nat → List UInt8 → UInt32 → List (UInt32 × List UInt8) → List UInt8 →
    Except ParseError (List (UInt32 × List UInt8) × List UInt8)
  | 0, _, _, data, r => .ok (data, r)
  | n + 1, index, dataStart, data, r => do
    let tag := UInt32.ofNat (leValue (index.take 4))
    let dataEnd := UInt32.ofNat (leValue ((index.drop 4).take 4))
    let (value, r) ← readFull (dataEnd - dataStart).toNat r
    parseEntries n (index.drop 8) dataEnd ((tag, value) :: data) r

/-- Modelled from the spec: `ParseHandshakeMessage` of a reader holding `r`, with the errors of
`io.ReadFull`. -/
def parseHandshakeMessage (r : List UInt8) : Except ParseError (HandshakeMessage × List UInt8) := do
  let (slice4, r) ← readFull 4 r
  let messageTag := UInt32.ofNat (leValue slice4)
  let (slice4, r) ← readFull 4 r
  let nPairs := UInt32.ofNat (leValue slice4)
  let (index, r) ← readFull (nPairs.toNat * 8) r
  let (data, r) ← parseEntries nPairs.toNat index 0 [] r
  pure (⟨messageTag, data⟩, r)

structure PublicReset where
  rejectedPacketNumber : PacketNumber
  nonce : BitVec 64
  deriving DecidableEq, Repr

inductive PublicResetError
  | handshake (e : ParseError)
  | other (text : String)
  deriving DecidableEq, Repr

def ByteOrder.writeUint64 (o : ByteOrder) (x : Nat) : List UInt8 := o.writeUint 8 x

@[simp] theorem ByteOrder.length_writeUint32 (o : ByteOrder) (x : Nat) :
    (o.writeUint32 x).length = 4 :=
  length_writeUint o 4 x

@[simp] theorem ByteOrder.length_writeUint64 (o : ByteOrder) (x : Nat) :
    (o.writeUint64 x).length = 8 :=
  length_writeUint o 8 x

open ByteOrder in
def writePublicReset (connectionID : ConnectionID) (rejectedPacketNumber : PacketNumber)
    (nonceProof : BitVec 64) : List UInt8 :=
  [0x0a] ++ littleEndian.writeUint64 connectionID.toNat ++
    littleEndian.writeUint32 tagPRST.toNat ++ littleEndian.writeUint32 2 ++
    littleEndian.writeUint32 tagRNON.toNat ++ littleEndian.writeUint32 8 ++
    littleEndian.writeUint32 tagRSEQ.toNat ++ littleEndian.writeUint32 16 ++
    littleEndian.writeUint64 nonceProof.toNat ++ littleEndian.writeUint64 rejectedPacketNumber.toNat

/-- `ParsePublicReset` of a reader holding `r`: the tag is checked first, then `RSEQ`, then
`RNON`, each present and 8 bytes long, read little endian. -/
def parsePublicReset (r : List UInt8) : Except PublicResetError (PublicReset × List UInt8) := do
  let (msg, r) ← (parseHandshakeMessage r).mapError .handshake
  if msg.tag ≠ tagPRST then throw (.other "wrong public reset tag")
  let some rseq := msg.data.lookup tagRSEQ | throw (.other "RSEQ missing")
  if rseq.length ≠ 8 then throw (.other "invalid RSEQ tag")
  let rejectedPacketNumber : PacketNumber := BitVec.ofNat 64 (leValue rseq)
  let some rnon := msg.data.lookup tagRNON | throw (.other "RNON missing")
  if rnon.length ≠ 8 then throw (.other "invalid RNON tag")
  pure (⟨rejectedPacketNumber, BitVec.ofNat 64 (leValue rnon)⟩, r)

open ByteOrder

/-- Modelled from the spec: the tag table of entries whose values start at offset `dataStart`,
each tag with the end offset of its value. -/
def tagTable : Nat → List (UInt32 × List UInt8) → List UInt8
  | _, [] => []
  | dataStart, (tag, value) :: es =>
    littleEndian.writeUint32 tag.toNat ++ littleEndian.writeUint32 (dataStart + value.length) ++
      tagTable (dataStart + value.length) es

/-- Modelled from the spec: a crypto message of tag `tag` with the entries `es`, laid out as
`ParseHandshakeMessage` reads it. -/
def cryptoMessage (tag : UInt32) (es : List (UInt32 × List UInt8)) : List UInt8 :=
  littleEndian.writeUint32 tag.toNat ++ littleEndian.writeUint32 es.length ++ tagTable 0 es ++
    (es.map Prod.snd).flatten

@[simp] theorem length_tagTable (dataStart : Nat) (es : List (UInt32 × List UInt8)) :
    (tagTable dataStart es).length = es.length * 8 := by
  induction es generalizing dataStart with
  | nil => rfl
  | cons e es ih => simp [tagTable, writeUint32, ih]; omega

theorem UInt32.ofNat_toNat (e : UInt32) : UInt32.ofNat e.toNat = e :=
  UInt32.toNat.inj (UInt32.toNat_ofNat_of_lt e.toNat_lt_size)

@[simp] theorem ofNat_leValue_writeUint32 (x : Nat) :
    UInt32.ofNat (leValue (littleEndian.writeUint32 x)) = UInt32.ofNat x := by
  rw [writeUint32, writeUint, leValue_leBytes]
  exact UInt32.toNat.inj (by simp [UInt32.toNat, UInt32.ofNat, BitVec.toNat_ofNat])

theorem toNat_ofNat_add_sub (dataStart len : Nat) (h : dataStart + len < 2 ^ 32) :
    (UInt32.ofNat (dataStart + len) - UInt32.ofNat dataStart).toNat = len := by
  have h₁ : (UInt32.ofNat (dataStart + len)).toNat = dataStart + len :=
    UInt32.toNat_ofNat_of_lt h
  have h₂ : (UInt32.ofNat dataStart).toNat = dataStart :=
    UInt32.toNat_ofNat_of_lt (Nat.lt_of_le_of_lt (Nat.le_add_right _ _) h)
  have hle : (UInt32.ofNat dataStart).toNat ≤ (UInt32.ofNat (dataStart + len)).toNat := by omega
  rw [UInt32.toNat_sub_of_le _ _ hle, h₁, h₂]
  omega

theorem parseEntries_tagTable_cons (tag : UInt32) (value : List UInt8)
    (es : List (UInt32 × List UInt8)) (dataStart : Nat) (data : List (UInt32 × List UInt8))
    (r : List UInt8) (h : dataStart + value.length < 2 ^ 32) :
    parseEntries (es.length + 1) (tagTable dataStart ((tag, value) :: es))
        (UInt32.ofNat dataStart) data r =
      readFull value.length r >>= fun (v, r) =>
        parseEntries es.length (tagTable (dataStart + value.length) es)
          (UInt32.ofNat (dataStart + value.length)) ((tag, v) :: data) r := by
  simp only [parseEntries, tagTable, List.append_assoc]
  rw [List.take_left' (length_writeUint32 _ _), List.drop_left' (length_writeUint32 _ _),
    List.take_left' (length_writeUint32 _ _), ← List.append_assoc,
    List.drop_left' (by simp : (littleEndian.writeUint32 tag.toNat ++
      littleEndian.writeUint32 (dataStart + value.length)).length = 8),
    ofNat_leValue_writeUint32, ofNat_leValue_writeUint32, UInt32.ofNat_toNat,
    toNat_ofNat_add_sub _ _ h]

theorem parseEntries_tagTable (es : List (UInt32 × List UInt8)) (dataStart : Nat)
    (data : List (UInt32 × List UInt8)) (rest : List UInt8)
    (h : dataStart + (es.map fun e => e.2.length).sum < 2 ^ 32) :
    parseEntries es.length (tagTable dataStart es) (UInt32.ofNat dataStart) data
      ((es.map Prod.snd).flatten ++ rest) = .ok (es.reverse ++ data, rest) := by
  induction es generalizing dataStart data with
  | nil => rfl
  | cons e es ih =>
    obtain ⟨tag, value⟩ := e
    simp only [List.map_cons, List.sum_cons] at h
    rw [List.length_cons, parseEntries_tagTable_cons _ _ _ _ _ _ (by omega), List.map_cons,
      List.flatten_cons, List.append_assoc, readFull_append rfl, pure_bind]
    exact (ih _ _ (by omega)).trans (by simp)

@[simp] theorem length_values (es : List (UInt32 × List UInt8)) :
    (es.map Prod.snd).flatten.length = (es.map fun e => e.2.length).sum := by
  induction es <;> simp [*]

theorem parseEntries_tagTable_take (es : List (UInt32 × List UInt8)) (dataStart : Nat)
    (data : List (UInt32 × List UInt8)) (k : Nat)
    (h : dataStart + (es.map fun e => e.2.length).sum < 2 ^ 32)
    (hk : k < (es.map fun e => e.2.length).sum) :
    ∃ e, parseEntries es.length (tagTable dataStart es) (UInt32.ofNat dataStart) data
      ((es.map Prod.snd).flatten.take k) = .error e := by
  induction es generalizing dataStart data k with
  | nil => simp at hk
  | cons e es ih =>
    obtain ⟨tag, value⟩ := e
    simp only [List.map_cons, List.sum_cons] at h hk
    rw [List.length_cons, parseEntries_tagTable_cons _ _ _ _ _ _ (by omega)]
    simp only [List.map_cons, List.flatten_cons]
    by_cases hv : k < value.length
    · rw [readFull_of_lt (by simp; omega)]
      exact ⟨_, rfl⟩
    · rw [List.take_append_eq_append_take, List.take_of_length_le (by omega), readFull_append rfl,
        pure_bind]
      exact ih _ _ _ (by omega) (by omega)

theorem parseHandshakeMessage_cryptoMessage (tag : UInt32) (es : List (UInt32 × List UInt8))
    (rest : List UInt8) (hcount : es.length < 2 ^ 32)
    (hsum : (es.map fun e => e.2.length).sum < 2 ^ 32) :
    parseHandshakeMessage (cryptoMessage tag es ++ rest) = .ok (⟨tag, es.reverse⟩, rest) := by
  have hn : (UInt32.ofNat es.length).toNat = es.length := UInt32.toNat_ofNat_of_lt hcount
  have he : parseEntries es.length (tagTable 0 es) 0 [] ((es.map Prod.snd).flatten ++ rest) =
      .ok (es.reverse ++ [], rest) :=
    parseEntries_tagTable es 0 [] rest (by omega)
  simp only [parseHandshakeMessage, cryptoMessage, List.append_assoc,
    readFull_append (length_writeUint32 _ _), pure_bind, ofNat_leValue_writeUint32,
    UInt32.ofNat_toNat, hn, readFull_append (length_tagTable 0 es), he, List.append_nil]
  rfl

theorem parseHandshakeMessage_take (tag : UInt32) (es : List (UInt32 × List UInt8)) (k : Nat)
    (hcount : es.length < 2 ^ 32) (hsum : (es.map fun e => e.2.length).sum < 2 ^ 32)
    (hk : k < (cryptoMessage tag es).length) :
    ∃ e, parseHandshakeMessage ((cryptoMessage tag es).take k) = .error e := by
  have hn : (UInt32.ofNat es.length).toNat = es.length := UInt32.toNat_ofNat_of_lt hcount
  simp only [cryptoMessage, List.append_assoc, List.length_append, length_writeUint32,
    length_tagTable, length_values] at hk ⊢
  unfold parseHandshakeMessage
  -- the reader ends in the tag, in the count, in the tag table, or in the values
  by_cases h₁ : k < 4
  · rw [readFull_of_lt (by simp; omega)]
    exact ⟨_, rfl⟩
  rw [List.take_append_eq_append_take, List.take_of_length_le (by simp; omega),
    readFull_append (length_writeUint32 _ _), pure_bind, length_writeUint32]
  dsimp only
  by_cases h₂ : k - 4 < 4
  · rw [readFull_of_lt (by simp; omega)]
    exact ⟨_, rfl⟩
  rw [List.take_append_eq_append_take, List.take_of_length_le (by simp; omega),
    readFull_append (length_writeUint32 _ _), pure_bind, length_writeUint32]
  dsimp only
  rw [ofNat_leValue_writeUint32, hn]
  by_cases h₃ : k - 4 - 4 < es.length * 8
  · rw [readFull_of_lt (by simp; omega)]
    exact ⟨_, rfl⟩
  rw [List.take_append_eq_append_take, List.take_of_length_le (by simp; omega),
    readFull_append (length_tagTable 0 es), pure_bind, length_tagTable]
  obtain ⟨e, he⟩ := parseEntries_tagTable_take es 0 [] (k - 4 - 4 - es.length * 8) (by omega)
    (by omega)
  exact ⟨e, by rw [show (0 : UInt32) = UInt32.ofNat 0 from rfl, he]; rfl⟩

@[simp] theorem ofNat_leValue_writeUint64 (x : BitVec 64) :
    BitVec.ofNat 64 (leValue (littleEndian.writeUint64 x.toNat)) = x := by
  rw [writeUint64, writeUint, leValue_leBytes]
  exact BitVec.eq_of_toNat_eq (by simp [BitVec.toNat_ofNat, Nat.mod_eq_of_lt x.isLt])

theorem writePublicReset_eq (connectionID : ConnectionID) (rejectedPacketNumber : PacketNumber)
    (nonceProof : BitVec 64) :
    writePublicReset connectionID rejectedPacketNumber nonceProof =
      [0x0a] ++ littleEndian.writeUint64 connectionID.toNat ++ cryptoMessage tagPRST
        [(tagRNON, littleEndian.writeUint64 nonceProof.toNat),
          (tagRSEQ, littleEndian.writeUint64 rejectedPacketNumber.toNat)] := by
  simp [writePublicReset, cryptoMessage, tagTable]

/-- `ParsePublicReset`, on the bytes `WritePublicReset` writes after the flag byte and the
connection ID, gives back the rejected packet number and the nonce, and reads every byte. -/
theorem parsePublicReset_writePublicReset (connectionID : ConnectionID)
    (rejectedPacketNumber : PacketNumber) (nonceProof : BitVec 64) :
    parsePublicReset ((writePublicReset connectionID rejectedPacketNumber nonceProof).drop 9) =
      .ok (⟨rejectedPacketNumber, nonceProof⟩, []) := by
  have hm := parseHandshakeMessage_cryptoMessage tagPRST
    [(tagRNON, littleEndian.writeUint64 nonceProof.toNat),
      (tagRSEQ, littleEndian.writeUint64 rejectedPacketNumber.toNat)] [] (by simp) (by simp)
  have hbind : ∀ {α β : Type} (a : α) (f : α → Except PublicResetError β),
      (Except.ok a >>= f) = f a := fun _ _ => rfl
  rw [List.append_nil] at hm
  rw [writePublicReset_eq, List.drop_left' (by simp), parsePublicReset, hm]
  simp [Except.mapError, hbind, List.lookup_cons, show (tagRNON == tagRSEQ) = false by decide]
  rfl

/-- `ParsePublicReset` rejects every proper prefix of those bytes, with the error of
`ParseHandshakeMessage`: a cut PUBLIC_RESET is never read as one. -/
theorem parsePublicReset_take (connectionID : ConnectionID) (rejectedPacketNumber : PacketNumber)
    (nonceProof : BitVec 64) (k : Nat)
    (hk : k < ((writePublicReset connectionID rejectedPacketNumber nonceProof).drop 9).length) :
    ∃ e, parsePublicReset
      (((writePublicReset connectionID rejectedPacketNumber nonceProof).drop 9).take k) =
        .error (.handshake e) := by
  rw [writePublicReset_eq, List.drop_left' (by simp)] at hk ⊢
  obtain ⟨e, he⟩ := parseHandshakeMessage_take tagPRST _ k (by simp) (by simp) hk
  exact ⟨e, by rw [parsePublicReset, he]; rfl⟩

theorem parsePublicReset_take_sample :
    39 < ((writePublicReset 7 5 9).drop 9).length ∧
      parsePublicReset (((writePublicReset 7 5 9).drop 9).take 39) =
        .error (.handshake .unexpectedEOF) ∧
      ∃ e, parsePublicReset (((writePublicReset 7 5 9).drop 9).take 39) = .error (.handshake e) :=
  ⟨by decide, rfl, parsePublicReset_take 7 5 9 39 (by decide)⟩

example : parsePublicReset (((writePublicReset 7 5 9).drop 9).take 0) =
    .error (.handshake .eof) := rfl

end PStream
