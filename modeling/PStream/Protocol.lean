import Mathlib.Data.List.Basic
import Mathlib.Data.List.Sort
import Mathlib.Algebra.Order.Ring.Nat

/-! Scalar types of the `protocol` package as the handler, packer and scheduler use them.
Packet numbers, byte counts and connection IDs are `uint64` in Go and are `BitVec 64` here, path
IDs are `uint8` and are `BitVec 8`, so every wrap the Go arithmetic can make is made by the model.
Durations and times are nanosecond integers; `time.Time{}` is the time `0`, so `IsZero` is
`= 0`. The `protocol` constants are not in the sources and are gathered in `Config`.

A map keyed by path ID is a list with one entry per key. Go ranges over a map in an order that
can change from one `range` to the next; `rangeBy` lists the entries by a rank of their keys,
which gives every order of distinct keys, so a call takes one rank per range it makes. -/

namespace PStream

abbrev PacketNumber := BitVec 64
abbrev ByteCount := BitVec 64
abbrev ConnectionID := BitVec 64
abbrev PathID := BitVec 8
abbrev StreamID := BitVec 32
abbrev Duration := Int
abbrev Time := Int

abbrev PacketNumberLen := Nat

inductive EncryptionLevel
  | unspecified
  | unencrypted
  | secure
  | forwardSecure
  deriving DecidableEq, Repr

def EncryptionLevel.rank : EncryptionLevel → Nat
  | .unspecified => 0
  | .unencrypted => 1
  | .secure => 2
  | .forwardSecure => 3

inductive Perspective
  | server
  | client
  deriving DecidableEq, Repr

structure Config where
  maxTrackedSentPackets : PacketNumber
  maxTrackedSkippedPackets : Nat
  maxNonRetransmittablePackets : Nat
  maxPacketSize : ByteCount
  nonForwardSecurePacketSizeReduction : ByteCount

def initialPathID : PathID := 0

theorem lookup_cons_pair {α : Type} (k q : PathID) (n : α) (m : List (PathID × α)) :
    ((k, n) :: m).lookup q = if q = k then some n else m.lookup q := by
  rw [List.lookup_cons]
  cases h : q == k <;> simp_all

theorem lookup_of_mem_of_nodup {α : Type} {m : List (PathID × α)} {k : PathID} {v : α}
    (hm : (k, v) ∈ m) (hnodup : (m.map Prod.fst).Nodup) : m.lookup k = some v := by
  induction m with
  | nil => cases hm
  | cons e m ih =>
    obtain ⟨k', v'⟩ := e
    simp only [List.map_cons, List.nodup_cons] at hnodup
    rw [lookup_cons_pair]
    rcases List.mem_cons.1 hm with he | hm
    · obtain ⟨rfl, rfl⟩ := Prod.mk.inj he
      exact if_pos rfl
    · have hk : k ≠ k' := fun hk => hnodup.1 (hk ▸ List.mem_map_of_mem Prod.fst hm)
      rw [if_neg hk]
      exact ih hm hnodup.2

theorem mem_of_lookup {α : Type} {m : List (PathID × α)} {k : PathID} {v : α}
    (h : m.lookup k = some v) : (k, v) ∈ m := by
  obtain ⟨l₁, l₂, rfl, -⟩ := List.lookup_eq_some_iff.1 h
  simp

theorem lookup_eq_of_perm {α : Type} {m m' : List (PathID × α)} (hp : m.Perm m')
    (hnodup : (m.map Prod.fst).Nodup) (k : PathID) : m.lookup k = m'.lookup k := by
  have hnodup' := (hp.map Prod.fst).nodup_iff.1 hnodup
  cases h : m.lookup k with
  | some v => exact (lookup_of_mem_of_nodup (hp.subset (mem_of_lookup h)) hnodup').symm
  | none =>
    cases h' : m'.lookup k with
    | none => rfl
    | some v =>
      rw [lookup_of_mem_of_nodup (hp.symm.subset (mem_of_lookup h')) hnodup] at h
      cases h

/-- One `range` over a map keyed by path ID, in the order of `rank` on the keys; entries of
equal rank keep the table's order. -/
def rangeBy {α : Type} (rank : PathID → Nat) (m : List (PathID × α)) : List (PathID × α) :=
  m.insertionSort fun a b => rank a.1 ≤ rank b.1

theorem rangeBy_perm {α : Type} (rank : PathID → Nat) (m : List (PathID × α)) :
    (rangeBy rank m).Perm m :=
  List.perm_insertionSort _ _

@[simp] theorem mem_rangeBy {α : Type} {rank : PathID → Nat} {m : List (PathID × α)}
    {e : PathID × α} : e ∈ rangeBy rank m ↔ e ∈ m :=
  (rangeBy_perm rank m).mem_iff

end PStream
