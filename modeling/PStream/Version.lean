import PStream.Protocol
import Mathlib.Data.List.Sort
import Mathlib.Algebra.Group.Int

/-! Protocol versions (`protocol/version.go`, the third unnamed part of the sources, lines 1-84).
A version is a Go `int` and its tag a `uint32`, here `Int` and `BitVec 32`.

`VersionNumberToTag` writes `'Q'` and the three low decimal digits of `uint32(vn)` as ASCII,
least significant byte first, and `VersionTagToNumber` reads them back: the round trip gives
`uint32(vn) % 1000`, so every version below 1000 comes back, and every tag `VersionNumberToTag`
writes survives being read and written again.

`ChooseSupportedVersion` returns the first of our versions that the peer also lists. On
`SupportedVersions`, which is sorted in descending order, that is the highest version both
sides support, whatever the order of the peer's list, and `VersionUnsupported` exactly when
there is none. `UsesTLS` and `String` are not modelled. -/

namespace PStream

abbrev VersionNumber := Int

def version37 : VersionNumber := 37
def version38 : VersionNumber := 38
def version39 : VersionNumber := 39
def versionUnsupported : VersionNumber := -1
def versionMP : VersionNumber := 512

def supportedVersions : List VersionNumber := [versionMP, version39, version38, version37]

/-- `VersionNumberToTag`: `'Q' + ((v/100%10)+'0')<<8 + ((v/10%10)+'0')<<16 + ((v%10)+'0')<<24`
in `uint32`, for `v := uint32(vn)`. -/
def versionNumberToTag (vn : VersionNumber) : BitVec 32 :=
  let v := BitVec.ofInt 32 vn
  let digit (d : BitVec 32) (k : Nat) : BitVec 32 := (d + (0x30 : BitVec 32)) <<< k
  0x51 + digit (v / 100 % 10) 8 + digit (v / 10 % 10) 16 + digit (v % 10) 24

/-- `VersionTagToNumber`: `((v>>8)&0xff-'0')*100 + ((v>>16)&0xff-'0')*10 + ((v>>24)&0xff-'0')`
in `uint32`, converted to `int`. -/
def versionTagToNumber (v : BitVec 32) : VersionNumber :=
  let digit (k : Nat) : BitVec 32 := (v >>> k &&& (0xff : BitVec 32)) - (0x30 : BitVec 32)
  (digit 8 * 100 + digit 16 * 10 + digit 24).toNat

theorem toNat_digit_shiftLeft (x : BitVec 32) (d k : Nat) (hx : x.toNat = d) (hd : d < 10)
    (hk : k ≤ 24) : ((x + (0x30 : BitVec 32)) <<< k).toNat = (d + 48) * 2 ^ k := by
  have hpow : 2 ^ k ≤ 2 ^ 24 := Nat.pow_le_pow_right (by decide) hk
  have hlt : (d + 48) * 2 ^ k < 2 ^ 32 :=
    calc (d + 48) * 2 ^ k ≤ 57 * 2 ^ 24 := Nat.mul_le_mul (by omega) hpow
      _ < 2 ^ 32 := by decide
  have h48 : (0x30 : BitVec 32).toNat = 48 := rfl
  rw [BitVec.toNat_shiftLeft, BitVec.toNat_add, hx, Nat.shiftLeft_eq, h48,
    Nat.mod_eq_of_lt (show d + 48 < 2 ^ 32 by omega)]
  exact Nat.mod_eq_of_lt hlt

theorem toNat_versionNumberToTag (vn : VersionNumber) :
    (versionNumberToTag vn).toNat =
      81 + ((BitVec.ofInt 32 vn).toNat / 100 % 10 + 48) * 256 +
        ((BitVec.ofInt 32 vn).toNat / 10 % 10 + 48) * 65536 +
        ((BitVec.ofInt 32 vn).toNat % 10 + 48) * 16777216 := by
  set v := BitVec.ofInt 32 vn
  have h₂ := toNat_digit_shiftLeft (v / 100 % 10) (v.toNat / 100 % 10) 8
    (by simp [BitVec.toNat_umod, BitVec.toNat_udiv]) (Nat.mod_lt _ (by decide)) (by decide)
  have h₁ := toNat_digit_shiftLeft (v / 10 % 10) (v.toNat / 10 % 10) 16
    (by simp [BitVec.toNat_umod, BitVec.toNat_udiv]) (Nat.mod_lt _ (by decide)) (by decide)
  have h₀ := toNat_digit_shiftLeft (v % 10) (v.toNat % 10) 24
    (by simp [BitVec.toNat_umod]) (Nat.mod_lt _ (by decide)) (by decide)
  have hq : (0x51 : BitVec 32).toNat = 81 := rfl
  have : v.toNat / 100 % 10 < 10 := Nat.mod_lt _ (by decide)
  have : v.toNat / 10 % 10 < 10 := Nat.mod_lt _ (by decide)
  have : v.toNat % 10 < 10 := Nat.mod_lt _ (by decide)
  unfold versionNumberToTag
  dsimp only
  rw [BitVec.toNat_add, BitVec.toNat_add, BitVec.toNat_add, h₂, h₁, h₀, hq]
  omega

theorem toNat_byte (v : BitVec 32) (k : Nat) :
    (v >>> k &&& (0xff : BitVec 32)).toNat = v.toNat / 2 ^ k % 256 := by
  simp only [BitVec.toNat_and, BitVec.toNat_ushiftRight, Nat.shiftRight_eq_div_pow,
    BitVec.toNat_ofNat]
  exact Nat.and_pow_two_sub_one_eq_mod _ 8

theorem toNat_digit_byte (v : BitVec 32) (k d : Nat) (hv : v.toNat / 2 ^ k % 256 = d + 48) :
    ((v >>> k &&& (0xff : BitVec 32)) - (0x30 : BitVec 32)).toNat = d := by
  have h48 : (0x30 : BitVec 32).toNat = 48 := rfl
  have hlt := (v >>> k &&& (0xff : BitVec 32)).isLt
  rw [BitVec.toNat_sub, toNat_byte, hv, h48]
  omega

theorem versionTagToNumber_of_digits (t : BitVec 32) (a b c : Nat) (ha : a < 10) (hb : b < 10)
    (hc : c < 10) (ht : t.toNat = 81 + (a + 48) * 256 + (b + 48) * 65536 + (c + 48) * 16777216) :
    versionTagToNumber t = ((a * 100 + b * 10 + c : Nat) : Int) := by
  have hq₁ : t.toNat / 2 ^ 8 = (a + 48) + 256 * ((b + 48) + 256 * (c + 48)) :=
    Nat.div_eq_of_lt_le (by rw [ht]; omega) (by rw [ht]; omega)
  have hq₂ : t.toNat / 2 ^ 16 = (b + 48) + 256 * (c + 48) :=
    Nat.div_eq_of_lt_le (by rw [ht]; omega) (by rw [ht]; omega)
  have hq₃ : t.toNat / 2 ^ 24 = c + 48 :=
    Nat.div_eq_of_lt_le (by rw [ht]; omega) (by rw [ht]; omega)
  have h₂ := toNat_digit_byte t 8 a (by rw [hq₁]; omega)
  have h₁ := toNat_digit_byte t 16 b (by rw [hq₂]; omega)
  have h₀ := toNat_digit_byte t 24 c (by rw [hq₃]; omega)
  have h100 : (100 : BitVec 32).toNat = 100 := rfl
  have h10 : (10 : BitVec 32).toNat = 10 := rfl
  unfold versionTagToNumber
  dsimp only
  rw [BitVec.toNat_add, BitVec.toNat_add, BitVec.toNat_mul, BitVec.toNat_mul, h₂, h₁, h₀,
    h100, h10]
  congr 1
  omega

theorem digits_mod_thousand (n : Nat) :
    n / 100 % 10 * 100 + n / 10 % 10 * 10 + n % 10 = n % 1000 := by
  have h₁ := Nat.div_div_eq_div_mul n 10 10
  have h₂ := Nat.div_div_eq_div_mul n 100 10
  omega

theorem versionTagToNumber_versionNumberToTag (vn : VersionNumber) :
    versionTagToNumber (versionNumberToTag vn) = vn % 2 ^ 32 % 1000 := by
  have hn : ((BitVec.ofInt 32 vn).toNat : Int) = vn % 2 ^ 32 := by
    rw [BitVec.toNat_ofInt]
    omega
  rw [versionTagToNumber_of_digits _ _ _ _ (Nat.mod_lt _ (by decide)) (Nat.mod_lt _ (by decide))
    (Nat.mod_lt _ (by decide)) (toNat_versionNumberToTag vn), digits_mod_thousand, Int.ofNat_emod,
    hn]
  rfl

/-- Tags round trip: a version read from a tag and written again is that tag, and a version
comes back from its tag as `uint32(vn) % 1000`, so every version from 0 to 999 comes back. -/
theorem versionTag_roundTrip (vn : VersionNumber) :
    versionTagToNumber (versionNumberToTag vn) = vn % 2 ^ 32 % 1000 ∧
      versionNumberToTag (versionTagToNumber (versionNumberToTag vn)) = versionNumberToTag vn := by
  refine ⟨versionTagToNumber_versionNumberToTag vn, BitVec.eq_of_toNat_eq ?_⟩
  have hm : (BitVec.ofInt 32 (vn % 2 ^ 32 % 1000)).toNat = (BitVec.ofInt 32 vn).toNat % 1000 := by
    rw [BitVec.toNat_ofInt, BitVec.toNat_ofInt]
    omega
  rw [versionTagToNumber_versionNumberToTag, toNat_versionNumberToTag, toNat_versionNumberToTag, hm]
  have h₁ := Nat.div_div_eq_div_mul (BitVec.ofInt 32 vn).toNat 10 10
  have h₂ := Nat.div_div_eq_div_mul ((BitVec.ofInt 32 vn).toNat % 1000) 10 10
  omega

def isSupportedVersion (supported : List VersionNumber) (v : VersionNumber) : Bool :=
  supported.any fun t => t == v

def chooseSupportedVersion (ours theirs : List VersionNumber) : VersionNumber :=
  (ours.find? fun ourVer => theirs.any fun theirVer => ourVer == theirVer).getD versionUnsupported

@[simp] theorem isSupportedVersion_iff (supported : List VersionNumber) (v : VersionNumber) :
    isSupportedVersion supported v = true ↔ v ∈ supported := by
  simp [isSupportedVersion]

@[simp] theorem chooseSupportedVersion_nil (theirs : List VersionNumber) :
    chooseSupportedVersion [] theirs = versionUnsupported := rfl

theorem chooseSupportedVersion_cons (ourVer : VersionNumber) (ours theirs : List VersionNumber) :
    chooseSupportedVersion (ourVer :: ours) theirs =
      if ourVer ∈ theirs then ourVer else chooseSupportedVersion ours theirs := by
  by_cases h : ourVer ∈ theirs <;>
    simp [chooseSupportedVersion, List.find?_cons, h, exists_eq_right_right']

theorem chooseSupportedVersion_congr (ours : List VersionNumber)
    {theirs theirs' : List VersionNumber}
    (h : ∀ v, v ∈ theirs ↔ v ∈ theirs') :
    chooseSupportedVersion ours theirs = chooseSupportedVersion ours theirs' := by
  induction ours with
  | nil => rfl
  | cons ourVer ours ih => simp only [chooseSupportedVersion_cons, h ourVer, ih]

theorem chooseSupportedVersion_of_forall_not_mem {ours theirs : List VersionNumber}
    (h : ∀ w ∈ ours, w ∉ theirs) :
    chooseSupportedVersion ours theirs = versionUnsupported := by
  induction ours with
  | nil => rfl
  | cons ourVer ours ih =>
    rw [chooseSupportedVersion_cons, if_neg (h ourVer (List.mem_cons_self _ _))]
    exact ih fun w hw => h w (List.mem_cons_of_mem _ hw)

theorem chooseSupportedVersion_highest {ours theirs : List VersionNumber}
    (hsorted : ours.Sorted (· > ·)) {w : VersionNumber} (hw : w ∈ ours) (hw' : w ∈ theirs) :
    chooseSupportedVersion ours theirs ∈ ours ∧
      chooseSupportedVersion ours theirs ∈ theirs ∧
      w ≤ chooseSupportedVersion ours theirs := by
  induction ours with
  | nil => cases hw
  | cons ourVer ours ih =>
    obtain ⟨hhead, htail⟩ := List.sorted_cons.1 hsorted
    rw [chooseSupportedVersion_cons]
    by_cases ho : ourVer ∈ theirs
    · rw [if_pos ho]
      refine ⟨List.mem_cons_self _ _, ho, ?_⟩
      rcases List.mem_cons.1 hw with rfl | hw
      · exact le_rfl
      · exact (hhead w hw).le
    · rw [if_neg ho]
      have hw : w ∈ ours := (List.mem_cons.1 hw).resolve_left fun h => ho (h ▸ hw')
      obtain ⟨h₁, h₂, h₃⟩ := ih htail hw
      exact ⟨List.mem_cons_of_mem _ h₁, h₂, h₃⟩

/-- Negotiating from `SupportedVersions`: `VersionUnsupported` exactly when the peer lists none
of them; otherwise a version both sides support, and the highest such; and the same result for
every list of the peer's with the same versions, in any order. -/
theorem chooseSupportedVersion_supportedVersions (theirs : List VersionNumber) :
    (chooseSupportedVersion supportedVersions theirs = versionUnsupported ↔
        ∀ w ∈ supportedVersions, w ∉ theirs) ∧
      (∀ w ∈ supportedVersions, w ∈ theirs →
        isSupportedVersion supportedVersions (chooseSupportedVersion supportedVersions theirs) ∧
          isSupportedVersion theirs (chooseSupportedVersion supportedVersions theirs) ∧
          w ≤ chooseSupportedVersion supportedVersions theirs) ∧
      ∀ theirs' : List VersionNumber, (∀ v, v ∈ theirs' ↔ v ∈ theirs) →
        chooseSupportedVersion supportedVersions theirs' =
          chooseSupportedVersion supportedVersions theirs := by
  have hsorted : supportedVersions.Sorted (· > ·) := by decide
  have hbest := fun w (hw : w ∈ supportedVersions) (hw' : w ∈ theirs) =>
    chooseSupportedVersion_highest hsorted hw hw'
  refine ⟨⟨fun hu w hw hw' => ?_, chooseSupportedVersion_of_forall_not_mem⟩,
    fun w hw hw' => by simpa using hbest w hw hw', fun theirs' h =>
      chooseSupportedVersion_congr _ h⟩
  have hmem := (hbest w hw hw').1
  rw [hu] at hmem
  exact absurd hmem (by decide)

end PStream
