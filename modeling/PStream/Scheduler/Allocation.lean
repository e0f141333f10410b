import PStream.Scheduler.PathSelection
import Mathlib.Algebra.BigOperators.Group.Finset
import Mathlib.Algebra.BigOperators.Ring
import Mathlib.Algebra.Order.BigOperators.Group.List
import Mathlib.Tactic.Linarith
import Mathlib.Tactic.Ring
import Mathlib.Tactic.GCongr

/-! What `choosePaths` allocates. In exact arithmetic, every step of the allocation moves bits
from the stream's volume onto the usable paths and never takes any away: the gap walk adds
`owdGap * pathsBdw` or a share of the rest to each path it reaches, and step 3 shares what is
left by bandwidth. So when some usable path has a positive shared bandwidth, the volumes add up
to the stream's size in bits and the allocation in bytes to its size. With a weight of `0`
every shared bandwidth is `0`, and the stream gets nothing.

The gap walk stops at the first two paths of equal delay, and step 3 then shares the whole
volume by bandwidth, including over slower paths that the walk never levelled: on a tie
between the two fastest paths and a slower path, the paths do not finish together, so the
allocation is not the water-filling one. -/

namespace PStream

open scoped BigOperators

/-- `pathsVolume` after steps 2 and 3, from `volume` bits over the usable paths `avail`. -/
def pathsVolume (avail : List Share) (volume : ℚ) : PathID → ℚ :=
  let r := closeAllGaps (avail.insertionSort Share.owdLE) volume
  if 0 < r.2 then shareExcess r.2 avail r.1 else r.1

structure VolumeOn (ids : Finset PathID) (vol : PathID → ℚ) : Prop where
  nonneg : ∀ id, 0 ≤ vol id
  support : ∀ id, id ∉ ids → vol id = 0

def SharesOn (ids : Finset PathID) (cs : List Share) : Prop :=
  ∀ c ∈ cs, c.pathID ∈ ids ∧ 0 ≤ c.bdw

section Volume

variable {ids : Finset PathID}

theorem VolumeOn.zero (ids : Finset PathID) : VolumeOn ids fun _ => 0 :=
  ⟨fun _ => le_rfl, fun _ _ => rfl⟩

theorem VolumeOn.add {vol : PathID → ℚ} (hv : VolumeOn ids vol) {id : PathID} (hid : id ∈ ids)
    {x : ℚ} (hx : 0 ≤ x) : VolumeOn ids (Function.update vol id (vol id + x)) where
  nonneg i := by
    by_cases h : i = id
    · subst h
      rw [Function.update_same]
      exact add_nonneg (hv.nonneg i) hx
    · rw [Function.update_noteq h]
      exact hv.nonneg i
  support i hi := by
    rw [Function.update_noteq (by rintro rfl; exact hi hid)]
    exact hv.support i hi

theorem sum_update_add {id : PathID} (hid : id ∈ ids) (vol : PathID → ℚ) (x : ℚ) :
    ∑ i ∈ ids, Function.update vol id (vol id + x) i = ∑ i ∈ ids, vol i + x := by
  rw [Finset.sum_update_of_mem hid, Finset.sdiff_singleton_eq_erase,
    ← Finset.add_sum_erase ids vol hid, add_right_comm]

theorem SharesOn.bdw_sum_nonneg {cs : List Share} (hcs : SharesOn ids cs) :
    0 ≤ (cs.map Share.bdw).sum :=
  List.sum_nonneg fun _ hb => by
    obtain ⟨c, hc, rfl⟩ := List.mem_map.1 hb
    exact (hcs c hc).2

end Volume

section Steps

variable {ids : Finset PathID}

theorem fillGap_spec {owdGap : ℚ} (hgap : 0 ≤ owdGap) {cs : List Share} (hcs : SharesOn ids cs)
    {vol : PathID → ℚ} (hv : VolumeOn ids vol) {volume : ℚ}
    (hlt : owdGap * (cs.map Share.bdw).sum < volume) :
    VolumeOn ids (fillGap owdGap cs vol volume).1 ∧
      ∑ i ∈ ids, (fillGap owdGap cs vol volume).1 i =
        ∑ i ∈ ids, vol i + owdGap * (cs.map Share.bdw).sum ∧
      (fillGap owdGap cs vol volume).2 = volume - owdGap * (cs.map Share.bdw).sum := by
  induction cs generalizing vol volume with
  | nil => simpa [fillGap] using hv
  | cons c cs ih =>
    have hc := hcs c (List.mem_cons_self c cs)
    have hcs' : SharesOn ids cs := fun d hd => hcs d (List.mem_cons_of_mem c hd)
    have hrest : 0 ≤ owdGap * (cs.map Share.bdw).sum := mul_nonneg hgap hcs'.bdw_sum_nonneg
    rw [List.map_cons, List.sum_cons, mul_add] at hlt ⊢
    have hpos : ¬volume - owdGap * c.bdw ≤ 0 := by linarith
    simp only [fillGap, if_neg hpos]
    obtain ⟨h₁, h₂, h₃⟩ := ih hcs' (hv.add hc.1 (mul_nonneg hgap hc.2))
      (show owdGap * (cs.map Share.bdw).sum < volume - owdGap * c.bdw by linarith)
    refine ⟨h₁, ?_, ?_⟩
    · rw [h₂, sum_update_add hc.1]
      ring
    · rw [h₃]
      ring

theorem shareVolume_spec {volume bdwSum : ℚ} (hvol : 0 ≤ volume) (hsum : 0 ≤ bdwSum)
    {cs : List Share} (hcs : SharesOn ids cs) {vol : PathID → ℚ} (hv : VolumeOn ids vol)
    (cutted : ℚ) :
    VolumeOn ids (shareVolume volume bdwSum cs vol cutted).1 ∧
      ∑ i ∈ ids, (shareVolume volume bdwSum cs vol cutted).1 i =
        ∑ i ∈ ids, vol i + volume * (cs.map Share.bdw).sum / bdwSum ∧
      (shareVolume volume bdwSum cs vol cutted).2 =
        cutted + volume * (cs.map Share.bdw).sum / bdwSum := by
  induction cs generalizing vol cutted with
  | nil => simpa [shareVolume] using hv
  | cons c cs ih =>
    have hc := hcs c (List.mem_cons_self c cs)
    obtain ⟨h₁, h₂, h₃⟩ := ih (fun d hd => hcs d (List.mem_cons_of_mem c hd))
      (hv.add hc.1 (div_nonneg (mul_nonneg hvol hc.2) hsum)) (cutted + volume * c.bdw / bdwSum)
    refine ⟨h₁, ?_, ?_⟩
    · rw [shareVolume, h₂, sum_update_add hc.1]
      simp only [List.map_cons, List.sum_cons]
      ring
    · rw [shareVolume, h₃]
      simp only [List.map_cons, List.sum_cons]
      ring

theorem closeGaps_spec (pathA : Share) (rev rest : List Share)
    (hsorted : (pathA :: rest).Sorted Share.owdLE) (hcs : SharesOn ids (pathA :: rev ++ rest))
    {vol : PathID → ℚ} (hv : VolumeOn ids vol) {volume : ℚ} (hvol : 0 < volume) :
    VolumeOn ids (closeGaps pathA rev rest vol volume).1 ∧
      ∑ i ∈ ids, (closeGaps pathA rev rest vol volume).1 i +
          (closeGaps pathA rev rest vol volume).2 = ∑ i ∈ ids, vol i + volume ∧
      0 ≤ (closeGaps pathA rev rest vol volume).2 := by
  induction rest generalizing pathA rev vol volume with
  | nil => exact ⟨hv, rfl, hvol.le⟩
  | cons pathB rest ih =>
    have hgap : 0 ≤ pathB.owd - pathA.owd :=
      sub_nonneg.2 (List.rel_of_sorted_cons hsorted pathB (List.mem_cons_self _ _))
    have hA : SharesOn ids (pathA :: rev) := fun c hc => hcs c (List.mem_append_left _ hc)
    have hB : SharesOn ids (pathB :: (pathA :: rev ++ rest)) := fun c hc =>
      hcs c (List.perm_middle.mem_iff.2 hc)
    simp only [closeGaps]
    by_cases hne : pathB.owd - pathA.owd = 0
    · -- a tie ends the walk
      rw [if_neg (not_not.2 hne)]
      exact ⟨hv, rfl, hvol.le⟩
    rw [if_pos hne]
    split_ifs with hlt hle
    · -- the paths so far rise to `pathB`'s delay
      obtain ⟨h₁, h₂, h₃⟩ := fillGap_spec hgap hA hv hlt
      obtain ⟨h₁', h₂', h₃'⟩ := ih pathB (pathA :: rev) hsorted.of_cons hB h₁ (by linarith)
      exact ⟨h₁', by linarith, h₃'⟩
    -- the volume is shared among the paths so far, and used up
    all_goals
      have hB0 : ((pathA :: rev).map Share.bdw).sum ≠ 0 := fun h => by
        rw [h, mul_zero] at hlt
        exact hlt hvol
      obtain ⟨h₁, h₂, h₃⟩ := shareVolume_spec hvol.le hA.bdw_sum_nonneg hA hv 0
      rw [zero_add, mul_div_cancel_right₀ _ hB0] at h₃
    · rw [h₃] at hle ⊢
      exact ⟨h₁, by rw [h₂, mul_div_cancel_right₀ _ hB0]; ring, le_of_eq (sub_self _).symm⟩
    · rw [h₃, sub_self] at hle
      exact absurd le_rfl hle

theorem closeAllGaps_spec {sorted : List Share} (hsorted : sorted.Sorted Share.owdLE)
    (hcs : SharesOn ids sorted) {volume : ℚ} (hvol : 0 < volume) :
    VolumeOn ids (closeAllGaps sorted volume).1 ∧
      ∑ i ∈ ids, (closeAllGaps sorted volume).1 i + (closeAllGaps sorted volume).2 = volume ∧
      0 ≤ (closeAllGaps sorted volume).2 := by
  match sorted, hsorted, hcs with
  | [], _, _ => exact ⟨VolumeOn.zero ids, by simp [closeAllGaps], hvol.le⟩
  | pathA :: rest, hsorted, hcs =>
    simpa [closeAllGaps] using closeGaps_spec pathA [] rest hsorted hcs (VolumeOn.zero ids) hvol

theorem shareExcess_foldl_spec {volume all : ℚ} (hvol : 0 ≤ volume) (hall : 0 ≤ all)
    {cs : List Share} (hcs : SharesOn ids cs) {vol : PathID → ℚ} (hv : VolumeOn ids vol) :
    VolumeOn ids (cs.foldl (fun vol p =>
        Function.update vol p.pathID (vol p.pathID + volume * p.bdw / all)) vol) ∧
      ∑ i ∈ ids, cs.foldl (fun vol p =>
          Function.update vol p.pathID (vol p.pathID + volume * p.bdw / all)) vol i =
        ∑ i ∈ ids, vol i + volume * (cs.map Share.bdw).sum / all := by
  induction cs generalizing vol with
  | nil => simpa using hv
  | cons c cs ih =>
    have hc := hcs c (List.mem_cons_self c cs)
    obtain ⟨h₁, h₂⟩ := ih (fun d hd => hcs d (List.mem_cons_of_mem c hd))
      (hv.add hc.1 (div_nonneg (mul_nonneg hvol hc.2) hall))
    refine ⟨h₁, ?_⟩
    rw [List.foldl_cons, h₂, sum_update_add hc.1]
    simp only [List.map_cons, List.sum_cons]
    ring

theorem shareExcess_spec {volume : ℚ} (hvol : 0 ≤ volume) {avail : List Share}
    (hcs : SharesOn ids avail) {vol : PathID → ℚ} (hv : VolumeOn ids vol)
    (hall : (avail.map Share.bdw).sum ≠ 0) :
    VolumeOn ids (shareExcess volume avail vol) ∧
      ∑ i ∈ ids, shareExcess volume avail vol i = ∑ i ∈ ids, vol i + volume := by
  obtain ⟨h₁, h₂⟩ := shareExcess_foldl_spec hvol hcs.bdw_sum_nonneg hcs hv
  exact ⟨h₁, by rw [shareExcess, h₂, mul_div_cancel_right₀ _ hall]⟩

theorem pathsVolume_spec {avail : List Share} (hcs : SharesOn ids avail)
    (hall : (avail.map Share.bdw).sum ≠ 0) {volume : ℚ} (hvol : 0 < volume) :
    VolumeOn ids (pathsVolume avail volume) ∧ ∑ i ∈ ids, pathsVolume avail volume i = volume := by
  have hsorted : SharesOn ids (avail.insertionSort Share.owdLE) := fun c hc =>
    hcs c ((List.perm_insertionSort _ _).mem_iff.1 hc)
  obtain ⟨h₁, h₂, h₃⟩ := closeAllGaps_spec (List.sorted_insertionSort _ _) hsorted hvol
  dsimp only [pathsVolume]
  split_ifs with hpos
  · obtain ⟨h₁', h₂'⟩ := shareExcess_spec hpos.le hcs h₁ hall
    exact ⟨h₁', h₂'.trans h₂⟩
  · exact ⟨h₁, by linarith⟩

end Steps

section Zero

variable {volume : ℚ}

theorem fillGap_of_bdw_zero (owdGap : ℚ) {cs : List Share} (hz : ∀ c ∈ cs, c.bdw = 0)
    (vol : PathID → ℚ) : (fillGap owdGap cs vol volume).1 = vol := by
  induction cs generalizing vol volume with
  | nil => rfl
  | cons c cs ih =>
    simp only [fillGap, hz c (List.mem_cons_self c cs), mul_zero, add_zero, sub_zero,
      Function.update_eq_self]
    split_ifs
    · rfl
    · exact ih (fun d hd => hz d (List.mem_cons_of_mem c hd)) vol

theorem shareVolume_of_bdw_zero (bdwSum : ℚ) {cs : List Share} (hz : ∀ c ∈ cs, c.bdw = 0)
    (vol : PathID → ℚ) (cutted : ℚ) : (shareVolume volume bdwSum cs vol cutted).1 = vol := by
  induction cs generalizing vol cutted with
  | nil => rfl
  | cons c cs ih =>
    simp only [shareVolume, hz c (List.mem_cons_self c cs), mul_zero, zero_div, add_zero,
      Function.update_eq_self]
    exact ih (fun d hd => hz d (List.mem_cons_of_mem c hd)) vol cutted

theorem closeGaps_of_bdw_zero (pathA : Share) (rev rest : List Share)
    (hz : ∀ c ∈ pathA :: rev ++ rest, c.bdw = 0) (vol : PathID → ℚ) :
    (closeGaps pathA rev rest vol volume).1 = vol := by
  induction rest generalizing pathA rev vol volume with
  | nil => rfl
  | cons pathB rest ih =>
    have hA : ∀ c ∈ pathA :: rev, c.bdw = 0 := fun c hc => hz c (List.mem_append_left _ hc)
    have hB : ∀ c ∈ pathB :: (pathA :: rev ++ rest), c.bdw = 0 := fun c hc =>
      hz c (List.perm_middle.mem_iff.2 hc)
    simp only [closeGaps]
    split_ifs
    · rw [ih pathB (pathA :: rev) hB, fillGap_of_bdw_zero _ hA]
    · exact shareVolume_of_bdw_zero _ hA vol 0
    · rw [ih pathB (pathA :: rev) hB, shareVolume_of_bdw_zero _ hA vol 0]
    · rfl

theorem shareExcess_foldl_of_bdw_zero (all : ℚ) {cs : List Share}
    (hz : ∀ c ∈ cs, c.bdw = 0) (vol : PathID → ℚ) :
    cs.foldl (fun vol p =>
      Function.update vol p.pathID (vol p.pathID + volume * p.bdw / all)) vol = vol := by
  induction cs generalizing vol with
  | nil => rfl
  | cons c cs ih =>
    rw [List.foldl_cons, hz c (List.mem_cons_self c cs), mul_zero, zero_div, add_zero,
      Function.update_eq_self]
    exact ih (fun d hd => hz d (List.mem_cons_of_mem c hd)) vol

theorem pathsVolume_of_bdw_zero {avail : List Share} (hz : ∀ c ∈ avail, c.bdw = 0) :
    pathsVolume avail volume = fun _ => 0 := by
  have hgaps : (closeAllGaps (avail.insertionSort Share.owdLE) volume).1 = fun _ => 0 := by
    have hz' : ∀ c ∈ avail.insertionSort Share.owdLE, c.bdw = 0 := fun c hc =>
      hz c ((List.perm_insertionSort _ _).mem_iff.1 hc)
    unfold closeAllGaps
    split
    · rfl
    · rename_i pathA rest h
      rw [h] at hz'
      exact closeGaps_of_bdw_zero pathA [] rest hz' _
  dsimp only [pathsVolume]
  split_ifs
  · rw [shareExcess, hgaps]
    exact shareExcess_foldl_of_bdw_zero _ hz _
  · exact hgaps

end Zero

section Tie

variable {volume : ℚ}

theorem sorted_tie {l : List Share} (hs : l.Sorted Share.owdLE) {s₁ s₂ : Share} (h₁ : s₁ ∈ l)
    (h₂ : s₂ ∈ l) (hne : s₁ ≠ s₂) (hmin : ∀ c ∈ l, s₁.owd ≤ c.owd) (htie : s₁.owd = s₂.owd) :
    ∃ a b rest, l = a :: b :: rest ∧ a.owd = b.owd := by
  match l, hs with
  | [], _ => cases h₁
  | [_], _ =>
    rw [List.mem_singleton] at h₁ h₂
    exact absurd (h₁.trans h₂.symm) hne
  | a :: b :: rest, hs =>
    have hab : a.owd ≤ b.owd := List.rel_of_sorted_cons hs b (List.mem_cons_self _ _)
    -- one of the two lowest paths comes at `b` or later
    obtain ⟨s, hs', hso⟩ : ∃ s ∈ b :: rest, s.owd = s₁.owd := by
      by_cases h : s₁ = a
      · exact ⟨s₂, (List.mem_cons.1 h₂).resolve_left fun h' => hne (h.trans h'.symm), htie.symm⟩
      · exact ⟨s₁, (List.mem_cons.1 h₁).resolve_left h, rfl⟩
    have hbs : b.owd ≤ s.owd := by
      rcases List.mem_cons.1 hs' with rfl | hr
      · exact le_rfl
      · exact List.rel_of_sorted_cons hs.of_cons s hr
    exact ⟨a, b, rest, rfl, le_antisymm hab (by linarith [hmin a (List.mem_cons_self _ _)])⟩

theorem pathsVolume_of_tie {avail : List Share}
    (htie : ∃ a b rest, avail.insertionSort Share.owdLE = a :: b :: rest ∧ a.owd = b.owd)
    (hvol : 0 < volume) : pathsVolume avail volume = shareExcess volume avail fun _ => 0 := by
  obtain ⟨a, b, rest, hs, hab⟩ := htie
  have hgaps : closeAllGaps (avail.insertionSort Share.owdLE) volume = (fun _ => 0, volume) := by
    rw [hs, closeAllGaps, closeGaps_tie _ _ _ _ hab.symm]
  simp only [pathsVolume, hgaps, hvol, if_true]

theorem shareExcess_foldl_of_not_mem (all : ℚ) {cs : List Share} (vol : PathID → ℚ)
    {id : PathID} (hid : id ∉ cs.map Share.pathID) :
    cs.foldl (fun vol p =>
      Function.update vol p.pathID (vol p.pathID + volume * p.bdw / all)) vol id = vol id := by
  induction cs generalizing vol with
  | nil => rfl
  | cons c cs ih =>
    rw [List.map_cons, List.mem_cons, not_or] at hid
    rw [List.foldl_cons, ih _ hid.2, Function.update_noteq hid.1]

theorem shareExcess_foldl_apply (all : ℚ) {cs : List Share} (hnd : (cs.map Share.pathID).Nodup)
    (vol : PathID → ℚ) {c : Share} (hc : c ∈ cs) :
    cs.foldl (fun vol p =>
        Function.update vol p.pathID (vol p.pathID + volume * p.bdw / all)) vol c.pathID =
      vol c.pathID + volume * c.bdw / all := by
  induction cs generalizing vol with
  | nil => cases hc
  | cons d cs ih =>
    rw [List.map_cons, List.nodup_cons] at hnd
    rw [List.foldl_cons]
    rcases List.mem_cons.1 hc with rfl | hc
    · rw [shareExcess_foldl_of_not_mem _ _ hnd.1, Function.update_same]
    · have hne : c.pathID ≠ d.pathID := fun h => hnd.1 (h ▸ List.mem_map_of_mem _ hc)
      rw [ih hnd.2 _ hc, Function.update_noteq hne]

end Tie

def detectSize (lenOfDataForWriting : Nat) (stream : StreamView) : StreamView :=
  if stream.checksize then stream
  else { size := lenOfDataForWriting, checksize := decide (lenOfDataForWriting ≠ 0) }

theorem detectSize_checksize {lenOfDataForWriting : Nat} {stream : StreamView}
    (hS : 0 < (detectSize lenOfDataForWriting stream).size) :
    (detectSize lenOfDataForWriting stream).checksize = true := by
  unfold detectSize at hS ⊢
  split_ifs at hS ⊢ with h
  · exact h
  · simpa using Nat.pos_iff_ne_zero.1 hS

def selectedPaths (vol : PathID → ℚ) (id : PathID) : Option ℚ :=
  if 0 < vol id then some (vol id / 8) else none

def candidateIDs (paths : List (PathID × PathView)) : Finset PathID :=
  ((paths.filter isCandidate).map Prod.fst).toFinset

section Selected

variable {ids : Finset PathID} {vol : PathID → ℚ}

theorem selectedPaths_some (hv : VolumeOn ids vol) {id : PathID} {q : ℚ}
    (h : selectedPaths vol id = some q) : id ∈ ids ∧ 0 < q := by
  unfold selectedPaths at h
  split_ifs at h with hpos
  cases h
  refine ⟨by_contra fun hid => ?_, div_pos hpos (by norm_num)⟩
  rw [hv.support id hid] at hpos
  exact lt_irrefl 0 hpos

theorem selectedPaths_sum (hv : VolumeOn ids vol) :
    ∑ id ∈ ids, (selectedPaths vol id).getD 0 = (∑ id ∈ ids, vol id) / 8 := by
  rw [Finset.sum_div]
  refine Finset.sum_congr rfl fun id _ => ?_
  unfold selectedPaths
  split_ifs with h
  · rfl
  · rw [le_antisymm (not_lt.1 h) (hv.nonneg id), zero_div]
    rfl

end Selected

/-- Modelled from the spec: the water-filling allocation of `volume` bits over the usable
paths `avail`: a level `T` such that each path gets `max 0 ((T - owd) * share)` bits, and the
bits add up to the volume. Every path that gets data then finishes at `T`. -/
def IsWaterFilling (avail : List Share) (volume : ℚ) (bits : PathID → ℚ) : Prop :=
  ∃ T : ℚ, (∀ c ∈ avail, bits c.pathID = max 0 ((T - c.owd) * c.bdw)) ∧
    (avail.map fun c => max 0 ((T - c.owd) * c.bdw)).sum = volume

theorem level_of_share {T owd b volume all : ℚ} (hb : 0 < b) (hvol : 0 < volume)
    (hall : 0 < all) (h : volume * b / all = max 0 ((T - owd) * b)) : T - owd = volume / all := by
  have hpos : 0 < volume * b / all := div_pos (mul_pos hvol hb) hall
  rcases max_choice 0 ((T - owd) * b) with hm | hm
  · rw [hm] at h
    exact absurd h hpos.ne'
  · rw [hm] at h
    exact mul_right_cancel₀ hb.ne' (by rw [← h]; ring)

theorem oneWayDelay_le {p q : PathView} (h : p.smoothedRTT ≤ q.smoothedRTT) :
    oneWayDelay p ≤ oneWayDelay q := by
  unfold oneWayDelay
  gcongr

theorem oneWayDelay_lt {p q : PathView} (h : p.smoothedRTT < q.smoothedRTT) :
    oneWayDelay p < oneWayDelay q := by
  unfold oneWayDelay
  gcongr

theorem two_le_length_of_ne {α : Type} {l : List α} {a b : α} (ha : a ∈ l) (hb : b ∈ l)
    (hne : a ≠ b) : 2 ≤ l.length := by
  match l with
  | [] => cases ha
  | [_] =>
    rw [List.mem_singleton] at ha hb
    exact absurd (ha.trans hb.symm) hne
  | _ :: _ :: _ => simp

section ChoosePaths

variable (weight : StreamID → Nat) (priority : Nat)

def availShares (paths : List (PathID × PathView)) : List Share :=
  (paths.filter isCandidate).map fun e =>
    (⟨e.1, oneWayDelay e.2, sharedBandwidth weight priority e.2⟩ : Share)

theorem choosePaths_eq (lenOfDataForWriting : Nat) {paths : List (PathID × PathView)}
    (h2 : 2 ≤ paths.length) (stream : StreamView) :
    choosePaths weight priority lenOfDataForWriting paths stream =
      (detectSize lenOfDataForWriting stream,
        if (detectSize lenOfDataForWriting stream).checksize then
          selectedPaths (pathsVolume (availShares weight priority paths)
            ((detectSize lenOfDataForWriting stream).size * 8))
        else fun _ => none) := by
  unfold choosePaths
  dsimp only
  rw [if_neg (show ¬paths.length ≤ 1 by omega)]
  change (if (!(detectSize lenOfDataForWriting stream).checksize) = true then _ else _) = _
  cases (detectSize lenOfDataForWriting stream).checksize <;> rfl

theorem prioritySum_nonneg (p : PathView) :
    (0 : ℚ) ≤ ((p.streamIDs.filter fun sid => sid ≠ 1 ∧ sid ≠ 3).map
      fun sid => (weight sid : ℚ)).sum :=
  List.sum_nonneg fun _ hx => by
    obtain ⟨_, _, rfl⟩ := List.mem_map.1 hx
    exact Nat.cast_nonneg _

theorem sharedBandwidth_nonneg (p : PathView) : 0 ≤ sharedBandwidth weight priority p :=
  mul_nonneg (mul_nonneg (div_nonneg (Nat.cast_nonneg _)
    (add_nonneg (Nat.cast_nonneg _) (prioritySum_nonneg weight p))) (Nat.cast_nonneg _))
    (by norm_num)

theorem sharedBandwidth_pos (hw : 0 < priority) {p : PathView} (hp : 0 < p.bandwidth) :
    0 < sharedBandwidth weight priority p := by
  have hw' : (0 : ℚ) < priority := Nat.cast_pos.2 hw
  exact mul_pos (mul_pos (div_pos hw' (add_pos_of_pos_of_nonneg hw' (prioritySum_nonneg weight p)))
    (Nat.cast_pos.2 hp)) (by norm_num)

theorem sharedBandwidth_zero (p : PathView) : sharedBandwidth weight 0 p = 0 := by
  simp [sharedBandwidth]

theorem availShares_sharesOn (paths : List (PathID × PathView)) :
    SharesOn (candidateIDs paths) (availShares weight priority paths) := fun c hc => by
  obtain ⟨e, he, rfl⟩ := List.mem_map.1 hc
  exact ⟨List.mem_toFinset.2 (List.mem_map_of_mem _ he), sharedBandwidth_nonneg weight priority _⟩

theorem availShares_bdw_sum_pos (hw : 0 < priority) {paths : List (PathID × PathView)}
    {e : PathID × PathView} (he : e ∈ paths.filter isCandidate) (hb : 0 < e.2.bandwidth) :
    0 < ((availShares weight priority paths).map Share.bdw).sum :=
  lt_of_lt_of_le (sharedBandwidth_pos weight priority hw hb) (List.single_le_sum (fun x hx => by
      obtain ⟨c, hc, rfl⟩ := List.mem_map.1 hx
      exact (availShares_sharesOn weight priority paths c hc).2) _
    (List.mem_map_of_mem Share.bdw (List.mem_map_of_mem _ he)))

theorem choosePaths_zero_weight (lenOfDataForWriting : Nat) {paths : List (PathID × PathView)}
    (h2 : 2 ≤ paths.length) (stream : StreamView) :
    (choosePaths weight 0 lenOfDataForWriting paths stream).2 = fun _ => none := by
  have hz : ∀ c ∈ availShares weight 0 paths, c.bdw = 0 := fun c hc => by
    obtain ⟨e, -, rfl⟩ := List.mem_map.1 hc
    exact sharedBandwidth_zero weight e.2
  rw [choosePaths_eq weight 0 lenOfDataForWriting h2]
  dsimp only
  split
  · rw [pathsVolume_of_bdw_zero hz]
    funext id
    simp [selectedPaths]
  · rfl

/-- For a weight above `0`, on a table of two paths or more with a usable path of positive
bandwidth, `choosePaths` allocates a stream of known size to usable paths only, in positive
amounts that add up to the stream's size. -/
theorem choosePaths_allocates_size (lenOfDataForWriting : Nat) {paths : List (PathID × PathView)}
    (stream : StreamView) (hw : 0 < priority) (h2 : 2 ≤ paths.length)
    (hbw : ∃ e ∈ paths, isCandidate e = true ∧ 0 < e.2.bandwidth)
    (hS : 0 < (choosePaths weight priority lenOfDataForWriting paths stream).1.size) :
    (∀ id q, (choosePaths weight priority lenOfDataForWriting paths stream).2 id = some q →
      id ∈ candidateIDs paths ∧ 0 < q) ∧
    ∑ id ∈ candidateIDs paths,
        ((choosePaths weight priority lenOfDataForWriting paths stream).2 id).getD 0 =
      (choosePaths weight priority lenOfDataForWriting paths stream).1.size := by
  rw [choosePaths_eq weight priority lenOfDataForWriting h2] at hS ⊢
  dsimp only at hS ⊢
  rw [if_pos (detectSize_checksize hS)]
  obtain ⟨e, he, hce, hb⟩ := hbw
  obtain ⟨hv, hsum⟩ := pathsVolume_spec (availShares_sharesOn weight priority paths)
    (availShares_bdw_sum_pos weight priority hw (List.mem_filter.2 ⟨he, hce⟩) hb).ne'
    (mul_pos (Nat.cast_pos.2 hS) (by norm_num : (0 : ℚ) < 8))
  refine ⟨fun id q h => selectedPaths_some hv h, ?_⟩
  rw [selectedPaths_sum hv, hsum, mul_div_cancel_right₀ _ (by norm_num)]

/-- When two usable paths share the lowest smoothed RTT and a third usable path is slower, the
gap walk stops at once, and step 3 shares the whole volume by bandwidth: the fastest path and
the slower one both get data but finish at different times, so the allocation is not the
water-filling one. -/
theorem choosePaths_tie_not_waterFilling (lenOfDataForWriting : Nat)
    {paths : List (PathID × PathView)} (stream : StreamView) (hw : 0 < priority)
    (hkeys : (paths.map Prod.fst).Nodup)
    (hbw : ∀ e ∈ paths.filter isCandidate, 0 < e.2.bandwidth)
    (hS : 0 < (choosePaths weight priority lenOfDataForWriting paths stream).1.size)
    (e₁ e₂ e₃ : PathID × PathView) (h₁ : e₁ ∈ paths.filter isCandidate)
    (h₂ : e₂ ∈ paths.filter isCandidate) (h₃ : e₃ ∈ paths.filter isCandidate)
    (hne : e₁.1 ≠ e₂.1) (htie : e₁.2.smoothedRTT = e₂.2.smoothedRTT)
    (hmin : ∀ e ∈ paths.filter isCandidate, e₁.2.smoothedRTT ≤ e.2.smoothedRTT)
    (hslow : e₁.2.smoothedRTT < e₃.2.smoothedRTT) :
    ¬IsWaterFilling (availShares weight priority paths)
      ((choosePaths weight priority lenOfDataForWriting paths stream).1.size * 8)
      fun id => 8 * ((choosePaths weight priority lenOfDataForWriting paths stream).2 id).getD 0 := by
  have h2 : 2 ≤ paths.length := two_le_length_of_ne (List.mem_of_mem_filter h₁)
    (List.mem_of_mem_filter h₂) fun h => hne (congrArg Prod.fst h)
  rw [choosePaths_eq weight priority lenOfDataForWriting h2] at hS ⊢
  dsimp only at hS ⊢
  rw [if_pos (detectSize_checksize hS)]
  -- the usable paths as `choosePaths` sees them
  let share : PathID × PathView → Share := fun e =>
    ⟨e.1, oneWayDelay e.2, sharedBandwidth weight priority e.2⟩
  have hmem : ∀ {e}, e ∈ paths.filter isCandidate → share e ∈ availShares weight priority paths :=
    fun he => List.mem_map_of_mem share he
  have hnd : ((availShares weight priority paths).map Share.pathID).Nodup := by
    rw [availShares, List.map_map]
    exact hkeys.sublist ((List.filter_sublist _).map Prod.fst)
  have hpos : ∀ {e}, e ∈ paths.filter isCandidate → 0 < (share e).bdw := fun he =>
    sharedBandwidth_pos weight priority hw (hbw _ he)
  have hall := availShares_bdw_sum_pos weight priority hw h₁ (hbw _ h₁)
  have hvol : (0 : ℚ) < (detectSize lenOfDataForWriting stream).size * 8 :=
    mul_pos (Nat.cast_pos.2 hS) (by norm_num)
  -- the two fastest paths tie, so step 3 gets the whole volume
  have htie' := sorted_tie (List.sorted_insertionSort Share.owdLE (availShares weight priority paths))
    ((List.perm_insertionSort _ _).mem_iff.2 (hmem h₁))
    ((List.perm_insertionSort _ _).mem_iff.2 (hmem h₂)) (fun h => hne (congrArg Share.pathID h))
    (fun c hc => by
      obtain ⟨e, he, rfl⟩ := List.mem_map.1 ((List.perm_insertionSort _ _).mem_iff.1 hc)
      exact oneWayDelay_le (hmin e he))
    (by simp only [share, oneWayDelay, htie])
  rw [pathsVolume_of_tie htie' hvol]
  -- each usable path gets its share of the volume by bandwidth, and finishes after the same time
  have hbits : ∀ {e}, e ∈ paths.filter isCandidate →
      8 * (selectedPaths (shareExcess ((detectSize lenOfDataForWriting stream).size * 8)
        (availShares weight priority paths) fun _ => 0) (share e).pathID).getD 0 =
      (detectSize lenOfDataForWriting stream).size * 8 * (share e).bdw /
        ((availShares weight priority paths).map Share.bdw).sum := fun he => by
    rw [selectedPaths, shareExcess, shareExcess_foldl_apply _ hnd _ (hmem he), zero_add,
      if_pos (div_pos (mul_pos hvol (hpos he)) hall), Option.getD_some]
    ring
  rintro ⟨T, hT, -⟩
  have hl₁ := level_of_share (hpos h₁) hvol hall ((hbits h₁).symm.trans (hT _ (hmem h₁)))
  have hl₃ := level_of_share (hpos h₃) hvol hall ((hbits h₃).symm.trans (hT _ (hmem h₃)))
  exact absurd (oneWayDelay_lt hslow) (by simp only [share] at hl₁ hl₃; linarith)

end ChoosePaths

def probedPaths : List (PathID × PathView) :=
  [(0, ⟨true, false, 30, 10, []⟩), (1, ⟨true, false, 10, 20, []⟩), (2, ⟨true, false, 20, 5, []⟩)]

theorem choosePaths_allocates_size_sample :
    (∀ id q, (choosePaths (fun _ => 1) 1 0 probedPaths ⟨true, 1000⟩).2 id = some q →
      id ∈ candidateIDs probedPaths ∧ 0 < q) ∧
    ∑ id ∈ candidateIDs probedPaths,
        ((choosePaths (fun _ => 1) 1 0 probedPaths ⟨true, 1000⟩).2 id).getD 0 =
      (choosePaths (fun _ => 1) 1 0 probedPaths ⟨true, 1000⟩).1.size :=
  choosePaths_allocates_size (fun _ => 1) 1 0 ⟨true, 1000⟩ (by decide) (by decide)
    ⟨(1, ⟨true, false, 10, 20, []⟩), by decide, by decide, by decide⟩ (by decide)

def loadedPaths : List (PathID × PathView) :=
  [(1, ⟨true, false, 20000000, 10, [5]⟩), (2, ⟨true, false, 40000000, 10, [5]⟩)]

theorem choosePaths_starves_zero_weight :
    2 ≤ loadedPaths.length ∧ (∀ e ∈ loadedPaths, isCandidate e = true ∧ 0 < e.2.bandwidth) ∧
      (choosePaths (fun _ => 1) 0 0 loadedPaths ⟨true, 1000⟩).1.size = 1000 ∧
      ∀ id, (choosePaths (fun _ => 1) 0 0 loadedPaths ⟨true, 1000⟩).2 id = none :=
  ⟨by decide, by decide, rfl,
    congrFun (choosePaths_zero_weight (fun _ => 1) 0 (by decide) ⟨true, 1000⟩)⟩

def tiedPaths : List (PathID × PathView) :=
  [(1, ⟨true, false, 2000000000, 1, []⟩), (2, ⟨true, false, 2000000000, 1, []⟩),
   (3, ⟨true, false, 4000000000, 1, []⟩)]

theorem choosePaths_tie_not_waterFilling_sample :
    ¬IsWaterFilling (availShares (fun _ => 1) 1 tiedPaths)
      ((choosePaths (fun _ => 1) 1 0 tiedPaths ⟨true, 1048576⟩).1.size * 8)
      fun id => 8 * ((choosePaths (fun _ => 1) 1 0 tiedPaths ⟨true, 1048576⟩).2 id).getD 0 :=
  choosePaths_tie_not_waterFilling (fun _ => 1) 1 0 ⟨true, 1048576⟩ (by decide) (by decide)
    (by decide) (by decide) (1, ⟨true, false, 2000000000, 1, []⟩)
    (2, ⟨true, false, 2000000000, 1, []⟩) (3, ⟨true, false, 4000000000, 1, []⟩) (by decide)
    (by decide) (by decide) (by decide) rfl (by decide) (by decide)

end PStream
