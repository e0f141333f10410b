import PStream.Protocol
import Mathlib.Data.List.Sort
import Mathlib.Algebra.Order.Field.Rat
import Mathlib.Algebra.BigOperators.Group.List

/-! Path selection of the scheduler: `findPathLowLatency` (`scheduler.go` lines 433-493) and
`choosePaths` (lines 626-851), over the session's path table as Go's map iteration lists it.

`findPathLowLatency` keeps the first path of lowest smoothed RTT and, while no path has been
probed, the last path of lowest quota: on a tie the pick depends on the iteration order. It
picks the same path in every order when one path is the best.

`choosePaths` sorts the usable paths by one-way delay, fills the delay gaps from the fastest
path on, and shares the rest by bandwidth. Every sum is over the same paths whatever the order,
and the gap loop stops at the first two paths of equal delay, before the order of tied paths
matters; so in exact arithmetic (`ℚ` here, `float64` in Go) the allocation does not depend on
the iteration order, nor on how `sort.Slice` orders ties.

The `quotas` map is a function that is `0` off its keys: every read of the map in the scheduler
gives `0` for a missing key, so the loop's writing of a `0` for a missing key is not kept. A
table of at most one path without the initial path makes Go dereference a nil path; the model
returns no path. -/

namespace PStream

/-- What path selection reads of a path: `SendingAllowed()`, `potentiallyFailed`, the smoothed
RTT, `bdwStats.GetBandwidth()` in Mbit/s, and the streams assigned to it. -/
structure PathView where
  sendingAllowed : Bool
  potentiallyFailed : Bool
  smoothedRTT : Duration
  bandwidth : Nat
  streamIDs : List StreamID
  deriving DecidableEq, Repr

def isCandidate (e : PathID × PathView) : Bool :=
  e.2.sendingAllowed && !e.2.potentiallyFailed && decide (e.1 ≠ initialPathID)

theorem eq_of_perm_of_length_le_one {α : Type} {l₁ l₂ : List α} (hp : l₁.Perm l₂)
    (h : l₁.length ≤ 1) : l₁ = l₂ := by
  match l₁, h with
  | [], _ => exact hp.nil_eq
  | [_], _ => exact (List.perm_singleton.1 hp.symm).symm
  | _ :: _ :: _, h => simp at h

theorem mem_of_append_cons_eq {α : Type} {b₁ a₁ b₂ a₂ : List α} {c d : α}
    (h : b₁ ++ c :: a₁ = b₂ ++ d :: a₂) (hne : c ≠ d) : (c ∈ b₂ ∧ d ∈ a₁) ∨ (d ∈ b₁ ∧ c ∈ a₂) := by
  rcases List.append_eq_append_iff.1 h with ⟨_ | ⟨x, xs⟩, rfl, h'⟩ | ⟨_ | ⟨x, xs⟩, rfl, h'⟩
  · exact absurd (List.cons.inj h').1 hne
  · obtain ⟨rfl, rfl⟩ := List.cons.inj h'
    exact .inl ⟨by simp, by simp⟩
  · exact absurd (List.cons.inj h').1.symm hne
  · obtain ⟨rfl, rfl⟩ := List.cons.inj h'
    exact .inr ⟨by simp, by simp⟩

section LowLatency

variable (quotas : PathID → Nat)

def lowLatencyStep (st : Option PathID × Duration) (e : PathID × PathView) :
    Option PathID × Duration :=
  if !isCandidate e then st
  else
    let currentRTT := e.2.smoothedRTT
    if st.2 ≠ 0 ∧ currentRTT = 0 then st
    else if currentRTT = 0 ∧ st.1.isSome ∧ quotas (st.1.getD 255) < quotas e.1 then st
    else if currentRTT ≠ 0 ∧ st.2 ≠ 0 ∧ st.1.isSome ∧ st.2 ≤ currentRTT then st
    else (some e.1, currentRTT)

def findPathLowLatency (paths : List (PathID × PathView)) : Option PathID :=
  if paths.length ≤ 1 then
    match paths.lookup initialPathID with
    | some p => if p.sendingAllowed then some initialPathID else none
    | none => none
  else (paths.foldl (lowLatencyStep quotas) (none, 0)).1

/-- A path `findPathLowLatency` is meant to pick among the candidates `cs`: the lowest nonzero
smoothed RTT, or, when no candidate has a nonzero RTT, the lowest quota. -/
def IsLowLatencyBest (cs : List (PathID × PathView)) (c : PathID × PathView) : Prop :=
  c ∈ cs ∧
    ((c.2.smoothedRTT ≠ 0 ∧ ∀ d ∈ cs, d.2.smoothedRTT ≠ 0 → c.2.smoothedRTT ≤ d.2.smoothedRTT) ∨
      ∀ d ∈ cs, d.2.smoothedRTT = 0 ∧ quotas c.1 ≤ quotas d.1)

instance (cs : List (PathID × PathView)) : DecidablePred (IsLowLatencyBest quotas cs) :=
  fun c => inferInstanceAs (Decidable (c ∈ cs ∧ _))

/-- The tie rule of `pathLoop` among the candidates `cs`, in their order: a best candidate `c`
that, when probed, comes before every other probed candidate of its RTT ("first of equal RTTs")
and, when unprobed, after every candidate of its quota ("last of equal quotas"). -/
def IsLowLatencyPick (cs : List (PathID × PathView)) (c : PathID × PathView) : Prop :=
  IsLowLatencyBest quotas cs c ∧ ∃ before after, cs = before ++ c :: after ∧
    (c.2.smoothedRTT ≠ 0 →
      ∀ d ∈ before, d.2.smoothedRTT ≠ 0 → c.2.smoothedRTT < d.2.smoothedRTT) ∧
    (c.2.smoothedRTT = 0 → ∀ d ∈ after, quotas c.1 < quotas d.1)

variable {quotas}

theorem IsLowLatencyBest.of_perm {cs cs' : List (PathID × PathView)} (hp : cs.Perm cs')
    {c : PathID × PathView} (h : IsLowLatencyBest quotas cs c) : IsLowLatencyBest quotas cs' c := by
  simpa only [IsLowLatencyBest, hp.mem_iff] using h

def LowLatencyInv (quotas : PathID → Nat) (seen : List (PathID × PathView)) :
    Option PathID × Duration → Prop
  | (none, r) => seen.filter isCandidate = [] ∧ r = 0
  | (some id, r) => ∃ c, c.1 = id ∧ IsLowLatencyPick quotas (seen.filter isCandidate) c ∧
      r = c.2.smoothedRTT

theorem IsLowLatencyBest.unprobed {cs : List (PathID × PathView)} {c : PathID × PathView}
    (h : IsLowLatencyBest quotas cs c) (hc : c.2.smoothedRTT = 0) :
    ∀ d ∈ cs, d.2.smoothedRTT = 0 ∧ quotas c.1 ≤ quotas d.1 :=
  h.2.resolve_left fun h' => h'.1 hc

theorem IsLowLatencyBest.probed {cs : List (PathID × PathView)} {c : PathID × PathView}
    (h : IsLowLatencyBest quotas cs c) (hc : c.2.smoothedRTT ≠ 0) :
    ∀ d ∈ cs, d.2.smoothedRTT ≠ 0 → c.2.smoothedRTT ≤ d.2.smoothedRTT :=
  (h.2.resolve_right fun h' => hc (h' c h.1).1).2

theorem not_lowLatencyPick_before {cs before after : List (PathID × PathView)}
    {c d : PathID × PathView} (hbc : IsLowLatencyBest quotas cs c)
    (hbd : IsLowLatencyBest quotas cs d)
    (hlast : c.2.smoothedRTT = 0 → ∀ x ∈ after, quotas c.1 < quotas x.1)
    (hfirst : d.2.smoothedRTT ≠ 0 →
      ∀ x ∈ before, x.2.smoothedRTT ≠ 0 → d.2.smoothedRTT < x.2.smoothedRTT)
    (hc : c ∈ before) (hd : d ∈ after) : False := by
  by_cases h0 : c.2.smoothedRTT = 0
  · exact absurd (hlast h0 d hd) (not_lt.2 (hbd.unprobed (hbc.unprobed h0 d hbd.1).1 c hbc.1).2)
  · have hd0 : d.2.smoothedRTT ≠ 0 := fun hd0 => h0 (hbd.unprobed hd0 c hbc.1).1
    exact absurd (hfirst hd0 c hc h0) (not_lt.2 (hbc.probed h0 d hbd.1 hd0))

theorem IsLowLatencyPick.unique {cs : List (PathID × PathView)} {c d : PathID × PathView}
    (hc : IsLowLatencyPick quotas cs c) (hd : IsLowLatencyPick quotas cs d) : c = d := by
  obtain ⟨hbc, b₁, a₁, h₁, f₁, l₁⟩ := hc
  obtain ⟨hbd, b₂, a₂, h₂, f₂, l₂⟩ := hd
  by_contra hne
  rcases mem_of_append_cons_eq (h₁.symm.trans h₂) hne with ⟨hc₂, hd₁⟩ | ⟨hd₁, hc₂⟩
  · exact not_lowLatencyPick_before hbc hbd l₁ f₂ hc₂ hd₁
  · exact not_lowLatencyPick_before hbd hbc l₂ f₁ hd₁ hc₂

theorem LowLatencyInv.step {seen : List (PathID × PathView)} {st : Option PathID × Duration}
    (hi : LowLatencyInv quotas seen st) (e : PathID × PathView) :
    LowLatencyInv quotas (seen ++ [e]) (lowLatencyStep quotas st e) := by
  unfold lowLatencyStep
  by_cases he : isCandidate e = true
  swap
  · have hf : (seen ++ [e]).filter isCandidate = seen.filter isCandidate := by
      simp [List.filter_append, he]
    rw [if_pos (by simpa using he)]
    obtain ⟨_ | _, r⟩ := st <;> simpa [LowLatencyInv, hf] using hi
  have hf : (seen ++ [e]).filter isCandidate = seen.filter isCandidate ++ [e] := by
    simp [List.filter_append, he]
  rw [if_neg (by simpa using he)]
  dsimp only
  obtain ⟨_ | id, r⟩ := st
  · obtain ⟨hnil, rfl⟩ := hi
    simp only [ne_eq, not_true_eq_false, false_and, if_false, Option.isSome_none,
      Bool.false_eq_true, and_false, and_self]
    refine ⟨e, rfl, ⟨?_, [], [], by rw [hf, hnil], fun _ d hd => (nomatch hd),
      fun _ d hd => (nomatch hd)⟩, rfl⟩
    rw [hf, hnil, List.nil_append]
    refine ⟨List.mem_singleton_self _, ?_⟩
    by_cases h0 : e.2.smoothedRTT = 0
    · exact .inr fun d hd => by rw [List.mem_singleton.1 hd]; exact ⟨h0, le_rfl⟩
    · exact .inl ⟨h0, fun d hd _ => by rw [List.mem_singleton.1 hd]⟩
  obtain ⟨c, rfl, ⟨hbest, before, after, hcs, hfirst, hlast⟩, rfl⟩ := hi
  simp only [LowLatencyInv, hf, Option.isSome_some, Option.getD_some, true_and]
  have hmem : ∀ {d}, d ∈ seen.filter isCandidate ++ [e] ↔
      d ∈ seen.filter isCandidate ∨ d = e := by simp
  -- a kept `c` stays where it stands, with `e` after it
  have hkeep : (c.2.smoothedRTT = 0 → quotas c.1 < quotas e.1) →
      ((c.2.smoothedRTT ≠ 0 ∧ ∀ d ∈ seen.filter isCandidate ++ [e], d.2.smoothedRTT ≠ 0 →
          c.2.smoothedRTT ≤ d.2.smoothedRTT) ∨
        ∀ d ∈ seen.filter isCandidate ++ [e], d.2.smoothedRTT = 0 ∧ quotas c.1 ≤ quotas d.1) →
      IsLowLatencyPick quotas (seen.filter isCandidate ++ [e]) c := fun hq hb =>
    ⟨⟨hmem.2 (.inl hbest.1), hb⟩, before, after ++ [e], by rw [hcs, List.append_assoc,
      List.cons_append], hfirst, fun h0 d hd => by
        rcases List.mem_append.1 hd with hd | hd
        · exact hlast h0 d hd
        · rw [List.mem_singleton.1 hd]; exact hq h0⟩
  split_ifs with h₁ h₂ h₃
  · -- a probed path is selected and `e` is unprobed
    refine ⟨c, rfl, hkeep (absurd · h₁.1) (.inl ⟨h₁.1, fun d hd hd0 => ?_⟩), rfl⟩
    rcases hmem.1 hd with hd | rfl
    · exact hbest.probed h₁.1 d hd hd0
    · exact absurd h₁.2 hd0
  · -- both unprobed, and `e` has the higher quota
    have hc0 : c.2.smoothedRTT = 0 := by by_contra h; exact h₁ ⟨h, h₂.1⟩
    refine ⟨c, rfl, hkeep (fun _ => h₂.2) (.inr fun d hd => ?_), rfl⟩
    rcases hmem.1 hd with hd | rfl
    · exact hbest.unprobed hc0 d hd
    · exact ⟨h₂.1, h₂.2.le⟩
  · -- both probed, and `e` is not faster
    refine ⟨c, rfl, hkeep (absurd · h₃.2.1) (.inl ⟨h₃.2.1, fun d hd hd0 => ?_⟩), rfl⟩
    rcases hmem.1 hd with hd | rfl
    · exact hbest.probed h₃.2.1 d hd hd0
    · exact h₃.2.2
  · -- `e` is selected, after every candidate seen before it
    by_cases he0 : e.2.smoothedRTT = 0
    · have hc0 : c.2.smoothedRTT = 0 := by by_contra h; exact h₁ ⟨h, he0⟩
      have hq : quotas e.1 ≤ quotas c.1 := by
        by_contra h; exact h₂ ⟨he0, Nat.lt_of_not_le h⟩
      refine ⟨e, rfl, ⟨⟨hmem.2 (.inr rfl), .inr fun d hd => ?_⟩, seen.filter isCandidate, [],
        rfl, (absurd he0 ·), fun _ d hd => (nomatch hd)⟩, rfl⟩
      rcases hmem.1 hd with hd | rfl
      · exact ⟨(hbest.unprobed hc0 d hd).1, hq.trans (hbest.unprobed hc0 d hd).2⟩
      · exact ⟨he0, le_rfl⟩
    · -- a probed `e` is faster than every probed candidate before it
      have hlt : ∀ d ∈ seen.filter isCandidate, d.2.smoothedRTT ≠ 0 →
          e.2.smoothedRTT < d.2.smoothedRTT := fun d hd hd0 => by
        by_cases hc0 : c.2.smoothedRTT = 0
        · exact absurd (hbest.unprobed hc0 d hd).1 hd0
        · have hec : e.2.smoothedRTT < c.2.smoothedRTT := by
            by_contra h; exact h₃ ⟨he0, hc0, not_lt.1 h⟩
          exact hec.trans_le (hbest.probed hc0 d hd hd0)
      refine ⟨e, rfl, ⟨⟨hmem.2 (.inr rfl), .inl ⟨he0, fun d hd hd0 => ?_⟩⟩,
        seen.filter isCandidate, [], rfl, fun _ => hlt, fun _ d hd => (nomatch hd)⟩, rfl⟩
      rcases hmem.1 hd with hd | rfl
      · exact (hlt d hd hd0).le
      · exact le_rfl

theorem lowLatencyInv_foldl (paths : List (PathID × PathView)) :
    LowLatencyInv quotas paths (paths.foldl (lowLatencyStep quotas) (none, 0)) := by
  induction paths using List.reverseRecOn with
  | nil => exact ⟨rfl, rfl⟩
  | append_singleton paths e ih => simpa only [List.foldl_append, List.foldl_cons,
      List.foldl_nil] using ih.step e

theorem foldl_lowLatencyStep_spec (paths : List (PathID × PathView)) :
    ((paths.foldl (lowLatencyStep quotas) (none, 0)).1 = none ↔ paths.filter isCandidate = []) ∧
    ∀ id, (paths.foldl (lowLatencyStep quotas) (none, 0)).1 = some id ↔
      ∃ c, c.1 = id ∧ IsLowLatencyPick quotas (paths.filter isCandidate) c := by
  have hi := @lowLatencyInv_foldl quotas paths
  generalize paths.foldl (lowLatencyStep quotas) (none, 0) = st at hi ⊢
  obtain ⟨_ | id, r⟩ := st
  · refine ⟨iff_of_true rfl hi.1, fun _ => iff_of_false (nomatch ·) fun ⟨c, _, hc⟩ => ?_⟩
    rw [hi.1] at hc
    exact nomatch hc.1.1
  · obtain ⟨c, rfl, hc, -⟩ := hi
    refine ⟨iff_of_false (nomatch ·) (List.ne_nil_of_mem hc.1.1),
      fun _ => ⟨fun h => ⟨c, Option.some_inj.1 h, hc⟩, fun ⟨d, hd, hpd⟩ => ?_⟩⟩
    rw [← hd, hpd.unique hc]

theorem findPathLowLatency_perm {paths₁ paths₂ : List (PathID × PathView)}
    (hp : paths₁.Perm paths₂)
    (hunique : ∀ c ∈ paths₁.filter isCandidate, ∀ d ∈ paths₁.filter isCandidate,
      IsLowLatencyBest quotas (paths₁.filter isCandidate) c →
      IsLowLatencyBest quotas (paths₁.filter isCandidate) d → c.1 = d.1) :
    findPathLowLatency quotas paths₁ = findPathLowLatency quotas paths₂ := by
  by_cases hlen : paths₁.length ≤ 1
  · rw [eq_of_perm_of_length_le_one hp hlen]
  unfold findPathLowLatency
  rw [if_neg hlen, if_neg (hp.length_eq ▸ hlen)]
  have hf := hp.filter isCandidate
  obtain ⟨hn₁, hs₁⟩ := @foldl_lowLatencyStep_spec quotas paths₁
  obtain ⟨hn₂, hs₂⟩ := @foldl_lowLatencyStep_spec quotas paths₂
  cases h₁ : (paths₁.foldl (lowLatencyStep quotas) (none, 0)).1 with
  | none =>
    rw [hn₁.1 h₁] at hf
    exact (hn₂.2 hf.symm.eq_nil).symm
  | some id =>
    obtain ⟨c, rfl, hc⟩ := (hs₁ _).1 h₁
    cases h₂ : (paths₂.foldl (lowLatencyStep quotas) (none, 0)).1 with
    | none => exact absurd (hn₂.1 h₂ ▸ hf.subset hc.1.1) (List.not_mem_nil c)
    | some id' =>
      obtain ⟨d, rfl, hd⟩ := (hs₂ _).1 h₂
      exact congrArg some (hunique c hc.1.1 d (hf.mem_iff.2 hd.1.1) hc.1 (hd.1.of_perm hf.symm))

end LowLatency

def unprobedPath : PathView := ⟨true, false, 0, 10, []⟩

theorem findPathLowLatency_order_dependent :
    findPathLowLatency (fun _ => 0) [(0, unprobedPath), (1, unprobedPath), (2, unprobedPath)] =
        some 2 ∧
      findPathLowLatency (fun _ => 0) [(0, unprobedPath), (2, unprobedPath), (1, unprobedPath)] =
        some 1 := by
  decide

/-- On a table of two paths or more, `findPathLowLatency` returns no path exactly when no path
is a candidate, and otherwise a best candidate; on the initial path alone, it returns that path
exactly when it may send. -/
theorem findPathLowLatency_spec (quotas : PathID → Nat) :
    (∀ paths : List (PathID × PathView), 2 ≤ paths.length →
      (findPathLowLatency quotas paths = none ↔ paths.filter isCandidate = []) ∧
      ∀ id, findPathLowLatency quotas paths = some id →
        ∃ c, c.1 = id ∧ IsLowLatencyBest quotas (paths.filter isCandidate) c) ∧
    ∀ v : PathView,
      findPathLowLatency quotas [(initialPathID, v)] = some initialPathID ↔ v.sendingAllowed := by
  refine ⟨fun paths hlen => ?_, fun v => ?_⟩
  · obtain ⟨hn, hs⟩ := @foldl_lowLatencyStep_spec quotas paths
    rw [findPathLowLatency, if_neg (by omega)]
    refine ⟨hn, fun id h => ?_⟩
    obtain ⟨c, hc, hpick⟩ := (hs id).1 h
    exact ⟨c, hc, hpick.1⟩
  · cases h : v.sendingAllowed <;> simp [findPathLowLatency, List.lookup_cons, h]

theorem findPathLowLatency_spec_sample :
    2 ≤ [(0, unprobedPath), (1, unprobedPath), (2, unprobedPath)].length ∧
      ∃ c, c.1 = 2 ∧ IsLowLatencyBest (fun _ => 0)
        ([(0, unprobedPath), (1, unprobedPath), (2, unprobedPath)].filter isCandidate) c :=
  ⟨by decide, ((findPathLowLatency_spec (fun _ => 0)).1
    [(0, unprobedPath), (1, unprobedPath), (2, unprobedPath)] (by decide)).2 2 (by decide)⟩

structure Share where
  pathID : PathID
  owd : ℚ
  bdw : ℚ

def Share.owdLE (a b : Share) : Prop := a.owd ≤ b.owd

instance : DecidableRel Share.owdLE := fun a b => inferInstanceAs (Decidable (a.owd ≤ b.owd))

instance : IsTotal Share Share.owdLE := ⟨fun a b => le_total a.owd b.owd⟩

instance : IsTrans Share Share.owdLE := ⟨fun _ _ _ => le_trans⟩

structure StreamView where
  checksize : Bool
  size : Nat
  deriving DecidableEq, Repr

section ChoosePaths

variable (weight : StreamID → Nat) (priority : Nat)

/-- `pathsBdw[pth.pathID]`: the path's bandwidth in bit/s, shared by weight with the streams
already assigned to it, streams 1 and 3 apart. Where all those weights are 0, Go's `0/0` is NaN
and `ℚ`'s is 0. -/
def sharedBandwidth (p : PathView) : ℚ :=
  let prioritySum : ℚ :=
    ((p.streamIDs.filter fun sid => sid ≠ 1 ∧ sid ≠ 3).map fun sid => (weight sid : ℚ)).sum
  (priority : ℚ) / (priority + prioritySum) * p.bandwidth * 1048576

def oneWayDelay (p : PathView) : ℚ := (p.smoothedRTT : ℚ) / 1000000000 / 2

/-- The `volume > gap` branch: paths i down to 0 each get `owdGap * bdw`, until the volume is
used up. -/
def fillGap (owdGap : ℚ) : List Share → (PathID → ℚ) → ℚ → (PathID → ℚ) × ℚ
  | [], vol, volume => (vol, volume)
  | c :: cs, vol, volume =>
    let proportionStep := owdGap * c.bdw
    let vol := Function.update vol c.pathID (vol c.pathID + proportionStep)
    if volume - proportionStep ≤ 0 then (vol, volume - proportionStep)
    else fillGap owdGap cs vol (volume - proportionStep)

def shareVolume (volume bdwSum : ℚ) : List Share → (PathID → ℚ) → ℚ → (PathID → ℚ) × ℚ
  | [], vol, cutted => (vol, cutted)
  | c :: cs, vol, cutted =>
    let proportionStep := volume * c.bdw / bdwSum
    shareVolume volume bdwSum cs (Function.update vol c.pathID (vol c.pathID + proportionStep))
      (cutted + proportionStep)

def closeGaps : Share → List Share → List Share → (PathID → ℚ) → ℚ → (PathID → ℚ) × ℚ
  | _, _, [], vol, volume => (vol, volume)
  | pathA, rev, pathB :: rest, vol, volume =>
    let owdGap := pathB.owd - pathA.owd
    let bdwSum := ((pathA :: rev).map Share.bdw).sum
    if owdGap ≠ 0 then
      if owdGap * bdwSum < volume then
        let r := fillGap owdGap (pathA :: rev) vol volume
        closeGaps pathB (pathA :: rev) rest r.1 r.2
      else
        let r := shareVolume volume bdwSum (pathA :: rev) vol 0
        if volume - r.2 ≤ 0 then (r.1, volume - r.2)
        else closeGaps pathB (pathA :: rev) rest r.1 (volume - r.2)
    else (vol, volume)

def closeAllGaps (sorted : List Share) (volume : ℚ) : (PathID → ℚ) × ℚ :=
  match sorted with
  | [] => (fun _ => 0, volume)
  | pathA :: rest => closeGaps pathA [] rest (fun _ => 0) volume

def shareExcess (volume : ℚ) (avail : List Share) (vol : PathID → ℚ) : PathID → ℚ :=
  let all := (avail.map Share.bdw).sum
  avail.foldl (fun vol p => Function.update vol p.pathID (vol p.pathID + volume * p.bdw / all)) vol

/-- `choosePaths`, with `lenOfDataForWriting()` of the stream. Returns the stream, whose size it
may set, and the allocation in bytes by path ID (`none` off the map). -/
def choosePaths (lenOfDataForWriting : Nat) (paths : List (PathID × PathView))
    (stream : StreamView) : StreamView × (PathID → Option ℚ) :=
  let stream := if stream.checksize then stream
    else { size := lenOfDataForWriting, checksize := decide (lenOfDataForWriting ≠ 0) }
  if !stream.checksize then (stream, fun _ => none)
  else if paths.length ≤ 1 then
    match paths.lookup initialPathID with
    | some p => if p.sendingAllowed
        then (stream, fun id => if id = initialPathID then some (stream.size : ℚ) else none)
        else (stream, fun _ => none)
    | none => (stream, fun _ => none)
  else
    let avail := (paths.filter isCandidate).map fun e =>
      (⟨e.1, oneWayDelay e.2, sharedBandwidth weight priority e.2⟩ : Share)
    let r := closeAllGaps (avail.insertionSort Share.owdLE) ((stream.size : ℚ) * 8)
    let vol := if 0 < r.2 then shareExcess r.2 avail r.1 else r.1
    (stream, fun id => if 0 < vol id then some (vol id / 8) else none)

theorem closeGaps_tie {pathA pathB : Share} (rev rest : List Share) (vol : PathID → ℚ)
    (volume : ℚ) (h : pathB.owd = pathA.owd) :
    closeGaps pathA rev (pathB :: rest) vol volume = (vol, volume) := by
  simp [closeGaps, h]

theorem owd_head_eq {a b : Share} {s t : List Share} (hp : (a :: s).Perm (b :: t))
    (hs : (a :: s).Sorted Share.owdLE) (ht : (b :: t).Sorted Share.owdLE) : a.owd = b.owd := by
  have hab : Share.owdLE a b := by
    rcases List.mem_cons.1 (hp.mem_iff.2 (List.mem_cons_self b t)) with h | h
    · rw [h]; exact le_rfl
    · exact List.rel_of_sorted_cons hs b h
  have hba : Share.owdLE b a := by
    rcases List.mem_cons.1 (hp.mem_iff.1 (List.mem_cons_self a s)) with h | h
    · rw [h]; exact le_rfl
    · exact List.rel_of_sorted_cons ht a h
  exact le_antisymm hab hba

theorem tie_of_head_ne {a b : Share} {s t : List Share} (hp : (a :: s).Perm (b :: t))
    (hs : (a :: s).Sorted Share.owdLE) (ht : (b :: t).Sorted Share.owdLE) (hne : a ≠ b) :
    ∃ c s', s = c :: s' ∧ c.owd = a.owd := by
  have hb : b ∈ s := (List.mem_cons.1 (hp.mem_iff.2 (List.mem_cons_self b t))).resolve_left
    fun h => hne h.symm
  obtain ⟨c, s', rfl⟩ := List.exists_cons_of_ne_nil (List.ne_nil_of_mem hb)
  have hac : a.owd ≤ c.owd := List.rel_of_sorted_cons hs c (List.mem_cons_self c s')
  have hcb : c.owd ≤ b.owd := by
    rcases List.mem_cons.1 hb with h | h
    · rw [h]
    · exact List.rel_of_sorted_cons hs.of_cons b h
  exact ⟨c, s', rfl, le_antisymm (hcb.trans (owd_head_eq hp hs ht).symm.le) hac⟩

theorem closeGaps_perm (pathA : Share) (rev : List Share) {rest₁ rest₂ : List Share}
    (hp : rest₁.Perm rest₂) (hs₁ : rest₁.Sorted Share.owdLE) (hs₂ : rest₂.Sorted Share.owdLE)
    (vol : PathID → ℚ) (volume : ℚ) :
    closeGaps pathA rev rest₁ vol volume = closeGaps pathA rev rest₂ vol volume := by
  induction rest₁ generalizing pathA rev rest₂ vol volume with
  | nil => rw [hp.nil_eq]
  | cons b₁ t₁ ih =>
    obtain ⟨b₂, t₂, rfl⟩ : ∃ b t, rest₂ = b :: t := List.exists_cons_of_ne_nil fun h => by
      rw [h] at hp
      exact List.cons_ne_nil _ _ hp.eq_nil
    have hb : b₂.owd = b₁.owd := (owd_head_eq hp hs₁ hs₂).symm
    -- after one step both sides go on from the same volumes, with `b₁` or `b₂` next
    have hnext : ∀ vol' volume', closeGaps b₁ (pathA :: rev) t₁ vol' volume' =
        closeGaps b₂ (pathA :: rev) t₂ vol' volume' := by
      intro vol' volume'
      by_cases hbb : b₁ = b₂
      · subst hbb
        exact ih _ _ (List.perm_cons _ |>.1 hp) hs₁.of_cons hs₂.of_cons _ _
      · obtain ⟨c₁, s₁, rfl, hc₁⟩ := tie_of_head_ne hp hs₁ hs₂ hbb
        obtain ⟨c₂, s₂, rfl, hc₂⟩ := tie_of_head_ne hp.symm hs₂ hs₁ (Ne.symm hbb)
        rw [closeGaps_tie _ _ _ _ hc₁, closeGaps_tie _ _ _ _ hc₂]
    simp only [closeGaps, hb]
    split_ifs <;> simp only [hnext]

theorem closeAllGaps_perm {sorted₁ sorted₂ : List Share} (hp : sorted₁.Perm sorted₂)
    (hs₁ : sorted₁.Sorted Share.owdLE) (hs₂ : sorted₂.Sorted Share.owdLE) (volume : ℚ) :
    closeAllGaps sorted₁ volume = closeAllGaps sorted₂ volume := by
  match sorted₁, sorted₂, hp with
  | [], _, hp => rw [hp.nil_eq]
  | _ :: _, [], hp => exact absurd hp.symm.nil_eq (List.cons_ne_nil _ _).symm
  | a :: s, b :: t, hp =>
    by_cases hab : a = b
    · subst hab
      exact closeGaps_perm a [] (List.perm_cons a |>.1 hp) hs₁.of_cons hs₂.of_cons _ _
    · obtain ⟨c, s', rfl, hc⟩ := tie_of_head_ne hp hs₁ hs₂ hab
      obtain ⟨d, t', rfl, hd⟩ := tie_of_head_ne hp.symm hs₂ hs₁ (Ne.symm hab)
      simp only [closeAllGaps, closeGaps_tie _ _ _ _ hc, closeGaps_tie _ _ _ _ hd]

theorem shareExcess_perm (volume : ℚ) {avail₁ avail₂ : List Share} (hp : avail₁.Perm avail₂)
    (vol : PathID → ℚ) : shareExcess volume avail₁ vol = shareExcess volume avail₂ vol := by
  unfold shareExcess
  rw [(hp.map Share.bdw).sum_eq]
  refine hp.foldl_eq' (fun p _ q _ vol => ?_) vol
  by_cases h : p.pathID = q.pathID
  · rw [h, Function.update_same, Function.update_same, Function.update_idem,
      Function.update_idem, add_right_comm]
  · rw [Function.update_comm (Ne.symm h), Function.update_noteq (Ne.symm h),
      Function.update_noteq h]

theorem choosePaths_perm (lenOfDataForWriting : Nat) {paths₁ paths₂ : List (PathID × PathView)}
    (hp : paths₁.Perm paths₂) (stream : StreamView) :
    choosePaths weight priority lenOfDataForWriting paths₁ stream =
      choosePaths weight priority lenOfDataForWriting paths₂ stream := by
  by_cases hlen : paths₁.length ≤ 1
  · rw [eq_of_perm_of_length_le_one hp hlen]
  have havail := (hp.filter isCandidate).map fun e =>
    (⟨e.1, oneWayDelay e.2, sharedBandwidth weight priority e.2⟩ : Share)
  have hsorted := closeAllGaps_perm (((List.perm_insertionSort _ _).trans havail).trans
    (List.perm_insertionSort _ _).symm) (List.sorted_insertionSort _ _)
    (List.sorted_insertionSort _ _)
  have hexcess : ∀ v vol, shareExcess v _ vol = shareExcess v _ vol :=
    fun v => shareExcess_perm v havail
  simp only [choosePaths, hlen, hp.length_eq ▸ hlen, if_false, hsorted, hexcess]

end ChoosePaths

/-- Two enumeration orders of the same path table give the same allocation from `choosePaths`,
and the same path from `findPathLowLatency` when the best path is unique; on a table of two paths
or more, the path `findPathLowLatency` returns is exactly the one the tie rule picks among the
candidates in the enumeration order. -/
theorem path_choice_order_independent (quotas : PathID → Nat) (weight : StreamID → Nat)
    (priority lenOfDataForWriting : Nat) (stream : StreamView)
    {paths₁ paths₂ : List (PathID × PathView)} (hp : paths₁.Perm paths₂) :
    choosePaths weight priority lenOfDataForWriting paths₁ stream =
        choosePaths weight priority lenOfDataForWriting paths₂ stream ∧
      ((∀ c ∈ paths₁.filter isCandidate, ∀ d ∈ paths₁.filter isCandidate,
          IsLowLatencyBest quotas (paths₁.filter isCandidate) c →
          IsLowLatencyBest quotas (paths₁.filter isCandidate) d → c.1 = d.1) →
        findPathLowLatency quotas paths₁ = findPathLowLatency quotas paths₂) ∧
      (2 ≤ paths₁.length → ∀ id, findPathLowLatency quotas paths₁ = some id ↔
        ∃ c, c.1 = id ∧ IsLowLatencyPick quotas (paths₁.filter isCandidate) c) := by
  refine ⟨choosePaths_perm weight priority lenOfDataForWriting hp stream,
    findPathLowLatency_perm hp, fun hlen => ?_⟩
  rw [findPathLowLatency, if_neg (by omega)]
  exact (@foldl_lowLatencyStep_spec quotas paths₁).2

def equalRTTPaths : List (PathID × PathView) :=
  [(0, ⟨true, false, 30, 10, []⟩), (1, ⟨true, false, 10, 20, []⟩), (2, ⟨true, false, 10, 5, []⟩),
    (3, ⟨true, false, 20, 5, []⟩)]

theorem path_choice_order_independent_sample :
    equalRTTPaths.Perm equalRTTPaths.reverse ∧ 2 ≤ equalRTTPaths.length ∧
      2 ≤ equalRTTPaths.reverse.length ∧
      choosePaths (fun _ => 1) 1 100 equalRTTPaths ⟨true, 1000⟩ =
        choosePaths (fun _ => 1) 1 100 equalRTTPaths.reverse ⟨true, 1000⟩ ∧
      (∃ c, c.1 = 1 ∧ IsLowLatencyPick (fun _ => 0) (equalRTTPaths.filter isCandidate) c) ∧
      ∃ c, c.1 = 2 ∧ IsLowLatencyPick (fun _ => 0) (equalRTTPaths.reverse.filter isCandidate) c :=
  have hp := (List.reverse_perm equalRTTPaths).symm
  have h₁ := path_choice_order_independent (fun _ => 0) (fun _ => 1) 1 100 ⟨true, 1000⟩ hp
  have h₂ := path_choice_order_independent (fun _ => 0) (fun _ => 1) 1 100 ⟨true, 1000⟩ hp.symm
  ⟨hp, by decide, by decide, h₁.1, (h₁.2.2 (by decide) 1).1 (by decide),
    (h₂.2.2 (by decide) 2).1 (by decide)⟩

end PStream
