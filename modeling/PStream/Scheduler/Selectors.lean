import PStream.Scheduler.Assignment

/-! The other path selectors of the scheduler: `selectPathLowLatency` (`scheduler.go` lines
352-431), which `selectPath` calls for sending, and the round-robin selectors
`iteratePathRoundRobin` and `selectPathRoundRobin` (lines 253-350), which nothing calls.

`selectPathLowLatency` is `findPathLowLatency`'s loop, in which a retransmission may use a path
that is not allowed to send. Its prelude, for
a stream retransmission from an unprobed path, returns the first other path with fewer packets
sent, without looking at whether that path may send or is potentially failed.

The round-robin loops keep the first path of lowest quota, from a bound of `^uint(0)`: they pick a
path of the lowest quota among the paths they consider, the first in the iteration order, and no
path only when every such path has sent `^uint(0)` packets or more. -/

namespace PStream

/-- The case `len(s.paths) <= 1` of `selectPathLowLatency` and `selectPathRoundRobin`: the
initial path, unless it may not send and nothing is retransmitted. -/
def selectSinglePath (paths : List (PathID × PathView)) (hasRetransmission : Bool) :
    Option PathID :=
  match paths.lookup initialPathID with
  | some p => if !hasRetransmission && !p.sendingAllowed then none else some initialPathID
  | none => none

/-- A path as the loops of `selectPathLowLatency` and `selectPathRoundRobin` judge it: "Don't
block path usage if we retransmit, even on another path". -/
def retransmissionView (hasRetransmission : Bool) (e : PathID × PathView) : PathID × PathView :=
  (e.1, { e.2 with sendingAllowed := hasRetransmission || e.2.sendingAllowed })

section LowLatency

variable (quotas : PathID → Nat)

/-- The prelude's loop: "Is there any other path with a lower number of packet sent?" than
`fromPth`, the path of the retransmission. -/
def lowerQuotaPath (paths : List (PathID × PathView)) (fromPth : PathID × PathView) :
    Option PathID :=
  (paths.find? fun e => e.1 ≠ initialPathID ∧ e.1 ≠ fromPth.1 ∧
    quotas e.1 < quotas fromPth.1).map Prod.fst

def selectPathLowLatency (paths : List (PathID × PathView))
    (hasRetransmission hasStreamRetransmission : Bool) (fromPth : PathID × PathView) :
    Option PathID :=
  if paths.length ≤ 1 then selectSinglePath paths hasRetransmission
  else
    let lower :=
      if hasRetransmission && hasStreamRetransmission && fromPth.2.smoothedRTT = 0 then
        lowerQuotaPath quotas paths fromPth
      else none
    match lower with
    | some pid => some pid
    | none =>
      ((paths.map (retransmissionView hasRetransmission)).foldl (lowLatencyStep quotas)
        (none, 0)).1

/-- On a table of two paths or more: when a stream retransmission comes from an unprobed path
and the prelude finds a path with fewer packets sent, that path, whether it may send or not and
whether it is potentially failed or not; otherwise no path exactly when no path is a candidate
once a retransmission may use every path, and else a best such candidate. -/
theorem selectPathLowLatency_spec (paths : List (PathID × PathView))
    (hasRetransmission hasStreamRetransmission : Bool) (fromPth : PathID × PathView)
    (hlen : 2 ≤ paths.length) :
    (∀ pid, hasRetransmission = true → hasStreamRetransmission = true →
      fromPth.2.smoothedRTT = 0 → lowerQuotaPath quotas paths fromPth = some pid →
      selectPathLowLatency quotas paths hasRetransmission hasStreamRetransmission fromPth =
        some pid) ∧
    ((hasRetransmission = true → hasStreamRetransmission = true → fromPth.2.smoothedRTT = 0 →
        lowerQuotaPath quotas paths fromPth = none) →
      let cs := (paths.map (retransmissionView hasRetransmission)).filter isCandidate
      (selectPathLowLatency quotas paths hasRetransmission hasStreamRetransmission fromPth =
          none ↔ cs = []) ∧
        ∀ pid, selectPathLowLatency quotas paths hasRetransmission hasStreamRetransmission
          fromPth = some pid → ∃ c, c.1 = pid ∧ IsLowLatencyBest quotas cs c) := by
  have hlen' : ¬paths.length ≤ 1 := by omega
  refine ⟨fun pid hr hsr hrtt hlower => ?_, fun hnone => ?_⟩
  · simp [selectPathLowLatency, hlen', hr, hsr, hrtt, hlower]
  have hlow : (if hasRetransmission && hasStreamRetransmission && fromPth.2.smoothedRTT = 0 then
      lowerQuotaPath quotas paths fromPth else none) = none := by
    split
    · next hc => simpa using hnone (by simp_all) (by simp_all) (by simp_all)
    · rfl
  obtain ⟨hn, hs⟩ := @foldl_lowLatencyStep_spec quotas
    (paths.map (retransmissionView hasRetransmission))
  simp only [selectPathLowLatency, if_neg hlen', hlow]
  refine ⟨hn, fun id h => ?_⟩
  obtain ⟨c, hc, hpick⟩ := (hs id).1 h
  exact ⟨c, hc, hpick.1⟩

end LowLatency

def failedPath : PathView := ⟨false, true, 0, 10, []⟩

theorem selectPathLowLatency_spec_sample :
    2 ≤ [(0, unprobedPath), (1, failedPath), (2, unprobedPath)].length ∧
      selectPathLowLatency (fun id => if id = 2 then 5 else 0)
        [(0, unprobedPath), (1, failedPath), (2, unprobedPath)] true true (2, unprobedPath) =
        some 1 :=
  ⟨by decide, (selectPathLowLatency_spec _ _ true true _ (by decide)).1 1 rfl rfl rfl rfl⟩

def maxQuota : Nat := 2 ^ 64 - 1

section RoundRobin

variable (quotas : PathID → Nat)

def roundRobinStep (consider : PathID × PathView → Bool) (st : Option PathID × Nat)
    (e : PathID × PathView) : Option PathID × Nat :=
  if !consider e then st
  else if quotas e.1 < st.2 then (some e.1, quotas e.1) else st

def iteratePathRoundRobin (paths : List (PathID × PathView)) : Option PathID :=
  (paths.foldl (roundRobinStep quotas fun _ => true) (none, maxQuota)).1

def selectPathRoundRobin (paths : List (PathID × PathView)) (hasRetransmission : Bool) :
    Option PathID :=
  if paths.length ≤ 1 then selectSinglePath paths hasRetransmission
  else
    (paths.foldl
      (roundRobinStep quotas fun e => isCandidate (retransmissionView hasRetransmission e))
      (none, maxQuota)).1

def IsFirstLowest (cs : List (PathID × PathView)) (id : PathID) : Prop :=
  ∃ l₁ v l₂, cs = l₁ ++ (id, v) :: l₂ ∧ quotas id < maxQuota ∧
    (∀ d ∈ l₁, quotas id < quotas d.1) ∧ ∀ d ∈ l₂, quotas id ≤ quotas d.1

def RoundRobinInv (consider : PathID × PathView → Bool) (seen : List (PathID × PathView)) :
    Option PathID × Nat → Prop
  | (none, q) => q = maxQuota ∧ ∀ d ∈ seen.filter consider, maxQuota ≤ quotas d.1
  | (some id, q) => q = quotas id ∧ IsFirstLowest quotas (seen.filter consider) id

variable {quotas}

theorem RoundRobinInv.step {consider : PathID × PathView → Bool}
    {seen : List (PathID × PathView)}
    {st : Option PathID × Nat} (h : RoundRobinInv quotas consider seen st)
    (e : PathID × PathView) :
    RoundRobinInv quotas consider (seen ++ [e]) (roundRobinStep quotas consider st e) := by
  unfold roundRobinStep
  by_cases hc : consider e
  · have hf : (seen ++ [e]).filter consider = seen.filter consider ++ [(e.1, e.2)] := by
      simp [List.filter_append, hc]
    rw [if_neg (by simp [hc])]
    obtain ⟨_ | id, q⟩ := st
    · obtain ⟨rfl, hall⟩ := h
      split
      · next hlt =>
        exact ⟨rfl, _, e.2, [], hf, hlt, fun d hd => lt_of_lt_of_le hlt (hall d hd), nofun⟩
      · next hge =>
        refine ⟨rfl, fun d hd => ?_⟩
        rw [hf] at hd
        rcases List.mem_append.1 hd with hd | hd
        · exact hall d hd
        · rw [List.mem_singleton.1 hd]
          exact Nat.le_of_not_lt hge
    · obtain ⟨rfl, l₁, v, l₂, hcs, hlt, h₁, h₂⟩ := h
      split
      · next hlt' =>
        refine ⟨rfl, _, e.2, [], hf, by omega, fun d hd => ?_, nofun⟩
        rw [hcs] at hd
        rcases List.mem_append.1 hd with hd | hd
        · exact hlt'.trans (h₁ d hd)
        rcases List.mem_cons.1 hd with rfl | hd
        · exact hlt'
        · exact lt_of_lt_of_le hlt' (h₂ d hd)
      · next hge =>
        refine ⟨rfl, l₁, v, l₂ ++ [e], by rw [hf, hcs]; simp, hlt, h₁, fun d hd => ?_⟩
        rcases List.mem_append.1 hd with hd | hd
        · exact h₂ d hd
        · rw [List.mem_singleton.1 hd]
          exact Nat.le_of_not_lt hge
  · have hf : (seen ++ [e]).filter consider = seen.filter consider := by
      simp [List.filter_append, hc]
    rw [if_pos (by simp [hc])]
    obtain ⟨_ | id, q⟩ := st <;> simpa only [RoundRobinInv, hf] using h

theorem roundRobinInv_foldl (consider : PathID × PathView → Bool)
    (paths : List (PathID × PathView)) :
    RoundRobinInv quotas consider paths
      (paths.foldl (roundRobinStep quotas consider) (none, maxQuota)) := by
  induction paths using List.reverseRecOn with
  | nil => exact ⟨rfl, nofun⟩
  | append_singleton paths e ih => simpa only [List.foldl_append, List.foldl_cons,
      List.foldl_nil] using ih.step e

theorem roundRobin_foldl_spec (consider : PathID × PathView → Bool)
    (paths : List (PathID × PathView)) :
    ((paths.foldl (roundRobinStep quotas consider) (none, maxQuota)).1 = none ↔
        ∀ d ∈ paths.filter consider, maxQuota ≤ quotas d.1) ∧
      ∀ id, (paths.foldl (roundRobinStep quotas consider) (none, maxQuota)).1 = some id →
        IsFirstLowest quotas (paths.filter consider) id := by
  have hi := @roundRobinInv_foldl quotas consider paths
  revert hi
  generalize paths.foldl (roundRobinStep quotas consider) (none, maxQuota) = st
  rintro hi
  obtain ⟨_ | pid, q⟩ := st
  · exact ⟨iff_of_true rfl hi.2, nofun⟩
  · obtain ⟨-, hfl⟩ := hi
    have hmem : ∃ v, (pid, v) ∈ paths.filter consider ∧ quotas pid < maxQuota := by
      obtain ⟨l₁, v, l₂, hcs, hlt, -, -⟩ := hfl
      exact ⟨v, by rw [hcs]; simp, hlt⟩
    obtain ⟨v, hv, hlt⟩ := hmem
    exact ⟨iff_of_false nofun fun hall => absurd (hall (pid, v) hv) (Nat.not_le.2 hlt),
      fun _ h => Option.some_inj.1 h ▸ hfl⟩

end RoundRobin

/-- `iteratePathRoundRobin` picks the first path of lowest quota, and no path exactly when every
path has sent `^uint(0)` packets or more; on a table of two paths or more,
`selectPathRoundRobin` does the same over the candidates, a retransmission using every path. -/
theorem roundRobin_first_lowest (quotas : PathID → Nat) :
    (∀ paths,
      (iteratePathRoundRobin quotas paths = none ↔ ∀ d ∈ paths, maxQuota ≤ quotas d.1) ∧
      ∀ id, iteratePathRoundRobin quotas paths = some id → IsFirstLowest quotas paths id) ∧
    ∀ paths hasRetransmission, 2 ≤ paths.length →
      let cs := paths.filter fun e => isCandidate (retransmissionView hasRetransmission e)
      (selectPathRoundRobin quotas paths hasRetransmission = none ↔
          ∀ d ∈ cs, maxQuota ≤ quotas d.1) ∧
        ∀ id, selectPathRoundRobin quotas paths hasRetransmission = some id →
          IsFirstLowest quotas cs id := by
  refine ⟨fun paths => ?_, fun paths hasRetransmission hlen => ?_⟩
  · simpa only [List.filter_true] using @roundRobin_foldl_spec quotas (fun _ => true) paths
  · simpa only [selectPathRoundRobin, if_neg (show ¬paths.length ≤ 1 by omega)] using
      @roundRobin_foldl_spec quotas _ paths

theorem roundRobin_first_lowest_sample :
    2 ≤ [(0, unprobedPath), (1, unprobedPath), (2, unprobedPath)].length ∧
      IsFirstLowest (fun id => if id = 1 then 3 else 0)
        ([(0, unprobedPath), (1, unprobedPath), (2, unprobedPath)].filter fun e =>
          isCandidate (retransmissionView false e)) 2 :=
  ⟨by decide, ((roundRobin_first_lowest _).2 _ false (by decide)).2 2 rfl⟩

def insertKey (keys : List PathID) (k : PathID) : List PathID :=
  if k ∈ keys then keys else keys ++ [k]

def fillNumstreams (m : List (PathID × Nat)) (e : PathID × PathView) : List (PathID × Nat) :=
  if e.1 ∈ m.map Prod.fst then m else m ++ [(e.1, 0)]

def lowestStep (acc : Nat × PathID) (e : PathID × Nat) : Nat × PathID :=
  if e.1 = initialPathID then acc else if e.2 < acc.1 then (e.2, e.1) else acc

def avalStep (lowerQuota : Nat) (aval : List PathID) (e : PathID × Nat) : List PathID :=
  if e.1 = initialPathID then aval else if e.2 = lowerQuota then insertKey aval e.1 else aval

/-- The orders of the ranges of one `findPath` call: `checkPathQuota`'s over `s.paths` and its
two over `sch.numstreams`, and `pathLoop`'s over `avalPath`. -/
structure FindPathRanges where
  paths : PathID → Nat
  lowest : PathID → Nat
  aval : PathID → Nat
  pathLoop : PathID → Nat

/-- `checkPathQuota`: `numstreams` with the entries it adds, and the keys of `avalPath`. -/
def checkPathQuota (ranges : FindPathRanges) (paths : List (PathID × PathView))
    (numstreams : List (PathID × Nat)) : List (PathID × Nat) × List PathID :=
  let numstreams := (rangeBy ranges.paths paths).foldl fillNumstreams numstreams
  let lowest := (rangeBy ranges.lowest numstreams).foldl lowestStep (maxQuota, 0)
  let avalPath := (rangeBy ranges.aval numstreams).foldl (avalStep lowest.1) [lowest.2]
  (numstreams, insertKey avalPath initialPathID)

/-- `findPath`, with `numstreams` after the call. A key of `avalPath` with no path, on which Go
dereferences a nil path, is skipped. -/
def findPath (ranges : FindPathRanges) (quotas : PathID → Nat) (paths : List (PathID × PathView))
    (numstreams : List (PathID × Nat)) : List (PathID × Nat) × Option PathID :=
  if paths.length ≤ 1 then
    (numstreams, match paths.lookup initialPathID with
      | some p => if p.sendingAllowed then some initialPathID else none
      | none => none)
  else
    let r := checkPathQuota ranges paths numstreams
    (r.1, ((rangeBy ranges.pathLoop (r.2.filterMap fun pid =>
      (paths.lookup pid).map fun p => (pid, p))).foldl (lowLatencyStep quotas) (none, 0)).1)

theorem mem_insertKey {keys : List PathID} {k x : PathID} :
    x ∈ insertKey keys k ↔ x ∈ keys ∨ x = k := by
  unfold insertKey
  split
  · next h => exact ⟨.inl, fun hx => hx.elim id (· ▸ h)⟩
  · simp

theorem numstreamsOf_fillNumstreams (m : List (PathID × Nat)) (e : PathID × PathView)
    (k : PathID) : numstreamsOf (fillNumstreams m e) k = numstreamsOf m k := by
  unfold fillNumstreams numstreamsOf
  split
  · rfl
  · rw [List.lookup_append]
    cases m.lookup k <;> simp [List.lookup_cons]
    split <;> rfl

theorem mem_keys_fillNumstreams {m : List (PathID × Nat)} {e : PathID × PathView} {k : PathID} :
    k ∈ (fillNumstreams m e).map Prod.fst ↔ k ∈ m.map Prod.fst ∨ k = e.1 := by
  unfold fillNumstreams
  split
  · next h => exact ⟨.inl, fun hk => hk.elim id (· ▸ h)⟩
  · simp

theorem nodup_keys_fillNumstreams {m : List (PathID × Nat)} (h : (m.map Prod.fst).Nodup)
    (e : PathID × PathView) : ((fillNumstreams m e).map Prod.fst).Nodup := by
  unfold fillNumstreams
  split
  · exact h
  · simpa using nodup_append_singleton h ‹_›

theorem foldl_fillNumstreams (paths : List (PathID × PathView)) :
    ∀ m : List (PathID × Nat), (m.map Prod.fst).Nodup →
      (∀ k, numstreamsOf (paths.foldl fillNumstreams m) k = numstreamsOf m k) ∧
      ((paths.foldl fillNumstreams m).map Prod.fst).Nodup ∧
      ∀ k, k ∈ (paths.foldl fillNumstreams m).map Prod.fst ↔
        k ∈ m.map Prod.fst ∨ k ∈ paths.map Prod.fst := by
  induction paths with
  | nil => exact fun m h => ⟨fun _ => rfl, h, fun _ => by simp⟩
  | cons e paths ih =>
    intro m h
    obtain ⟨hcount, hnodup, hkeys⟩ := ih _ (nodup_keys_fillNumstreams h e)
    refine ⟨fun k => (hcount k).trans (numstreamsOf_fillNumstreams m e k), hnodup, fun k => ?_⟩
    rw [List.foldl_cons, hkeys, mem_keys_fillNumstreams, List.map_cons, List.mem_cons]
    tauto

theorem foldl_lowestStep (ns : List (PathID × Nat)) :
    ∀ acc : Nat × PathID,
      (ns.foldl lowestStep acc).1 ≤ acc.1 ∧
      (∀ e ∈ ns, e.1 ≠ initialPathID → (ns.foldl lowestStep acc).1 ≤ e.2) ∧
      (ns.foldl lowestStep acc = acc ∨
        ((ns.foldl lowestStep acc).2, (ns.foldl lowestStep acc).1) ∈ ns ∧
          (ns.foldl lowestStep acc).2 ≠ initialPathID) := by
  induction ns with
  | nil => exact fun acc => ⟨le_rfl, nofun, .inl rfl⟩
  | cons e ns ih =>
    intro acc
    obtain ⟨hle, hmin, hwhich⟩ := ih (lowestStep acc e)
    simp only [List.foldl_cons]
    have hstep : (lowestStep acc e).1 ≤ acc.1 ∧
        (e.1 ≠ initialPathID → (lowestStep acc e).1 ≤ e.2) ∧
        (lowestStep acc e = acc ∨ lowestStep acc e = (e.2, e.1) ∧ e.1 ≠ initialPathID) := by
      unfold lowestStep
      split
      · exact ⟨le_rfl, (absurd · (not_not.2 ‹_›)), .inl rfl⟩
      · split
        · exact ⟨Nat.le_of_lt ‹_›, fun _ => le_rfl, .inr ⟨rfl, ‹_›⟩⟩
        · exact ⟨le_rfl, fun _ => Nat.le_of_not_lt ‹_›, .inl rfl⟩
    refine ⟨hle.trans hstep.1, fun d hd hd0 => ?_, ?_⟩
    · rcases List.mem_cons.1 hd with rfl | hd
      · exact hle.trans (hstep.2.1 hd0)
      · exact hmin d hd hd0
    · rcases hwhich with heq | hmem
      · rw [heq]
        rcases hstep.2.2 with h | ⟨h, he⟩
        · exact .inl h
        · rw [h]
          exact .inr ⟨List.mem_cons_self _ _, he⟩
      · exact .inr ⟨List.mem_cons_of_mem _ hmem.1, hmem.2⟩

theorem mem_foldl_avalStep (lowerQuota : Nat) (ns : List (PathID × Nat)) :
    ∀ (aval : List PathID) (k : PathID), k ∈ ns.foldl (avalStep lowerQuota) aval →
      k ∈ aval ∨ k ≠ initialPathID ∧ (k, lowerQuota) ∈ ns := by
  induction ns with
  | nil => exact fun _ _ h => .inl h
  | cons e ns ih =>
    intro aval k hk
    rcases ih _ k hk with hk | ⟨hk0, hmem⟩
    · unfold avalStep at hk
      split at hk
      · exact .inl hk
      · split at hk
        · rcases mem_insertKey.1 hk with hk | rfl
          · exact .inl hk
          · exact .inr ⟨‹_›, by
              rw [← ‹e.2 = lowerQuota›]
              exact List.mem_cons_self _ _⟩
        · exact .inl hk
    · exact .inr ⟨hk0, List.mem_cons_of_mem _ hmem⟩

theorem findPath_mem_aval {ranges : FindPathRanges} {quotas : PathID → Nat}
    {paths : List (PathID × PathView)} {numstreams : List (PathID × Nat)}
    (hlen : 2 ≤ paths.length) {pid : PathID}
    (h : (findPath ranges quotas paths numstreams).2 = some pid) :
    ∃ v, paths.lookup pid = some v ∧ isCandidate (pid, v) ∧
      pid ∈ (checkPathQuota ranges paths numstreams).2 := by
  simp only [findPath, if_neg (show ¬paths.length ≤ 1 by omega)] at h
  obtain ⟨c, rfl, hpick⟩ := ((@foldl_lowLatencyStep_spec quotas _).2 pid).1 h
  obtain ⟨hmem, hcand⟩ := List.mem_filter.1 hpick.1.1
  obtain ⟨k, hk, hkc⟩ := List.mem_filterMap.1 (mem_rangeBy.1 hmem)
  obtain ⟨v, hv, rfl⟩ := Option.map_eq_some'.1 hkc
  exact ⟨v, hv, hcand, hk⟩

theorem checkPathQuota_least (ranges : FindPathRanges) (paths : List (PathID × PathView))
    {numstreams : List (PathID × Nat)} (hnodup : (numstreams.map Prod.fst).Nodup) {pid : PathID}
    (hpid : pid ≠ initialPathID) (haval : pid ∈ (checkPathQuota ranges paths numstreams).2) :
    ∀ w ∈ paths, w.1 ≠ initialPathID →
      numstreamsOf numstreams pid ≤ numstreamsOf numstreams w.1 := by
  simp only [checkPathQuota] at haval
  obtain ⟨hcount, hnodup', hkeys⟩ :=
    foldl_fillNumstreams (rangeBy ranges.paths paths) numstreams hnodup
  set ns := (rangeBy ranges.paths paths).foldl fillNumstreams numstreams
  obtain ⟨-, hmin, hwhich⟩ := foldl_lowestStep (rangeBy ranges.lowest ns) (maxQuota, 0)
  set lowest := (rangeBy ranges.lowest ns).foldl lowestStep (maxQuota, 0)
  -- the path picked has `lowerQuota` streams
  have hlow : (pid, lowest.1) ∈ ns := by
    rcases mem_insertKey.1 haval with haval | rfl
    · rcases mem_foldl_avalStep lowest.1 _ _ pid haval with hk | ⟨-, hmem⟩
      · have hk := List.mem_singleton.1 hk
        rcases hwhich with heq | ⟨hmem, -⟩
        · exact absurd (hk.trans (by rw [heq]; rfl)) hpid
        · exact hk ▸ mem_rangeBy.1 hmem
      · exact mem_rangeBy.1 hmem
    · exact absurd rfl hpid
  intro w hw hw0
  -- every other non-initial path has at least `lowerQuota` streams
  obtain ⟨q, hq⟩ : ∃ q, ns.lookup w.1 = some q := by
    have hk : w.1 ∈ ns.map Prod.fst :=
      (hkeys w.1).2 (.inr (List.mem_map_of_mem _ (mem_rangeBy.2 hw)))
    obtain ⟨e, he, hew⟩ := List.mem_map.1 hk
    exact ⟨e.2, hew ▸ lookup_of_mem_of_nodup (show (e.1, e.2) ∈ ns from he) hnodup'⟩
  calc numstreamsOf numstreams pid = lowest.1 := by
        rw [← hcount pid]; simp [numstreamsOf, lookup_of_mem_of_nodup hlow hnodup']
    _ ≤ q := hmin (w.1, q) (mem_rangeBy.2 (mem_of_lookup hq)) hw0
    _ = numstreamsOf numstreams w.1 := by rw [← hcount w.1]; simp [numstreamsOf, hq]

namespace Assignment

/-- Along every run (see `assignment_invariant`), on a table of two paths or more, `findPath`
picks a candidate path carrying no more streams, 1 and 3 apart, than any other path but the
initial one: `checkPathQuota` narrows the choice to the least-loaded paths, and `numstreams`
counts each path's streams. -/
theorem findPath_least_loaded {perspective : Perspective} {st : Assignment}
    (h : st.Inv perspective) (hlen : 2 ≤ st.paths.length) {ranges : FindPathRanges}
    {pid : PathID} (hfind : (findPath ranges st.quotas st.paths st.numstreams).2 = some pid) :
    ∃ v, (pid, v) ∈ st.paths ∧ isCandidate (pid, v) ∧
      ∀ w ∈ st.paths, w.1 ≠ initialPathID →
        (countedStreams v.streamIDs).length ≤ (countedStreams w.2.streamIDs).length := by
  obtain ⟨v, hv, hcand, haval⟩ := findPath_mem_aval hlen hfind
  have hpid : pid ≠ initialPathID := by
    simp only [isCandidate, Bool.and_eq_true, decide_eq_true_eq] at hcand
    exact hcand.2
  have hcount_of : ∀ w ∈ st.paths,
      numstreamsOf st.numstreams w.1 = (countedStreams w.2.streamIDs).length :=
    fun w hw => h.numstreams_count (w.1, w.2.streamIDs) (List.mem_map_of_mem _ hw)
  refine ⟨v, mem_of_lookup hv, hcand, fun w hw hw0 => ?_⟩
  rw [← hcount_of _ (mem_of_lookup hv), ← hcount_of w hw]
  exact checkPathQuota_least ranges st.paths h.numstreams_nodup hpid haval w hw hw0

end Assignment

def clientWithStreams : Assignment :=
  (Assignment.initial unprobedPath fun _ => ⟨⟨false, 0⟩, fun _ => none⟩).run .client
    (fun _ => 1)
    [.addPath 1 true false 0 10, .addPath 3 true false 0 10, .addPath 5 true false 0 10,
      .assign 5 1 100 descendingRanges, .sent 1, .assign 7 1 100 descendingRanges]

def descendingFindPathRanges : FindPathRanges :=
  ⟨descendingRank, descendingRank, descendingRank, descendingRank⟩

theorem findPath_least_loaded_sample :
    clientWithStreams.Inv .client ∧ 2 ≤ clientWithStreams.paths.length ∧
      (findPath descendingFindPathRanges clientWithStreams.quotas clientWithStreams.paths
        clientWithStreams.numstreams).2 = some 5 ∧
      ∃ v, (5, v) ∈ clientWithStreams.paths ∧ isCandidate (5, v) ∧
        ∀ w ∈ clientWithStreams.paths, w.1 ≠ initialPathID →
          (countedStreams v.streamIDs).length ≤ (countedStreams w.2.streamIDs).length :=
  have hinv : clientWithStreams.Inv .client :=
    (Assignment.inv_initial _ _).run _ _ (by decide)
  ⟨hinv, by decide, rfl, @Assignment.findPath_least_loaded .client clientWithStreams hinv
    (by decide) descendingFindPathRanges 5 rfl⟩

end PStream
