import PStream.PathManager.Addresses

/-! A client's `createPaths` running alongside the other calls on the session's paths.
`createPath` takes `pathsLock` for one pair at a time, so between two pairs of the loop other
calls holding the lock may run: `createPathFromRemote` from the receive loop, the handling of a
PATHS frame, or the `createPath` calls of another `createPaths` (both `run` and
`handleAddAddressFrame` call it). A schedule is any interleaving of the loop's own moves with
such calls.

Flattened, the two loops of `createPaths` go through the pairs `pathPairs`; the schedule of the
loop's own moves only is `createPaths` itself. Under any schedule in which the counter has room,
the map stays consistent, no path is lost or overwritten, and a loop that had a turn for every
pair and met no failed PING leaves a path for each of them, whatever the other calls did. -/

namespace PStream

namespace PathManager

variable (isIPv4 : String → Bool) (pingFails : PathID → Bool)

def pathPairs (a : Addresses) (localAddrs : List UDPAddr) : List (UDPAddr × UDPAddr) :=
  localAddrs.flatMap fun l => (a.remoteAddrsFor isIPv4 l).map (l, ·)

def createPathsOver : PathManager → List (UDPAddr × UDPAddr) → PathManager × Bool
  | pm, [] => (pm, false)
  | pm, (locAddr, remAddr) :: pairs =>
    if createPathError pingFails pm locAddr remAddr then (pm.createPath locAddr remAddr, true)
    else createPathsOver (pm.createPath locAddr remAddr) pairs

theorem createPathsOver_append (pm : PathManager) (xs ys : List (UDPAddr × UDPAddr)) :
    createPathsOver pingFails pm (xs ++ ys) =
      if (createPathsOver pingFails pm xs).2 then createPathsOver pingFails pm xs
      else createPathsOver pingFails (createPathsOver pingFails pm xs).1 ys := by
  induction xs generalizing pm with
  | nil => rfl
  | cons p xs ih =>
    obtain ⟨locAddr, remAddr⟩ := p
    by_cases herr : createPathError pingFails pm locAddr remAddr <;>
      simp only [List.cons_append, createPathsOver, herr, if_true, Bool.false_eq_true, if_false,
        List.append_eq, ih]

theorem createPathsTo_eq (locAddr : UDPAddr) (pm : PathManager) (remAddrs : List UDPAddr) :
    createPathsTo pingFails locAddr pm remAddrs =
      createPathsOver pingFails pm (remAddrs.map (locAddr, ·)) := by
  induction remAddrs generalizing pm with
  | nil => rfl
  | cons remAddr remAddrs ih => simp only [createPathsTo, List.map_cons, createPathsOver, ih]

theorem createPathsFrom_eq (a : Addresses) (pm : PathManager) (localAddrs : List UDPAddr) :
    createPathsFrom isIPv4 pingFails a pm localAddrs =
      createPathsOver pingFails pm (pathPairs isIPv4 a localAddrs) := by
  induction localAddrs generalizing pm with
  | nil => rfl
  | cons l localAddrs ih =>
    simp only [createPathsFrom, pathPairs, List.flatMap_cons, createPathsOver_append,
      createPathsTo_eq] at ih ⊢
    rw [ih]

theorem createPaths_client_eq {pm : PathManager} (hclient : pm.perspective = .client)
    (a : Addresses) (localAddrs : List UDPAddr) :
    let r := createPathsOver pingFails pm (pathPairs isIPv4 a localAddrs)
    (createPaths isIPv4 pingFails localAddrs pm a).1 = r.1 ∧
      (createPaths isIPv4 pingFails localAddrs pm a).2.2.isSome = r.2 := by
  intro r
  simp only [createPaths, hclient, createPathsFrom_eq]
  cases herr : r.2 <;> simp [r, herr]

def createsPath : Option PathEvent → Bool
  | none => true
  | some (.createPath _ _) => true
  | some _ => false

theorem mem_addPath {pm : PathManager} {pathID : PathID} (hnew : pathID ∉ pm.paths.map Prod.fst)
    (pth : PathRecord) {x : PathID × PathRecord} (hx : x ∈ pm.paths) :
    x ∈ (pm.addPath pathID pth).paths := by
  simp [addPath, setPath, hnew, hx]

theorem mem_createPath {pm : PathManager} {locAddr remAddr : UDPAddr}
    (hover : ¬pm.Overwrites locAddr remAddr) {x : PathID × PathRecord} (hx : x ∈ pm.paths) :
    x ∈ (pm.createPath locAddr remAddr).paths := by
  cases hany : pm.paths.any fun e => e.2.localAddr = locAddr ∧ e.2.remoteAddr = remAddr
  · rw [createPath_of_fresh hany]
    exact mem_addPath (fun hmem => hover ⟨hany, hmem⟩) _ hx
  · rwa [createPath_of_exists hany]

theorem HasPath.mono {pm pm' : PathManager} (h : ∀ x ∈ pm.paths, x ∈ pm'.paths)
    {locAddr remAddr : UDPAddr} (hp : pm.HasPath locAddr remAddr) :
    pm'.HasPath locAddr remAddr :=
  let ⟨e, he, hpath⟩ := List.any_eq_true.1 hp
  List.any_eq_true.2 ⟨e, h e he, hpath⟩

theorem not_wrapsCounter {pm : PathManager} {e : PathEvent}
    (hlt : createsPath (some e) = true → pm.nxtPathID.toNat + 2 < 256) : ¬pm.WrapsCounter e := by
  cases e with
  | createPath locAddr remAddr => exact fun hw => absurd hw.2 (by have := hlt rfl; omega)
  | createPathFromRemote => exact id
  | createPathsFromRemotePathsFrame => exact id

theorem step_keeps_paths {pm : PathManager} (hc : pm.Consistent) (hf : pm.Fresh) (e : PathEvent)
    (hlt : createsPath (some e) = true → pm.nxtPathID.toNat + 2 < 256) :
    (pm.step e).Consistent ∧ (pm.step e).Fresh ∧ (∀ x ∈ pm.paths, x ∈ (pm.step e).paths) ∧
      (pm.step e).nxtPathID.toNat ≤ pm.nxtPathID.toNat + if createsPath (some e) then 2 else 0 := by
  refine ⟨hc.step e fun _ _ _ => hf.not_overwrites _ _, hf.step e (not_wrapsCounter hlt), ?_⟩
  refine step_induction (fun q => (∀ x ∈ pm.paths, x ∈ q.paths) ∧
      q.nxtPathID.toNat ≤ pm.nxtPathID.toNat + if createsPath (some e) then 2 else 0)
    (fun _ _ _ h hnew _ => ⟨fun x hx => mem_addPath hnew _ (h.1 x hx), h.2⟩)
    ⟨fun _ hx => hx, Nat.le_add_right _ _⟩ e fun locAddr remAddr he => ?_
  subst he
  exact ⟨fun _ hx => mem_createPath (hf.not_overwrites _ _) hx,
    toNat_nxtPathID_createPath_le (hlt rfl) locAddr remAddr⟩

end PathManager

/-- A `createPaths` loop among other calls: the session's paths, the pairs the loop has left,
and whether a PING it sent failed, which ends the loop. -/
structure CreatePathsLoop where
  pm : PathManager
  pending : List (UDPAddr × UDPAddr)
  failed : Bool

namespace CreatePathsLoop

open PathManager

variable (pingFails : PathID → Bool)

/-- One move under `pathsLock`: `none` is the loop's next `createPath`, `some e` a call of
another goroutine. -/
def step (s : CreatePathsLoop) : Option PathEvent → CreatePathsLoop
  | some e => { s with pm := s.pm.step e }
  | none =>
    match s.pending with
    | [] => s
    | (locAddr, remAddr) :: pending =>
      if createPathError pingFails s.pm locAddr remAddr then
        ⟨s.pm.createPath locAddr remAddr, [], true⟩
      else { s with pm := s.pm.createPath locAddr remAddr, pending := pending }

def run (s : CreatePathsLoop) (sched : List (Option PathEvent)) : CreatePathsLoop :=
  sched.foldl (step pingFails) s

theorem step_pm (s : CreatePathsLoop) (m : Option PathEvent) :
    (s.step pingFails m).pm = s.pm ∨ ∃ e, (s.step pingFails m).pm = s.pm.step e ∧
      (createsPath (some e) = true → createsPath m = true) := by
  match m, s with
  | some e, _ => exact .inr ⟨e, rfl, id⟩
  | none, ⟨_, [], _⟩ => exact .inl rfl
  | none, ⟨pm, (locAddr, remAddr) :: pending, _⟩ =>
    simp only [step]
    split_ifs <;> exact .inr ⟨.createPath locAddr remAddr, rfl, fun _ => rfl⟩

theorem step_map {s : CreatePathsLoop} (hc : s.pm.Consistent) (hf : s.pm.Fresh)
    (m : Option PathEvent) (hlt : createsPath m = true → s.pm.nxtPathID.toNat + 2 < 256) :
    let pm' := (s.step pingFails m).pm
    pm'.Consistent ∧ pm'.Fresh ∧ (∀ x ∈ s.pm.paths, x ∈ pm'.paths) ∧
      pm'.nxtPathID.toNat ≤ s.pm.nxtPathID.toNat + if createsPath m then 2 else 0 := by
  rcases step_pm pingFails s m with h | ⟨e, h, hm⟩ <;> simp only [h]
  · exact ⟨hc, hf, fun _ hx => hx, Nat.le_add_right _ _⟩
  · obtain ⟨hc', hf', hkeep, hle⟩ := step_keeps_paths hc hf e fun he => hlt (hm he)
    refine ⟨hc', hf', hkeep, hle.trans ?_⟩
    cases he : createsPath (some e)
    · simp only [Bool.false_eq_true, if_false]; omega
    · simp [hm he]

theorem step_loop (s : CreatePathsLoop) (m : Option PathEvent) :
    let s' := s.step pingFails m
    s'.pending.length ≤ s.pending.length - (if m.isNone then 1 else 0) ∧
      (s'.failed = false → s.failed = false ∧
        ∃ done, s.pending = done ++ s'.pending ∧ ∀ p ∈ done, s'.pm.HasPath p.1 p.2) := by
  match m, s with
  | some e, _ => exact ⟨Nat.le_refl _, fun h => ⟨h, [], rfl, by simp⟩⟩
  | none, ⟨_, [], _⟩ => exact ⟨Nat.zero_le _, fun h => ⟨h, [], rfl, by simp⟩⟩
  | none, ⟨pm, (locAddr, remAddr) :: pending, failed⟩ =>
    by_cases herr : createPathError pingFails pm locAddr remAddr
    · simp only [step, herr, if_true]
      exact ⟨Nat.zero_le _, fun h => by cases h⟩
    · simp only [step, herr, Bool.false_eq_true, if_false, Option.isNone_none, if_true,
        List.length_cons, Nat.add_sub_cancel, Nat.le_refl, true_and]
      exact fun h => ⟨h, [(locAddr, remAddr)], rfl, by simpa using hasPath_createPath pm _ _⟩

theorem run_spec {s : CreatePathsLoop} (hc : s.pm.Consistent) (hf : s.pm.Fresh)
    (sched : List (Option PathEvent))
    (hlt : s.pm.nxtPathID.toNat + 2 * sched.countP createsPath < 256) :
    let s' := s.run pingFails sched
    s'.pm.Consistent ∧ (∀ x ∈ s.pm.paths, x ∈ s'.pm.paths) ∧
      s'.pending.length ≤ s.pending.length - sched.countP Option.isNone ∧
      (s'.failed = false → s.failed = false ∧
        ∃ done, s.pending = done ++ s'.pending ∧ ∀ p ∈ done, s'.pm.HasPath p.1 p.2) := by
  induction sched generalizing s with
  | nil => exact ⟨hc, fun _ hx => hx, Nat.le_refl _, fun h => ⟨h, [], rfl, by simp⟩⟩
  | cons m sched ih =>
    rw [show run pingFails s (m :: sched) = run pingFails (s.step pingFails m) sched from rfl]
    have hm : s.pm.nxtPathID.toNat + (if createsPath m then 2 else 0) +
        2 * sched.countP createsPath < 256 := by
      rw [List.countP_cons] at hlt
      split_ifs at hlt ⊢ <;> omega
    obtain ⟨hc₁, hf₁, hkeep₁, hle₁⟩ := step_map pingFails hc hf m fun h => by
      simp only [h, if_true] at hm; omega
    obtain ⟨hlen₁, hdone₁⟩ := step_loop pingFails s m
    obtain ⟨hc₂, hkeep₂, hlen₂, hdone₂⟩ := ih hc₁ hf₁ (by omega)
    refine ⟨hc₂, fun x hx => hkeep₂ x (hkeep₁ x hx), ?_, fun hfail => ?_⟩
    · rw [List.countP_cons]
      split_ifs at hlen₁ ⊢ <;> omega
    · obtain ⟨hfail₁, done₂, hp₂, hcov₂⟩ := hdone₂ hfail
      obtain ⟨hfail₀, done₁, hp₁, hcov₁⟩ := hdone₁ hfail₁
      refine ⟨hfail₀, done₁ ++ done₂, by rw [hp₁, hp₂, List.append_assoc], fun p hp => ?_⟩
      rcases List.mem_append.1 hp with hp | hp
      · exact HasPath.mono hkeep₂ (hcov₁ p hp)
      · exact hcov₂ p hp

theorem run_replicate_of_nil (pm : PathManager) (failed : Bool) (n : Nat) :
    run pingFails ⟨pm, [], failed⟩ (List.replicate n none) = ⟨pm, [], failed⟩ := by
  induction n with
  | zero => rfl
  | succ n ih => exact ih

theorem run_own (pm : PathManager) (pairs : List (UDPAddr × UDPAddr)) :
    run pingFails ⟨pm, pairs, false⟩ (List.replicate pairs.length none) =
      ⟨(createPathsOver pingFails pm pairs).1, [], (createPathsOver pingFails pm pairs).2⟩ := by
  induction pairs generalizing pm with
  | nil => rfl
  | cons p pairs ih =>
    obtain ⟨locAddr, remAddr⟩ := p
    simp only [List.length_cons, List.replicate_succ, run, List.foldl_cons, step,
      createPathsOver] at ih ⊢
    split_ifs
    · exact run_replicate_of_nil pingFails _ true _
    · exact ih _

end CreatePathsLoop

/-- A client's `createPaths` among any other calls on the paths. With no other call, its loop is
`createPaths` itself. Under any schedule with room for the counter, the map stays consistent and
keeps every path it had, and a loop that had a turn for every pair and met no failed PING leaves
a path from every local address to every remote address of its IP version, whatever other
paths were created in between. -/
theorem createPaths_interleaved (isIPv4 : String → Bool) (pingFails : PathID → Bool)
    {localAddrs : List UDPAddr} {pm : PathManager} {a : Addresses}
    (hclient : pm.perspective = .client) (hc : pm.Consistent) (hf : pm.Fresh)
    (sched : List (Option PathEvent))
    (hlt : pm.nxtPathID.toNat + 2 * sched.countP PathManager.createsPath < 256) :
    let pairs := PathManager.pathPairs isIPv4 a localAddrs
    let own := CreatePathsLoop.run pingFails ⟨pm, pairs, false⟩ (List.replicate pairs.length none)
    let s := CreatePathsLoop.run pingFails ⟨pm, pairs, false⟩ sched
    own.pm = (PathManager.createPaths isIPv4 pingFails localAddrs pm a).1 ∧
      own.failed = (PathManager.createPaths isIPv4 pingFails localAddrs pm a).2.2.isSome ∧
      s.pm.Consistent ∧ (∀ x ∈ pm.paths, x ∈ s.pm.paths) ∧
      (pairs.length ≤ sched.countP Option.isNone → s.failed = false →
        ∀ l ∈ localAddrs, ∀ r ∈ a.remoteAddrsFor isIPv4 l, s.pm.HasPath l r) := by
  intro pairs own s
  obtain ⟨hpm, herr⟩ := PathManager.createPaths_client_eq isIPv4 pingFails hclient a localAddrs
  obtain ⟨hc', hkeep, hlen, hdone⟩ :=
    @CreatePathsLoop.run_spec pingFails ⟨pm, pairs, false⟩ hc hf sched hlt
  refine ⟨by simp only [own, CreatePathsLoop.run_own, hpm], by
    simp only [own, CreatePathsLoop.run_own, herr], hc', hkeep, fun hturns hfail l hl r hr => ?_⟩
  obtain ⟨-, done, hpairs, hcov⟩ := hdone hfail
  have hnil : s.pending = [] :=
    List.eq_nil_of_length_eq_zero (Nat.le_zero.1 (hlen.trans (Nat.sub_eq_zero_of_le hturns).le))
  rw [hnil, List.append_nil] at hpairs
  exact hcov (l, r) (hpairs ▸ List.mem_flatMap.2 ⟨l, hl, List.mem_map_of_mem _ hr⟩)

def thirdServerAddr : UDPAddr := ⟨"10.0.1.3", 443⟩

def peerBetweenPairs : List (Option PathEvent) :=
  [none, some (.createPathFromRemote 2 clientAddr thirdServerAddr), none]

theorem createPaths_interleaved_sample :
    (PathManager.setup .client clientAddr serverAddr).perspective = .client ∧
      (PathManager.setup .client clientAddr serverAddr).Consistent ∧
      (PathManager.setup .client clientAddr serverAddr).Fresh ∧
      (PathManager.setup .client clientAddr serverAddr).nxtPathID.toNat +
          2 * peerBetweenPairs.countP
            PathManager.createsPath < 256 ∧
      let pairs := PathManager.pathPairs (fun _ => true)
        (Addresses.setup (fun _ => true) serverAddr) [clientAddr, secondClientAddr]
      let own := CreatePathsLoop.run (fun _ => false)
        ⟨PathManager.setup .client clientAddr serverAddr, pairs, false⟩
        (List.replicate pairs.length none)
      let s := CreatePathsLoop.run (fun _ => false)
        ⟨PathManager.setup .client clientAddr serverAddr, pairs, false⟩
        peerBetweenPairs
      own.pm = (PathManager.createPaths (fun _ => true) (fun _ => false)
          [clientAddr, secondClientAddr] (PathManager.setup .client clientAddr serverAddr)
          (Addresses.setup (fun _ => true) serverAddr)).1 ∧
        own.failed = (PathManager.createPaths (fun _ => true) (fun _ => false)
          [clientAddr, secondClientAddr] (PathManager.setup .client clientAddr serverAddr)
          (Addresses.setup (fun _ => true) serverAddr)).2.2.isSome ∧
        s.pm.Consistent ∧
        (∀ x ∈ (PathManager.setup .client clientAddr serverAddr).paths, x ∈ s.pm.paths) ∧
        (pairs.length ≤
            peerBetweenPairs.countP
              Option.isNone →
          s.failed = false →
          ∀ l ∈ [clientAddr, secondClientAddr],
            ∀ r ∈ (Addresses.setup (fun _ => true) serverAddr).remoteAddrsFor (fun _ => true) l,
              s.pm.HasPath l r) :=
  ⟨rfl, PathManager.consistent_setup _ _ _, PathManager.fresh_setup _ _ _, by decide,
    createPaths_interleaved (fun _ => true) (fun _ => false) rfl
      (PathManager.consistent_setup _ _ _) (PathManager.fresh_setup _ _ _) _ (by decide)⟩

end PStream
