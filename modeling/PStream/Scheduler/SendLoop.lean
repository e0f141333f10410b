import PStream.Scheduler.PathSelection
import Mathlib.Data.List.Rotate
import Mathlib.Data.Fintype.Card

/-! The loops of `sendPacket` (`scheduler.go` lines 1199-1352): passes over the open paths,
starting at the scheduler's `roundRobinIndexPath`, in which each path with streams sends up to
one packet per stream, until a pass sends nothing or finds no window.

What packing and sending do is not modelled here; the loop learns it, round by round of its
inner loop, from a sequence of `Attempt`s: whether the path may send, and whether a packet went
out or an error came back. On every outcome, each path's turn ends by moving the index on by one
modulo the number of paths, and the pass reads its paths from `startIndex`, which the call reads
once. So a call that returns without an error leaves the index where it found it, every pass of
the call starts at the same path, and from the index's zero start the loop never rotates: every
pass of every call visits `openPaths` from its first entry. The index moves only when a call
returns an error in the middle of a pass.

`path.SetLeastUnacked`, the window updates, the control frames queued on the way and
`ackRemainingPaths` are not modelled. -/

namespace PStream

/-- What one round of the inner loop learns from the session: whether the path may send
(`SendingAllowed()`), and how packing and sending end: `none` for an error returned by the
handshake retransmission or by `performPacketSending`, `some sent` otherwise. -/
structure Attempt where
  sendingAllowed : Bool
  result : Option Bool

inductive SendFailure
  /-- A `return err` inside the loop. -/
  | failed
  /-- The run-time panic of an index past `openPaths` or of a path missing from `s.paths`. -/
  | panicked
  /-- The loop has not ended within the passes the model was given. -/
  | outOfFuel
  deriving DecidableEq, Repr

structure SendLoop where
  roundRobinIndexPath : BitVec 32
  hasWindows : Bool
  pathsent : Bool
  rounds : Nat
  visited : List PathID
  deriving DecidableEq, Repr

section Loops

variable (paths : List (PathID × PathView)) (openPaths : List PathID) (env : Nat → Attempt)

def sendRounds :
    (streamNum k : Nat) → (hasWindows pathsent : Bool) → Option (Bool × Bool × Nat)
  | 0, k, hasWindows, pathsent => some (hasWindows, pathsent, k)
  | streamNum + 1, k, hasWindows, pathsent =>
    let a := env k
    let hasWindows := hasWindows || a.sendingAllowed
    if !a.sendingAllowed then some (hasWindows, pathsent, k + 1)
    else
      match a.result with
      | none => none
      | some sent =>
        let pathsent := pathsent || sent
        if !sent then some (hasWindows, pathsent, k + 1)
        else sendRounds streamNum (k + 1) hasWindows pathsent

/-- The body of `PATHLOOP` for `i`: the path `openPaths[(i+startIndex)%numOfPath]`, its inner
loop if it has streams, and the move of the index every way out of the body takes. -/
def pathTurn (numOfPath startIndex : BitVec 32) (st : SendLoop) (i : BitVec 32) :
    Except SendFailure SendLoop :=
  match openPaths[((i + startIndex) % numOfPath).toNat]? with
  | none => .error .panicked
  | some pid =>
    match paths.lookup pid with
    | none => .error .panicked
    | some path =>
      let next := (st.roundRobinIndexPath + 1) % numOfPath
      let st := { st with visited := st.visited ++ [pid] }
      let streamNum := path.streamIDs.length
      if streamNum > 0 then
        match sendRounds env streamNum st.rounds st.hasWindows st.pathsent with
        | none => .error .failed
        | some (hasWindows, pathsent, rounds) =>
          .ok { st with hasWindows, pathsent, rounds, roundRobinIndexPath := next }
      else .ok { st with roundRobinIndexPath := next }

def sendPass (startIndex : BitVec 32) (st : SendLoop) : Except SendFailure SendLoop :=
  let numOfPath := BitVec.ofNat 32 paths.length
  (List.range numOfPath.toNat).foldlM
    (fun st i => pathTurn paths openPaths env numOfPath startIndex st (BitVec.ofNat 32 i)) st

def sendLoop (startIndex : BitVec 32) : Nat → SendLoop → Except SendFailure SendLoop
  | 0, _ => .error .outOfFuel
  | fuel + 1, st =>
    match sendPass paths openPaths env startIndex
      { st with hasWindows := false, pathsent := false } with
    | .error e => .error e
    | .ok st => if !st.pathsent || !st.hasWindows then .ok st else sendLoop startIndex fuel st

/-- The loops of one call of `sendPacket` on the scheduler's `roundRobinIndexPath`. -/
def sendPacket (fuel : Nat) (roundRobinIndexPath : BitVec 32) : Except SendFailure SendLoop :=
  sendLoop paths openPaths env roundRobinIndexPath fuel
    ⟨roundRobinIndexPath, false, false, 0, []⟩

end Loops

theorem except_bind_eq_ok {ε α β : Type} {x : Except ε α} {f : α → Except ε β} {b : β}
    (h : x >>= f = .ok b) : ∃ a, x = .ok a ∧ f a = .ok b := by
  cases x with
  | error e => cases h
  | ok a => exact ⟨a, rfl, h⟩

section Turns

variable {paths : List (PathID × PathView)} {openPaths : List PathID} {env : Nat → Attempt}

theorem pathTurn_ok {numOfPath startIndex i : BitVec 32} {st st' : SendLoop}
    (h : pathTurn paths openPaths env numOfPath startIndex st i = .ok st') :
    ∃ pid, openPaths[((i + startIndex) % numOfPath).toNat]? = some pid ∧
      st'.roundRobinIndexPath = (st.roundRobinIndexPath + 1) % numOfPath ∧
      st'.visited = st.visited ++ [pid] := by
  unfold pathTurn at h
  split at h
  · cases h
  next pid hpid =>
    refine ⟨pid, hpid, ?_⟩
    split at h
    · cases h
    dsimp only at h
    split at h
    · split at h
      · cases h
      · cases h
        exact ⟨rfl, rfl⟩
    · cases h
      exact ⟨rfl, rfl⟩

theorem toNat_next_index {x n : BitVec 32} (hx : x.toNat < n.toNat) :
    ((x + 1) % n).toNat = (x.toNat + 1) % n.toNat := by
  have hn := n.isLt
  have hone : (1 : BitVec 32).toNat = 1 := rfl
  rw [BitVec.toNat_umod, BitVec.toNat_add, hone,
    Nat.mod_eq_of_lt (show x.toNat + 1 < 2 ^ 32 by omega)]

theorem toNat_path_index {i n : Nat} {s : BitVec 32} (hi : i < n) (hs : s.toNat < n)
    (hn : n ≤ 2 ^ 31) :
    ((BitVec.ofNat 32 i + s) % BitVec.ofNat 32 n).toNat = (i + s.toNat) % n := by
  rw [BitVec.toNat_umod, BitVec.toNat_add, BitVec.toNat_ofNat, BitVec.toNat_ofNat,
    Nat.mod_eq_of_lt (a := i) (by omega), Nat.mod_eq_of_lt (a := n) (by omega),
    Nat.mod_eq_of_lt (a := i + s.toNat) (by omega)]

theorem foldlM_pathTurn {n : Nat} (hn : n ≤ 2 ^ 31) {s : BitVec 32} (hs : s.toNat < n) :
    ∀ k ≤ n, ∀ {st st' : SendLoop}, st.roundRobinIndexPath.toNat < n →
      (List.range k).foldlM (fun st i => pathTurn paths openPaths env (BitVec.ofNat 32 n) s st
        (BitVec.ofNat 32 i)) st = .ok st' →
      st'.roundRobinIndexPath.toNat = (st.roundRobinIndexPath.toNat + k) % n ∧
        st'.visited = st.visited ++
          (List.range k).map fun i => openPaths.getD ((i + s.toNat) % n) 0
  | 0, _, st, st', hidx, h => by
    cases h
    exact ⟨(Nat.mod_eq_of_lt hidx).symm, by simp⟩
  | k + 1, hk, st, st', hidx, h => by
    have hnum : (BitVec.ofNat 32 n).toNat = n := by
      rw [BitVec.toNat_ofNat, Nat.mod_eq_of_lt (by omega)]
    rw [List.range_succ, List.foldlM_append] at h
    obtain ⟨mid, hmid, hlast⟩ := except_bind_eq_ok h
    obtain ⟨hmidx, hmvis⟩ := foldlM_pathTurn hn hs k (by omega) hidx hmid
    simp only [List.foldlM_cons, List.foldlM_nil, bind_pure] at hlast
    obtain ⟨pid, hpid, hidx', hvis'⟩ := pathTurn_ok hlast
    rw [toNat_path_index (by omega) hs hn] at hpid
    have hlt : mid.roundRobinIndexPath.toNat < (BitVec.ofNat 32 n).toNat := by
      rw [hmidx, hnum]
      exact Nat.mod_lt _ (by omega)
    refine ⟨?_, ?_⟩
    · rw [hidx', toNat_next_index hlt, hmidx, hnum, Nat.mod_add_mod, Nat.add_assoc]
    · rw [hvis', hmvis, List.range_succ, List.map_append, List.append_assoc]
      simp [List.getD_eq_getElem?_getD, hpid]

end Turns

theorem length_le_of_keys_nodup {paths : List (PathID × PathView)}
    (h : (paths.map Prod.fst).Nodup) : paths.length ≤ 256 := by
  have hfin : ((paths.map Prod.fst).map BitVec.toFin).Nodup :=
    h.map fun _ _ hab => BitVec.eq_of_toFin_eq hab
  calc paths.length = ((paths.map Prod.fst).map BitVec.toFin).length := by
        rw [List.length_map, List.length_map]
    _ ≤ Fintype.card (Fin (2 ^ 8)) := hfin.length_le_card
    _ = 256 := Fintype.card_fin _

theorem map_range_getD_eq_rotate {l : List PathID} {s n : Nat} (hl : l.length = n)
    (hs : s < n) : ((List.range n).map fun i => l.getD ((i + s) % n) 0) = l.rotate s := by
  apply List.ext_getElem
  · simp [hl]
  · intro j h₁ h₂
    have hj : (j + s) % n < l.length := hl ▸ Nat.mod_lt _ (by omega)
    simp only [List.getElem_map, List.getElem_range, List.getElem_rotate, hl,
      List.getD_eq_getElem?_getD, List.getElem?_eq_getElem hj, Option.getD_some]

section Calls

variable {paths : List (PathID × PathView)} {openPaths : List PathID} {env : Nat → Attempt}

theorem sendPass_ok {s : BitVec 32} {st st' : SendLoop} (hkeys : (paths.map Prod.fst).Nodup)
    (hlen : openPaths.length = paths.length) (hs : s.toNat < paths.length)
    (hidx : st.roundRobinIndexPath = s) (h : sendPass paths openPaths env s st = .ok st') :
    st'.roundRobinIndexPath = s ∧ st'.visited = st.visited ++ openPaths.rotate s.toNat := by
  have hn : paths.length ≤ 2 ^ 31 := (length_le_of_keys_nodup hkeys).trans (by decide)
  have hnum : (BitVec.ofNat 32 paths.length).toNat = paths.length := by
    rw [BitVec.toNat_ofNat, Nat.mod_eq_of_lt (by omega)]
  simp only [sendPass, hnum] at h
  obtain ⟨hidx', hvis⟩ := foldlM_pathTurn hn hs _ le_rfl (by rw [hidx]; exact hs) h
  refine ⟨BitVec.eq_of_toNat_eq ?_, ?_⟩
  · rw [hidx', hidx, Nat.add_mod_right, Nat.mod_eq_of_lt hs]
  · rw [hvis, map_range_getD_eq_rotate hlen hs]

theorem sendLoop_ok {s : BitVec 32} (hkeys : (paths.map Prod.fst).Nodup)
    (hlen : openPaths.length = paths.length) (hs : s.toNat < paths.length) :
    ∀ (fuel : Nat) {st st' : SendLoop}, st.roundRobinIndexPath = s →
      sendLoop paths openPaths env s fuel st = .ok st' →
      st'.roundRobinIndexPath = s ∧ ∃ m, 0 < m ∧
        st'.visited = st.visited ++ (List.replicate m (openPaths.rotate s.toNat)).flatten
  | 0, _, _, _, h => by cases h
  | fuel + 1, st, st', hidx, h => by
    unfold sendLoop at h
    split at h
    · cases h
    next st₁ h₁ =>
      obtain ⟨hidx₁, hvis₁⟩ := @sendPass_ok paths openPaths env s
        { st with hasWindows := false, pathsent := false } st₁ hkeys hlen hs hidx h₁
      split at h
      · cases h
        exact ⟨hidx₁, 1, Nat.one_pos, by simpa using hvis₁⟩
      · obtain ⟨hidx', m, hm, hvis'⟩ := sendLoop_ok hkeys hlen hs fuel hidx₁ h
        refine ⟨hidx', m + 1, m.succ_pos, ?_⟩
        rw [hvis', hvis₁, List.replicate_succ, List.flatten_cons, List.append_assoc]

/-- A call of `sendPacket` that returns without an error, on a table with one entry per path ID
and `openPaths` listing each path once, leaves `roundRobinIndexPath` where it found it, and each
of its passes visits every path of the table once, in the same order, from the same path on. -/
theorem sendPacket_ok (fuel : Nat) {roundRobinIndexPath : BitVec 32} {st' : SendLoop}
    (hkeys : (paths.map Prod.fst).Nodup) (hopen : openPaths.Perm (paths.map Prod.fst))
    (hidx : roundRobinIndexPath.toNat < paths.length)
    (h : sendPacket paths openPaths env fuel roundRobinIndexPath = .ok st') :
    st'.roundRobinIndexPath = roundRobinIndexPath ∧
      (openPaths.rotate roundRobinIndexPath.toNat).Perm (paths.map Prod.fst) ∧
      ∃ m, 0 < m ∧ st'.visited =
        (List.replicate m (openPaths.rotate roundRobinIndexPath.toNat)).flatten := by
  have hlen : openPaths.length = paths.length := by rw [hopen.length_eq, List.length_map]
  obtain ⟨hidx', m, hm, hvis⟩ := sendLoop_ok hkeys hlen hidx fuel rfl h
  exact ⟨hidx', (List.rotate_perm _ _).trans hopen, m, hm, by simpa using hvis⟩

end Calls

def streamPaths : List (PathID × PathView) :=
  [(0, unprobedPath), (1, ⟨true, false, 10, 20, [3, 5]⟩), (2, ⟨true, false, 20, 10, [7]⟩)]

def sendsUntilThird (k : Nat) : Attempt := ⟨true, some (decide (k < 3))⟩

def twoPasses : SendLoop := ⟨1, true, false, 5, [1, 2, 0, 1, 2, 0]⟩

theorem sendPacket_ok_sample :
    (streamPaths.map Prod.fst).Nodup ∧ [0, 1, 2].Perm (streamPaths.map Prod.fst) ∧
      (1 : BitVec 32).toNat < streamPaths.length ∧
      sendPacket streamPaths [0, 1, 2] sendsUntilThird 3 1 = .ok twoPasses ∧
      twoPasses.roundRobinIndexPath = 1 ∧
      ([0, 1, 2].rotate (1 : BitVec 32).toNat).Perm (streamPaths.map Prod.fst) ∧
      ∃ m, 0 < m ∧ twoPasses.visited =
        (List.replicate m ([0, 1, 2].rotate (1 : BitVec 32).toNat)).flatten :=
  ⟨by decide, by decide, by decide, rfl,
    @sendPacket_ok streamPaths [0, 1, 2] sendsUntilThird 3 1 twoPasses (by decide) (by decide)
      (by decide) rfl⟩

structure SendTick where
  paths : List (PathID × PathView)
  openPaths : List PathID
  env : Nat → Attempt
  fuel : Nat

def sendTicks : List SendTick → BitVec 32 → Except SendFailure (List (List PathID))
  | [], _ => .ok []
  | t :: ts, roundRobinIndexPath =>
    match sendPacket t.paths t.openPaths t.env t.fuel roundRobinIndexPath with
    | .error e => .error e
    | .ok st => (sendTicks ts st.roundRobinIndexPath).map (st.visited :: ·)

theorem except_map_eq_ok {ε α β : Type} {f : α → β} {x : Except ε α} {b : β}
    (h : x.map f = .ok b) : ∃ a, x = .ok a ∧ b = f a := by
  cases x with
  | error e => cases h
  | ok a => exact ⟨a, rfl, (Except.ok.inj h).symm⟩

/-- From the index's zero start, along every run of ticks that return without an error, on
tables with one entry per path ID and `openPaths` listing each path once, every pass of every
call visits `openPaths` in its order from its first entry: the round robin never rotates. -/
theorem sendTicks_start_at_first_path : ∀ (ticks : List SendTick) {visits : List (List PathID)},
    (∀ t ∈ ticks, t.paths ≠ [] ∧ (t.paths.map Prod.fst).Nodup ∧
      t.openPaths.Perm (t.paths.map Prod.fst)) →
    sendTicks ticks 0 = .ok visits →
    List.Forall₂ (fun t v => ∃ m, 0 < m ∧ v = (List.replicate m t.openPaths).flatten)
      ticks visits
  | [], _, _, h => by
    cases h
    exact .nil
  | t :: ts, visits, hticks, h => by
    obtain ⟨hne, hkeys, hopen⟩ := hticks t (List.mem_cons_self _ _)
    unfold sendTicks at h
    split at h
    · cases h
    next st hst =>
      obtain ⟨rest, hrest, rfl⟩ := except_map_eq_ok h
      have hlen : t.openPaths.length = t.paths.length := by
        rw [hopen.length_eq, List.length_map]
      obtain ⟨hidx, m, hm, hvis⟩ := @sendLoop_ok t.paths t.openPaths t.env 0 hkeys hlen
        (List.length_pos.2 hne) t.fuel _ st rfl hst
      rw [hidx] at hrest
      refine .cons ⟨m, hm, by simpa using hvis⟩ ?_
      exact sendTicks_start_at_first_path ts (fun t ht => hticks t (List.mem_cons_of_mem _ ht))
        hrest

def streamTicks : List SendTick :=
  [⟨streamPaths, [0, 1, 2], sendsUntilThird, 3⟩, ⟨streamPaths, [2, 1, 0], fun _ => ⟨true, some false⟩, 1⟩]

theorem sendTicks_start_at_first_path_sample :
    (∀ t ∈ streamTicks, t.paths ≠ [] ∧ (t.paths.map Prod.fst).Nodup ∧
      t.openPaths.Perm (t.paths.map Prod.fst)) ∧
      sendTicks streamTicks 0 = .ok [[0, 1, 2, 0, 1, 2], [2, 1, 0]] ∧
      List.Forall₂ (fun t v => ∃ m, 0 < m ∧ v = (List.replicate m t.openPaths).flatten)
        streamTicks [[0, 1, 2, 0, 1, 2], [2, 1, 0]] :=
  ⟨by decide, rfl, sendTicks_start_at_first_path _ (by decide) rfl⟩

end PStream
