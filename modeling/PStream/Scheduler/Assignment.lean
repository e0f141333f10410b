import PStream.Scheduler.PathSelection

/-! `assignPath`, the closure `scheduleToMultiplePaths` (`scheduler.go` lines 149-234) runs on
the session's streams, as a state machine over what it writes: the streams of each path,
`s.streamToPath`, `sch.numstreams`, and each stream's size and `pathVolume`. Between two calls
the session sends packets (a path's quota grows), its paths' statistics change, and the path
manager adds paths; a run is any sequence of these, so it covers every order in which
`RoundRobinIterateSchedule` (not in the sources) may call `assignPath`.

A stream is assigned in one call and never again: a client's streams and the crypto and header
streams 1 and 3 go to the lowest-latency path, a server's other streams to every path
`choosePaths` gives volume, once the server has three paths. Along every run in which the path
manager adds each path under a new ID, `numstreams` counts the streams of each path other than
1 and 3 ("stream quota: number of assigned streams per path(except stream 1 and 3)"), each path
lists a stream once, `streamToPath` lists for each stream exactly the paths that list it, and a
stream that goes to one path stays on one path.

The type of `streamToPath` and its `Add` are not in the sources: `Add` is taken to append the
path to the stream's entry, which a lookup finds once it exists. Each call ranges over
`s.paths` and over `selectedPths` in orders of its own, given by `AssignRanges`. -/

namespace PStream

structure StreamRecord where
  view : StreamView
  pathVolume : PathID → Option ℚ

/-- The session and scheduler state `assignPath` reads and writes. -/
structure Assignment where
  /-- `s.paths`, as the map's iteration lists it. -/
  paths : List (PathID × PathView)
  /-- `s.streamToPath`: the paths of each stream. -/
  streamToPath : StreamID → List PathID
  /-- `sch.numstreams`, as the map's iteration lists it. -/
  numstreams : List (PathID × Nat)
  /-- `sch.quotas`: the packets sent on each path. -/
  quotas : PathID → Nat
  streams : StreamID → StreamRecord

def numstreamsOf (m : List (PathID × Nat)) (pid : PathID) : Nat := (m.lookup pid).getD 0

def incrNumstreams : List (PathID × Nat) → PathID → List (PathID × Nat)
  | [], pid => [(pid, 1)]
  | e :: m, pid => if e.1 = pid then (pid, e.2 + 1) :: m else e :: incrNumstreams m pid

def modifyPath (paths : List (PathID × PathView)) (pid : PathID) (f : PathView → PathView) :
    List (PathID × PathView) :=
  paths.map fun e => if e.1 = pid then (e.1, f e.2) else e

def setPathView (paths : List (PathID × PathView)) (pid : PathID) (pth : PathView) :
    List (PathID × PathView) :=
  if pid ∈ paths.map Prod.fst then paths.map fun e => if e.1 = pid then (pid, pth) else e
  else paths ++ [(pid, pth)]

/-- The streams of a path that `numstreams` counts, and whose weights `sharedBandwidth` sums:
all but the crypto and header streams. -/
def countedStreams (streamIDs : List StreamID) : List StreamID :=
  streamIDs.filter fun sid => sid ≠ 1 ∧ sid ≠ 3

def streamTable (paths : List (PathID × PathView)) : List (PathID × List StreamID) :=
  paths.map fun e => (e.1, e.2.streamIDs)

def addStream (table : List (PathID × List StreamID)) (pid : PathID) (sid : StreamID) :
    List (PathID × List StreamID) :=
  table.map fun e => if e.1 = pid then (e.1, e.2 ++ [sid]) else e

theorem numstreamsOf_incrNumstreams (m : List (PathID × Nat)) (pid q : PathID) :
    numstreamsOf (incrNumstreams m pid) q = numstreamsOf m q + if q = pid then 1 else 0 := by
  induction m with
  | nil => by_cases hq : q = pid <;> simp [numstreamsOf, incrNumstreams, lookup_cons_pair, hq]
  | cons e m ih =>
    obtain ⟨k, n⟩ := e
    by_cases hk : k = pid
    · subst hk
      by_cases hq : q = k <;> simp [numstreamsOf, incrNumstreams, lookup_cons_pair, hq]
    · simp only [numstreamsOf, incrNumstreams, if_neg hk, lookup_cons_pair] at ih ⊢
      by_cases hq : q = k
      · simp [hq, hk]
      · simpa [hq] using ih

theorem keys_incrNumstreams (m : List (PathID × Nat)) (pid : PathID) :
    (incrNumstreams m pid).map Prod.fst =
      if pid ∈ m.map Prod.fst then m.map Prod.fst else m.map Prod.fst ++ [pid] := by
  induction m with
  | nil => rfl
  | cons e m ih =>
    by_cases hk : e.1 = pid
    · simp [incrNumstreams, hk]
    · simp only [incrNumstreams, if_neg hk, List.map_cons, ih, List.mem_cons, Ne.symm hk,
        false_or]
      split <;> rfl

theorem numstreamsOf_of_not_mem {m : List (PathID × Nat)} {pid : PathID}
    (h : pid ∉ m.map Prod.fst) : numstreamsOf m pid = 0 := by
  have : m.lookup pid = none := List.lookup_eq_none_iff.2 fun p hp => by
    simpa using fun hpid : pid = p.1 => h (hpid ▸ List.mem_map_of_mem Prod.fst hp)
  rw [numstreamsOf, this]
  rfl

@[simp]
theorem keys_streamTable (paths : List (PathID × PathView)) :
    (streamTable paths).map Prod.fst = paths.map Prod.fst := by
  simp [streamTable]

@[simp]
theorem keys_modifyPath (paths : List (PathID × PathView)) (pid : PathID)
    (f : PathView → PathView) : (modifyPath paths pid f).map Prod.fst = paths.map Prod.fst := by
  simp only [modifyPath, List.map_map]
  refine List.map_congr_left fun e _ => ?_
  by_cases h : e.1 = pid <;> simp [h]

theorem streamTable_modifyPath_of_streamIDs {paths : List (PathID × PathView)} {pid : PathID}
    {f : PathView → PathView} (hf : ∀ v, (f v).streamIDs = v.streamIDs) :
    streamTable (modifyPath paths pid f) = streamTable paths := by
  simp only [streamTable, modifyPath, List.map_map]
  refine List.map_congr_left fun e _ => ?_
  by_cases h : e.1 = pid <;> simp [h, hf]

theorem streamTable_appendStream (paths : List (PathID × PathView)) (pid : PathID)
    (sid : StreamID) :
    streamTable (modifyPath paths pid fun v => { v with streamIDs := v.streamIDs ++ [sid] }) =
      addStream (streamTable paths) pid sid := by
  simp only [streamTable, modifyPath, addStream, List.map_map]
  refine List.map_congr_left fun e _ => ?_
  by_cases h : e.1 = pid <;> simp [h]

theorem streamTable_setPathView_of_not_mem {paths : List (PathID × PathView)} {pid : PathID}
    (h : pid ∉ paths.map Prod.fst) (pth : PathView) :
    streamTable (setPathView paths pid pth) = streamTable paths ++ [(pid, pth.streamIDs)] := by
  simp [setPathView, h, streamTable]

theorem keys_addStream (table : List (PathID × List StreamID)) (pid : PathID) (sid : StreamID) :
    (addStream table pid sid).map Prod.fst = table.map Prod.fst := by
  simp only [addStream, List.map_map]
  refine List.map_congr_left fun e _ => ?_
  by_cases h : e.1 = pid <;> simp [h]

theorem mem_addStream {table : List (PathID × List StreamID)} {pid q : PathID} {sid : StreamID}
    {l : List StreamID} :
    (q, l) ∈ addStream table pid sid ↔
      ∃ l₀, (q, l₀) ∈ table ∧ l = if q = pid then l₀ ++ [sid] else l₀ := by
  simp only [addStream, List.mem_map]
  constructor
  · rintro ⟨⟨k, l₀⟩, hk, he⟩
    by_cases h : k = pid
    · simp only [h, if_true, Prod.mk.injEq] at he
      obtain ⟨rfl, rfl⟩ := he
      exact ⟨l₀, h ▸ hk, by simp⟩
    · simp only [h, if_false, Prod.mk.injEq] at he
      obtain ⟨rfl, rfl⟩ := he
      exact ⟨l₀, hk, by simp [h]⟩
  · rintro ⟨l₀, hk, rfl⟩
    exact ⟨(q, l₀), hk, by by_cases h : q = pid <;> simp [h]⟩

/-- The orders of the ranges of one `assignPath` call: over `s.paths` in `findPathLowLatency`
and in `choosePaths`, and over `selectedPths`. -/
structure AssignRanges where
  lowLatency : PathID → Nat
  choosePaths : PathID → Nat
  selected : PathID → Nat

namespace Assignment

def assignTo (st : Assignment) (sid : StreamID) (counted : Bool) (pid : PathID) (vol : ℚ) :
    Assignment where
  paths := modifyPath st.paths pid fun v => { v with streamIDs := v.streamIDs ++ [sid] }
  streamToPath := Function.update st.streamToPath sid (st.streamToPath sid ++ [pid])
  numstreams := if counted then incrNumstreams st.numstreams pid else st.numstreams
  quotas := st.quotas
  streams := Function.update st.streams sid
    { st.streams sid with pathVolume := Function.update (st.streams sid).pathVolume pid (some vol) }

def assignLowLatency (st : Assignment) (rank : PathID → Nat) (sid : StreamID) (counted : Bool) :
    Bool × Assignment :=
  match findPathLowLatency st.quotas (rangeBy rank st.paths) with
  | none => (false, st)
  | some pid => (true, st.assignTo sid counted pid 0)

def assignSelected (st : Assignment) (sid : StreamID) (selected : List (PathID × ℚ)) :
    Assignment :=
  selected.foldl (fun st e => st.assignTo sid true e.1 e.2) st

variable (perspective : Perspective) (weight : StreamID → Nat)

/-- `assignPath` on the stream `sid` of weight `priority`, whose `lenOfDataForWriting()` is
`lenOfDataForWriting`; `false` is the call that returns `ackRemainingPaths`' error. -/
def assignPath (st : Assignment) (sid : StreamID) (priority lenOfDataForWriting : Nat)
    (ranges : AssignRanges) : Bool × Assignment :=
  if st.streamToPath sid ≠ [] then (true, st)
  else
    match perspective with
    | .client => st.assignLowLatency ranges.lowLatency sid (decide (sid ≠ 1 ∧ sid ≠ 3))
    | .server =>
      if sid = 1 ∨ sid = 3 then st.assignLowLatency ranges.lowLatency sid false
      else if st.paths.length < 3 then (true, st)
      else
        let r := choosePaths weight priority lenOfDataForWriting
          (rangeBy ranges.choosePaths st.paths) (st.streams sid).view
        let st := { st with
          streams := Function.update st.streams sid { st.streams sid with view := r.1 } }
        let selected := rangeBy ranges.selected
          (st.paths.filterMap fun e => (r.2 e.1).map fun vol => (e.1, vol))
        if selected = [] then (!r.1.checksize, st)
        else (true, st.assignSelected sid selected)

end Assignment

inductive AssignEvent
  /-- `assignPath` on the stream `sid` of weight `priority`, with the orders of its ranges. -/
  | assign (sid : StreamID) (priority lenOfDataForWriting : Nat) (ranges : AssignRanges)
  /-- A packet sent on the path: `sch.quotas[pth.pathID]++` in `performPacketSending`. -/
  | sent (pid : PathID)
  /-- New statistics of a path. -/
  | observe (pid : PathID) (sendingAllowed potentiallyFailed : Bool) (smoothedRTT : Duration)
      (bandwidth : Nat)
  /-- A path the path manager creates: a new path has no stream. -/
  | addPath (pid : PathID) (sendingAllowed potentiallyFailed : Bool) (smoothedRTT : Duration)
      (bandwidth : Nat)

def addedPaths : List AssignEvent → List PathID :=
  List.filterMap fun
    | .addPath pid .. => some pid
    | _ => none

namespace Assignment

variable (perspective : Perspective) (weight : StreamID → Nat)

def step (st : Assignment) : AssignEvent → Assignment
  | .assign sid priority lenOfDataForWriting ranges =>
    (st.assignPath perspective weight sid priority lenOfDataForWriting ranges).2
  | .sent pid => { st with quotas := Function.update st.quotas pid (st.quotas pid + 1) }
  | .observe pid sendingAllowed potentiallyFailed smoothedRTT bandwidth =>
    { st with paths := modifyPath st.paths pid fun v =>
        { v with sendingAllowed, potentiallyFailed, smoothedRTT, bandwidth } }
  | .addPath pid sendingAllowed potentiallyFailed smoothedRTT bandwidth =>
    let pth : PathView := ⟨sendingAllowed, potentiallyFailed, smoothedRTT, bandwidth, []⟩
    { st with paths := setPathView st.paths pid pth }

def run (st : Assignment) (es : List AssignEvent) : Assignment :=
  es.foldl (step perspective weight) st

def initial (pth : PathView) (streams : StreamID → StreamRecord) : Assignment where
  paths := [(initialPathID, { pth with streamIDs := [] })]
  streamToPath := fun _ => []
  numstreams := []
  quotas := fun _ => 0
  streams := streams

end Assignment

/-- What every run keeps of the stream table, `streamToPath` and `numstreams`. -/
structure AssignInv (perspective : Perspective) (table : List (PathID × List StreamID))
    (streamToPath : StreamID → List PathID) (numstreams : List (PathID × Nat)) : Prop where
  keys_nodup : (table.map Prod.fst).Nodup
  numstreams_nodup : (numstreams.map Prod.fst).Nodup
  numstreams_keys : ∀ pid ∈ numstreams.map Prod.fst, pid ∈ table.map Prod.fst
  /-- `numstreams` counts the streams of each path other than 1 and 3. -/
  numstreams_count : ∀ e ∈ table, numstreamsOf numstreams e.1 = (countedStreams e.2).length
  streams_nodup : ∀ e ∈ table, e.2.Nodup
  /-- A path lists a stream exactly when `streamToPath` lists the path for the stream. -/
  listed_iff : ∀ e ∈ table, ∀ sid, sid ∈ e.2 ↔ e.1 ∈ streamToPath sid
  streamToPath_keys : ∀ sid, ∀ pid ∈ streamToPath sid, pid ∈ table.map Prod.fst
  streamToPath_nodup : ∀ sid, (streamToPath sid).Nodup
  /-- A client's streams and the streams 1 and 3 are on one path at most. -/
  single : ∀ sid, perspective = .client ∨ sid = 1 ∨ sid = 3 →
    (streamToPath sid).length ≤ 1

theorem nodup_append_singleton {α : Type} {l : List α} {a : α} (h : l.Nodup) (ha : a ∉ l) :
    (l ++ [a]).Nodup :=
  List.nodup_append.2 ⟨h, List.nodup_singleton a, List.disjoint_singleton.2 ha⟩

section AssignInv

variable {perspective : Perspective} {table : List (PathID × List StreamID)}
  {streamToPath : StreamID → List PathID} {numstreams : List (PathID × Nat)}

theorem AssignInv.addStream (h : AssignInv perspective table streamToPath numstreams)
    {pid : PathID} {sid : StreamID} {counted : Bool} (hpid : pid ∈ table.map Prod.fst)
    (hnew : pid ∉ streamToPath sid) (hcounted : counted = decide (sid ≠ 1 ∧ sid ≠ 3))
    (hsingle : perspective = .client ∨ sid = 1 ∨ sid = 3 → streamToPath sid = []) :
    AssignInv perspective (addStream table pid sid)
      (Function.update streamToPath sid (streamToPath sid ++ [pid]))
      (if counted then incrNumstreams numstreams pid else numstreams) where
  keys_nodup := by rw [keys_addStream]; exact h.keys_nodup
  numstreams_nodup := by
    split
    · rw [keys_incrNumstreams]
      split
      · exact h.numstreams_nodup
      · exact nodup_append_singleton h.numstreams_nodup ‹_›
    · exact h.numstreams_nodup
  numstreams_keys q hq := by
    rw [keys_addStream]
    split at hq
    · rw [keys_incrNumstreams] at hq
      split at hq
      · exact h.numstreams_keys q hq
      · rcases List.mem_append.1 hq with hq | hq
        · exact h.numstreams_keys q hq
        · rwa [List.mem_singleton.1 hq]
    · exact h.numstreams_keys q hq
  numstreams_count := by
    rintro ⟨q, l⟩ hq
    obtain ⟨l₀, hq₀, rfl⟩ := mem_addStream.1 hq
    have hc := h.numstreams_count _ hq₀
    by_cases hqp : q = pid
    · subst hqp
      cases counted <;> simp_all [countedStreams, numstreamsOf_incrNumstreams]
    · cases counted <;> simp_all [numstreamsOf_incrNumstreams]
  streams_nodup := by
    rintro ⟨q, l⟩ hq
    obtain ⟨l₀, hq₀, rfl⟩ := mem_addStream.1 hq
    split
    · next hqp =>
      subst hqp
      exact nodup_append_singleton (h.streams_nodup _ hq₀)
        fun hs => hnew ((h.listed_iff _ hq₀ sid).1 hs)
    · exact h.streams_nodup _ hq₀
  listed_iff := by
    rintro ⟨q, l⟩ hq s
    obtain ⟨l₀, hq₀, rfl⟩ := mem_addStream.1 hq
    have hl := h.listed_iff _ hq₀ s
    by_cases hs : s = sid
    · subst hs
      by_cases hqp : q = pid <;> simp_all
    · by_cases hqp : q = pid <;> simp_all [Function.update_noteq hs]
  streamToPath_keys s := by
    rw [keys_addStream]
    by_cases hs : s = sid
    · subst hs
      intro q hq
      rw [Function.update_same] at hq
      rcases List.mem_append.1 hq with hq | hq
      · exact h.streamToPath_keys s q hq
      · rwa [List.mem_singleton.1 hq]
    · rw [Function.update_noteq hs]
      exact h.streamToPath_keys s
  streamToPath_nodup s := by
    by_cases hs : s = sid
    · subst hs
      rw [Function.update_same]
      exact nodup_append_singleton (h.streamToPath_nodup s) hnew
    · rw [Function.update_noteq hs]
      exact h.streamToPath_nodup s
  single s hs := by
    by_cases hss : s = sid
    · subst hss
      rw [Function.update_same, hsingle hs]
      simp
    · rw [Function.update_noteq hss]
      exact h.single s hs

theorem AssignInv.addPath (h : AssignInv perspective table streamToPath numstreams)
    {pid : PathID} (hfresh : pid ∉ table.map Prod.fst) :
    AssignInv perspective (table ++ [(pid, [])]) streamToPath numstreams where
  keys_nodup := by simpa using nodup_append_singleton h.keys_nodup hfresh
  numstreams_nodup := h.numstreams_nodup
  numstreams_keys q hq := by simp [h.numstreams_keys q hq]
  numstreams_count := by
    rintro ⟨q, l⟩ hq
    rcases List.mem_append.1 hq with hq | hq
    · exact h.numstreams_count _ hq
    · obtain ⟨rfl, rfl⟩ := Prod.mk.inj (List.mem_singleton.1 hq)
      exact numstreamsOf_of_not_mem fun hm => hfresh (h.numstreams_keys _ hm)
  streams_nodup := by
    rintro ⟨q, l⟩ hq
    rcases List.mem_append.1 hq with hq | hq
    · exact h.streams_nodup _ hq
    · obtain ⟨rfl, rfl⟩ := Prod.mk.inj (List.mem_singleton.1 hq)
      exact List.nodup_nil
  listed_iff := by
    rintro ⟨q, l⟩ hq s
    rcases List.mem_append.1 hq with hq | hq
    · exact h.listed_iff _ hq s
    · obtain ⟨rfl, rfl⟩ := Prod.mk.inj (List.mem_singleton.1 hq)
      exact iff_of_false (List.not_mem_nil s) fun hm => hfresh (h.streamToPath_keys s _ hm)
  streamToPath_keys s q hq := by simp [h.streamToPath_keys s q hq]
  streamToPath_nodup := h.streamToPath_nodup
  single := h.single

end AssignInv

theorem findPathLowLatency_mem {quotas : PathID → Nat} {paths : List (PathID × PathView)}
    {pid : PathID} (h : findPathLowLatency quotas paths = some pid) :
    pid ∈ paths.map Prod.fst := by
  unfold findPathLowLatency at h
  split at h
  · split at h
    · next p hp =>
      have hpid : initialPathID = pid := by split at h <;> simp_all
      exact hpid ▸ List.mem_map_of_mem Prod.fst (mem_of_lookup hp)
    · cases h
  · obtain ⟨c, rfl, hc⟩ := ((@foldl_lowLatencyStep_spec quotas paths).2 pid).1 h
    exact List.mem_map_of_mem Prod.fst (List.mem_of_mem_filter hc.1.1)

namespace Assignment

variable (perspective : Perspective) (weight : StreamID → Nat)

def Inv (st : Assignment) : Prop :=
  AssignInv perspective (streamTable st.paths) st.streamToPath st.numstreams

theorem keys_selected_sublist (paths : List (PathID × PathView)) (alloc : PathID → Option ℚ) :
    ((paths.filterMap fun e => (alloc e.1).map fun vol => (e.1, vol)).map Prod.fst).Sublist
      (paths.map Prod.fst) := by
  induction paths with
  | nil => exact List.Sublist.slnil
  | cons e paths ih => cases h : alloc e.1 <;> simp [List.filterMap_cons, h, ih]

theorem keys_selected_subperm (rank : PathID → Nat) (paths : List (PathID × PathView))
    (alloc : PathID → Option ℚ) :
    ((rangeBy rank (paths.filterMap fun e => (alloc e.1).map fun vol => (e.1, vol))).map
      Prod.fst).Subperm (paths.map Prod.fst) :=
  ((rangeBy_perm _ _).map Prod.fst).subperm.trans (keys_selected_sublist paths alloc).subperm

theorem assignLowLatency_cases (st : Assignment) (rank : PathID → Nat) (sid : StreamID)
    (counted : Bool) :
    (st.assignLowLatency rank sid counted).2 = st ∨
      ∃ pid ∈ st.paths.map Prod.fst, (st.assignLowLatency rank sid counted).2 =
        st.assignTo sid counted pid 0 := by
  unfold assignLowLatency
  split
  · exact .inl rfl
  · next pid h =>
    exact .inr ⟨pid, ((rangeBy_perm _ _).map Prod.fst).subset (findPathLowLatency_mem h), rfl⟩

theorem assignPath_cases (st : Assignment) (sid : StreamID) (priority len : Nat)
    (ranges : AssignRanges) :
    (st.assignPath perspective weight sid priority len ranges).2 = st ∨
      (st.streamToPath sid = [] ∧ (perspective = .client ∨ sid = 1 ∨ sid = 3) ∧
        ∃ pid ∈ st.paths.map Prod.fst, (st.assignPath perspective weight sid priority len
          ranges).2 = st.assignTo sid (decide (sid ≠ 1 ∧ sid ≠ 3)) pid 0) ∨
      (st.streamToPath sid = [] ∧ ¬(perspective = .client ∨ sid = 1 ∨ sid = 3) ∧
        ∃ (view : StreamView) (selected : List (PathID × ℚ)),
          (selected.map Prod.fst).Subperm (st.paths.map Prod.fst) ∧
          (st.assignPath perspective weight sid priority len ranges).2 =
            assignSelected { st with
              streams := Function.update st.streams sid { st.streams sid with view } }
              sid selected) := by
  unfold assignPath
  by_cases h₀ : st.streamToPath sid ≠ []
  · exact .inl (by rw [if_pos h₀])
  rw [if_neg h₀]
  have h₀ : st.streamToPath sid = [] := not_not.1 h₀
  cases perspective with
  | client =>
    exact (assignLowLatency_cases st _ sid _).imp_right fun h => .inl ⟨h₀, .inl rfl, h⟩
  | server =>
    by_cases h₁ : sid = 1 ∨ sid = 3
    · have hc : decide (sid ≠ 1 ∧ sid ≠ 3) = false := by
        rcases h₁ with rfl | rfl <;> decide
      rw [if_pos h₁]
      dsimp only
      rw [hc]
      exact (assignLowLatency_cases st _ sid _).imp_right fun h => .inl ⟨h₀, .inr h₁, h⟩
    rw [if_neg h₁]
    have hs : ¬(Perspective.server = .client ∨ sid = 1 ∨ sid = 3) := by simpa using h₁
    by_cases h₂ : st.paths.length < 3
    · exact .inl (by rw [if_pos h₂])
    rw [if_neg h₂]
    dsimp only
    refine .inr (.inr ⟨h₀, hs, (choosePaths weight priority len
      (rangeBy ranges.choosePaths st.paths) (st.streams sid).view).1, ?_⟩)
    split
    · exact ⟨[], List.nil_subperm, rfl⟩
    · exact ⟨_, keys_selected_subperm _ st.paths _, rfl⟩

@[simp]
theorem keys_assignTo (st : Assignment) (sid : StreamID) (counted : Bool) (pid : PathID)
    (vol : ℚ) : (st.assignTo sid counted pid vol).paths.map Prod.fst = st.paths.map Prod.fst := by
  simp [Assignment.assignTo]

variable {perspective}

theorem Inv.assignTo {st : Assignment} (h : st.Inv perspective) {pid : PathID} {sid : StreamID}
    {counted : Bool} (hpid : pid ∈ st.paths.map Prod.fst) (hnew : pid ∉ st.streamToPath sid)
    (hcounted : counted = decide (sid ≠ 1 ∧ sid ≠ 3))
    (hsingle : perspective = .client ∨ sid = 1 ∨ sid = 3 → st.streamToPath sid = [])
    (vol : ℚ) :
    (st.assignTo sid counted pid vol).Inv perspective := by
  unfold Inv Assignment.assignTo
  rw [streamTable_appendStream]
  exact AssignInv.addStream h (by rwa [keys_streamTable]) hnew hcounted hsingle

theorem Inv.assignSelected {sid : StreamID}
    (hs : ¬(perspective = .client ∨ sid = 1 ∨ sid = 3)) :
    ∀ (selected : List (PathID × ℚ)) {st : Assignment}, st.Inv perspective →
      (∀ q ∈ selected.map Prod.fst, q ∈ st.paths.map Prod.fst) →
      (st.streamToPath sid ++ selected.map Prod.fst).Nodup →
      (st.assignSelected sid selected).Inv perspective
  | [], _, h, _, _ => h
  | e :: selected, st, h, hkeys, hnodup => by
    have hnew : e.1 ∉ st.streamToPath sid :=
      fun hm => List.disjoint_of_nodup_append hnodup hm (List.mem_cons_self _ _)
    have hcounted : true = decide (sid ≠ 1 ∧ sid ≠ 3) :=
      (decide_eq_true ⟨fun h => hs (.inr (.inl h)), fun h => hs (.inr (.inr h))⟩).symm
    refine Inv.assignSelected hs selected
      (h.assignTo (hkeys _ (List.mem_cons_self _ _)) hnew hcounted (absurd · hs) e.2)
      (fun q hq => ?_) ?_
    · rw [keys_assignTo]
      exact hkeys q (List.mem_cons_of_mem _ hq)
    · simpa [Assignment.assignTo] using hnodup

theorem Inv.assignPath {st : Assignment} (h : st.Inv perspective) (sid : StreamID)
    (priority len : Nat) (ranges : AssignRanges) :
    (st.assignPath perspective weight sid priority len ranges).2.Inv perspective := by
  rcases assignPath_cases perspective weight st sid priority len ranges with
    heq | ⟨h₀, -, pid, hpid, heq⟩ | ⟨h₀, hs, view, selected, hsub, heq⟩ <;> rw [heq]
  · exact h
  · exact h.assignTo hpid (by simp [h₀]) rfl (fun _ => h₀) 0
  · have hsubset := hsub.subset
    obtain ⟨l, hl, hls⟩ := hsub
    have hnodup := hl.nodup_iff.1 (hls.nodup (keys_streamTable st.paths ▸ h.keys_nodup))
    exact Inv.assignSelected hs selected h (fun q hq => hsubset hq)
      (by simpa [h₀] using hnodup)

theorem keys_assignSelected (sid : StreamID) :
    ∀ (selected : List (PathID × ℚ)) (st : Assignment),
      (st.assignSelected sid selected).paths.map Prod.fst = st.paths.map Prod.fst
  | [], _ => rfl
  | e :: selected, st => (keys_assignSelected sid selected _).trans (keys_assignTo st sid _ e.1 e.2)

theorem keys_assignPath (st : Assignment) (sid : StreamID) (priority len : Nat)
    (ranges : AssignRanges) :
    (st.assignPath perspective weight sid priority len ranges).2.paths.map Prod.fst =
      st.paths.map Prod.fst := by
  rcases assignPath_cases perspective weight st sid priority len ranges with
    heq | ⟨-, -, pid, -, heq⟩ | ⟨-, -, view, selected, -, heq⟩ <;> rw [heq]
  · exact keys_assignTo st sid _ pid 0
  · exact keys_assignSelected sid selected _

theorem keys_step (st : Assignment) (e : AssignEvent)
    (hfresh : (st.paths.map Prod.fst ++ addedPaths [e]).Nodup) :
    (st.step perspective weight e).paths.map Prod.fst =
      st.paths.map Prod.fst ++ addedPaths [e] := by
  cases e with
  | assign sid priority len ranges =>
    exact (keys_assignPath weight st sid priority len ranges).trans (List.append_nil _).symm
  | sent pid => simp [step, addedPaths]
  | observe pid a f rtt bdw => simp [step, addedPaths]
  | addPath pid a f rtt bdw =>
    have hp : pid ∉ st.paths.map Prod.fst :=
      fun hm => List.disjoint_of_nodup_append hfresh hm (List.mem_singleton_self pid)
    simp [step, addedPaths, setPathView, hp]

theorem Inv.step {st : Assignment} (h : st.Inv perspective) (e : AssignEvent)
    (hfresh : (st.paths.map Prod.fst ++ addedPaths [e]).Nodup) :
    (st.step perspective weight e).Inv perspective := by
  cases e with
  | assign sid priority len ranges => exact h.assignPath weight sid priority len ranges
  | sent pid => exact h
  | observe pid a f rtt bdw =>
    unfold Inv
    rw [Assignment.step, streamTable_modifyPath_of_streamIDs]
    · exact h
    · exact fun _ => rfl
  | addPath pid a f rtt bdw =>
    have hp : pid ∉ st.paths.map Prod.fst :=
      fun hm => List.disjoint_of_nodup_append hfresh hm (List.mem_singleton_self pid)
    unfold Inv
    rw [Assignment.step, streamTable_setPathView_of_not_mem hp]
    exact AssignInv.addPath h (by rwa [keys_streamTable])

theorem addedPaths_cons (e : AssignEvent) (es : List AssignEvent) :
    addedPaths (e :: es) = addedPaths [e] ++ addedPaths es := by
  cases e <;> rfl

theorem Inv.run {st : Assignment} (h : st.Inv perspective) (es : List AssignEvent)
    (hfresh : (st.paths.map Prod.fst ++ addedPaths es).Nodup) :
    (st.run perspective weight es).Inv perspective := by
  induction es generalizing st with
  | nil => exact h
  | cons e es ih =>
    rw [addedPaths_cons, ← List.append_assoc] at hfresh
    exact ih (h.step weight e hfresh.of_append_left)
      (by rwa [keys_step weight st e hfresh.of_append_left])

theorem inv_initial (pth : PathView) (streams : StreamID → StreamRecord) :
    (initial pth streams).Inv perspective where
  keys_nodup := List.nodup_singleton _
  numstreams_nodup := List.nodup_nil
  numstreams_keys _ h := nomatch h
  numstreams_count e he := by
    obtain rfl := List.mem_singleton.1 he
    rfl
  streams_nodup e he := by
    obtain rfl := List.mem_singleton.1 he
    exact List.nodup_nil
  listed_iff e he sid := by
    obtain rfl := List.mem_singleton.1 he
    exact iff_of_false (List.not_mem_nil sid) (List.not_mem_nil _)
  streamToPath_keys _ _ h := nomatch h
  streamToPath_nodup _ := List.nodup_nil
  single _ _ := Nat.zero_le 1

theorem streamToPath_assignSelected_of_ne {sid s : StreamID} (hs : s ≠ sid) :
    ∀ (selected : List (PathID × ℚ)) (st : Assignment),
      (st.assignSelected sid selected).streamToPath s = st.streamToPath s
  | [], _ => rfl
  | _ :: selected, _ =>
    (streamToPath_assignSelected_of_ne hs selected _).trans (Function.update_noteq hs _ _)

theorem streamToPath_step_of_assigned {st : Assignment} {sid : StreamID}
    (h : st.streamToPath sid ≠ []) (e : AssignEvent) :
    (st.step perspective weight e).streamToPath sid = st.streamToPath sid := by
  cases e with
  | assign s priority len ranges =>
    rcases assignPath_cases perspective weight st s priority len ranges with
      heq | ⟨h₀, -, pid, -, heq⟩ | ⟨h₀, -, view, selected, -, heq⟩ <;>
      simp only [step, heq]
    · exact Function.update_noteq (by rintro rfl; exact h h₀) _ _
    · exact streamToPath_assignSelected_of_ne (by rintro rfl; exact h h₀) selected _
  | _ => rfl

end Assignment

/-- Along every run, the paths of a stream that is on a path never change: no later call of
`assignPath` adds a path to it or moves it. -/
theorem streamToPath_stable (perspective : Perspective) (weight : StreamID → Nat)
    (st : Assignment) (es : List AssignEvent) {sid : StreamID} (h : st.streamToPath sid ≠ []) :
    (st.run perspective weight es).streamToPath sid = st.streamToPath sid := by
  induction es generalizing st with
  | nil => rfl
  | cons e es ih =>
    have hstep := @Assignment.streamToPath_step_of_assigned perspective weight st sid h e
    exact (ih _ (hstep ▸ h)).trans hstep

def descendingRank (pid : PathID) : Nat := 255 - pid.toNat

def descendingRanges : AssignRanges := ⟨descendingRank, descendingRank, descendingRank⟩

def assignedStream : Assignment :=
  (Assignment.initial unprobedPath fun _ => ⟨⟨false, 0⟩, fun _ => none⟩).assignTo 5 true 0 0

theorem streamToPath_stable_sample :
    assignedStream.streamToPath 5 ≠ [] ∧
      (assignedStream.run .client (fun _ => 1)
        [.addPath 1 true false 0 10, .assign 5 1 100 descendingRanges]).streamToPath 5 = [0] :=
  ⟨by decide, streamToPath_stable .client (fun _ => 1) assignedStream _ (by decide)⟩

/-- Along every run from `setup` in which the path manager adds each path under a new ID:
`numstreams` has one entry per path at most, and counts the streams of each path other than 1
and 3; each path lists a stream once; `streamToPath` lists for each stream, once each, exactly
the paths that list it; and a client's stream, or stream 1 or 3, is on one path at most. -/
theorem assignment_invariant (perspective : Perspective) (weight : StreamID → Nat)
    (pth : PathView) (streams : StreamID → StreamRecord) (es : List AssignEvent)
    (hfresh : (initialPathID :: addedPaths es).Nodup) :
    ((Assignment.initial pth streams).run perspective weight es).Inv perspective :=
  (Assignment.inv_initial pth streams).run weight es hfresh

def serverRun : List AssignEvent :=
  [.addPath 2 true false 20000000 10, .addPath 4 true false 40000000 20,
    .assign 1 1 100 descendingRanges, .sent 2, .observe 4 true false 30000000 20,
    .assign 5 1 100000 descendingRanges]

theorem assignment_invariant_sample :
    (initialPathID :: addedPaths serverRun).Nodup ∧
      ((Assignment.initial unprobedPath fun _ => ⟨⟨false, 0⟩, fun _ => none⟩).run .server
        (fun _ => 1) serverRun).Inv .server :=
  ⟨by decide, assignment_invariant .server (fun _ => 1) unprobedPath _ _ (by decide)⟩

end PStream
