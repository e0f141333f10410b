import Mathlib.Data.List.Nodup
import Mathlib.Algebra.Order.Ring.Int
import PStream.Wire.Frame

/-! `pathManager` (`path_manager.go`, in the first unnamed part of the sources): `setup`,
`createPath`, `createPathFromRemote` and `createPathsFromRemotePathsFrame`, acting on the
session's `paths` map and its `openPaths` list.

`setup` starts a client's counter `nxtPathID` at 1 and a server's at 2, and `createPath` adds 2
per path, so a client creates odd path IDs and a server even ones. That is the parity the
peer's `createPathFromRemote` accepts ("odd is client initiated, even for server initiated");
the comment in `setup` says the opposite. The counter is a `uint8`: on a client, the 129th path
`createPath` creates gets ID 1 again. Unlike the two functions for remote paths, `createPath`
never checks that the ID is free, so it overwrites path 1 and lists 1 twice in `openPaths`.

`createPaths` (a loop of `createPath` over local and remote addresses) and the address lists it
reads are in `PathManager.Addresses`; `nbPaths` and the OLIA senders are not modelled. -/

namespace PStream

/-- `net.UDPAddr`, compared through `String()`: two addresses print alike exactly when their IP
and port are the same. -/
structure UDPAddr where
  ip : String
  port : Int
  deriving DecidableEq, Repr

def staticStatistics (ip : String) : Duration × Nat :=
  if ip = "10.0.0.1" then (1000000, 1 * 1048576)
  else if ip = "10.0.1.1" then (1000000, 20 * 1048576)
  else (0, 0)

structure PathRecord where
  localAddr : UDPAddr
  remoteAddr : UDPAddr
  statistics : Option (Duration × Nat)
  deriving DecidableEq, Repr

structure PathManager where
  perspective : Perspective
  nxtPathID : PathID
  /-- `sess.paths`, one entry per path ID. -/
  paths : List (PathID × PathRecord)
  openPaths : List PathID

inductive PathError
  | alreadyExists
  | serverOddPathID
  | clientEvenPathID
  | parsingPort
  /-- The run-time panic of an index past `RemoteAddrsIP` or `RemoteAddrsPort`. -/
  | indexOutOfRange
  deriving DecidableEq, Repr

def PathError.message : PathError → String
  | .alreadyExists => "trying to create already existing path"
  | .serverOddPathID => "server tries to create odd pathID"
  | .clientEvenPathID => "client tries to create even pathID"
  | .parsingPort => "error parsing port"
  | .indexOutOfRange => "index out of range"

def Perspective.peer : Perspective → Perspective
  | .client => .server
  | .server => .client

/-- "Sanity check: odd is client initiated, even for server initiated". -/
def remoteParityCheck (perspective : Perspective) (pathID : PathID) : Option PathError :=
  if perspective = .client ∧ pathID.toNat % 2 ≠ 0 then some .serverOddPathID
  else if perspective = .server ∧ pathID.toNat % 2 = 0 then some .clientEvenPathID
  else none

/-- `strconv.Atoi`: an optional sign, then one decimal digit or more, the value within the 64
bits of `int`; anything else is an error. -/
def atoi (s : String) : Option Int :=
  let signed : Int × List Char := match s.toList with
    | '-' :: ds => (-1, ds)
    | '+' :: ds => (1, ds)
    | ds => (1, ds)
  if signed.2 ≠ [] ∧ signed.2.all Char.isDigit then
    let n : Int := signed.1 * (signed.2.foldl (fun n c => 10 * n + (c.toNat - '0'.toNat)) 0 : Nat)
    if -2 ^ 63 ≤ n ∧ n < 2 ^ 63 then some n else none
  else none

example : atoi "+443" = some 443 ∧ atoi "-1" = some (-1) ∧ atoi "9223372036854775808" = none ∧
    atoi "4_43" = none ∧ atoi "" = none := by decide

namespace PathManager

def setPath (paths : List (PathID × PathRecord)) (pathID : PathID) (pth : PathRecord) :
    List (PathID × PathRecord) :=
  if pathID ∈ paths.map Prod.fst then paths.map fun e => if e.1 = pathID then (pathID, pth) else e
  else paths ++ [(pathID, pth)]

def addPath (pm : PathManager) (pathID : PathID) (pth : PathRecord) : PathManager :=
  { pm with paths := setPath pm.paths pathID pth, openPaths := pm.openPaths ++ [pathID] }

def setup (perspective : Perspective) (localAddr remoteAddr : UDPAddr) : PathManager where
  perspective := perspective
  nxtPathID := if perspective = .client then 1 else 2
  paths := [(initialPathID, ⟨localAddr, remoteAddr, none⟩)]
  openPaths := [initialPathID]

/-- `createPath`. The PING it sends on the new path changes nothing here; its error is returned
after the path is in the map. -/
def createPath (pm : PathManager) (locAddr remAddr : UDPAddr) : PathManager :=
  if pm.paths.any fun e => e.2.localAddr = locAddr ∧ e.2.remoteAddr = remAddr then pm
  else { pm.addPath pm.nxtPathID ⟨locAddr, remAddr, some (staticStatistics locAddr.ip)⟩ with
    nxtPathID := pm.nxtPathID + 2 }

def createPathFromRemote (pm : PathManager) (pathID : PathID) (localAddr remoteAddr : UDPAddr) :
    Except PathError PathManager :=
  if pathID ∈ pm.paths.map Prod.fst then .error .alreadyExists
  else
    match remoteParityCheck pm.perspective pathID with
    | some e => .error e
    | none => .ok (pm.addPath pathID
        ⟨localAddr, remoteAddr, some (staticStatistics remoteAddr.ip)⟩)

/-- The loop of `createPathsFromRemotePathsFrame` over the frame's entries: an ID in use is
skipped, an error ends the loop and keeps the paths created before. -/
def createPathsFromRemotePathsFrameLoop (localAddr : UDPAddr) :
    PathManager → List PathID → List String → List String → PathManager × Option PathError
  | pm, [], _, _ => (pm, none)
  | pm, pathID :: pathIDs, remoteIP :: ips, remotePort :: ports =>
    match atoi remotePort with
    | none => (pm, some .parsingPort)
    | some port =>
      if pathID ∈ pm.paths.map Prod.fst then
        createPathsFromRemotePathsFrameLoop localAddr pm pathIDs ips ports
      else
        match remoteParityCheck pm.perspective pathID with
        | some e => (pm, some e)
        | none => createPathsFromRemotePathsFrameLoop localAddr
            (pm.addPath pathID ⟨localAddr, ⟨remoteIP, port⟩, some (staticStatistics remoteIP)⟩)
            pathIDs ips ports
  | pm, _ :: _, _, _ => (pm, some .indexOutOfRange)

def createPathsFromRemotePathsFrame (pm : PathManager) (frame : PathsFrame)
    (localAddr : UDPAddr) : PathManager × Option PathError :=
  createPathsFromRemotePathsFrameLoop localAddr pm frame.pathIDs frame.remoteAddrsIP
    frame.remoteAddrsPort

end PathManager

inductive PathEvent
  | createPath (locAddr remAddr : UDPAddr)
  | createPathFromRemote (pathID : PathID) (localAddr remoteAddr : UDPAddr)
  | createPathsFromRemotePathsFrame (frame : PathsFrame) (localAddr : UDPAddr)

namespace PathManager

/-- One call; a call that fails keeps what it changed before failing. -/
def step (pm : PathManager) : PathEvent → PathManager
  | .createPath locAddr remAddr => pm.createPath locAddr remAddr
  | .createPathFromRemote pathID localAddr remoteAddr =>
    match pm.createPathFromRemote pathID localAddr remoteAddr with
    | .ok pm' => pm'
    | .error _ => pm
  | .createPathsFromRemotePathsFrame frame localAddr =>
    (pm.createPathsFromRemotePathsFrame frame localAddr).1

def run (pm : PathManager) (es : List PathEvent) : PathManager := es.foldl step pm

theorem run_append (pm : PathManager) (es es' : List PathEvent) :
    run pm (es ++ es') = run (run pm es) es' :=
  List.foldl_append _ _ _ _

theorem run_induction (P : PathManager → Prop) (hstep : ∀ pm e, P pm → P (pm.step e))
    (pm : PathManager) (h : P pm) (es : List PathEvent) : P (run pm es) := by
  induction es generalizing pm with
  | nil => exact h
  | cons e es ih => exact ih _ (hstep _ _ h)

theorem keys_setPath_of_not_mem {paths : List (PathID × PathRecord)} {pathID : PathID}
    (h : pathID ∉ paths.map Prod.fst) (pth : PathRecord) :
    (setPath paths pathID pth).map Prod.fst = paths.map Prod.fst ++ [pathID] := by
  simp [setPath, h]

theorem createPath_of_fresh {pm : PathManager} {locAddr remAddr : UDPAddr}
    (hany : (pm.paths.any fun e => e.2.localAddr = locAddr ∧ e.2.remoteAddr = remAddr) = false) :
    pm.createPath locAddr remAddr =
      { pm.addPath pm.nxtPathID ⟨locAddr, remAddr, some (staticStatistics locAddr.ip)⟩ with
        nxtPathID := pm.nxtPathID + 2 } := by
  simp only [PathManager.createPath, hany, Bool.false_eq_true, if_false]

theorem createPath_of_exists {pm : PathManager} {locAddr remAddr : UDPAddr}
    (hany : (pm.paths.any fun e => e.2.localAddr = locAddr ∧ e.2.remoteAddr = remAddr) = true) :
    pm.createPath locAddr remAddr = pm := by
  simp only [PathManager.createPath, hany, if_true]

theorem createPathFromRemote_ok {pm pm' : PathManager} {pathID : PathID}
    {localAddr remoteAddr : UDPAddr}
    (hok : pm.createPathFromRemote pathID localAddr remoteAddr = .ok pm') :
    pathID ∉ pm.paths.map Prod.fst ∧ remoteParityCheck pm.perspective pathID = none ∧
      pm' = pm.addPath pathID ⟨localAddr, remoteAddr, some (staticStatistics remoteAddr.ip)⟩ := by
  unfold PathManager.createPathFromRemote at hok
  split_ifs at hok with hmem
  split at hok
  · cases hok
  · next hpar =>
    cases hok
    exact ⟨hmem, hpar, rfl⟩

theorem createPathsFromRemotePathsFrameLoop_induction (P : PathManager → Prop)
    (hadd : ∀ pm pathID pth, P pm → pathID ∉ pm.paths.map Prod.fst →
      remoteParityCheck pm.perspective pathID = none → P (pm.addPath pathID pth))
    (localAddr : UDPAddr) {pm : PathManager} (h : P pm) (pathIDs : List PathID)
    (ips ports : List String) :
    P (createPathsFromRemotePathsFrameLoop localAddr pm pathIDs ips ports).1 := by
  induction pathIDs generalizing pm ips ports with
  | nil => exact h
  | cons pathID pathIDs ih =>
    match ips, ports with
    | [], _ => exact h
    | _ :: _, [] => exact h
    | remoteIP :: ips, remotePort :: ports =>
      simp only [createPathsFromRemotePathsFrameLoop]
      split
      · exact h
      · split_ifs with hmem
        · exact ih h _ _
        · split
          · exact h
          · next hpar => exact ih (hadd _ _ _ h hmem hpar) _ _

theorem step_induction (P : PathManager → Prop)
    (hadd : ∀ pm pathID pth, P pm → pathID ∉ pm.paths.map Prod.fst →
      remoteParityCheck pm.perspective pathID = none → P (pm.addPath pathID pth))
    {pm : PathManager} (h : P pm) (e : PathEvent)
    (hcreate : ∀ locAddr remAddr, e = .createPath locAddr remAddr →
      P (pm.createPath locAddr remAddr)) : P (pm.step e) := by
  cases e with
  | createPath locAddr remAddr => exact hcreate _ _ rfl
  | createPathFromRemote pathID localAddr remoteAddr =>
    simp only [PathManager.step]
    split
    next pm' hok =>
      obtain ⟨hmem, hpar, rfl⟩ := createPathFromRemote_ok hok
      exact hadd _ _ _ h hmem hpar
    next => exact h
  | createPathsFromRemotePathsFrame frame localAddr =>
    exact createPathsFromRemotePathsFrameLoop_induction P hadd localAddr h _ _ _

def Along (P : PathManager → PathEvent → Prop) : PathManager → List PathEvent → Prop
  | _, [] => True
  | pm, e :: es => P pm e ∧ Along P (pm.step e) es

theorem Along.run_induction (P : PathManager → Prop) {Q : PathManager → PathEvent → Prop}
    (hstep : ∀ pm e, P pm → Q pm e → P (pm.step e)) {pm : PathManager} (h : P pm)
    {es : List PathEvent} (hes : Along Q pm es) : P (run pm es) := by
  induction es generalizing pm with
  | nil => exact h
  | cons e es ih => exact ih (hstep _ _ h hes.1) hes.2

/-- What the session needs of the map and `openPaths`: one entry per path ID, and `openPaths`
listing every path ID once. -/
structure Consistent (pm : PathManager) : Prop where
  keys_nodup : (pm.paths.map Prod.fst).Nodup
  openPaths_perm : pm.openPaths.Perm (pm.paths.map Prod.fst)

theorem consistent_setup (perspective : Perspective) (localAddr remoteAddr : UDPAddr) :
    (setup perspective localAddr remoteAddr).Consistent :=
  ⟨List.nodup_singleton _, List.Perm.refl _⟩

theorem Consistent.addPath {pm : PathManager} (h : pm.Consistent) {pathID : PathID}
    (hnew : pathID ∉ pm.paths.map Prod.fst) (pth : PathRecord) :
    (pm.addPath pathID pth).Consistent where
  keys_nodup := by
    rw [PathManager.addPath, keys_setPath_of_not_mem hnew]
    exact List.nodup_append.2
      ⟨h.keys_nodup, List.nodup_singleton _, List.disjoint_singleton.2 hnew⟩
  openPaths_perm := by
    rw [PathManager.addPath, keys_setPath_of_not_mem hnew]
    exact h.openPaths_perm.append_right _

def Overwrites (pm : PathManager) (locAddr remAddr : UDPAddr) : Prop :=
  (pm.paths.any fun e => e.2.localAddr = locAddr ∧ e.2.remoteAddr = remAddr) = false ∧
    pm.nxtPathID ∈ pm.paths.map Prod.fst

theorem Consistent.createPath {pm : PathManager} (h : pm.Consistent) {locAddr remAddr : UDPAddr}
    (hover : ¬pm.Overwrites locAddr remAddr) : (pm.createPath locAddr remAddr).Consistent := by
  cases hany : pm.paths.any fun e => e.2.localAddr = locAddr ∧ e.2.remoteAddr = remAddr
  · have h' := h.addPath (fun hmem => hover ⟨hany, hmem⟩)
      ⟨locAddr, remAddr, some (staticStatistics locAddr.ip)⟩
    rw [createPath_of_fresh hany]
    exact ⟨h'.keys_nodup, h'.openPaths_perm⟩
  · rwa [createPath_of_exists hany]

theorem Consistent.step {pm : PathManager} (h : pm.Consistent) (e : PathEvent)
    (he : ∀ locAddr remAddr, e = .createPath locAddr remAddr → ¬pm.Overwrites locAddr remAddr) :
    (pm.step e).Consistent :=
  step_induction Consistent (fun _ _ _ h hmem _ => h.addPath hmem _) h e
    fun _ _ he' => h.createPath (he _ _ he')

def idParity : Perspective → Nat
  | .client => 1
  | .server => 0

theorem idParity_of_remoteParityCheck {perspective : Perspective} {pathID : PathID}
    (h : remoteParityCheck perspective pathID = none) : pathID.toNat % 2 ≠ idParity perspective := by
  cases perspective <;> simp only [remoteParityCheck, idParity] at h ⊢ <;> split_ifs at h <;>
    simp_all

theorem createPath_counter_parity (pm : PathManager) (locAddr remAddr : UDPAddr) :
    (pm.createPath locAddr remAddr).perspective = pm.perspective ∧
      (pm.createPath locAddr remAddr).nxtPathID.toNat % 2 = pm.nxtPathID.toNat % 2 := by
  cases hany : pm.paths.any fun e => e.2.localAddr = locAddr ∧ e.2.remoteAddr = remAddr
  · rw [createPath_of_fresh hany]
    refine ⟨rfl, ?_⟩
    show (pm.nxtPathID + 2).toNat % 2 = _
    bv_omega
  · rw [createPath_of_exists hany]
    exact ⟨rfl, rfl⟩

theorem step_counter_parity (pm : PathManager) (e : PathEvent) :
    (pm.step e).perspective = pm.perspective ∧
      (pm.step e).nxtPathID.toNat % 2 = pm.nxtPathID.toNat % 2 :=
  step_induction (fun q => q.perspective = pm.perspective ∧
      q.nxtPathID.toNat % 2 = pm.nxtPathID.toNat % 2) (fun _ _ _ h _ _ => h) ⟨rfl, rfl⟩ e
    fun _ _ _ => createPath_counter_parity pm _ _

/-- Along every run from `setup`, the next ID `createPath` would use has the parity the peer's
`createPathFromRemote` accepts. -/
theorem run_nxtPathID_accepted_by_peer (perspective : Perspective) (localAddr remoteAddr : UDPAddr)
    (es : List PathEvent) :
    remoteParityCheck perspective.peer (run (setup perspective localAddr remoteAddr) es).nxtPathID =
      none := by
  have h := (run_induction (fun pm => pm.perspective = perspective ∧
      pm.nxtPathID.toNat % 2 = idParity perspective)
    (fun pm e h => ⟨(step_counter_parity pm e).1.trans h.1, (step_counter_parity pm e).2.trans h.2⟩)
    (setup perspective localAddr remoteAddr) ⟨rfl, by cases perspective <;> simp [setup, idParity]⟩
    es).2
  cases perspective <;>
    simp only [remoteParityCheck, Perspective.peer, idParity] at h ⊢ <;> simp [h]

/-- Until the counter wraps, it is above every path ID of its own parity. -/
structure Fresh (pm : PathManager) : Prop where
  counter_parity : pm.nxtPathID.toNat % 2 = idParity pm.perspective
  local_below : ∀ k ∈ pm.paths.map Prod.fst, k.toNat % 2 = idParity pm.perspective →
    k.toNat < pm.nxtPathID.toNat

theorem Fresh.not_overwrites {pm : PathManager} (h : pm.Fresh) (locAddr remAddr : UDPAddr) :
    ¬pm.Overwrites locAddr remAddr :=
  fun hover => Nat.lt_irrefl _ (h.local_below _ hover.2 h.counter_parity)

theorem fresh_setup (perspective : Perspective) (localAddr remoteAddr : UDPAddr) :
    (setup perspective localAddr remoteAddr).Fresh := by
  constructor <;> cases perspective <;> simp [setup, idParity, initialPathID]

def WrapsCounter (pm : PathManager) : PathEvent → Prop
  | .createPath locAddr remAddr =>
    (pm.paths.any fun e => e.2.localAddr = locAddr ∧ e.2.remoteAddr = remAddr) = false ∧
      256 ≤ pm.nxtPathID.toNat + 2
  | _ => False

theorem Fresh.createPath {pm : PathManager} (h : pm.Fresh) {locAddr remAddr : UDPAddr}
    (hw : ¬pm.WrapsCounter (.createPath locAddr remAddr)) :
    (pm.createPath locAddr remAddr).Fresh := by
  cases hany : pm.paths.any fun e => e.2.localAddr = locAddr ∧ e.2.remoteAddr = remAddr
  · have hnew := fun hmem => h.not_overwrites locAddr remAddr ⟨hany, hmem⟩
    have hlt : pm.nxtPathID.toNat + 2 < 256 := Nat.lt_of_not_le fun hle => hw ⟨hany, hle⟩
    have hadd : (pm.nxtPathID + 2).toNat = pm.nxtPathID.toNat + 2 := by bv_omega
    rw [createPath_of_fresh hany]
    refine ⟨?_, fun k hk hpar => ?_⟩
    · show (pm.nxtPathID + 2).toNat % 2 = idParity pm.perspective
      rw [hadd, Nat.add_mod_right]
      exact h.counter_parity
    simp only [PathManager.addPath, keys_setPath_of_not_mem hnew, List.mem_append,
      List.mem_singleton] at hk
    show k.toNat < (pm.nxtPathID + 2).toNat
    rw [hadd]
    rcases hk with hk | rfl
    · exact Nat.lt_add_right 2 (h.local_below k hk hpar)
    · omega
  · rwa [createPath_of_exists hany]

theorem Fresh.addPath {pm : PathManager} (h : pm.Fresh) {pathID : PathID}
    (hnew : pathID ∉ pm.paths.map Prod.fst) (hpar : remoteParityCheck pm.perspective pathID = none)
    (pth : PathRecord) : (pm.addPath pathID pth).Fresh := by
  refine ⟨h.counter_parity, fun k hk hk' => ?_⟩
  simp only [PathManager.addPath, keys_setPath_of_not_mem hnew, List.mem_append,
    List.mem_singleton] at hk
  rcases hk with hk | rfl
  · exact h.local_below k hk hk'
  · exact absurd hk' (idParity_of_remoteParityCheck hpar)

theorem Fresh.step {pm : PathManager} (h : pm.Fresh) (e : PathEvent) (hw : ¬pm.WrapsCounter e) :
    (pm.step e).Fresh :=
  step_induction Fresh (fun _ _ _ hq hnew hpar => hq.addPath hnew hpar _) h e
    fun _ _ he => h.createPath (he ▸ hw)

end PathManager

def clientAddr : UDPAddr := ⟨"10.0.0.1", 4242⟩

def serverAddr : UDPAddr := ⟨"10.0.1.2", 443⟩

def announcedAddr (i : Nat) : UDPAddr := ⟨"10.0.2.2", i⟩

namespace PathManager

/-- Along every run from `setup` in which the counter does not wrap, the map keeps one entry
per path ID and `openPaths` lists each path ID once: only the wrap lets `createPath` overwrite a
path. -/
theorem run_consistent_of_no_wrap (perspective : Perspective) (localAddr remoteAddr : UDPAddr)
    (es : List PathEvent)
    (hes : Along (fun pm e => ¬pm.WrapsCounter e) (setup perspective localAddr remoteAddr) es) :
    (run (setup perspective localAddr remoteAddr) es).Consistent :=
  (Along.run_induction (fun pm => pm.Consistent ∧ pm.Fresh)
    (fun _ e h hw => ⟨h.1.step e fun _ _ _ => h.2.not_overwrites _ _, h.2.step e hw⟩)
    ⟨consistent_setup _ _ _, fresh_setup _ _ _⟩ hes).1

end PathManager

def mixedPathRun : List PathEvent :=
  [.createPath clientAddr (announcedAddr 0), .createPathFromRemote 2 clientAddr (announcedAddr 1),
    .createPath clientAddr (announcedAddr 1)]

theorem run_consistent_of_no_wrap_sample :
    PathManager.Along (fun pm e => ¬pm.WrapsCounter e) (.setup .client clientAddr serverAddr)
        mixedPathRun ∧
      (PathManager.run (.setup .client clientAddr serverAddr) mixedPathRun).openPaths = [0, 1, 2] ∧
      (PathManager.run (.setup .client clientAddr serverAddr) mixedPathRun).Consistent :=
  have hes : PathManager.Along (fun pm e => ¬pm.WrapsCounter e)
      (.setup .client clientAddr serverAddr) mixedPathRun := by
    refine ⟨?_, ?_, ?_, trivial⟩ <;> simp only [PathManager.WrapsCounter, not_false_eq_true] <;>
      decide
  ⟨hes, by decide, PathManager.run_consistent_of_no_wrap .client clientAddr serverAddr _ hes⟩

def announcedPaths (n : Nat) : List PathEvent :=
  (List.range n).map fun i => .createPath clientAddr (announcedAddr i)

def afterAnnounced (k : Nat) : PathManager where
  perspective := .client
  nxtPathID := BitVec.ofNat 8 (2 * k + 1)
  paths := (initialPathID, ⟨clientAddr, serverAddr, none⟩) :: (List.range k).map fun i =>
    (BitVec.ofNat 8 (2 * i + 1), ⟨clientAddr, announcedAddr i, some (staticStatistics "10.0.0.1")⟩)
  openPaths := initialPathID :: (List.range k).map fun i => BitVec.ofNat 8 (2 * i + 1)

theorem afterAnnounced_fresh (k : Nat) :
    ((afterAnnounced k).paths.any fun e =>
      e.2.localAddr = clientAddr ∧ e.2.remoteAddr = announcedAddr k) = false := by
  simp [afterAnnounced, announcedAddr, serverAddr]
  exact fun i hi h => by omega

theorem ofNat_odd_mem_iff (k n : Nat) (hk : k < 128) (hn : n ≤ 128) :
    BitVec.ofNat 8 (2 * k + 1) ∈ (List.range n).map (fun i => BitVec.ofNat 8 (2 * i + 1)) ↔
      k < n := by
  simp only [List.mem_map, List.mem_range]
  constructor
  · rintro ⟨i, hi, h⟩
    have := congrArg BitVec.toNat h
    simp only [BitVec.toNat_ofNat] at this
    omega
  · exact fun h => ⟨k, h, rfl⟩

theorem afterAnnounced_createPath {k : Nat} (hk : k < 128) :
    (afterAnnounced k).createPath clientAddr (announcedAddr k) = afterAnnounced (k + 1) := by
  have hnew : (afterAnnounced k).nxtPathID ∉ (afterAnnounced k).paths.map Prod.fst := by
    simp only [afterAnnounced, List.map_cons, List.map_map, List.mem_cons, not_or]
    refine ⟨fun h => ?_, fun h => ?_⟩
    · simp only [initialPathID] at h
      bv_omega
    · exact absurd ((ofNat_odd_mem_iff k k hk hk.le).1 (by simpa [Function.comp_def] using h))
        (Nat.lt_irrefl k)
  rw [PathManager.createPath_of_fresh (afterAnnounced_fresh k)]
  simp only [PathManager.addPath, PathManager.setPath, hnew, if_false]
  simp only [afterAnnounced, List.range_succ, List.map_append, List.map_cons, List.map_nil,
    List.cons_append, PathManager.mk.injEq, true_and, and_true, clientAddr]
  bv_omega

def clientRun (n : Nat) : PathManager :=
  PathManager.run (.setup .client clientAddr serverAddr) (announcedPaths n)

theorem clientRun_succ (n : Nat) :
    clientRun (n + 1) = (clientRun n).createPath clientAddr (announcedAddr n) := by
  rw [clientRun, announcedPaths, List.range_succ, List.map_append, ← announcedPaths,
    PathManager.run_append]
  rfl

theorem clientRun_eq_afterAnnounced {k : Nat} (hk : k ≤ 128) : clientRun k = afterAnnounced k := by
  induction k with
  | zero => rfl
  | succ k ih =>
    rw [clientRun_succ, ih (by omega)]
    exact afterAnnounced_createPath (by omega)

/-- After 128 paths the client's counter is back at 1, and the 129th `createPath` overwrites
path 1: the map keeps 129 entries, path 1 now leads to the 129th address, and `openPaths` has
130 entries, 1 among them twice. -/
theorem createPath_overwrites_after_wrap :
    (clientRun 128).Overwrites clientAddr (announcedAddr 128) ∧
      ((clientRun 128).paths.lookup 1).map PathRecord.remoteAddr = some (announcedAddr 0) ∧
      ((clientRun 129).paths.lookup 1).map PathRecord.remoteAddr = some (announcedAddr 128) ∧
      (clientRun 129).paths.length = 129 ∧ (clientRun 129).openPaths.length = 130 ∧
      ¬(clientRun 129).openPaths.Nodup := by
  have h129 : clientRun 129 = (clientRun 128).createPath clientAddr (announcedAddr 128) :=
    clientRun_succ 128
  rw [h129, clientRun_eq_afterAnnounced le_rfl]
  have hwrap : (afterAnnounced 128).nxtPathID = 1 := by decide
  have hone : (1 : PathID) ∈ (afterAnnounced 128).openPaths :=
    List.mem_cons_of_mem _ ((ofNat_odd_mem_iff 0 128 (by decide) le_rfl).2 (by decide))
  have hkey : (1 : PathID) ∈ (afterAnnounced 128).paths.map Prod.fst := by
    simpa [afterAnnounced, List.map_map, Function.comp_def] using hone
  have hrange : List.range 128 = 0 :: (List.range 127).map Nat.succ := List.range_succ_eq_map 127
  simp only [PathManager.createPath, afterAnnounced_fresh, Bool.false_eq_true, if_false,
    PathManager.addPath, PathManager.setPath, hwrap, hkey, if_true]
  refine ⟨⟨afterAnnounced_fresh 128, hwrap ▸ hkey⟩, ?_, ?_, ?_, ?_, fun h => ?_⟩
  · simp [afterAnnounced, hrange, initialPathID, List.lookup_cons]
  · simp [afterAnnounced, hrange, initialPathID, List.lookup_cons]
  · rw [List.length_map]
    simp [afterAnnounced]
  · simp [afterAnnounced]
  · exact (List.nodup_append.1 h).2.2 hone (List.mem_singleton_self _)

end PStream
