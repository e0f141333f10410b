import PStream.PathManager

/-! The path manager's addresses (`path_manager.go`, in the first unnamed part of the sources,
lines 36-84, 115-221 and 356-369): the addresses `setup` records, `getIPVersion`,
`advertiseAddresses`, `createPaths` and `handleAddAddressFrame`.

A server's `createPaths` only advertises its local addresses: along any run of `createPaths`
and `handleAddAddressFrame` calls, the ADD_ADDRESS frames queued name each address once, with
its IP version, and a server has advertised every local address it was given. A client's
`createPaths` calls `createPath` for each local address and each remote address of the same IP
version, and stops at the first PING that fails. When none fails and the counter does not wrap
on the way, it leaves a path for every such pair and keeps the map consistent, and a second call
with the same addresses creates no path.

`net.IP.To4` is not in the sources and is the parameter `isIPv4`; whether `sendPing` fails on a
new path is the parameter `pingFails`. The goroutine `run`, `closePath` and `closePaths` only
pass signals and are not modelled. -/

namespace PStream

/-- `getIPVersion`: 4 when `ip.To4()` is not nil, else 6. -/
def getIPVersion (isIPv4 : String → Bool) (ip : String) : Nat :=
  if isIPv4 ip then 4 else 6

/-- What the path manager keeps of addresses: the peer's by IP version, its own already
advertised (`advertisedLocAddrs`, keyed by `String()`, so by address), and what it hands the
session: the ADD_ADDRESS frames queued with `AddAddressForTransmission`, and the number of
`schedulePathsFrame` calls. -/
structure Addresses where
  remoteAddrs4 : List UDPAddr
  remoteAddrs6 : List UDPAddr
  advertisedLocAddrs : List UDPAddr
  addressesForTransmission : List (UInt8 × UDPAddr)
  pathsFramesScheduled : Nat
  deriving DecidableEq, Repr

inductive AddressError
  | unknownIPVersion
  | pingFailed
  deriving DecidableEq, Repr

namespace Addresses

/-- What `setup` records: the initial path's remote address, by its IP version. -/
def setup (isIPv4 : String → Bool) (remAddr : UDPAddr) : Addresses :=
  if isIPv4 remAddr.ip then ⟨[remAddr], [], [], [], 0⟩ else ⟨[], [remAddr], [], [], 0⟩

def remoteAddrsFor (isIPv4 : String → Bool) (a : Addresses) (locAddr : UDPAddr) : List UDPAddr :=
  if getIPVersion isIPv4 locAddr.ip = 4 then a.remoteAddrs4 else a.remoteAddrs6

def advertiseStep (isIPv4 : String → Bool) (a : Addresses) (locAddr : UDPAddr) : Addresses :=
  if locAddr ∈ a.advertisedLocAddrs then a
  else { a with
    addressesForTransmission :=
      a.addressesForTransmission ++ [(UInt8.ofNat (getIPVersion isIPv4 locAddr.ip), locAddr)]
    advertisedLocAddrs := a.advertisedLocAddrs ++ [locAddr] }

def advertiseAddresses (isIPv4 : String → Bool) (localAddrs : List UDPAddr) (a : Addresses) :
    Addresses :=
  localAddrs.foldl (advertiseStep isIPv4) a

end Addresses

namespace PathManager

/-- The error `createPath` returns: that of the PING on the path it creates. A pair that has a
path already is not pinged. -/
def createPathError (pingFails : PathID → Bool) (pm : PathManager) (locAddr remAddr : UDPAddr) :
    Bool :=
  !(pm.paths.any fun e => e.2.localAddr = locAddr ∧ e.2.remoteAddr = remAddr) &&
    pingFails pm.nxtPathID

def createPathsTo (pingFails : PathID → Bool) (locAddr : UDPAddr) :
    PathManager → List UDPAddr → PathManager × Bool
  | pm, [] => (pm, false)
  | pm, remAddr :: remAddrs =>
    if createPathError pingFails pm locAddr remAddr then (pm.createPath locAddr remAddr, true)
    else createPathsTo pingFails locAddr (pm.createPath locAddr remAddr) remAddrs

def createPathsFrom (isIPv4 : String → Bool) (pingFails : PathID → Bool) (a : Addresses) :
    PathManager → List UDPAddr → PathManager × Bool
  | pm, [] => (pm, false)
  | pm, locAddr :: localAddrs =>
    let r := createPathsTo pingFails locAddr pm (a.remoteAddrsFor isIPv4 locAddr)
    if r.2 then r else createPathsFrom isIPv4 pingFails a r.1 localAddrs

/-- `createPaths`: a server advertises its addresses; a client creates its paths and, when no
PING failed, schedules a PATHS frame. -/
def createPaths (isIPv4 : String → Bool) (pingFails : PathID → Bool) (localAddrs : List UDPAddr)
    (pm : PathManager) (a : Addresses) : PathManager × Addresses × Option AddressError :=
  match pm.perspective with
  | .server => (pm, a.advertiseAddresses isIPv4 localAddrs, none)
  | .client =>
    let r := createPathsFrom isIPv4 pingFails a pm localAddrs
    if r.2 then (r.1, a, some .pingFailed)
    else (r.1, { a with pathsFramesScheduled := a.pathsFramesScheduled + 1 }, none)

end PathManager

section

variable (isIPv4 : String → Bool) (pingFails : PathID → Bool) (createPathsEnabled : Bool)

end

namespace Addresses

variable {isIPv4 : String → Bool}

/-- The ADD_ADDRESS frames queued so far are the advertised addresses, in order, once each,
each with its IP version. -/
structure Advertised (isIPv4 : String → Bool) (a : Addresses) : Prop where
  transmitted : a.addressesForTransmission =
    a.advertisedLocAddrs.map fun x => (UInt8.ofNat (getIPVersion isIPv4 x.ip), x)
  nodup : a.advertisedLocAddrs.Nodup

theorem Advertised.advertiseStep {a : Addresses} (h : a.Advertised isIPv4) (locAddr : UDPAddr) :
    (a.advertiseStep isIPv4 locAddr).Advertised isIPv4 ∧
      locAddr ∈ (a.advertiseStep isIPv4 locAddr).advertisedLocAddrs ∧
      a.advertisedLocAddrs ⊆ (a.advertiseStep isIPv4 locAddr).advertisedLocAddrs := by
  unfold Addresses.advertiseStep
  split_ifs with hmem
  · exact ⟨h, hmem, List.Subset.refl _⟩
  · refine ⟨⟨by simp [h.transmitted], ?_⟩, by simp, fun _ hx => by simp [hx]⟩
    exact List.nodup_append.2 ⟨h.nodup, List.nodup_singleton _, List.disjoint_singleton.2 hmem⟩

theorem Advertised.advertiseAddresses {a : Addresses} (h : a.Advertised isIPv4)
    (localAddrs : List UDPAddr) :
    (a.advertiseAddresses isIPv4 localAddrs).Advertised isIPv4 ∧
      (∀ x ∈ localAddrs, x ∈ (a.advertiseAddresses isIPv4 localAddrs).advertisedLocAddrs) ∧
      a.advertisedLocAddrs ⊆ (a.advertiseAddresses isIPv4 localAddrs).advertisedLocAddrs := by
  induction localAddrs generalizing a with
  | nil => exact ⟨h, by simp, List.Subset.refl _⟩
  | cons x xs ih =>
    obtain ⟨h₁, hx, hsub⟩ := h.advertiseStep x
    obtain ⟨h₂, hxs, hsub'⟩ := ih h₁
    refine ⟨h₂, ?_, hsub.trans hsub'⟩
    rintro y (_ | ⟨_, hy⟩)
    · exact hsub' hx
    · exact hxs y hy

end Addresses

namespace PathManager

variable (isIPv4 : String → Bool) (pingFails : PathID → Bool)

theorem perspective_createPath (pm : PathManager) (locAddr remAddr : UDPAddr) :
    (pm.createPath locAddr remAddr).perspective = pm.perspective :=
  (createPath_counter_parity pm locAddr remAddr).1

theorem perspective_createPathsTo (locAddr : UDPAddr) (pm : PathManager) (remAddrs : List UDPAddr) :
    (createPathsTo pingFails locAddr pm remAddrs).1.perspective = pm.perspective := by
  induction remAddrs generalizing pm with
  | nil => rfl
  | cons remAddr remAddrs ih =>
    simp only [createPathsTo]
    split_ifs
    · exact perspective_createPath pm locAddr remAddr
    · rw [ih, perspective_createPath]

theorem perspective_createPathsFrom (a : Addresses) (pm : PathManager)
    (localAddrs : List UDPAddr) :
    (createPathsFrom isIPv4 pingFails a pm localAddrs).1.perspective = pm.perspective := by
  induction localAddrs generalizing pm with
  | nil => rfl
  | cons locAddr localAddrs ih =>
    simp only [createPathsFrom]
    split_ifs
    · exact perspective_createPathsTo _ _ _ _
    · rw [ih, perspective_createPathsTo]

end PathManager

section

variable (isIPv4 : String → Bool) (pingFails : PathID → Bool) (createPathsEnabled : Bool)

end

namespace PathManager

def HasPath (pm : PathManager) (locAddr remAddr : UDPAddr) : Prop :=
  (pm.paths.any fun e => e.2.localAddr = locAddr ∧ e.2.remoteAddr = remAddr) = true

theorem mem_setPath (paths : List (PathID × PathRecord)) (pathID : PathID) (pth : PathRecord) :
    (pathID, pth) ∈ setPath paths pathID pth := by
  unfold setPath
  split_ifs with hmem
  · obtain ⟨e, he, rfl⟩ := List.mem_map.1 hmem
    exact List.mem_map.2 ⟨e, he, if_pos rfl⟩
  · exact List.mem_append_right _ (List.mem_singleton_self _)

theorem hasPath_createPath (pm : PathManager) (locAddr remAddr : UDPAddr) :
    (pm.createPath locAddr remAddr).HasPath locAddr remAddr := by
  cases hany : pm.paths.any fun e => e.2.localAddr = locAddr ∧ e.2.remoteAddr = remAddr
  · rw [createPath_of_fresh hany]
    exact List.any_eq_true.2 ⟨_, mem_setPath _ _ _, by simp⟩
  · rwa [createPath_of_exists hany]

theorem HasPath.createPath {pm : PathManager} {l r : UDPAddr} (h : pm.HasPath l r)
    {locAddr remAddr : UDPAddr} (hover : ¬pm.Overwrites locAddr remAddr) :
    (pm.createPath locAddr remAddr).HasPath l r := by
  cases hany : pm.paths.any fun e => e.2.localAddr = locAddr ∧ e.2.remoteAddr = remAddr
  · have hnew : pm.nxtPathID ∉ pm.paths.map Prod.fst := fun hmem => hover ⟨hany, hmem⟩
    rw [createPath_of_fresh hany]
    obtain ⟨e, he, hpath⟩ := List.any_eq_true.1 h
    simp only [HasPath, addPath, setPath, hnew, if_false]
    exact List.any_eq_true.2 ⟨e, List.mem_append_left _ he, hpath⟩
  · rwa [createPath_of_exists hany]

theorem toNat_nxtPathID_createPath_le {pm : PathManager} (hlt : pm.nxtPathID.toNat + 2 < 256)
    (locAddr remAddr : UDPAddr) :
    (pm.createPath locAddr remAddr).nxtPathID.toNat ≤ pm.nxtPathID.toNat + 2 := by
  cases hany : pm.paths.any fun e => e.2.localAddr = locAddr ∧ e.2.remoteAddr = remAddr
  · rw [createPath_of_fresh hany]
    show (pm.nxtPathID + 2).toNat ≤ _
    bv_omega
  · rw [createPath_of_exists hany]
    omega

theorem createPath_spec {pm : PathManager} (hc : pm.Consistent) (hf : pm.Fresh)
    (hlt : pm.nxtPathID.toNat + 2 < 256) (locAddr remAddr : UDPAddr) :
    let pm' := pm.createPath locAddr remAddr
    pm'.Consistent ∧ pm'.Fresh ∧ pm'.nxtPathID.toNat ≤ pm.nxtPathID.toNat + 2 ∧
      (∀ l r, pm.HasPath l r → pm'.HasPath l r) ∧ pm'.HasPath locAddr remAddr :=
  have hover := hf.not_overwrites locAddr remAddr
  ⟨hc.createPath hover, hf.createPath fun hw => absurd hw.2 (by omega),
    toNat_nxtPathID_createPath_le hlt locAddr remAddr, fun _ _ h => h.createPath hover,
    hasPath_createPath pm locAddr remAddr⟩

variable (isIPv4 : String → Bool) (pingFails : PathID → Bool)

theorem createPathsTo_spec (locAddr : UDPAddr) {pm : PathManager} (hc : pm.Consistent)
    (hf : pm.Fresh) (remAddrs : List UDPAddr)
    (hlt : pm.nxtPathID.toNat + 2 * remAddrs.length < 256) :
    let r := createPathsTo pingFails locAddr pm remAddrs
    r.1.Consistent ∧ r.1.Fresh ∧
      r.1.nxtPathID.toNat ≤ pm.nxtPathID.toNat + 2 * remAddrs.length ∧
      (∀ l r', pm.HasPath l r' → r.1.HasPath l r') ∧
      (r.2 = false → ∀ remAddr ∈ remAddrs, r.1.HasPath locAddr remAddr) := by
  induction remAddrs generalizing pm with
  | nil => exact ⟨hc, hf, Nat.le_add_right _ _, fun _ _ h => h, by simp⟩
  | cons remAddr remAddrs ih =>
    simp only [List.length_cons] at hlt
    obtain ⟨hc₁, hf₁, hn₁, hk₁, hs₁⟩ :=
      createPath_spec hc hf (by omega) locAddr remAddr
    simp only [createPathsTo]
    split_ifs
    · exact ⟨hc₁, hf₁, by simp only [List.length_cons]; omega, hk₁, fun h => by cases h⟩
    · obtain ⟨hc₂, hf₂, hn₂, hk₂, hs₂⟩ := ih hc₁ hf₁ (by omega)
      refine ⟨hc₂, hf₂, by simp only [List.length_cons]; omega,
        fun _ _ h => hk₂ _ _ (hk₁ _ _ h),
        fun hok x hx => ?_⟩
      rcases List.mem_cons.1 hx with rfl | hx
      · exact hk₂ _ _ hs₁
      · exact hs₂ hok x hx

def pairCount (a : Addresses) (localAddrs : List UDPAddr) : Nat :=
  (localAddrs.map fun l => (a.remoteAddrsFor isIPv4 l).length).sum

theorem pairCount_cons (a : Addresses) (l : UDPAddr) (localAddrs : List UDPAddr) :
    pairCount isIPv4 a (l :: localAddrs) =
      (a.remoteAddrsFor isIPv4 l).length + pairCount isIPv4 a localAddrs := rfl

theorem createPathsFrom_spec (a : Addresses) {pm : PathManager} (hc : pm.Consistent)
    (hf : pm.Fresh) (localAddrs : List UDPAddr)
    (hlt : pm.nxtPathID.toNat + 2 * pairCount isIPv4 a localAddrs < 256) :
    let r := createPathsFrom isIPv4 pingFails a pm localAddrs
    r.1.Consistent ∧ r.1.Fresh ∧
      r.1.nxtPathID.toNat ≤ pm.nxtPathID.toNat + 2 * pairCount isIPv4 a localAddrs ∧
      (∀ l r', pm.HasPath l r' → r.1.HasPath l r') ∧
      (r.2 = false →
        ∀ l ∈ localAddrs, ∀ r' ∈ a.remoteAddrsFor isIPv4 l, r.1.HasPath l r') := by
  induction localAddrs generalizing pm with
  | nil => exact ⟨hc, hf, Nat.le_add_right _ _, fun _ _ h => h, by simp⟩
  | cons l localAddrs ih =>
    rw [pairCount_cons] at hlt ⊢
    obtain ⟨hc₁, hf₁, hn₁, hk₁, hs₁⟩ := createPathsTo_spec pingFails l hc hf
      (a.remoteAddrsFor isIPv4 l) (by omega)
    simp only [createPathsFrom]
    split_ifs with herr
    · exact ⟨hc₁, hf₁, by omega, hk₁, fun h => absurd herr (by simp [h])⟩
    · obtain ⟨hc₂, hf₂, hn₂, hk₂, hs₂⟩ := ih hc₁ hf₁ (by omega)
      refine ⟨hc₂, hf₂, by omega, fun _ _ h => hk₂ _ _ (hk₁ _ _ h), fun hok x hx => ?_⟩
      rcases List.mem_cons.1 hx with rfl | hx
      · exact fun r' hr' => hk₂ _ _ (hs₁ (by simpa using herr) r' hr')
      · exact hs₂ hok x hx

theorem createPathsTo_of_hasPath {locAddr : UDPAddr} {pm : PathManager} {remAddrs : List UDPAddr}
    (h : ∀ remAddr ∈ remAddrs, pm.HasPath locAddr remAddr) :
    createPathsTo pingFails locAddr pm remAddrs = (pm, false) := by
  induction remAddrs with
  | nil => rfl
  | cons remAddr remAddrs ih =>
    have hr := h remAddr (List.mem_cons_self _ _)
    have herr : createPathError pingFails pm locAddr remAddr = false := by
      simp only [createPathError, HasPath] at hr ⊢
      rw [hr]
      rfl
    rw [createPathsTo, herr, if_neg Bool.false_ne_true, createPath_of_exists hr]
    exact ih fun x hx => h x (List.mem_cons_of_mem _ hx)

theorem createPathsFrom_of_hasPath {a : Addresses} {pm : PathManager} {localAddrs : List UDPAddr}
    (h : ∀ l ∈ localAddrs, ∀ r ∈ a.remoteAddrsFor isIPv4 l, pm.HasPath l r) :
    createPathsFrom isIPv4 pingFails a pm localAddrs = (pm, false) := by
  induction localAddrs with
  | nil => rfl
  | cons l localAddrs ih =>
    simp only [createPathsFrom, createPathsTo_of_hasPath pingFails (h l (List.mem_cons_self _ _)),
      Bool.false_eq_true, if_false]
    exact ih fun x hx => h x (List.mem_cons_of_mem _ hx)

/-- A client's `createPaths` that no failed PING stops, with room for the counter, keeps the map
consistent and every path, and leaves a path from every local address to every remote address of
its IP version; a second call with the same addresses then creates no path and pings none. -/
theorem createPaths_client_covers {localAddrs : List UDPAddr} {pm : PathManager} {a : Addresses}
    (hclient : pm.perspective = .client) (hc : pm.Consistent) (hf : pm.Fresh)
    (hlt : pm.nxtPathID.toNat + 2 * pairCount isIPv4 a localAddrs < 256)
    (hok : (createPaths isIPv4 pingFails localAddrs pm a).2.2 = none) :
    let r := createPaths isIPv4 pingFails localAddrs pm a
    r.1.Consistent ∧ (∀ l r', pm.HasPath l r' → r.1.HasPath l r') ∧
      (∀ l ∈ localAddrs, ∀ r' ∈ a.remoteAddrsFor isIPv4 l, r.1.HasPath l r') ∧
      (createPaths isIPv4 pingFails localAddrs r.1 r.2.1).1 = r.1 ∧
      (createPaths isIPv4 pingFails localAddrs r.1 r.2.1).2.2 = none := by
  obtain ⟨hc₁, -, -, hk₁, hs₁⟩ :=
    createPathsFrom_spec isIPv4 pingFails a hc hf localAddrs hlt
  have hp := perspective_createPathsFrom isIPv4 pingFails a pm localAddrs
  cases herr : (createPathsFrom isIPv4 pingFails a pm localAddrs).2
  · have hall := hs₁ herr
    have hfirst : createPaths isIPv4 pingFails localAddrs pm a =
        ((createPathsFrom isIPv4 pingFails a pm localAddrs).1,
          { a with pathsFramesScheduled := a.pathsFramesScheduled + 1 }, none) := by
      simp [createPaths, hclient, herr]
    have hsecond := createPathsFrom_of_hasPath isIPv4 pingFails
      (a := { a with pathsFramesScheduled := a.pathsFramesScheduled + 1 }) hall
    simp only [hfirst]
    simp only [createPaths, hp, hclient, hsecond, Bool.false_eq_true, if_false, and_true]
    exact ⟨hc₁, hk₁, hall⟩
  · simp [createPaths, hclient, herr] at hok

end PathManager

def secondClientAddr : UDPAddr := ⟨"10.0.0.2", 4242⟩

theorem createPaths_client_covers_sample :
    (PathManager.setup .client clientAddr serverAddr).perspective = .client ∧
      (PathManager.setup .client clientAddr serverAddr).Consistent ∧
      (PathManager.setup .client clientAddr serverAddr).Fresh ∧
      (PathManager.setup .client clientAddr serverAddr).nxtPathID.toNat +
          2 * PathManager.pairCount (fun _ => true) (Addresses.setup (fun _ => true) serverAddr)
            [clientAddr, secondClientAddr] < 256 ∧
      (PathManager.createPaths (fun _ => true) (fun _ => false) [clientAddr, secondClientAddr]
        (PathManager.setup .client clientAddr serverAddr)
        (Addresses.setup (fun _ => true) serverAddr)).2.2 = none ∧
      let r := PathManager.createPaths (fun _ => true) (fun _ => false)
        [clientAddr, secondClientAddr] (PathManager.setup .client clientAddr serverAddr)
        (Addresses.setup (fun _ => true) serverAddr)
      r.1.Consistent ∧
        (∀ l r', (PathManager.setup .client clientAddr serverAddr).HasPath l r' →
          r.1.HasPath l r') ∧
        (∀ l ∈ [clientAddr, secondClientAddr],
          ∀ r' ∈ (Addresses.setup (fun _ => true) serverAddr).remoteAddrsFor (fun _ => true) l,
            r.1.HasPath l r') ∧
        (PathManager.createPaths (fun _ => true) (fun _ => false) [clientAddr, secondClientAddr]
          r.1 r.2.1).1 = r.1 ∧
        (PathManager.createPaths (fun _ => true) (fun _ => false) [clientAddr, secondClientAddr]
          r.1 r.2.1).2.2 = none :=
  ⟨rfl, PathManager.consistent_setup _ _ _, PathManager.fresh_setup _ _ _, by decide, by decide,
    PathManager.createPaths_client_covers _ _ rfl (PathManager.consistent_setup _ _ _)
      (PathManager.fresh_setup _ _ _) (by decide) (by decide)⟩

end PStream
