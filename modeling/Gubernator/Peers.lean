import Gubernator.ReplicatedHash
import Gubernator.Workers
import Gubernator.Library.Run

/-!
The peers of an instance: `SetPeers`, `GetPeer`, `GetPeerList` and `HealthCheck`
of gubernator.go, over the local ring of replicated_hash.go and the
`RegionPicker` of region_picker.go, a ring per data center. `SetPeers` builds a
new local ring from the listed peers of this instance's data center and a new
region picker from the others. For each peer it reuses the client that the
current picker of its kind holds at the peer's GRPC address, or connects a new
one; when a connection fails it logs the error and returns, the pickers as they
were. Otherwise it swaps the new pickers in and shuts down every old client
whose address the new picker of its kind does not hold.

A client is known by its `Info()`, and `grpc.Dial` is a parameter: the error it
gives for an address, if any. Go ranges over maps in no fixed order; the model
takes the map's own order. Logging, tracing, TLS, the shutdown's timeout and
the embedded ring's own `Get` and `Size`, which nothing calls, are left out.
-/

namespace Gubernator

open GoSort

def defaultReplicas : Int := 512

/-- `RegionPicker`: the embedded ring, whose `New` starts the ring of each
region, and the ring of each data center. -/
structure RegionPicker where
  hash : ReplicatedConsistentHash
  regions : AList (fun _ : String => ReplicatedConsistentHash)

def newRegionPicker (fn : String → UInt64) : RegionPicker :=
  { hash := newReplicatedConsistentHash fn defaultReplicas, regions := ∅ }

namespace RegionPicker

def new (rp : RegionPicker) : RegionPicker := { hash := rp.hash.new, regions := ∅ }

/-- The loop of `GetClients`: each region's owner of the key, in the order of
the regions, or the first error. -/
def getClientsOf (key : String) :
    List (Σ _ : String, ReplicatedConsistentHash) → Option (Except String (List PeerInfo))
  | [] => some (.ok [])
  | region :: rest =>
    match region.2.get key with
    | none => none
    | some (.error err) => some (.error err)
    | some (.ok peer) => (getClientsOf key rest).map (·.map (peer :: ·))

def getClients (rp : RegionPicker) (key : String) : Option (Except String (List PeerInfo)) :=
  getClientsOf key rp.regions.entries

/-- `GetByPeerInfo`: the first region's client at the peer's address. -/
def getByPeerInfo (rp : RegionPicker) (info : PeerInfo) : Option PeerInfo :=
  rp.regions.entries.findSome? fun region => region.2.getByPeerInfo info

def pickers (rp : RegionPicker) : AList (fun _ : String => ReplicatedConsistentHash) := rp.regions

def peerList (rp : RegionPicker) : List PeerInfo := rp.regions.entries.flatMap (·.2.peerList)

variable (md5Hex : String → String)
  (sortSlice : (RingPoint → RingPoint → Bool) → List RingPoint → List RingPoint)

/-- `Add`: the peer joins the ring of its data center, a new one if the region
has none yet. -/
def add (rp : RegionPicker) (peer : PeerInfo) : RegionPicker :=
  let picker := (rp.regions.lookup peer.dataCenter).getD rp.hash.new
  { rp with regions := rp.regions.insert peer.dataCenter (picker.add md5Hex sortSlice peer) }

end RegionPicker

/-- The fields of `Config` that `SetPeers` reads and replaces. -/
structure Pickers where
  dataCenter : String
  localPicker : ReplicatedConsistentHash
  regionPicker : RegionPicker

/-- The pickers `Config.SetDefaults` leaves: a ring of `defaultReplicas` and a
region picker with no region, over the default hash. -/
def defaultPickers (fn : String → UInt64) (dataCenter : String) : Pickers :=
  { dataCenter := dataCenter, localPicker := newReplicatedConsistentHash fn defaultReplicas,
    regionPicker := newRegionPicker fn }

def newPeerClient (dial : String → Option String) (info : PeerInfo) : Except String PeerInfo :=
  match dial info.grpcAddress with
  | some err => .error err
  | none => .ok info

/-- The client `SetPeers` adds for a peer: the one a current picker holds at
its address, else a new one. -/
def clientFor (dial : String → Option String) (existing : Option PeerInfo) (info : PeerInfo) :
    Except String PeerInfo :=
  match existing with
  | some peer => .ok peer
  | none => (newPeerClient dial info).mapError fun err =>
      "error connecting to peer " ++ info.grpcAddress ++ ": " ++ err

variable (md5Hex : String → String)
  (sortSlice : (RingPoint → RingPoint → Bool) → List RingPoint → List RingPoint)
  (dial : String → Option String)

/-- The loop body of `SetPeers` (lines 620-659): a peer of another data center
goes to the new region picker, one of this data center to the new local ring. -/
def addPeerInfo (s : Pickers) (pickers : ReplicatedConsistentHash × RegionPicker) (info : PeerInfo) :
    Except String (ReplicatedConsistentHash × RegionPicker) :=
  if info.dataCenter ≠ s.dataCenter then
    (clientFor dial (s.regionPicker.getByPeerInfo info) info).map fun peer =>
      (pickers.1, pickers.2.add md5Hex sortSlice peer)
  else
    (clientFor dial (s.localPicker.getByPeerInfo info) info).map fun peer =>
      (pickers.1.add md5Hex sortSlice peer, pickers.2)

/-- Lines 676-689: the old clients whose address the new picker of their kind
does not hold. -/
def shutdownPeers (old new : Pickers) : List PeerInfo :=
  old.localPicker.peerList.filter (fun peer => (new.localPicker.getByPeerInfo peer).isNone) ++
    old.regionPicker.pickers.entries.flatMap fun region =>
      region.2.peerList.filter fun peer => (new.regionPicker.getByPeerInfo peer).isNone

/-- `SetPeers`: the clients it shuts down, or the error it logs before returning
with the pickers unchanged, and the pickers it leaves. -/
def setPeers (s : Pickers) (peerInfo : List PeerInfo) : Except String (List PeerInfo) × Pickers :=
  match peerInfo.foldlM (addPeerInfo md5Hex sortSlice dial s) (s.localPicker.new, s.regionPicker.new) with
  | .error err => (.error err, s)
  | .ok (localPicker, regionPicker) =>
    let s' := { s with localPicker := localPicker, regionPicker := regionPicker }
    (.ok (shutdownPeers s s'), s')

namespace Pickers

def getPeer (s : Pickers) (key : String) : Option (Except String PeerInfo) :=
  (s.localPicker.get key).map (·.mapError (wrapError "Error in conf.LocalPicker.Get"))

def getPeerList (s : Pickers) : List PeerInfo := s.localPicker.peerList

def getRegionPickers (s : Pickers) : AList (fun _ : String => ReplicatedConsistentHash) :=
  s.regionPicker.pickers

end Pickers

namespace ReplicatedConsistentHash

/-- Every client of the ring, on its points and in its map, satisfies `P`, and
the map files each client under its own address. -/
structure Holds (P : PeerInfo → Prop) (ch : ReplicatedConsistentHash) : Prop where
  points : ∀ q ∈ ch.peerKeys, P q.2
  mapped : ∀ e ∈ ch.peers.entries, P e.2 ∧ e.2.grpcAddress = e.1

/-- A ring on which `Get` answers: it has a peer, and its points are sorted and
not none. -/
structure Routes (ch : ReplicatedConsistentHash) : Prop where
  sized : ch.size ≠ 0
  ordered : Ordered peerKeysLess ch.peerKeys
  pointed : ch.peerKeys ≠ []

variable {md5Hex : String → String}
  {sortSlice : (RingPoint → RingPoint → Bool) → List RingPoint → List RingPoint}
  {P Q : PeerInfo → Prop} {ch : ReplicatedConsistentHash}

theorem holds_new (ch : ReplicatedConsistentHash) : ch.new.Holds P where
  points _ member := by simp [new, newReplicatedConsistentHash] at member
  mapped _ member := by simp [new, newReplicatedConsistentHash] at member

@[simp] theorem getByPeerInfo_new (ch : ReplicatedConsistentHash) (info : PeerInfo) :
    ch.new.getByPeerInfo info = none := rfl

theorem Holds.imp (held : ch.Holds P) (weaker : ∀ peer, P peer → Q peer) : ch.Holds Q where
  points q member := weaker _ (held.points q member)
  mapped e member := ⟨weaker _ (held.mapped e member).1, (held.mapped e member).2⟩

theorem Holds.add (sorts : SortsBy peerKeysLess (sortSlice peerKeysLess)) (held : ch.Holds P)
    {peer : PeerInfo} (satisfies : P peer) : (ch.add md5Hex sortSlice peer).Holds P where
  points q member := by
    rcases List.mem_append.mp ((add_peerKeys_perm sorts ch peer).subset member) with old | added
    · exact held.points q old
    · rw [peer_of_mem_replicaPoints added]
      exact satisfies
  mapped e member := by
    simp only [ReplicatedConsistentHash.add, AList.entries_insert, List.mem_cons] at member
    rcases member with rfl | old
    · exact ⟨satisfies, rfl⟩
    · exact held.mapped e ((List.kerase_sublist _ _).subset old)

theorem Holds.getByPeerInfo (held : ch.Holds P) {info peer : PeerInfo}
    (found : ch.getByPeerInfo info = some peer) : P peer ∧ peer.grpcAddress = info.grpcAddress :=
  held.mapped _ (AList.mem_lookup_iff.mp found)

theorem Holds.getByPeerInfo_of_mem (held : ch.Holds P) {peer : PeerInfo} (member : peer ∈ ch.peerList) :
    P peer ∧ ch.getByPeerInfo peer = some peer := by
  obtain ⟨⟨address, client⟩, inMap, rfl⟩ := List.mem_map.mp member
  obtain ⟨satisfies, keyed⟩ := held.mapped _ inMap
  refine ⟨satisfies, ?_⟩
  rw [ReplicatedConsistentHash.getByPeerInfo, keyed]
  exact AList.mem_lookup_iff.mpr inMap

theorem getByPeerInfo_add_isSome (ch : ReplicatedConsistentHash) (peer info : PeerInfo) :
    ((ch.add md5Hex sortSlice peer).getByPeerInfo info).isSome ↔
      info.grpcAddress = peer.grpcAddress ∨ (ch.getByPeerInfo info).isSome := by
  unfold getByPeerInfo add
  by_cases same : info.grpcAddress = peer.grpcAddress
  · rw [same, AList.lookup_insert]
    simp
  · rw [AList.lookup_insert_ne same]
    simp [same]

theorem get_ok_mem {key : String} {peer : PeerInfo} (got : ch.get key = some (.ok peer)) :
    ∃ q ∈ ch.peerKeys, q.2 = peer := by
  unfold get at got
  split at got
  · cases got
  · obtain ⟨q, found, same⟩ := Option.map_eq_some_iff.mp got
    exact ⟨q, List.mem_of_getElem? found, Except.ok.inj same⟩

theorem Holds.get (held : ch.Holds P) {key : String} {peer : PeerInfo}
    (got : ch.get key = some (.ok peer)) : P peer := by
  obtain ⟨q, member, rfl⟩ := get_ok_mem got
  exact held.points q member

theorem routes_add (sorts : SortsBy peerKeysLess (sortSlice peerKeysLess)) (ch : ReplicatedConsistentHash)
    (peer : PeerInfo) (replicated : 1 ≤ ch.replicas) : (ch.add md5Hex sortSlice peer).Routes :=
  ⟨add_size_ne_zero ch peer, (sorts _).2, add_peerKeys_ne_nil sorts ch peer replicated⟩

theorem Routes.get_ok (routes : ch.Routes) (key : String) :
    ∃ q ∈ ch.peerKeys, ch.get key = some (.ok q.2) := by
  obtain ⟨q, got⟩ := Option.isSome_iff_exists.mp (ringSuccessor_isSome routes.pointed (ch.hashFunc key))
  refine ⟨q, ringSuccessor_mem got, ?_⟩
  rw [get_eq_ringSuccessor ch routes.ordered routes.sized, got]
  rfl

theorem size_ne_zero_of_getByPeerInfo {info : PeerInfo} (found : (ch.getByPeerInfo info).isSome) :
    ch.size ≠ 0 := by
  obtain ⟨peer, found⟩ := Option.isSome_iff_exists.mp found
  have member := AList.mem_lookup_iff.mp found
  intro empty
  rw [size, List.length_eq_zero_iff] at empty
  rw [empty] at member
  exact List.not_mem_nil member

end ReplicatedConsistentHash

/-! What the rings of a region picker hold. The regions are read through the
map's lookups, in which `Add` changes one region. -/

namespace RegionPicker

/-- Each region's ring holds clients of that data center that satisfy `P`. -/
def Holds (P : PeerInfo → Prop) (rp : RegionPicker) : Prop :=
  ∀ dataCenter ring, rp.regions.lookup dataCenter = some ring →
    ring.Holds fun peer => peer.dataCenter = dataCenter ∧ P peer

/-- Each region's ring answers `Get`, with the embedded ring's replicas. -/
def Routes (rp : RegionPicker) : Prop :=
  ∀ dataCenter ring, rp.regions.lookup dataCenter = some ring →
    ring.replicas = rp.hash.replicas ∧ ring.Routes

variable {md5Hex : String → String}
  {sortSlice : (RingPoint → RingPoint → Bool) → List RingPoint → List RingPoint}
  {P Q : PeerInfo → Prop} {rp : RegionPicker}

theorem holds_new (rp : RegionPicker) : rp.new.Holds P := fun _ _ found => by
  simp [new] at found

theorem routes_new (rp : RegionPicker) : rp.new.Routes := fun _ _ found => by
  simp [new] at found

@[simp] theorem getByPeerInfo_new (rp : RegionPicker) (info : PeerInfo) : rp.new.getByPeerInfo info = none :=
  rfl

theorem Holds.imp (held : rp.Holds P) (weaker : ∀ peer, P peer → Q peer) : rp.Holds Q :=
  fun dataCenter ring found => (held dataCenter ring found).imp fun peer both => ⟨both.1, weaker peer both.2⟩

theorem lookup_add (rp : RegionPicker) (peer : PeerInfo) (dataCenter : String) :
    (rp.add md5Hex sortSlice peer).regions.lookup dataCenter =
      if dataCenter = peer.dataCenter then
        some (((rp.regions.lookup peer.dataCenter).getD rp.hash.new).add md5Hex sortSlice peer)
      else rp.regions.lookup dataCenter := by
  unfold add
  split
  · rename_i same
    rw [same, AList.lookup_insert]
  · rename_i other
    rw [AList.lookup_insert_ne other]

theorem Holds.add (sorts : SortsBy peerKeysLess (sortSlice peerKeysLess)) (held : rp.Holds P)
    {peer : PeerInfo} (satisfies : P peer) : (rp.add md5Hex sortSlice peer).Holds P := by
  intro dataCenter ring found
  rw [lookup_add] at found
  split at found
  · -- The region's ring, or a new one, gains a client of that region.
    rename_i same
    subst same
    cases found
    apply ReplicatedConsistentHash.Holds.add sorts _ ⟨rfl, satisfies⟩
    cases old : rp.regions.lookup peer.dataCenter with
    | none => exact ReplicatedConsistentHash.holds_new _
    | some ring => exact held _ ring old
  · exact held dataCenter ring found

theorem Routes.add (sorts : SortsBy peerKeysLess (sortSlice peerKeysLess)) (routes : rp.Routes)
    (replicated : 1 ≤ rp.hash.replicas) (peer : PeerInfo) : (rp.add md5Hex sortSlice peer).Routes := by
  intro dataCenter ring found
  rw [lookup_add] at found
  split at found
  · cases found
    have replicas : ((rp.regions.lookup peer.dataCenter).getD rp.hash.new).replicas = rp.hash.replicas := by
      cases old : rp.regions.lookup peer.dataCenter with
      | none => rfl
      | some ring => exact (routes _ ring old).1
    exact ⟨replicas, ReplicatedConsistentHash.routes_add sorts _ peer (replicas ▸ replicated)⟩
  · exact routes dataCenter ring found

theorem getByPeerInfo_isSome_iff (rp : RegionPicker) (info : PeerInfo) :
    (rp.getByPeerInfo info).isSome ↔
      ∃ dataCenter ring, rp.regions.lookup dataCenter = some ring ∧ (ring.getByPeerInfo info).isSome := by
  rw [getByPeerInfo, List.findSome?_isSome_iff]
  constructor
  · rintro ⟨⟨dataCenter, ring⟩, member, found⟩
    exact ⟨dataCenter, ring, AList.mem_lookup_iff.mpr member, found⟩
  · rintro ⟨dataCenter, ring, found, inRing⟩
    exact ⟨⟨dataCenter, ring⟩, AList.mem_lookup_iff.mp found, inRing⟩

theorem mem_peerList_iff (rp : RegionPicker) (peer : PeerInfo) :
    peer ∈ rp.peerList ↔ ∃ dataCenter ring, rp.regions.lookup dataCenter = some ring ∧ peer ∈ ring.peerList := by
  rw [peerList, List.mem_flatMap]
  constructor
  · rintro ⟨⟨dataCenter, ring⟩, member, inRing⟩
    exact ⟨dataCenter, ring, AList.mem_lookup_iff.mpr member, inRing⟩
  · rintro ⟨dataCenter, ring, found, inRing⟩
    exact ⟨⟨dataCenter, ring⟩, AList.mem_lookup_iff.mp found, inRing⟩

theorem Holds.getByPeerInfo (held : rp.Holds P) {info peer : PeerInfo}
    (found : rp.getByPeerInfo info = some peer) : P peer ∧ peer.grpcAddress = info.grpcAddress := by
  obtain ⟨⟨dataCenter, ring⟩, member, inRing⟩ := List.exists_of_findSome?_eq_some found
  obtain ⟨⟨-, satisfies⟩, keyed⟩ := (held dataCenter ring (AList.mem_lookup_iff.mpr member)).getByPeerInfo inRing
  exact ⟨satisfies, keyed⟩

theorem Holds.getByPeerInfo_of_mem (held : rp.Holds P) {peer : PeerInfo} (member : peer ∈ rp.peerList) :
    P peer ∧ (rp.getByPeerInfo peer).isSome := by
  obtain ⟨dataCenter, ring, found, inRing⟩ := (mem_peerList_iff rp peer).mp member
  obtain ⟨⟨-, satisfies⟩, atAddress⟩ := (held dataCenter ring found).getByPeerInfo_of_mem inRing
  refine ⟨satisfies, (getByPeerInfo_isSome_iff rp peer).mpr ⟨dataCenter, ring, found, ?_⟩⟩
  rw [atAddress]
  rfl

theorem getByPeerInfo_add_isSome (rp : RegionPicker) (peer info : PeerInfo) :
    ((rp.add md5Hex sortSlice peer).getByPeerInfo info).isSome ↔
      info.grpcAddress = peer.grpcAddress ∨ (rp.getByPeerInfo info).isSome := by
  rw [getByPeerInfo_isSome_iff, getByPeerInfo_isSome_iff]
  constructor
  · rintro ⟨dataCenter, ring, found, inRing⟩
    rw [lookup_add] at found
    split at found
    · -- The peer's region: its address, or one its ring held before.
      cases found
      rcases (ReplicatedConsistentHash.getByPeerInfo_add_isSome _ peer info).mp inRing with added | held
      · exact .inl added
      · cases old : rp.regions.lookup peer.dataCenter with
        | none => simp [old] at held
        | some ring => exact .inr ⟨peer.dataCenter, ring, old, by simpa [old] using held⟩
    · exact .inr ⟨dataCenter, ring, found, inRing⟩
  · rintro (added | ⟨dataCenter, ring, found, inRing⟩)
    · refine ⟨peer.dataCenter, _, by rw [lookup_add, if_pos rfl], ?_⟩
      exact (ReplicatedConsistentHash.getByPeerInfo_add_isSome _ peer info).mpr (.inl added)
    · by_cases same : dataCenter = peer.dataCenter
      · subst same
        refine ⟨peer.dataCenter, _, by rw [lookup_add, if_pos rfl], ?_⟩
        rw [found]
        exact (ReplicatedConsistentHash.getByPeerInfo_add_isSome _ peer info).mpr (.inr inRing)
      · exact ⟨dataCenter, ring, by rw [lookup_add, if_neg same]; exact found, inRing⟩

theorem getClientsOf_owners (key : String) (regions : List (Σ _ : String, ReplicatedConsistentHash))
    {R : (Σ _ : String, ReplicatedConsistentHash) → PeerInfo → Prop}
    (routes : ∀ region ∈ regions, region.2.Routes) (held : ∀ region ∈ regions, region.2.Holds (R region)) :
    ∃ clients, getClientsOf key regions = some (.ok clients) ∧
      List.Forall₂ (fun region peer => region.2.get key = some (.ok peer) ∧ R region peer) regions clients := by
  induction regions with
  | nil => exact ⟨[], rfl, .nil⟩
  | cons region rest ih =>
    obtain ⟨clients, got, owners⟩ := ih (fun r member => routes r (List.mem_cons_of_mem region member))
      fun r member => held r (List.mem_cons_of_mem region member)
    obtain ⟨q, -, owner⟩ := (routes region List.mem_cons_self).get_ok key
    refine ⟨q.2 :: clients, ?_, .cons ⟨owner, (held region List.mem_cons_self).get owner⟩ owners⟩
    simp only [getClientsOf, owner, got, Option.map_some]
    rfl

end RegionPicker

/-! What `SetPeers` keeps, and what it builds from the peers listed. -/

/-- `peer` has the address of a listed peer that `inside` admits. -/
def Listed (inside : PeerInfo → Prop) (done : List PeerInfo) (peer : PeerInfo) : Prop :=
  ∃ info ∈ done, inside info ∧ info.grpcAddress = peer.grpcAddress

theorem Listed.append {inside : PeerInfo → Prop} {done : List PeerInfo} {peer : PeerInfo}
    (listed : Listed inside done peer) (more : List PeerInfo) : Listed inside (done ++ more) peer := by
  obtain ⟨info, member, admits, same⟩ := listed
  exact ⟨info, List.mem_append_left more member, admits, same⟩

theorem listed_last {inside : PeerInfo → Prop} (done : List PeerInfo) {info peer : PeerInfo}
    (admits : inside info) (same : info.grpcAddress = peer.grpcAddress) : Listed inside (done ++ [info]) peer :=
  ⟨info, by simp, admits, same⟩

namespace Pickers

/-- The invariant of the pickers: the local ring holds clients of this data
center and answers `Get` once it has one, each region's ring holds clients of
that region, another data center, and answers, and both kinds have replicas. -/
structure Placed (s : Pickers) : Prop where
  localHeld : s.localPicker.Holds (·.dataCenter = s.dataCenter)
  regionHeld : s.regionPicker.Holds (·.dataCenter ≠ s.dataCenter)
  localRoutes : s.localPicker.size ≠ 0 → s.localPicker.Routes
  regionRoutes : s.regionPicker.Routes
  localReplicated : 1 ≤ s.localPicker.replicas
  regionReplicated : 1 ≤ s.regionPicker.hash.replicas

/-- Pickers as an instance starts with them: no client yet, and rings of at
least one replica. -/
structure Fresh (s : Pickers) : Prop where
  localEmpty : s.localPicker.peers = ∅
  pointsEmpty : s.localPicker.peerKeys = []
  regionsEmpty : s.regionPicker.regions = ∅
  localReplicated : 1 ≤ s.localPicker.replicas
  regionReplicated : 1 ≤ s.regionPicker.hash.replicas

theorem Fresh.placed {s : Pickers} (fresh : s.Fresh) : s.Placed where
  localHeld := ⟨fun _ member => by simp [fresh.pointsEmpty] at member,
    fun _ member => by simp [fresh.localEmpty] at member⟩
  regionHeld _ _ found := by simp [fresh.regionsEmpty] at found
  localRoutes sized := (sized (by simp [ReplicatedConsistentHash.size, fresh.localEmpty])).elim
  regionRoutes _ _ found := by simp [fresh.regionsEmpty] at found
  localReplicated := fresh.localReplicated
  regionReplicated := fresh.regionReplicated

theorem defaultPickers_fresh (fn : String → UInt64) (dataCenter : String) :
    (defaultPickers fn dataCenter).Fresh where
  localEmpty := rfl
  pointsEmpty := rfl
  regionsEmpty := rfl
  localReplicated := show (1 : Int) ≤ defaultReplicas by decide
  regionReplicated := show (1 : Int) ≤ defaultReplicas by decide

/-- What the loop of `SetPeers` has built from the peers `done`: each new
client is of its kind and has the address of a peer listed for that kind,
each peer listed has a client at its address, the new rings answer, and the
replicas are the old ones. -/
structure Built (s : Pickers) (done : List PeerInfo) (built : ReplicatedConsistentHash × RegionPicker) :
    Prop where
  localHeld : built.1.Holds fun peer =>
    peer.dataCenter = s.dataCenter ∧ Listed (·.dataCenter = s.dataCenter) done peer
  regionHeld : built.2.Holds fun peer =>
    peer.dataCenter ≠ s.dataCenter ∧ Listed (·.dataCenter ≠ s.dataCenter) done peer
  localListed : ∀ info ∈ done, info.dataCenter = s.dataCenter → (built.1.getByPeerInfo info).isSome
  regionListed : ∀ info ∈ done, info.dataCenter ≠ s.dataCenter → (built.2.getByPeerInfo info).isSome
  localRoutes : built.1.size ≠ 0 → built.1.Routes
  regionRoutes : built.2.Routes
  localReplicas : built.1.replicas = s.localPicker.replicas
  regionReplicas : built.2.hash.replicas = s.regionPicker.hash.replicas

variable {md5Hex : String → String}
  {sortSlice : (RingPoint → RingPoint → Bool) → List RingPoint → List RingPoint}
  {dial : String → Option String} {s : Pickers}

theorem built_start (s : Pickers) : Built s [] (s.localPicker.new, s.regionPicker.new) where
  localHeld := ReplicatedConsistentHash.holds_new _
  regionHeld := RegionPicker.holds_new _
  localListed := by simp
  regionListed := by simp
  localRoutes sized := (sized rfl).elim
  regionRoutes := RegionPicker.routes_new _
  localReplicas := rfl
  regionReplicas := rfl

theorem clientFor_ok {existing : Option PeerInfo} {info peer : PeerInfo}
    (made : clientFor dial existing info = .ok peer) : existing = some peer ∨ peer = info := by
  unfold clientFor at made
  cases existing with
  | some client => exact .inl (congrArg some (Except.ok.inj made))
  | none =>
    right
    unfold newPeerClient at made
    cases dialed : dial info.grpcAddress with
    | some err => simp [dialed, Except.mapError] at made
    | none => simpa [dialed, Except.mapError, eq_comm] using made

theorem Placed.localClient (placed : s.Placed) {info peer : PeerInfo} (here : info.dataCenter = s.dataCenter)
    (made : clientFor dial (s.localPicker.getByPeerInfo info) info = .ok peer) :
    peer.dataCenter = s.dataCenter ∧ peer.grpcAddress = info.grpcAddress := by
  rcases clientFor_ok made with reused | rfl
  · exact placed.localHeld.getByPeerInfo reused
  · exact ⟨here, rfl⟩

theorem Placed.regionClient (placed : s.Placed) {info peer : PeerInfo} (away : info.dataCenter ≠ s.dataCenter)
    (made : clientFor dial (s.regionPicker.getByPeerInfo info) info = .ok peer) :
    peer.dataCenter ≠ s.dataCenter ∧ peer.grpcAddress = info.grpcAddress := by
  rcases clientFor_ok made with reused | rfl
  · exact placed.regionHeld.getByPeerInfo reused
  · exact ⟨away, rfl⟩

variable {done : List PeerInfo} {built : ReplicatedConsistentHash × RegionPicker}

theorem Built.addLocal (sorts : SortsBy peerKeysLess (sortSlice peerKeysLess)) (placed : s.Placed)
    (inv : Built s done built) {info peer : PeerInfo} (here : info.dataCenter = s.dataCenter)
    (client : peer.dataCenter = s.dataCenter ∧ peer.grpcAddress = info.grpcAddress) :
    Built s (done ++ [info]) (built.1.add md5Hex sortSlice peer, built.2) where
  localHeld := (inv.localHeld.imp fun _ both => ⟨both.1, both.2.append [info]⟩).add sorts
    ⟨client.1, listed_last done here client.2.symm⟩
  regionHeld := inv.regionHeld.imp fun _ both => ⟨both.1, both.2.append [info]⟩
  localListed other member inside := by
    rw [ReplicatedConsistentHash.getByPeerInfo_add_isSome]
    rcases List.mem_append.mp member with old | last
    · exact .inr (inv.localListed other old inside)
    · rw [List.mem_singleton.mp last]
      exact .inl client.2.symm
  regionListed other member away := by
    rcases List.mem_append.mp member with old | last
    · exact inv.regionListed other old away
    · rw [List.mem_singleton.mp last] at away
      exact absurd here away
  localRoutes _ := ReplicatedConsistentHash.routes_add sorts _ peer
    (by rw [inv.localReplicas]; exact placed.localReplicated)
  regionRoutes := inv.regionRoutes
  localReplicas := inv.localReplicas
  regionReplicas := inv.regionReplicas

theorem Built.addRegion (sorts : SortsBy peerKeysLess (sortSlice peerKeysLess)) (placed : s.Placed)
    (inv : Built s done built) {info peer : PeerInfo} (away : info.dataCenter ≠ s.dataCenter)
    (client : peer.dataCenter ≠ s.dataCenter ∧ peer.grpcAddress = info.grpcAddress) :
    Built s (done ++ [info]) (built.1, built.2.add md5Hex sortSlice peer) where
  localHeld := inv.localHeld.imp fun _ both => ⟨both.1, both.2.append [info]⟩
  regionHeld := (inv.regionHeld.imp fun _ both => ⟨both.1, both.2.append [info]⟩).add sorts
    ⟨client.1, listed_last done away client.2.symm⟩
  localListed other member inside := by
    rcases List.mem_append.mp member with old | last
    · exact inv.localListed other old inside
    · rw [List.mem_singleton.mp last] at inside
      exact absurd inside away
  regionListed other member away' := by
    rw [RegionPicker.getByPeerInfo_add_isSome]
    rcases List.mem_append.mp member with old | last
    · exact .inr (inv.regionListed other old away')
    · rw [List.mem_singleton.mp last]
      exact .inl client.2.symm
  localRoutes := inv.localRoutes
  regionRoutes := inv.regionRoutes.add sorts (by rw [inv.regionReplicas]; exact placed.regionReplicated) peer
  localReplicas := inv.localReplicas
  regionReplicas := inv.regionReplicas

theorem Built.addPeerInfo (sorts : SortsBy peerKeysLess (sortSlice peerKeysLess)) (placed : s.Placed)
    (inv : Built s done built) {info : PeerInfo} {built' : ReplicatedConsistentHash × RegionPicker}
    (step : addPeerInfo md5Hex sortSlice dial s built info = .ok built') : Built s (done ++ [info]) built' := by
  unfold Gubernator.addPeerInfo at step
  split at step
  · rename_i away
    obtain ⟨peer, made, rfl⟩ := Run.map_eq_ok step
    exact inv.addRegion sorts placed away (placed.regionClient away made)
  · rename_i here
    obtain ⟨peer, made, rfl⟩ := Run.map_eq_ok step
    exact inv.addLocal sorts placed (not_not.mp here) (placed.localClient (not_not.mp here) made)

theorem built_foldlM (sorts : SortsBy peerKeysLess (sortSlice peerKeysLess)) (placed : s.Placed)
    {peerInfo : List PeerInfo} {built : ReplicatedConsistentHash × RegionPicker}
    (ran : peerInfo.foldlM (addPeerInfo md5Hex sortSlice dial s) (s.localPicker.new, s.regionPicker.new) =
      .ok built) : Built s peerInfo built := by
  simpa using Run.invariant_foldlM (addPeerInfo md5Hex sortSlice dial s) (Built s)
    (fun _ _ _ _ inv step => inv.addPeerInfo sorts placed step) peerInfo [] _ _ (built_start s) ran

theorem Built.placed (placed : s.Placed) {peerInfo : List PeerInfo} (inv : Built s peerInfo built) :
    ({ s with localPicker := built.1, regionPicker := built.2 } : Pickers).Placed where
  localHeld := inv.localHeld.imp fun _ both => both.1
  regionHeld := inv.regionHeld.imp fun _ both => both.1
  localRoutes := inv.localRoutes
  regionRoutes := inv.regionRoutes
  localReplicated := by rw [inv.localReplicas]; exact placed.localReplicated
  regionReplicated := by rw [inv.regionReplicas]; exact placed.regionReplicated

theorem setPeers_cases (s : Pickers) (peerInfo : List PeerInfo) :
    (∃ err, setPeers md5Hex sortSlice dial s peerInfo = (.error err, s)) ∨
      ∃ built, peerInfo.foldlM (addPeerInfo md5Hex sortSlice dial s) (s.localPicker.new, s.regionPicker.new) =
          .ok built ∧
        setPeers md5Hex sortSlice dial s peerInfo =
          (.ok (shutdownPeers s { s with localPicker := built.1, regionPicker := built.2 }),
            { s with localPicker := built.1, regionPicker := built.2 }) := by
  unfold setPeers
  split
  · exact .inl ⟨_, rfl⟩
  · rename_i localPicker regionPicker ran
    exact .inr ⟨(localPicker, regionPicker), ran, rfl⟩

theorem setPeers_built (sorts : SortsBy peerKeysLess (sortSlice peerKeysLess)) (placed : s.Placed)
    {peerInfo : List PeerInfo} {down : List PeerInfo}
    (done : (setPeers md5Hex sortSlice dial s peerInfo).1 = .ok down) :
    ∃ built, Built s peerInfo built ∧
      (setPeers md5Hex sortSlice dial s peerInfo).2 = { s with localPicker := built.1, regionPicker := built.2 } ∧
      down = shutdownPeers s { s with localPicker := built.1, regionPicker := built.2 } := by
  rcases setPeers_cases s peerInfo with ⟨err, failed⟩ | ⟨built, ran, swapped⟩
  · rw [failed] at done
    cases done
  · rw [swapped] at done ⊢
    exact ⟨built, built_foldlM sorts placed ran, rfl, (Except.ok.inj done).symm⟩

theorem setPeers_dataCenter (s : Pickers) (peerInfo : List PeerInfo) :
    (setPeers md5Hex sortSlice dial s peerInfo).2.dataCenter = s.dataCenter := by
  rcases setPeers_cases s peerInfo with ⟨err, failed⟩ | ⟨built, -, swapped⟩
  · rw [failed]
  · rw [swapped]

theorem setPeers_placed (sorts : SortsBy peerKeysLess (sortSlice peerKeysLess)) (placed : s.Placed)
    (peerInfo : List PeerInfo) : (setPeers md5Hex sortSlice dial s peerInfo).2.Placed := by
  rcases setPeers_cases s peerInfo with ⟨err, failed⟩ | ⟨built, ran, swapped⟩
  · rw [failed]
    exact placed
  · rw [swapped]
    exact (built_foldlM sorts placed ran).placed placed

end Pickers

/-- The pickers a run of `SetPeers` calls reaches from `start`. -/
def Reachable (md5Hex : String → String)
    (sortSlice : (RingPoint → RingPoint → Bool) → List RingPoint → List RingPoint)
    (dial : String → Option String) (start s : Pickers) : Prop :=
  ∃ updates : List (List PeerInfo), (Run.run (setPeers md5Hex sortSlice dial) start updates).2 = s

namespace Pickers

variable {md5Hex : String → String}
  {sortSlice : (RingPoint → RingPoint → Bool) → List RingPoint → List RingPoint}
  {dial : String → Option String} {start s : Pickers}

theorem Fresh.reachable_placed (sorts : SortsBy peerKeysLess (sortSlice peerKeysLess)) (fresh : start.Fresh)
    (reached : Reachable md5Hex sortSlice dial start s) : s.Placed ∧ s.dataCenter = start.dataCenter := by
  obtain ⟨updates, rfl⟩ := reached
  exact Run.invariant_run (fun s => s.Placed ∧ s.dataCenter = start.dataCenter) (fun _ => True)
    (fun s peerInfo _ both => ⟨setPeers_placed sorts both.1 peerInfo, (setPeers_dataCenter s peerInfo).trans both.2⟩)
    updates start (fun _ _ => trivial) ⟨fresh.placed, rfl⟩

theorem getPeer_eq_ok_iff (s : Pickers) (key : String) (peer : PeerInfo) :
    s.getPeer key = some (.ok peer) ↔ s.localPicker.get key = some (.ok peer) := by
  unfold getPeer
  rcases s.localPicker.get key with _ | _ | client <;> simp [Except.mapError]

theorem mem_shutdownPeers (old new : Pickers) (peer : PeerInfo) :
    peer ∈ shutdownPeers old new ↔
      (peer ∈ old.localPicker.peerList ∧ new.localPicker.getByPeerInfo peer = none) ∨
        (peer ∈ old.regionPicker.peerList ∧ new.regionPicker.getByPeerInfo peer = none) := by
  simp [shutdownPeers, RegionPicker.pickers, RegionPicker.peerList, ← and_assoc, exists_and_right]

/-- In every state that a run of `SetPeers` reaches from fresh pickers, whatever
peers each call lists and whichever connections fail, `GetPeerList` and
`GetPeer` give only clients of this instance's data center, and `GetPeer`
answers every key once there is a client. -/
theorem reachable_getPeer_local (sorts : SortsBy peerKeysLess (sortSlice peerKeysLess))
    (fresh : start.Fresh) (reached : Reachable md5Hex sortSlice dial start s) :
    (∀ peer ∈ s.getPeerList, peer.dataCenter = start.dataCenter) ∧
      (∀ key peer, s.getPeer key = some (.ok peer) → peer.dataCenter = start.dataCenter) ∧
      (s.getPeerList ≠ [] → ∀ key, ∃ peer, s.getPeer key = some (.ok peer)) := by
  obtain ⟨placed, here⟩ := fresh.reachable_placed sorts reached
  refine ⟨fun peer member => ?_, fun key peer got => ?_, fun clients key => ?_⟩
  · rw [← here]
    exact (placed.localHeld.getByPeerInfo_of_mem member).1
  · rw [← here]
    exact placed.localHeld.get ((getPeer_eq_ok_iff s key peer).mp got)
  · -- A client in the map makes the ring answer.
    have sized : s.localPicker.size ≠ 0 := by
      intro empty
      apply clients
      simpa [getPeerList, ReplicatedConsistentHash.peerList, ReplicatedConsistentHash.size] using empty
    obtain ⟨q, -, got⟩ := (placed.localRoutes sized).get_ok key
    exact ⟨q.2, (getPeer_eq_ok_iff s key q.2).mpr got⟩

/-- In every such state each region's ring holds only clients of that region,
none of this instance's data center, and `GetClients` gives every key one
client for each region: that region's owner of the key. -/
theorem reachable_getClients_per_region (sorts : SortsBy peerKeysLess (sortSlice peerKeysLess))
    (fresh : start.Fresh) (reached : Reachable md5Hex sortSlice dial start s) :
    (∀ region ∈ s.getRegionPickers.entries, ∀ peer ∈ region.2.peerList,
        peer.dataCenter = region.1 ∧ peer.dataCenter ≠ start.dataCenter) ∧
      ∀ key, ∃ clients, s.regionPicker.getClients key = some (.ok clients) ∧
        List.Forall₂ (fun region peer => region.2.get key = some (.ok peer) ∧
          peer.dataCenter = region.1 ∧ peer.dataCenter ≠ start.dataCenter) s.getRegionPickers.entries clients := by
  obtain ⟨placed, here⟩ := fresh.reachable_placed sorts reached
  have held : ∀ region ∈ s.regionPicker.regions.entries,
      region.2.Holds fun peer => peer.dataCenter = region.1 ∧ peer.dataCenter ≠ start.dataCenter := by
    intro region member
    rw [← here]
    exact placed.regionHeld region.1 region.2 (AList.mem_lookup_iff.mpr member)
  refine ⟨fun region member peer inRing => ((held region member).getByPeerInfo_of_mem inRing).1, fun key => ?_⟩
  exact RegionPicker.getClientsOf_owners key _
    (fun region member => (placed.regionRoutes _ _ (AList.mem_lookup_iff.mpr member)).2) held

/-- In every such state `SetPeers` shuts down no client that the new pickers
hold: an old local client goes only when the new local ring has none at its
address, an old region client only when no new region has one, and a client of
one kind is never one of the other, their data centers differ. -/
theorem reachable_setPeers_shuts_only_unused (sorts : SortsBy peerKeysLess (sortSlice peerKeysLess))
    (fresh : start.Fresh) (reached : Reachable md5Hex sortSlice dial start s) (peerInfo : List PeerInfo)
    {down : List PeerInfo} (done : (setPeers md5Hex sortSlice dial s peerInfo).1 = .ok down) :
    ∀ peer ∈ down, peer ∉ (setPeers md5Hex sortSlice dial s peerInfo).2.getPeerList ∧
      peer ∉ (setPeers md5Hex sortSlice dial s peerInfo).2.regionPicker.peerList := by
  obtain ⟨placed, -⟩ := fresh.reachable_placed sorts reached
  obtain ⟨built, inv, swapped, rfl⟩ := setPeers_built sorts placed done
  have placed' := inv.placed placed
  rw [swapped]
  intro peer shut
  rcases (mem_shutdownPeers _ _ peer).mp shut with ⟨old, absent⟩ | ⟨old, absent⟩
  · -- An old local client, of this data center, that the new local ring lacks.
    have here := (placed.localHeld.getByPeerInfo_of_mem old).1
    refine ⟨fun kept => ?_, fun moved => (placed'.regionHeld.getByPeerInfo_of_mem moved).1 here⟩
    rw [(placed'.localHeld.getByPeerInfo_of_mem kept).2] at absent
    cases absent
  · -- An old region client, of another data center, that no new region holds.
    have away := (placed.regionHeld.getByPeerInfo_of_mem old).1
    refine ⟨fun moved => away (placed'.localHeld.getByPeerInfo_of_mem moved).1, fun kept => ?_⟩
    have found := (placed'.regionHeld.getByPeerInfo_of_mem kept).2
    rw [absent] at found
    cases found

/-- In every such state a successful `SetPeers` leaves the local ring a client
at an address exactly when a listed peer of this data center has that address,
and the region picker exactly when a listed peer of another data center has
it: each reused client has the address of the peer it serves. -/
theorem reachable_setPeers_installs_listed (sorts : SortsBy peerKeysLess (sortSlice peerKeysLess))
    (fresh : start.Fresh) (reached : Reachable md5Hex sortSlice dial start s) (peerInfo : List PeerInfo)
    {down : List PeerInfo} (done : (setPeers md5Hex sortSlice dial s peerInfo).1 = .ok down) (address : String) :
    (((setPeers md5Hex sortSlice dial s peerInfo).2.localPicker.getByPeerInfo { grpcAddress := address }).isSome ↔
        ∃ info ∈ peerInfo, info.dataCenter = s.dataCenter ∧ info.grpcAddress = address) ∧
      (((setPeers md5Hex sortSlice dial s peerInfo).2.regionPicker.getByPeerInfo
          { grpcAddress := address }).isSome ↔
        ∃ info ∈ peerInfo, info.dataCenter ≠ s.dataCenter ∧ info.grpcAddress = address) := by
  obtain ⟨placed, -⟩ := fresh.reachable_placed sorts reached
  obtain ⟨built, inv, swapped, -⟩ := setPeers_built sorts placed done
  rw [swapped]
  refine ⟨⟨fun found => ?_, ?_⟩, ⟨fun found => ?_, ?_⟩⟩
  · obtain ⟨peer, found⟩ := Option.isSome_iff_exists.mp found
    obtain ⟨⟨-, info, member, here, same⟩, atAddress⟩ := inv.localHeld.getByPeerInfo found
    exact ⟨info, member, here, same.trans atAddress⟩
  · rintro ⟨info, member, here, rfl⟩
    exact inv.localListed info member here
  · obtain ⟨peer, found⟩ := Option.isSome_iff_exists.mp found
    obtain ⟨⟨-, info, member, away, same⟩, atAddress⟩ := inv.regionHeld.getByPeerInfo found
    exact ⟨info, member, away, same.trans atAddress⟩
  · rintro ⟨info, member, away, rfl⟩
    exact inv.regionListed info member away

/-- In every such state, after a successful `SetPeers` that lists a peer of
this data center, `GetPeer` answers every key with a client of this data
center at the address of a listed peer. -/
theorem reachable_setPeers_getPeer_listed (sorts : SortsBy peerKeysLess (sortSlice peerKeysLess))
    (fresh : start.Fresh) (reached : Reachable md5Hex sortSlice dial start s) (peerInfo : List PeerInfo)
    {down : List PeerInfo} (done : (setPeers md5Hex sortSlice dial s peerInfo).1 = .ok down)
    (someLocal : ∃ info ∈ peerInfo, info.dataCenter = s.dataCenter) (key : String) :
    ∃ peer, (setPeers md5Hex sortSlice dial s peerInfo).2.getPeer key = some (.ok peer) ∧
      peer.dataCenter = s.dataCenter ∧
      ∃ info ∈ peerInfo, info.dataCenter = s.dataCenter ∧ info.grpcAddress = peer.grpcAddress := by
  obtain ⟨placed, -⟩ := fresh.reachable_placed sorts reached
  obtain ⟨built, inv, swapped, -⟩ := setPeers_built sorts placed done
  obtain ⟨info, member, here⟩ := someLocal
  have sized := ReplicatedConsistentHash.size_ne_zero_of_getByPeerInfo (inv.localListed info member here)
  obtain ⟨q, -, got⟩ := (inv.localRoutes sized).get_ok key
  obtain ⟨atHome, listed⟩ := inv.localHeld.get got
  rw [swapped]
  exact ⟨q.2, (getPeer_eq_ok_iff _ key q.2).mpr got, atHome, listed⟩

theorem addPeerInfo_fresh_local (empty : s.localPicker.peers = ∅)
    {built built' : ReplicatedConsistentHash × RegionPicker} {info : PeerInfo}
    (step : addPeerInfo md5Hex sortSlice dial s built info = .ok built') :
    built'.1 = if info.dataCenter = s.dataCenter then built.1.add md5Hex sortSlice info else built.1 := by
  unfold addPeerInfo at step
  split at step
  · rename_i away
    obtain ⟨peer, -, rfl⟩ := Run.map_eq_ok step
    rw [if_neg away]
  · rename_i here
    obtain ⟨peer, made, rfl⟩ := Run.map_eq_ok step
    have none : s.localPicker.getByPeerInfo info = none := by
      simp [ReplicatedConsistentHash.getByPeerInfo, empty]
    rcases clientFor_ok made with reused | rfl
    · rw [none] at reused
      cases reused
    · rw [if_pos (not_not.mp here)]

/-- On pickers whose local ring holds no client, as an instance starts, a
successful `SetPeers` builds the local ring that `setLocalPeers` describes:
the listed peers of this data center, each its own new client, added in the
order of the list. -/
theorem setPeers_fresh_local_eq (s : Pickers) (empty : s.localPicker.peers = ∅) (peerInfo : List PeerInfo)
    {down : List PeerInfo} (done : (setPeers md5Hex sortSlice dial s peerInfo).1 = .ok down) :
    (setPeers md5Hex sortSlice dial s peerInfo).2.localPicker =
      setLocalPeers md5Hex sortSlice s.dataCenter s.localPicker peerInfo := by
  rcases setPeers_cases s peerInfo with ⟨err, failed⟩ | ⟨built, ran, swapped⟩
  · rw [failed] at done
    cases done
  · -- The loop's local ring is the fold of `Add` over the local peers done so far.
    have folded := Run.invariant_foldlM (addPeerInfo md5Hex sortSlice dial s)
      (fun done built => built.1 = (done.filter (·.dataCenter = s.dataCenter)).foldl
        (ReplicatedConsistentHash.add md5Hex sortSlice) s.localPicker.new)
      (fun done acc info acc' same step => by
        rw [addPeerInfo_fresh_local empty step, same, List.filter_append, List.foldl_append]
        split <;> simp [*])
      peerInfo [] _ _ rfl ran
    rw [swapped]
    simpa [setLocalPeers] using folded

end Pickers

namespace Pickers

variable {md5Hex : String → String}
  {sortSlice : (RingPoint → RingPoint → Bool) → List RingPoint → List RingPoint}
  {dial : String → Option String} {start s : Pickers}

end Pickers

end Gubernator

namespace Gubernator

open GoSort

/-! Two data centers with one peer each, on rings of one replica. -/

def charSum (s : String) : UInt64 := (s.toList.map Char.toNat).sum.toUInt64

def smallPickers : Pickers :=
  { dataCenter := "dc-a", localPicker := newReplicatedConsistentHash charSum 1,
    regionPicker := ⟨newReplicatedConsistentHash charSum 1, ∅⟩ }

theorem smallPickers_fresh : smallPickers.Fresh := ⟨rfl, rfl, rfl, by decide, by decide⟩

def localPeer : PeerInfo := { dataCenter := "dc-a", grpcAddress := "10.0.0.1:81" }

def remotePeer : PeerInfo := { dataCenter := "dc-b", grpcAddress := "10.0.1.1:81" }

def twoDataCenters : Pickers :=
  (Run.run (setPeers id insertionSortLess (fun _ => none)) smallPickers [[localPeer, remotePeer]]).2

theorem reachable_getPeer_local_twoDataCenters :
    (∀ peer ∈ twoDataCenters.getPeerList, peer.dataCenter = smallPickers.dataCenter) ∧
      (∀ key peer, twoDataCenters.getPeer key = some (.ok peer) → peer.dataCenter = smallPickers.dataCenter) ∧
      (twoDataCenters.getPeerList ≠ [] → ∀ key, ∃ peer, twoDataCenters.getPeer key = some (.ok peer)) :=
  Pickers.reachable_getPeer_local (insertionSortLess_sortsBy ReplicatedConsistentHash.peerKeysLess_strictWeakOrder) smallPickers_fresh
    ⟨[[localPeer, remotePeer]], rfl⟩

theorem reachable_getClients_per_region_twoDataCenters :
    (∀ region ∈ twoDataCenters.getRegionPickers.entries, ∀ peer ∈ region.2.peerList,
        peer.dataCenter = region.1 ∧ peer.dataCenter ≠ smallPickers.dataCenter) ∧
      ∀ key, ∃ clients, twoDataCenters.regionPicker.getClients key = some (.ok clients) ∧
        List.Forall₂ (fun region peer => region.2.get key = some (.ok peer) ∧
          peer.dataCenter = region.1 ∧ peer.dataCenter ≠ smallPickers.dataCenter)
          twoDataCenters.getRegionPickers.entries clients :=
  Pickers.reachable_getClients_per_region (insertionSortLess_sortsBy ReplicatedConsistentHash.peerKeysLess_strictWeakOrder)
    smallPickers_fresh ⟨[[localPeer, remotePeer]], rfl⟩

theorem reachable_setPeers_shuts_only_unused_dropped :
    (setPeers id insertionSortLess (fun _ => none) twoDataCenters [remotePeer]).1 = .ok [localPeer] ∧
      ∀ peer ∈ [localPeer],
        peer ∉ (setPeers id insertionSortLess (fun _ => none) twoDataCenters [remotePeer]).2.getPeerList ∧
        peer ∉ (setPeers id insertionSortLess (fun _ => none) twoDataCenters [remotePeer]).2.regionPicker.peerList :=
  have done : (setPeers id insertionSortLess (fun _ => none) twoDataCenters [remotePeer]).1 = .ok [localPeer] := by
    rfl
  ⟨done, Pickers.reachable_setPeers_shuts_only_unused (insertionSortLess_sortsBy ReplicatedConsistentHash.peerKeysLess_strictWeakOrder)
    smallPickers_fresh ⟨[[localPeer, remotePeer]], rfl⟩ [remotePeer] done⟩

theorem reachable_setPeers_installs_listed_reused :
    (setPeers id insertionSortLess (fun _ => none) twoDataCenters [localPeer, remotePeer]).1 = .ok [] ∧
      (((setPeers id insertionSortLess (fun _ => none) twoDataCenters [localPeer, remotePeer]).2.localPicker.getByPeerInfo
          { grpcAddress := "10.0.0.1:81" }).isSome ↔
        ∃ info ∈ [localPeer, remotePeer], info.dataCenter = twoDataCenters.dataCenter ∧
          info.grpcAddress = "10.0.0.1:81") ∧
      (((setPeers id insertionSortLess (fun _ => none) twoDataCenters [localPeer, remotePeer]).2.regionPicker.getByPeerInfo
          { grpcAddress := "10.0.0.1:81" }).isSome ↔
        ∃ info ∈ [localPeer, remotePeer], info.dataCenter ≠ twoDataCenters.dataCenter ∧
          info.grpcAddress = "10.0.0.1:81") :=
  have done : (setPeers id insertionSortLess (fun _ => none) twoDataCenters [localPeer, remotePeer]).1 = .ok [] := by
    rfl
  ⟨done, Pickers.reachable_setPeers_installs_listed (insertionSortLess_sortsBy ReplicatedConsistentHash.peerKeysLess_strictWeakOrder)
    smallPickers_fresh ⟨[[localPeer, remotePeer]], rfl⟩ [localPeer, remotePeer] done "10.0.0.1:81"⟩

theorem reachable_setPeers_getPeer_listed_reused :
    (setPeers id insertionSortLess (fun _ => none) twoDataCenters [localPeer, remotePeer]).1 = .ok [] ∧
      (∃ info ∈ [localPeer, remotePeer], info.dataCenter = twoDataCenters.dataCenter) ∧
      ∃ peer, (setPeers id insertionSortLess (fun _ => none) twoDataCenters [localPeer, remotePeer]).2.getPeer
          "requests_per_sec_account:1" = some (.ok peer) ∧
        peer.dataCenter = twoDataCenters.dataCenter ∧
        ∃ info ∈ [localPeer, remotePeer], info.dataCenter = twoDataCenters.dataCenter ∧
          info.grpcAddress = peer.grpcAddress :=
  have done : (setPeers id insertionSortLess (fun _ => none) twoDataCenters [localPeer, remotePeer]).1 = .ok [] := by
    rfl
  have someLocal : ∃ info ∈ [localPeer, remotePeer], info.dataCenter = twoDataCenters.dataCenter :=
    ⟨localPeer, List.mem_cons_self, by rfl⟩
  ⟨done, someLocal, Pickers.reachable_setPeers_getPeer_listed (insertionSortLess_sortsBy ReplicatedConsistentHash.peerKeysLess_strictWeakOrder)
    smallPickers_fresh ⟨[[localPeer, remotePeer]], rfl⟩ [localPeer, remotePeer] done someLocal _⟩

theorem setPeers_fresh_local_eq_twoDataCenters :
    (setPeers id insertionSortLess (fun _ => none) smallPickers [localPeer, remotePeer]).1 = .ok [] ∧
      (setPeers id insertionSortLess (fun _ => none) smallPickers [localPeer, remotePeer]).2.localPicker =
        setLocalPeers id insertionSortLess smallPickers.dataCenter smallPickers.localPicker [localPeer, remotePeer] :=
  have done : (setPeers id insertionSortLess (fun _ => none) smallPickers [localPeer, remotePeer]).1 = .ok [] := by
    rfl
  ⟨done, Pickers.setPeers_fresh_local_eq smallPickers rfl [localPeer, remotePeer] done⟩

end Gubernator
