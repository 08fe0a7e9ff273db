import Gubernator.Proto
import Mathlib.Data.List.AList
import Gubernator.Library.GoSort
import Gubernator.Library.SortedRing

/-!
The ring of replicated_hash.go that picks the owner of every key. `Add` puts
`replicas` points on the ring for a peer, each the hash of the replica's number
and the hex MD5 digest of the peer's address, and sorts the ring again by hash
with `sort.Slice`; `Get` binary-searches for the first point at or after the
key's hash and goes round to the first point past the last. A peer is known by
its `PeerInfo`. The MD5 digest and `sort.Slice` belong to Go's library and are
parameters; `sort.Slice` is held to what it promises, `GoSort.SortsBy`, and on
up to twelve points it is `GoSort.insertionSortLess`.
-/

namespace Gubernator

open GoSort

/-- A point of the ring, `peerInfo` in the source: its hash and its peer. -/
abbrev RingPoint := UInt64 × PeerInfo

/-- `ReplicatedConsistentHash`. `peers` is the Go map from GRPC address to peer. -/
structure ReplicatedConsistentHash where
  hashFunc : String → UInt64
  peerKeys : List RingPoint
  peers : AList (fun _ : String => PeerInfo)
  replicas : Int

def newReplicatedConsistentHash (fn : String → UInt64) (replicas : Int) : ReplicatedConsistentHash :=
  { hashFunc := fn, peerKeys := [], peers := ∅, replicas := replicas }

def peerKeysLess (a b : RingPoint) : Bool := a.1 < b.1

/-- Consistent hashing as the ring is meant to work: a hash goes to the first
point at or after it, and round to the first point past the last. -/
def ringSuccessor (points : List RingPoint) (hash : UInt64) : Option RingPoint :=
  (points.find? fun p => hash ≤ p.1).or points.head?

def replicaPoints (hashFunc : String → UInt64) (replicas : Int) (md5Hex : String → String)
    (peer : PeerInfo) : List RingPoint :=
  let key := md5Hex peer.grpcAddress
  (List.range replicas.toNat).map fun i => (hashFunc (toString i ++ key), peer)

namespace ReplicatedConsistentHash

variable (md5Hex : String → String)
  (sortSlice : (RingPoint → RingPoint → Bool) → List RingPoint → List RingPoint)

def new (ch : ReplicatedConsistentHash) : ReplicatedConsistentHash :=
  newReplicatedConsistentHash ch.hashFunc ch.replicas

def add (ch : ReplicatedConsistentHash) (peer : PeerInfo) : ReplicatedConsistentHash :=
  { ch with
    peers := ch.peers.insert peer.grpcAddress peer
    peerKeys := sortSlice peerKeysLess
      (ch.peerKeys ++ replicaPoints ch.hashFunc ch.replicas md5Hex peer) }

def size (ch : ReplicatedConsistentHash) : Nat := ch.peers.entries.length

/-- `Get`; `none` is the index panic of a ring with peers and no points. -/
def get (ch : ReplicatedConsistentHash) (key : String) : Option (Except String PeerInfo) :=
  if ch.size = 0 then some (.error "unable to pick a peer; pool is empty")
  else
    let hash := ch.hashFunc key
    let idx := search ch.peerKeys.length fun i => decide ((ch.peerKeys.map (·.1)).getD i 0 ≥ hash)
    let idx := if idx = ch.peerKeys.length then 0 else idx
    ch.peerKeys[idx]?.map fun p => .ok p.2

def getByPeerInfo (ch : ReplicatedConsistentHash) (peer : PeerInfo) : Option PeerInfo :=
  ch.peers.lookup peer.grpcAddress

def peerList (ch : ReplicatedConsistentHash) : List PeerInfo := ch.peers.entries.map (·.2)

/-! Two points are in `Add`'s order exactly when their hashes are, and points
that neither precedes share a hash. -/

theorem peerKeysLess_strictWeakOrder : StrictWeakOrder peerKeysLess where
  asymm a b less := by
    simp only [peerKeysLess, decide_eq_true_eq, decide_eq_false_iff_not, UInt64.lt_iff_toNat_lt]
      at less ⊢
    omega
  notLess_trans a b c ba cb := by
    simp only [peerKeysLess, decide_eq_false_iff_not, UInt64.lt_iff_toNat_lt] at ba cb ⊢
    omega

theorem ordered_hash_le {l : List RingPoint} (ordered : Ordered peerKeysLess l) {i j : Nat}
    (le : i ≤ j) (lt : j < l.length) : l[i].1 ≤ l[j].1 := by
  rcases Nat.lt_or_eq_of_le le with before | rfl
  · have notLess := List.pairwise_iff_getElem.mp ordered i j (by omega) lt before
    simpa [peerKeysLess, UInt64.not_lt] using notLess
  · exact UInt64.le_refl _

theorem hash_eq_of_unordered {a b : RingPoint} (ab : peerKeysLess b a = false)
    (ba : peerKeysLess a b = false) : a.1 = b.1 := by
  simp only [peerKeysLess, decide_eq_false_iff_not, UInt64.not_lt] at ab ba
  exact UInt64.le_antisymm ab ba

/-! The ring's successor, read on the hashes as numbers, is the successor of
`SortedRing`. -/

theorem ringSuccessor_eq_successor (points : List RingPoint) (hash : UInt64) :
    ringSuccessor points hash = SortedRing.successor (fun p => p.1.toNat) points hash.toNat := by
  simp only [ringSuccessor, SortedRing.successor, UInt64.le_iff_toNat_le]

theorem ordered_toNat {l : List RingPoint} (ordered : Ordered peerKeysLess l) :
    l.Pairwise fun a b => a.1.toNat ≤ b.1.toNat :=
  ordered.imp fun notLess => by
    simpa [peerKeysLess, UInt64.not_lt, UInt64.le_iff_toNat_le] using notLess

theorem nodup_toNat {l : List RingPoint} (distinct : (l.map Prod.fst).Nodup) :
    (l.map fun p => p.1.toNat).Nodup := by
  have numbered := distinct.map (f := UInt64.toNat) fun _ _ same => UInt64.toNat_inj.mp same
  rwa [List.map_map] at numbered

theorem peer_of_mem_replicaPoints {hashFunc : String → UInt64} {replicas : Int} {md5Hex : String → String}
    {peer : PeerInfo} {p : RingPoint} (member : p ∈ replicaPoints hashFunc replicas md5Hex peer) :
    p.2 = peer := by
  obtain ⟨i, -, rfl⟩ := List.mem_map.mp member
  rfl

theorem replicaPoints_ne_nil (hashFunc : String → UInt64) {replicas : Int} (md5Hex : String → String)
    (peer : PeerInfo) (replicated : 1 ≤ replicas) : replicaPoints hashFunc replicas md5Hex peer ≠ [] := by
  have some : 0 < replicas.toNat := by omega
  simp [replicaPoints, List.range_eq_nil, some.ne']

theorem ringSuccessor_mem {points : List RingPoint} {hash : UInt64} {q : RingPoint}
    (got : ringSuccessor points hash = some q) : q ∈ points := by
  unfold ringSuccessor at got
  cases found : points.find? (fun p => decide (hash ≤ p.1)) with
  | some q' =>
    rw [found, Option.some_or] at got
    cases got
    exact List.mem_of_find?_eq_some found
  | none =>
    rw [found, Option.none_or] at got
    exact List.mem_of_mem_head? got

theorem ringSuccessor_isSome {points : List RingPoint} (nonempty : points ≠ []) (hash : UInt64) :
    (ringSuccessor points hash).isSome := by
  rw [ringSuccessor_eq_successor]
  exact SortedRing.successor_isSome nonempty _

section Ring

variable {md5Hex sortSlice}

@[simp] theorem add_hashFunc (ch : ReplicatedConsistentHash) (peer : PeerInfo) :
    (ch.add md5Hex sortSlice peer).hashFunc = ch.hashFunc := rfl

@[simp] theorem add_replicas (ch : ReplicatedConsistentHash) (peer : PeerInfo) :
    (ch.add md5Hex sortSlice peer).replicas = ch.replicas := rfl

theorem add_size_ne_zero (ch : ReplicatedConsistentHash) (peer : PeerInfo) :
    (ch.add md5Hex sortSlice peer).size ≠ 0 := by
  simp [size, add, AList.entries_insert]

theorem foldl_add_hashFunc (ps : List PeerInfo) (ch : ReplicatedConsistentHash) :
    (ps.foldl (add md5Hex sortSlice) ch).hashFunc = ch.hashFunc := by
  induction ps generalizing ch with
  | nil => rfl
  | cons p ps ih => rw [List.foldl_cons, ih, add_hashFunc]

theorem foldl_add_replicas (ps : List PeerInfo) (ch : ReplicatedConsistentHash) :
    (ps.foldl (add md5Hex sortSlice) ch).replicas = ch.replicas := by
  induction ps generalizing ch with
  | nil => rfl
  | cons p ps ih => rw [List.foldl_cons, ih, add_replicas]

theorem foldl_add_size_ne_zero (ps : List PeerInfo) (ch : ReplicatedConsistentHash)
    (nonempty : ch.size ≠ 0 ∨ ps ≠ []) : (ps.foldl (add md5Hex sortSlice) ch).size ≠ 0 := by
  induction ps generalizing ch with
  | nil => simpa using nonempty
  | cons p ps ih => exact ih _ (Or.inl (add_size_ne_zero ch p))

theorem foldl_add_perm (sorts : SortsBy peerKeysLess (sortSlice peerKeysLess))
    (ps : List PeerInfo) (ch : ReplicatedConsistentHash) :
    (ps.foldl (add md5Hex sortSlice) ch).peerKeys.Perm
      (ch.peerKeys ++ ps.flatMap (replicaPoints ch.hashFunc ch.replicas md5Hex)) := by
  induction ps generalizing ch with
  | nil => simp
  | cons p ps ih =>
    rw [List.foldl_cons, List.flatMap_cons, ← List.append_assoc]
    exact (ih _).trans ((sorts _).1.append_right _)

theorem foldl_add_ordered (sorts : SortsBy peerKeysLess (sortSlice peerKeysLess))
    (ps : List PeerInfo) (ch : ReplicatedConsistentHash) (ordered : Ordered peerKeysLess ch.peerKeys) :
    Ordered peerKeysLess (ps.foldl (add md5Hex sortSlice) ch).peerKeys := by
  induction ps generalizing ch with
  | nil => exact ordered
  | cons p ps ih => exact ih _ (sorts _).2

theorem add_peerKeys_perm (sorts : SortsBy peerKeysLess (sortSlice peerKeysLess))
    (ch : ReplicatedConsistentHash) (peer : PeerInfo) :
    (ch.add md5Hex sortSlice peer).peerKeys.Perm
      (ch.peerKeys ++ replicaPoints ch.hashFunc ch.replicas md5Hex peer) :=
  (sorts _).1

theorem add_peerKeys_ne_nil (sorts : SortsBy peerKeysLess (sortSlice peerKeysLess))
    (ch : ReplicatedConsistentHash) (peer : PeerInfo) (replicated : 1 ≤ ch.replicas) :
    (ch.add md5Hex sortSlice peer).peerKeys ≠ [] := by
  intro empty
  have member := (add_peerKeys_perm sorts ch peer).symm.subset (List.mem_append_right ch.peerKeys
    (List.getLast_mem (replicaPoints_ne_nil ch.hashFunc md5Hex peer replicated)))
  rw [empty] at member
  exact List.not_mem_nil member

theorem foldl_add_size_ne_zero_of_mem (ps : List PeerInfo) (hashFunc : String → UInt64) (replicas : Int)
    {p : RingPoint}
    (member : p ∈ (ps.foldl (add md5Hex sortSlice) (newReplicatedConsistentHash hashFunc replicas)).peerKeys) :
    (ps.foldl (add md5Hex sortSlice) (newReplicatedConsistentHash hashFunc replicas)).size ≠ 0 := by
  apply foldl_add_size_ne_zero ps _ (.inr ?_)
  rintro rfl
  exact List.not_mem_nil member

theorem foldl_add_peerKeys_eq (sorts : SortsBy peerKeysLess (sortSlice peerKeysLess))
    (hashFunc : String → UInt64) (replicas : Int) (ps qs : List PeerInfo) (reordered : ps.Perm qs)
    (apart : ∀ a ∈ ps.flatMap (replicaPoints hashFunc replicas md5Hex),
      ∀ b ∈ ps.flatMap (replicaPoints hashFunc replicas md5Hex), a.1 = b.1 → a = b) :
    (ps.foldl (add md5Hex sortSlice) (newReplicatedConsistentHash hashFunc replicas)).peerKeys =
      (qs.foldl (add md5Hex sortSlice) (newReplicatedConsistentHash hashFunc replicas)).peerKeys := by
  have ofP := @foldl_add_perm md5Hex sortSlice sorts ps (newReplicatedConsistentHash hashFunc replicas)
  have ofQ := (@foldl_add_perm md5Hex sortSlice sorts qs (newReplicatedConsistentHash hashFunc replicas)).trans
    (List.Perm.append_left [] ((reordered.flatMap_right _).symm))
  refine List.Perm.eq_of_pairwise (fun a b memA memB ab ba => ?_)
    (foldl_add_ordered sorts ps _ List.Pairwise.nil) (foldl_add_ordered sorts qs _ List.Pairwise.nil)
    (ofP.trans ofQ.symm)
  refine apart a (by simpa [newReplicatedConsistentHash] using ofP.subset memA)
    b (by simpa [newReplicatedConsistentHash] using ofQ.subset memB) ?_
  exact hash_eq_of_unordered ab ba

theorem get_eq_of_peerKeys_eq {c d : ReplicatedConsistentHash} (hash : c.hashFunc = d.hashFunc)
    (points : c.peerKeys = d.peerKeys) (peersC : c.size ≠ 0) (peersD : d.size ≠ 0) (key : String) :
    c.get key = d.get key := by
  unfold get
  rw [if_neg peersC, if_neg peersD, hash, points]

theorem get_eq_ringSuccessor (ch : ReplicatedConsistentHash) (ordered : Ordered peerKeysLess ch.peerKeys)
    (peers : ch.size ≠ 0) (key : String) :
    ch.get key = (ringSuccessor ch.peerKeys (ch.hashFunc key)).map fun p => .ok p.2 := by
  have agree : ∀ i (lt : i < ch.peerKeys.length),
      decide ((ch.peerKeys.map (·.1)).getD i 0 ≥ ch.hashFunc key) =
        decide (ch.hashFunc key ≤ ch.peerKeys[i].1) := by
    intro i lt
    simp [List.getD_eq_getElem?_getD, lt]
  have mono : MonotoneBelow ch.peerKeys.length
      fun i => decide ((ch.peerKeys.map (·.1)).getD i 0 ≥ ch.hashFunc key) := by
    intro i j le lt atI
    dsimp only at atI ⊢
    rw [agree i (by omega)] at atI
    rw [agree j lt, decide_eq_true_eq]
    exact UInt64.le_trans (of_decide_eq_true atI) (ordered_hash_le ordered le lt)
  have first := search_isFirstTrue mono
  have found := getElem?_eq_find?_of_isFirstTrue (fun p => decide (ch.hashFunc key ≤ p.1)) agree first
  unfold get
  rw [if_neg peers]
  dsimp only
  split
  · rename_i past
    rw [past, List.getElem?_eq_none le_rfl] at found
    rw [ringSuccessor, ← found, List.head?_eq_getElem?]
    rfl
  · rename_i within
    rw [ringSuccessor, ← found, List.getElem?_eq_getElem (lt_of_le_of_ne first.1 within)]
    rfl

theorem get_eq_successor (ch : ReplicatedConsistentHash) (ordered : Ordered peerKeysLess ch.peerKeys)
    (peers : ch.size ≠ 0) (key : String) :
    ch.get key =
      (SortedRing.successor (fun p => p.1.toNat) ch.peerKeys (ch.hashFunc key).toNat).map fun p => .ok p.2 := by
  rw [get_eq_ringSuccessor ch ordered peers, ringSuccessor_eq_successor]

theorem foldl_add_get_eq (sorts : SortsBy peerKeysLess (sortSlice peerKeysLess))
    (hashFunc : String → UInt64) (replicas : Int) (ps qs : List PeerInfo) (reordered : ps.Perm qs)
    (apart : ∀ a ∈ ps.flatMap (replicaPoints hashFunc replicas md5Hex),
      ∀ b ∈ ps.flatMap (replicaPoints hashFunc replicas md5Hex), a.1 = b.1 → a = b)
    (key : String) :
    (ps.foldl (add md5Hex sortSlice) (newReplicatedConsistentHash hashFunc replicas)).get key =
      (qs.foldl (add md5Hex sortSlice) (newReplicatedConsistentHash hashFunc replicas)).get key := by
  cases ps with
  | nil => rw [List.nil_perm.mp reordered]
  | cons p ps =>
    have added : qs ≠ [] := fun none => List.cons_ne_nil p ps (by subst none; exact reordered.eq_nil)
    refine get_eq_of_peerKeys_eq ?_ (foldl_add_peerKeys_eq sorts hashFunc replicas _ qs reordered apart)
      (foldl_add_size_ne_zero _ _ (Or.inr (List.cons_ne_nil p ps)))
      (foldl_add_size_ne_zero _ _ (Or.inr added)) key
    rw [foldl_add_hashFunc, foldl_add_hashFunc]

/-! What every run of `Add` keeps: the ring's length and whose points it holds,
and the `peers` map. -/

theorem foldl_add_peer_mem (sorts : SortsBy peerKeysLess (sortSlice peerKeysLess))
    (hashFunc : String → UInt64) (replicas : Int) (ps : List PeerInfo) {q : RingPoint}
    (member : q ∈ (ps.foldl (add md5Hex sortSlice) (newReplicatedConsistentHash hashFunc replicas)).peerKeys) :
    q.2 ∈ ps := by
  have onRing := (foldl_add_perm sorts ps _).subset member
  rw [List.mem_append, List.mem_flatMap] at onRing
  rcases onRing with empty | ⟨p, added, point⟩
  · exact absurd empty List.not_mem_nil
  · rw [peer_of_mem_replicaPoints point]
    exact added

theorem foldl_add_lookup (ps : List PeerInfo) (ch : ReplicatedConsistentHash) (address : String) :
    (ps.foldl (add md5Hex sortSlice) ch).peers.lookup address =
      (ps.reverse.find? (·.grpcAddress = address)).or (ch.peers.lookup address) := by
  induction ps generalizing ch with
  | nil => simp
  | cons p ps ih =>
    rw [List.foldl_cons, ih, List.reverse_cons, List.find?_append, Option.or_assoc]
    congr 1
    by_cases same : p.grpcAddress = address
    · subst same
      simp [add, AList.lookup_insert]
    · simp [add, same, AList.lookup_insert_ne (Ne.symm same)]

/-- On a ring built by `Add` from an empty one with at least one replica, `Get`
of any key returns one of the peers added. When the peers have distinct GRPC
addresses it is the peer the `peers` map holds for its address, a member of
`Peers()`. -/
theorem foldl_add_get_added (sorts : SortsBy peerKeysLess (sortSlice peerKeysLess))
    (hashFunc : String → UInt64) {replicas : Int} (replicated : 1 ≤ replicas) {ps : List PeerInfo}
    (nonempty : ps ≠ []) (key : String) :
    ∃ p ∈ ps, (ps.foldl (add md5Hex sortSlice) (newReplicatedConsistentHash hashFunc replicas)).get key =
        some (.ok p) ∧
      ((ps.map (·.grpcAddress)).Nodup →
        (ps.foldl (add md5Hex sortSlice) (newReplicatedConsistentHash hashFunc replicas)).peers.lookup
          p.grpcAddress = some p) := by
  -- The first peer's points are on the ring, so the successor exists.
  obtain ⟨p, added⟩ := List.exists_mem_of_ne_nil ps nonempty
  obtain ⟨q, point⟩ := List.exists_mem_of_ne_nil _ (replicaPoints_ne_nil hashFunc md5Hex p replicated)
  have onRing : q ∈ (ps.foldl (add md5Hex sortSlice) (newReplicatedConsistentHash hashFunc replicas)).peerKeys :=
    (foldl_add_perm sorts ps _).symm.subset (List.mem_append_right _ (List.mem_flatMap.mpr ⟨p, added, point⟩))
  have ordered := @foldl_add_ordered md5Hex sortSlice sorts ps (newReplicatedConsistentHash hashFunc replicas)
    List.Pairwise.nil
  have peers := @foldl_add_size_ne_zero md5Hex sortSlice ps (newReplicatedConsistentHash hashFunc replicas)
    (.inr nonempty)
  obtain ⟨q', got⟩ := Option.isSome_iff_exists.mp (ringSuccessor_isSome (List.ne_nil_of_mem onRing)
    ((ps.foldl (add md5Hex sortSlice) (newReplicatedConsistentHash hashFunc replicas)).hashFunc key))
  have member := ringSuccessor_mem got
  have picked := foldl_add_peer_mem sorts hashFunc replicas ps member
  refine ⟨q'.2, picked, ?_, ?_⟩
  · rw [get_eq_ringSuccessor _ ordered peers, got]
    rfl
  · -- The last peer added at that address is the peer itself.
    intro distinct
    rw [foldl_add_lookup]
    have isSome : (ps.reverse.find? (·.grpcAddress = q'.2.grpcAddress)).isSome :=
      List.find?_isSome.mpr ⟨q'.2, List.mem_reverse.mpr picked, by simp⟩
    obtain ⟨x, found⟩ := Option.isSome_iff_exists.mp isSome
    have same : x = q'.2 :=
      List.inj_on_of_nodup_map distinct (List.mem_reverse.mp (List.mem_of_find?_eq_some found)) picked
        (by simpa using List.find?_some found)
    rw [found, same]
    rfl

end Ring

end ReplicatedConsistentHash

/-- The local half of `SetPeers`: a new ring from `picker` with every peer of
`dataCenter` added in the order of the list. -/
def setLocalPeers (md5Hex : String → String)
    (sortSlice : (RingPoint → RingPoint → Bool) → List RingPoint → List RingPoint)
    (dataCenter : String) (picker : ReplicatedConsistentHash) (peerInfo : List PeerInfo) :
    ReplicatedConsistentHash :=
  (peerInfo.filter (·.dataCenter = dataCenter)).foldl
    (ReplicatedConsistentHash.add md5Hex sortSlice) picker.new

section Ownership

open ReplicatedConsistentHash

def peerA : PeerInfo := { grpcAddress := "10.0.0.1:81" }

def peerB : PeerInfo := { grpcAddress := "10.0.0.2:81" }

theorem foldl_add_get_added_twoPeers :
    ∃ p ∈ [peerA, peerB], ([peerA, peerB].foldl (add id insertionSortLess)
        (newReplicatedConsistentHash (fun s => (s.toList.map Char.toNat).sum.toUInt64) 1)).get
          "requests_per_sec_account:1" = some (.ok p) ∧
      (([peerA, peerB].map (·.grpcAddress)).Nodup →
        ([peerA, peerB].foldl (add id insertionSortLess)
          (newReplicatedConsistentHash (fun s => (s.toList.map Char.toNat).sum.toUInt64) 1)).peers.lookup
            p.grpcAddress = some p) :=
  foldl_add_get_added (insertionSortLess_sortsBy peerKeysLess_strictWeakOrder) _ (by decide) (by simp) _

theorem get_first_added_of_tied_hash (md5Hex : String → String) :
    peerA.grpcAddress ≠ peerB.grpcAddress ∧
      (((newReplicatedConsistentHash (fun _ => 0) 1).add md5Hex insertionSortLess peerA).add md5Hex
          insertionSortLess peerB).get "requests_per_sec_account:1" = some (.ok peerA) ∧
      (((newReplicatedConsistentHash (fun _ => 0) 1).add md5Hex insertionSortLess peerB).add md5Hex
          insertionSortLess peerA).get "requests_per_sec_account:1" = some (.ok peerB) := by
  simp only [add, replicaPoints, newReplicatedConsistentHash]
  decide

/-- The tie at the identity digest. -/
theorem get_depends_on_add_order :
    peerA.grpcAddress ≠ peerB.grpcAddress ∧
      (((newReplicatedConsistentHash (fun _ => 0) 1).add id insertionSortLess peerA).add id
          insertionSortLess peerB).get "requests_per_sec_account:1" = some (.ok peerA) ∧
      (((newReplicatedConsistentHash (fun _ => 0) 1).add id insertionSortLess peerB).add id
          insertionSortLess peerA).get "requests_per_sec_account:1" = some (.ok peerB) :=
  get_first_added_of_tied_hash id

/-- Every order of `Add` over the same peers routes every key to the same peer,
for any hash function, replica count, digest and any sort that keeps the
promise of `sort.Slice`, as long as ring points that share a hash belong to one
peer. -/
theorem get_independent_of_add_order (hashFunc : String → UInt64) (replicas : Int)
    (md5Hex : String → String)
    (sortSlice : (RingPoint → RingPoint → Bool) → List RingPoint → List RingPoint)
    (sorts : SortsBy peerKeysLess (sortSlice peerKeysLess)) (ps qs : List PeerInfo)
    (reordered : ps.Perm qs)
    (apart : ∀ a ∈ ps.flatMap (replicaPoints hashFunc replicas md5Hex),
      ∀ b ∈ ps.flatMap (replicaPoints hashFunc replicas md5Hex), a.1 = b.1 → a = b)
    (key : String) :
    (ps.foldl (add md5Hex sortSlice) (newReplicatedConsistentHash hashFunc replicas)).get key =
      (qs.foldl (add md5Hex sortSlice) (newReplicatedConsistentHash hashFunc replicas)).get key :=
  foldl_add_get_eq sorts hashFunc replicas ps qs reordered apart key

theorem get_independent_of_add_order_twoPeers :
    ([peerA, peerB].foldl (add id insertionSortLess)
        (newReplicatedConsistentHash (fun s => (s.toList.map Char.toNat).sum.toUInt64) 1)).get "requests_per_sec_account:1" =
      ([peerB, peerA].foldl (add id insertionSortLess)
        (newReplicatedConsistentHash (fun s => (s.toList.map Char.toNat).sum.toUInt64) 1)).get "requests_per_sec_account:1" :=
  get_independent_of_add_order _ _ _ _ (insertionSortLess_sortsBy peerKeysLess_strictWeakOrder)
    [peerA, peerB] [peerB, peerA] (List.Perm.swap _ _ []) (by decide) _

/-- Adding a peer moves keys only onto it: on a ring built by `Add`, if the
points after adding `peer` have distinct hashes, every key goes where it went
before or to `peer`. A key whose successor is an old point keeps it, since the
old points are a sorted part of the new ring. -/
theorem add_moves_keys_only_to_new_peer (hashFunc : String → UInt64) (replicas : Int)
    (md5Hex : String → String)
    (sortSlice : (RingPoint → RingPoint → Bool) → List RingPoint → List RingPoint)
    (sorts : SortsBy peerKeysLess (sortSlice peerKeysLess)) (ps : List PeerInfo) (peer : PeerInfo)
    (replicated : 1 ≤ replicas)
    (apart : (((ps.foldl (add md5Hex sortSlice) (newReplicatedConsistentHash hashFunc replicas)).add md5Hex
      sortSlice peer).peerKeys.map Prod.fst).Nodup)
    (key : String) :
    ((ps.foldl (add md5Hex sortSlice) (newReplicatedConsistentHash hashFunc replicas)).add md5Hex sortSlice
        peer).get key = (ps.foldl (add md5Hex sortSlice) (newReplicatedConsistentHash hashFunc replicas)).get key ∨
      ((ps.foldl (add md5Hex sortSlice) (newReplicatedConsistentHash hashFunc replicas)).add md5Hex sortSlice
        peer).get key = some (.ok peer) := by
  generalize built : ps.foldl (add md5Hex sortSlice) (newReplicatedConsistentHash hashFunc replicas) = before
    at apart ⊢
  have hashOf : before.hashFunc = hashFunc := by rw [← built, foldl_add_hashFunc]; rfl
  have replicasOf : before.replicas = replicas := by rw [← built, foldl_add_replicas]; rfl
  have orderedBefore : Ordered peerKeysLess before.peerKeys := by
    rw [← built]
    exact foldl_add_ordered sorts ps _ List.Pairwise.nil
  -- The new ring is the old points and the peer's, sorted.
  have joined := @add_peerKeys_perm md5Hex sortSlice sorts before peer
  have orderedAfter : Ordered peerKeysLess (before.add md5Hex sortSlice peer).peerKeys := (sorts _).2
  obtain ⟨a, got⟩ := Option.isSome_iff_exists.mp (SortedRing.successor_isSome
    (add_peerKeys_ne_nil sorts before peer (replicasOf ▸ replicated)) (hashFunc key).toNat)
  rw [get_eq_successor _ orderedAfter (add_size_ne_zero before peer), add_hashFunc, hashOf, got]
  rcases List.mem_append.mp (joined.subset (SortedRing.successor_isSuccessor (ordered_toNat orderedAfter) got).1)
    with old | new
  · -- An old point: the old points are a sorted part of the new ring, so it was the successor before.
    left
    have distinct : (before.peerKeys.map fun p => p.1.toNat).Nodup := by
      have both := (joined.map Prod.fst).nodup_iff.mp apart
      rw [List.map_append] at both
      exact nodup_toNat both.of_append_left
    have kept := SortedRing.successor_of_subset (ordered_toNat orderedBefore) (ordered_toNat orderedAfter)
      distinct (fun _ member => joined.symm.subset (List.mem_append_left _ member)) got old
    have peers : before.size ≠ 0 := by
      rw [← built] at old ⊢
      exact foldl_add_size_ne_zero_of_mem ps hashFunc replicas old
    rw [get_eq_successor before orderedBefore peers, hashOf, kept]
  · right
    rw [Option.map_some, peer_of_mem_replicaPoints new]

theorem add_moves_keys_only_to_new_peer_secondPeer :
    1 ≤ (1 : Int) ∧
      ((([peerA].foldl (add id insertionSortLess)
          (newReplicatedConsistentHash (fun s => (s.toList.map Char.toNat).sum.toUInt64) 1)).add id
          insertionSortLess peerB).peerKeys.map Prod.fst).Nodup ∧
      ((([peerA].foldl (add id insertionSortLess)
          (newReplicatedConsistentHash (fun s => (s.toList.map Char.toNat).sum.toUInt64) 1)).add id
          insertionSortLess peerB).get "requests_per_sec_account:1" =
        ([peerA].foldl (add id insertionSortLess)
          (newReplicatedConsistentHash (fun s => (s.toList.map Char.toNat).sum.toUInt64) 1)).get
          "requests_per_sec_account:1" ∨
      (([peerA].foldl (add id insertionSortLess)
          (newReplicatedConsistentHash (fun s => (s.toList.map Char.toNat).sum.toUInt64) 1)).add id
          insertionSortLess peerB).get "requests_per_sec_account:1" = some (.ok peerB)) :=
  ⟨by decide, by decide,
    add_moves_keys_only_to_new_peer _ 1 id insertionSortLess (insertionSortLess_sortsBy peerKeysLess_strictWeakOrder)
      [peerA] peerB (by decide) (by decide) _⟩

/-- A second PeerClient for the GRPC address of `peerA`, told apart by its HTTP address. -/
def peerAHttp : PeerInfo := { grpcAddress := "10.0.0.1:81", httpAddress := "10.0.0.1:80" }

/-- `SetPeers` on a fresh picker, with the address of `peerA` listed twice: the
map keeps only the second client, the ring keeps one point of each, and `Get`
returns the first client, which `Peers()` does not list. -/
theorem get_returns_replaced_peer :
    (setLocalPeers id insertionSortLess ""
        (newReplicatedConsistentHash (fun s => (s.toList.map Char.toNat).sum.toUInt64) 1)
        [peerA, peerAHttp]).peers.entries.map (·.2) = [peerAHttp] ∧
      (setLocalPeers id insertionSortLess ""
        (newReplicatedConsistentHash (fun s => (s.toList.map Char.toNat).sum.toUInt64) 1)
        [peerA, peerAHttp]).peerKeys.map (·.2) = [peerA, peerAHttp] ∧
      (setLocalPeers id insertionSortLess ""
        (newReplicatedConsistentHash (fun s => (s.toList.map Char.toNat).sum.toUInt64) 1)
        [peerA, peerAHttp]).get "requests_per_sec_account:1" = some (.ok peerA) := by
  decide +kernel

end Ownership

end Gubernator
