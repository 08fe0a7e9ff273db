import Gubernator.Instance
import Gubernator.Admission
import Gubernator.Library.Run
import Gubernator.Library.Int64Range

/-!
global.go: how a non-owner forwards the hits of GLOBAL requests. `QueueHit`
queues each request with hits; `runAsyncHits` folds the queue into a map from
HashKey to the first request of that key, adding the later hits into it, and
sends the map when it reaches `GlobalBatchLimit` entries or when the interval
fires. `sendHits` then groups the map's requests by the address of their owner
and sends one `GetPeerRateLimits` to each. The batching limits come from
`Config.SetDefaults`; its other defaults only time the sends, and are left out.
Go ranges over maps in no fixed order; the model takes the map's own order.
-/

namespace Gubernator

open Int64Range

/-- The batching fields of `BehaviorConfig`. -/
structure BehaviorConfig where
  batchLimit : Int := 0
  globalBatchLimit : Int := 0
  deriving DecidableEq, Repr

/-- `setter.SetDefault` on an `int`: the zero value takes the default. -/
def setDefault (value default : Int) : Int := if value = 0 then default else value

def BehaviorConfig.setDefaults (c : BehaviorConfig) : Except String BehaviorConfig :=
  let c := { c with batchLimit := setDefault c.batchLimit maxBatchSize,
                    globalBatchLimit := setDefault c.globalBatchLimit maxBatchSize }
  if c.batchLimit > (maxBatchSize : Int) then
    .error ("Behaviors.BatchLimit cannot exceed '" ++ toString maxBatchSize ++ "'")
  else .ok c

abbrev HitsMap := AList (fun _ : String => RateLimitReq)

/-- `QueueHit`: a request without hits is never queued. -/
def queueHit (r : RateLimitReq) : List RateLimitReq := if r.hits ≠ 0 then [r] else []

/-- Lines 99-110: a new key takes the request, and a known key's request gains
the hits and, if asked, RESET_REMAINING. -/
def aggregateHit (hits : HitsMap) (r : RateLimitReq) : HitsMap :=
  let key := r.hashKey
  match hits.lookup key with
  | some first =>
    let first := if hasBehavior r.behavior Behavior.RESET_REMAINING then
        { first with behavior := setBehavior first.behavior Behavior.RESET_REMAINING true }
      else first
    hits.insert key { first with hits := first.hits + r.hits }
  | none => hits.insert key r

/-- What wakes the `runAsyncHits` loop: a queued request, or the interval. -/
inductive AsyncHitsEvent where
  | hit (r : RateLimitReq)
  | tick

def runAsyncHitsStep (globalBatchLimit : Int) (hits : HitsMap) :
    AsyncHitsEvent → Option HitsMap × HitsMap
  | .hit r =>
    let hits := aggregateHit hits r
    if (hits.entries.length : Int) = globalBatchLimit then (some hits, ∅) else (none, hits)
  | .tick => if hits.entries.length ≠ 0 then (some hits, ∅) else (none, hits)

def addToPeer (address : String) (r : RateLimitReq) :
    List (String × GetPeerRateLimitsReq) → List (String × GetPeerRateLimitsReq)
  | [] => [(address, ⟨[r]⟩)]
  | (a, req) :: rest =>
    if a = address then (a, ⟨req.requests ++ [r]⟩) :: rest else (a, req) :: addToPeer address r rest

/-- `sendHits`: the batches for each owner's address, built in the map's order;
a request whose owner `GetPeer` cannot find is dropped. -/
def sendHits (getPeer : String → Except String PeerInfo) (hits : HitsMap) :
    List (String × GetPeerRateLimitsReq) :=
  hits.entries.foldl (fun peerRequests entry =>
    match getPeer entry.2.hashKey with
    | .error _ => peerRequests
    | .ok peer => addToPeer peer.grpcAddress entry.2 peerRequests) []

/-! Hits are neither lost nor counted twice: for each key, what the loop has
sent and what it still holds add up to what was queued, as long as the sums
stay within `int64`. -/

def hitsOf (k : String) (m : HitsMap) : Int := ((m.lookup k).map (·.hits.toInt)).getD 0

def queuedHits (k : String) : AsyncHitsEvent → Int
  | .hit r => if r.hashKey = k then r.hits.toInt else 0
  | .tick => 0

def sentHits (k : String) : Option HitsMap → Int
  | some m => hitsOf k m
  | none => 0

@[simp] theorem hitsOf_empty (k : String) : hitsOf k ∅ = 0 := rfl

-- Aggregating writes the request's own key and no other.
theorem lookup_aggregateHit_ne (m : HitsMap) (r : RateLimitReq) {k : String} (other : k ≠ r.hashKey) :
    (aggregateHit m r).lookup k = m.lookup k := by
  unfold aggregateHit
  dsimp only
  cases m.lookup r.hashKey with
  | none => exact AList.lookup_insert_ne other
  | some first => exact AList.lookup_insert_ne other

theorem hitsOf_aggregateHit (m : HitsMap) (r : RateLimitReq) (k : String)
    (fits : Fits (hitsOf k m + queuedHits k (.hit r))) :
    hitsOf k (aggregateHit m r) = hitsOf k m + queuedHits k (.hit r) := by
  by_cases same : r.hashKey = k
  · subst same
    unfold aggregateHit
    dsimp only
    cases found : m.lookup r.hashKey with
    | none => simp [hitsOf, queuedHits, found]
    | some first =>
      simp only [hitsOf, queuedHits, found, if_true, Option.map_some, Option.getD_some] at fits ⊢
      rw [AList.lookup_insert]
      -- RESET_REMAINING touches the behavior only; the hits are the sum either way
      split_ifs <;> exact toInt_add_of_fits _ _ fits
  · simp [hitsOf, queuedHits, same, lookup_aggregateHit_ne m r (Ne.symm same)]

theorem runAsyncHitsStep_hits (limit : Int) (m : HitsMap) (e : AsyncHitsEvent) (k : String)
    (fits : Fits (hitsOf k m + queuedHits k e)) :
    (sentHits k (runAsyncHitsStep limit m e).1 = 0 ∧
        hitsOf k (runAsyncHitsStep limit m e).2 = hitsOf k m + queuedHits k e) ∨
      (sentHits k (runAsyncHitsStep limit m e).1 = hitsOf k m + queuedHits k e ∧
        hitsOf k (runAsyncHitsStep limit m e).2 = 0) := by
  cases e with
  | hit r =>
    have aggregated := hitsOf_aggregateHit m r k fits
    simp only [runAsyncHitsStep]
    split_ifs
    · exact .inr ⟨aggregated, rfl⟩
    · exact .inl ⟨rfl, aggregated⟩
  | tick =>
    simp only [runAsyncHitsStep, queuedHits, add_zero]
    split_ifs
    · exact .inr ⟨rfl, rfl⟩
    · exact .inl ⟨rfl, rfl⟩

/-- Every sum the loop forms for key `k` fits in `int64`: the hits the map holds
for `k` at each turn, plus the hits that turn queues. A send empties the map, so
this is weaker than a bound on the hits queued in all. -/
def SumsFit (limit : Int) (k : String) : HitsMap → List AsyncHitsEvent → Prop
  | _, [] => True
  | m, e :: rest => Fits (hitsOf k m + queuedHits k e) ∧ SumsFit limit k (runAsyncHitsStep limit m e).2 rest

instance SumsFit.decidable (limit : Int) (k : String) :
    (m : HitsMap) → (events : List AsyncHitsEvent) → Decidable (SumsFit limit k m events)
  | _, [] => isTrue trivial
  | m, e :: rest =>
    have := SumsFit.decidable limit k (runAsyncHitsStep limit m e).2 rest
    inferInstanceAs (Decidable (Fits _ ∧ _))

/-- Over any run of arrivals and ticks, for each key, the hits sent and the hits
still held add up to the hits held at the start and the hits queued, negative
hits included, as long as no sum the loop forms overflows. -/
theorem runAsyncHits_conserves (limit : Int) (k : String) (events : List AsyncHitsEvent) :
    ∀ m : HitsMap, SumsFit limit k m events →
      ((Run.run (runAsyncHitsStep limit) m events).1.map (sentHits k)).sum +
          hitsOf k (Run.run (runAsyncHitsStep limit) m events).2 =
        hitsOf k m + (events.map (queuedHits k)).sum := by
  induction events with
  | nil => intro m _; simp
  | cons e rest ih =>
    rintro m ⟨fits, restFit⟩
    -- Whether the turn sends or not, it splits what it holds into sent and kept hits.
    have balance : sentHits k (runAsyncHitsStep limit m e).1 + hitsOf k (runAsyncHitsStep limit m e).2 =
        hitsOf k m + queuedHits k e := by
      rcases runAsyncHitsStep_hits limit m e k fits with ⟨sent, kept⟩ | ⟨sent, kept⟩ <;> omega
    have tail := ih (runAsyncHitsStep limit m e).2 restFit
    simp only [Run.run_cons, List.map_cons, List.sum_cons]
    omega

def accountHit (account : String) (hits : Int64) : RateLimitReq :=
  { name := "requests_per_sec", uniqueKey := account, hits := hits, limit := 10, duration := 1000,
    behavior := Behavior.GLOBAL, createdAt := some 0 }

/-- Hits on two accounts, the interval firing between them, and a negative hit
that hands one back. -/
def accountHits : List AsyncHitsEvent :=
  [.hit (accountHit "account:1" 3), .hit (accountHit "account:2" 1), .tick, .hit (accountHit "account:1" 2),
    .hit (accountHit "account:1" (-1))]

theorem runAsyncHits_conserves_accountHits :
    SumsFit 1000 "requests_per_sec_account:1" ∅ accountHits ∧
      ((Run.run (runAsyncHitsStep 1000) ∅ accountHits).1.map (sentHits "requests_per_sec_account:1")).sum +
          hitsOf "requests_per_sec_account:1" (Run.run (runAsyncHitsStep 1000) ∅ accountHits).2 =
        hitsOf "requests_per_sec_account:1" ∅ + (accountHits.map (queuedHits "requests_per_sec_account:1")).sum :=
  have fits : SumsFit 1000 "requests_per_sec_account:1" ∅ accountHits := by decide
  ⟨fits, runAsyncHits_conserves 1000 "requests_per_sec_account:1" accountHits ∅ fits⟩

/-! `sendHits` when every key has one owner: a single batch with the whole map. -/

theorem foldl_addToPeer_same (address : String) (entries : List (Σ _ : String, RateLimitReq))
    (requests : List RateLimitReq) :
    entries.foldl (fun peerRequests entry => addToPeer address entry.2 peerRequests)
        [(address, ⟨requests⟩)] =
      [(address, ⟨requests ++ entries.map (·.2)⟩)] := by
  induction entries generalizing requests with
  | nil => simp
  | cons entry rest ih =>
    simp only [List.foldl_cons, addToPeer, if_true, List.map_cons]
    rw [ih]
    simp

theorem sendHits_one_owner (getPeer : String → Except String PeerInfo) (owner : PeerInfo)
    (resolves : ∀ k, getPeer k = .ok owner) (m : HitsMap) (nonempty : m.entries ≠ []) :
    sendHits getPeer m = [(owner.grpcAddress, ⟨m.entries.map (·.2)⟩)] := by
  obtain ⟨entry, rest, split⟩ := List.exists_cons_of_ne_nil nonempty
  simp only [sendHits, resolves, split, List.foldl_cons, addToPeer]
  rw [foldl_addToPeer_same]
  simp

/-! In general every request of the map goes to the owner `GetPeer` names for it
and to no other: the batch for an address holds exactly the map's requests that
address owns, in the map's order, and no address gets two batches. A request
whose owner `GetPeer` cannot find is in no batch. -/

def ownerAddress (getPeer : String → Except String PeerInfo) (r : RateLimitReq) : Option String :=
  match getPeer r.hashKey with
  | .ok peer => some peer.grpcAddress
  | .error _ => none

/-- The batch for the peer at `address` that the requests `rs` make: those it owns,
in order, or none when it owns none. -/
def batchFor (getPeer : String → Except String PeerInfo) (rs : List RateLimitReq) (address : String) :
    Option GetPeerRateLimitsReq :=
  match rs.filter (fun r => ownerAddress getPeer r = some address) with
  | [] => none
  | owned => some ⟨owned⟩

theorem lookup_cons_of_ne {β : Type} {a b : String} (x : β) (rest : List (String × β))
    (other : a ≠ b) : ((b, x) :: rest).lookup a = rest.lookup a := by
  simp [List.lookup_cons, beq_false_of_ne other]

theorem lookup_addToPeer (address a : String) (r : RateLimitReq)
    (acc : List (String × GetPeerRateLimitsReq)) :
    (addToPeer address r acc).lookup a =
      if a = address then some ⟨((acc.lookup a).map (·.requests)).getD [] ++ [r]⟩
      else acc.lookup a := by
  induction acc with
  | nil => by_cases same : a = address <;> simp [addToPeer, same]
  | cons head rest ih =>
    obtain ⟨b, req⟩ := head
    by_cases here : b = address
    · -- The batch of this address takes the request.
      subst here
      by_cases same : a = b
      · subst same
        simp [addToPeer]
      · simp [addToPeer, lookup_cons_of_ne _ _ same, same]
    · by_cases same : a = b
      · subst same
        simp [addToPeer, here]
      · simp only [addToPeer, here, if_false, lookup_cons_of_ne _ _ same, ih]

theorem keys_addToPeer (address : String) (r : RateLimitReq)
    (acc : List (String × GetPeerRateLimitsReq)) :
    (addToPeer address r acc).map Prod.fst =
      if address ∈ acc.map Prod.fst then acc.map Prod.fst else acc.map Prod.fst ++ [address] := by
  induction acc with
  | nil => simp [addToPeer]
  | cons head rest ih =>
    obtain ⟨b, req⟩ := head
    by_cases here : b = address
    · simp [addToPeer, here]
    · by_cases listed : address ∈ rest.map Prod.fst
      · simp_all [addToPeer, Ne.symm here]
      · simp_all [addToPeer, Ne.symm here]

theorem batchFor_append (getPeer : String → Except String PeerInfo) (rs : List RateLimitReq)
    (r : RateLimitReq) (address : String) :
    batchFor getPeer (rs ++ [r]) address =
      if ownerAddress getPeer r = some address then
        some ⟨((batchFor getPeer rs address).map (·.requests)).getD [] ++ [r]⟩
      else batchFor getPeer rs address := by
  unfold batchFor
  rw [List.filter_append]
  by_cases owns : ownerAddress getPeer r = some address
  · generalize rs.filter (fun r => ownerAddress getPeer r = some address) = owned
    cases owned <;> simp [owns]
  · simp [owns]

/-- The batches built from the requests `done`: one for each owner, holding exactly
the requests of `done` it owns, in order. -/
structure GroupedBy (getPeer : String → Except String PeerInfo) (done : List RateLimitReq)
    (batches : List (String × GetPeerRateLimitsReq)) : Prop where
  distinct : (batches.map Prod.fst).Nodup
  exact : ∀ address, batches.lookup address = batchFor getPeer done address

theorem GroupedBy.addToPeer {getPeer : String → Except String PeerInfo} {done : List RateLimitReq}
    {batches : List (String × GetPeerRateLimitsReq)} (grouped : GroupedBy getPeer done batches)
    {r : RateLimitReq} {peer : PeerInfo} (owner : getPeer r.hashKey = .ok peer) :
    GroupedBy getPeer (done ++ [r]) (Gubernator.addToPeer peer.grpcAddress r batches) := by
  have owns : ownerAddress getPeer r = some peer.grpcAddress := by simp [ownerAddress, owner]
  constructor
  · rw [keys_addToPeer]
    split_ifs with listed
    · exact grouped.distinct
    · rw [← List.concat_eq_append]
      exact grouped.distinct.concat listed
  · intro address
    rw [lookup_addToPeer, batchFor_append, grouped.exact]
    by_cases same : address = peer.grpcAddress
    · simp [same, owns]
    · simp [same, owns, Ne.symm same]

theorem GroupedBy.unowned {getPeer : String → Except String PeerInfo} {done : List RateLimitReq}
    {batches : List (String × GetPeerRateLimitsReq)} (grouped : GroupedBy getPeer done batches)
    {r : RateLimitReq} {e : String} (missing : getPeer r.hashKey = .error e) :
    GroupedBy getPeer (done ++ [r]) batches := by
  have unowned : ownerAddress getPeer r = none := by simp [ownerAddress, missing]
  refine ⟨grouped.distinct, fun address => ?_⟩
  rw [batchFor_append, grouped.exact]
  simp [unowned]

theorem sendHits_groups_by_owner (getPeer : String → Except String PeerInfo) (hits : HitsMap) :
    ((sendHits getPeer hits).map Prod.fst).Nodup ∧
      ∀ address, (sendHits getPeer hits).lookup address =
        batchFor getPeer (hits.entries.map (·.2)) address := by
  suffices grouped : GroupedBy getPeer (hits.entries.map (·.2)) (sendHits getPeer hits) from
    ⟨grouped.distinct, grouped.exact⟩
  -- The fold over the map's entries keeps the batches grouped by owner over the entries done.
  refine Run.invariant_foldl _ (fun done batches => GroupedBy getPeer (done.map (·.2)) batches)
    ?_ hits.entries [] [] ⟨List.nodup_nil, fun address => by simp [batchFor]⟩
  intro done batches entry grouped
  cases owner : getPeer entry.2.hashKey with
  | error e => simpa [owner] using grouped.unowned owner
  | ok peer => simpa [owner] using grouped.addToPeer owner

def V1Instance.bucketOf {σ : Type} (s : V1Instance σ) (k : String) : Option CacheValue :=
  (s.workerPool.caches[s.workerPool.getWorker k]?).bind fun c => storedValue c k

def globalHit (hits : Int64) : RateLimitReq :=
  { name := "requests_per_sec", uniqueKey := "account:1", hits := hits, limit := 5, duration := 1000,
    behavior := Behavior.GLOBAL, createdAt := some 0 }

def globalOwner : PeerInfo := { grpcAddress := "owner:81" }

/-- Two GLOBAL hits of three against a limit of five, queued at a non-owner and
sent on the next tick. The non-owner sends their sum, six, in one request, and
the owner, holding no bucket yet, creates one at Limit; one request after the
other would have drained it to zero. -/
theorem globalHits_summed_on_new_bucket :
    ((Run.run (runAsyncHitsStep 1000) ∅ [.hit (globalHit 3), .hit (globalHit 3), .tick]).1.filterMap
        id).map (sendHits fun _ => .ok globalOwner) =
      [[(globalOwner.grpcAddress, ⟨[globalHit 6]⟩)]] ∧
    ((loneInstance.getPeerRateLimits () ⟨0⟩ [globalHit 6]).map fun o =>
        o.2.1.bucketOf (globalHit 3).hashKey) =
      some (some (.tokenBucket { limit := 5, duration := 1000, remaining := 5, createdAt := 0 })) ∧
    (((loneInstance.getPeerRateLimits () ⟨0⟩ [globalHit 3]).bind fun o =>
        o.2.1.getPeerRateLimits () ⟨0⟩ [globalHit 3]).map fun o =>
          o.2.1.bucketOf (globalHit 3).hashKey) =
      some (some (.tokenBucket { limit := 5, duration := 1000, remaining := 0, createdAt := 0 })) := by
  decide

/-! A batch is sent when the map reaches `GlobalBatchLimit` keys, and nothing
bounds that limit. -/

-- A request of a key the map does not hold adds an entry.
theorem aggregateHit_of_new {m : HitsMap} {r : RateLimitReq} (fresh : m.lookup r.hashKey = none) :
    aggregateHit m r = m.insert r.hashKey r := by
  simp [aggregateHit, fresh]

theorem length_aggregateHit_of_new {m : HitsMap} {r : RateLimitReq}
    (fresh : m.lookup r.hashKey = none) :
    (aggregateHit m r).entries.length = m.entries.length + 1 := by
  rw [aggregateHit_of_new fresh, AList.entries_insert_of_notMem (AList.lookup_eq_none.mp fresh)]
  rfl

theorem runAsyncHits_fills (limit : Int) (rs : List RateLimitReq) :
    ∀ m : HitsMap, (rs.map RateLimitReq.hashKey).Nodup → (∀ r ∈ rs, m.lookup r.hashKey = none) →
      (m.entries.length + rs.length : Int) < limit →
      (Run.run (runAsyncHitsStep limit) m (rs.map .hit)).1 = rs.map (fun _ => none) ∧
        (Run.run (runAsyncHitsStep limit) m (rs.map .hit)).2.entries.length =
          m.entries.length + rs.length ∧
        ∀ k ∉ rs.map RateLimitReq.hashKey,
          (Run.run (runAsyncHitsStep limit) m (rs.map .hit)).2.lookup k = m.lookup k := by
  induction rs with
  | nil => intro m _ _ _; simp
  | cons r rest ih =>
    intro m distinct fresh below
    obtain ⟨outside, restDistinct⟩ := List.nodup_cons.mp distinct
    have grown := length_aggregateHit_of_new (fresh r List.mem_cons_self)
    have restFresh : ∀ r' ∈ rest, (aggregateHit m r).lookup r'.hashKey = none := by
      intro r' member
      have other : r'.hashKey ≠ r.hashKey := fun same =>
        outside (same ▸ List.mem_map_of_mem member)
      rw [lookup_aggregateHit_ne m r other]
      exact fresh r' (List.mem_cons_of_mem r member)
    have step : runAsyncHitsStep limit m (.hit r) = (none, aggregateHit m r) := by
      simp only [runAsyncHitsStep, grown, List.length_cons] at below ⊢
      rw [if_neg (by push_cast at below ⊢; omega)]
    obtain ⟨quiet, length, others⟩ := ih (aggregateHit m r) restDistinct restFresh (by
      rw [grown]
      simp only [List.length_cons] at below
      push_cast at below ⊢
      omega)
    simp only [List.map_cons, Run.run_cons, step]
    refine ⟨by rw [quiet], by rw [length, grown, List.length_cons]; omega, ?_⟩
    intro k absent
    have notHead : k ≠ r.hashKey := fun same => absent (same ▸ List.mem_cons_self)
    have notRest : k ∉ rest.map RateLimitReq.hashKey := fun member => absent (List.mem_cons_of_mem _ member)
    rw [others k notRest, lookup_aggregateHit_ne m r notHead]

theorem runAsyncHits_sends_full (rs : List RateLimitReq) (last : RateLimitReq)
    (distinct : ((rs ++ [last]).map RateLimitReq.hashKey).Nodup) :
    ∃ batch : HitsMap,
      (Run.run (runAsyncHitsStep (rs.length + 1)) ∅ ((rs ++ [last]).map .hit)).1 =
        rs.map (fun _ => none) ++ [some batch] ∧
      batch.entries.length = rs.length + 1 := by
  rw [List.map_append] at distinct
  obtain ⟨restDistinct, -, apart⟩ := List.nodup_append.mp distinct
  obtain ⟨quiet, length, others⟩ :=
    runAsyncHits_fills (rs.length + 1) rs ∅ restDistinct (fun _ _ => rfl) (by simp)
  set m := (Run.run (runAsyncHitsStep (rs.length + 1)) ∅ (rs.map .hit)).2 with held
  have lastOutside : last.hashKey ∉ rs.map RateLimitReq.hashKey := fun member =>
    apart _ member _ List.mem_cons_self rfl
  have fresh : m.lookup last.hashKey = none := others _ lastOutside
  have grown := length_aggregateHit_of_new fresh
  have full : runAsyncHitsStep (rs.length + 1) m (.hit last) = (some (aggregateHit m last), ∅) := by
    simp only [runAsyncHitsStep, grown, length]
    simp
  refine ⟨aggregateHit m last, ?_, by rw [grown, length]; simp⟩
  rw [List.map_append, Run.run_append, quiet, ← held]
  simp [full]

def spreadHit (i : Nat) : RateLimitReq :=
  { name := "requests_per_sec", uniqueKey := "account:" ++ String.ofList (List.replicate i 'x'),
    hits := 1, limit := 10, duration := 1000, behavior := Behavior.GLOBAL, createdAt := some 0 }

theorem spreadHit_hashKey_length (i : Nat) : (spreadHit i).hashKey.length = 25 + i := by
  have name : "requests_per_sec".length = 16 := by decide
  have separator : "_".length = 1 := by decide
  have account : "account:".length = 8 := by decide
  simp only [spreadHit, RateLimitReq.hashKey, String.length_append, String.length_ofList,
    List.length_replicate, name, separator, account]
  omega

theorem spreadHits_distinct (n : Nat) :
    (((List.range n).map spreadHit).map RateLimitReq.hashKey).Nodup := by
  rw [List.map_map]
  refine List.nodup_range.map_on fun i _ j _ same => ?_
  have lengths := congrArg String.length same
  simp only [Function.comp, spreadHit_hashKey_length] at lengths
  omega

/-- `SetDefaults` checks BatchLimit but accepts a GlobalBatchLimit of 1001; then
1001 GLOBAL hits on distinct keys of one owner leave the non-owner as one batch
of 1001 requests, and the owner refuses the whole batch. -/
theorem globalBatchLimit_batch_refused :
    BehaviorConfig.setDefaults { globalBatchLimit := 1001 } =
        .ok { batchLimit := 1000, globalBatchLimit := 1001 } ∧
      ∃ batch : HitsMap,
        some batch ∈ (Run.run (runAsyncHitsStep 1001) ∅
          ((List.range 1001).map fun i => .hit (spreadHit i))).1 ∧
        sendHits (fun _ => .ok globalOwner) batch =
          [(globalOwner.grpcAddress, ⟨batch.entries.map (·.2)⟩)] ∧
        (batch.entries.map (·.2)).length = 1001 ∧
        (loneInstance.getPeerRateLimits () ⟨0⟩ (batch.entries.map (·.2))).map (·.1) =
          some (.error "'PeerRequest.rate_limits' list too large; max size is '1000'") := by
  refine ⟨by decide, ?_⟩
  have range : List.range 1001 = List.range 1000 ++ [1000] := List.range_succ
  have spread : (List.range 1001).map spreadHit =
      (List.range 1000).map spreadHit ++ [spreadHit 1000] := by
    rw [range, List.map_append]
    rfl
  have events : ((List.range 1001).map fun i => AsyncHitsEvent.hit (spreadHit i)) =
      ((List.range 1000).map spreadHit ++ [spreadHit 1000]).map .hit := by
    rw [← spread, List.map_map]
    rfl
  have distinct := spreadHits_distinct 1001
  rw [spread] at distinct
  obtain ⟨batch, sent, full⟩ := runAsyncHits_sends_full _ _ distinct
  have limit : (((List.range 1000).map spreadHit).length : Int) + 1 = 1001 := by simp
  rw [limit] at sent
  simp only [List.length_map, List.length_range] at full
  have nonempty : batch.entries ≠ [] := fun empty => by simp [empty] at full
  refine ⟨batch, ?_, sendHits_one_owner _ globalOwner (fun _ => rfl) batch nonempty, by simp [full], ?_⟩
  · rw [events, sent]
    simp
  · have large : 1000 < batch.entries.length := by omega
    simp only [V1Instance.getPeerRateLimits, List.length_map, maxBatchSize, gt_iff_lt, if_pos large]
    rfl

end Gubernator
