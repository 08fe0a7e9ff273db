import Gubernator.Global
import Gubernator.PoolRun

/-!
The owner's broadcast of GLOBAL statuses (`broadcastPeers` of global.go) and
its install at the other peers (`UpdatePeerGlobals` of gubernator.go). The
owner reads the status of each updated key with a zero-hit request; a peer
rebuilds a bucket from that status field by field, with Burst taken from Limit,
as the status carries none, and the status's ResetTime as `ExpireAt`. A peer
then answers a GLOBAL request from its own cache through `getGlobalRateLimit`.
The fan-out of the sends and the queue that feeds `broadcastPeers` only decide
when this happens, and are left out.
-/

namespace Gubernator

open CivilTime Truncation RecencyList

variable {σ : Type}

namespace V1Instance

/-- `broadcastPeers` on one queued update: the owner's status of its key, read
with zero hits; a failed read is logged and skipped. -/
def broadcastStatus (s : V1Instance σ) (st : σ) (now : Time) (update : RateLimitReq) :
    Option (Option UpdatePeerGlobal × V1Instance σ × σ) :=
  (s.workerPool.getRateLimit st now { update with hits := 0 } ⟨false⟩).map fun (status, p, st) =>
    let s := { s with workerPool := p }
    match status with
    | .error _ => (none, s, st)
    | .ok status =>
      (some { key := update.hashKey, algorithm := update.algorithm, duration := update.duration,
              status := status, createdAt := update.createdAtValue }, s, st)

def globalItem (now : Int64) (g : UpdatePeerGlobal) : CacheItem :=
  { expireAt := g.status.resetTime, algorithm := g.algorithm, key := g.key,
    value := match g.algorithm with
      | .LEAKY_BUCKET =>
        .leakyBucket { remaining := ofInt64 g.status.remaining, limit := g.status.limit,
                       duration := g.duration, burst := g.status.limit, updatedAt := now }
      | .TOKEN_BUCKET =>
        .tokenBucket { status := g.status.status, limit := g.status.limit, duration := g.duration,
                       remaining := g.status.remaining, createdAt := now }
      | .unrecognized _ _ => .nil }

def updatePeerGlobals (s : V1Instance σ) (now : Time) : List UpdatePeerGlobal → Option (V1Instance σ)
  | [] => some s
  | g :: gs =>
    (s.workerPool.addCacheItem g.key (globalItem (millisecondNow now) g)).bind fun p =>
      updatePeerGlobals { s with workerPool := p } now gs

/-- `getGlobalRateLimit`: a non-owner answers from its own cache as if it owned
the key, with batching off and GLOBAL cleared. The hit it then queues for the
owner is `queueHit`. -/
def getGlobalRateLimit (s : V1Instance σ) (st : σ) (now : Time) (req : RateLimitReq) :
    Option (Except String RateLimitResp × V1Instance σ × σ) :=
  let behavior := setBehavior (setBehavior req.behavior Behavior.NO_BATCHING true) Behavior.GLOBAL false
  let req2 := { req with behavior := behavior }
  (s.getLocalRateLimit st now req2 ⟨false⟩).map fun (resp, s, st) =>
    (resp.mapError (wrapError "during in getLocalRateLimit"), s, st)

end V1Instance

/-! A token bucket passes through the broadcast unchanged: a peer that installs
the owner's status answers a status query with that status until its ResetTime,
whatever else the same broadcast installs before it. -/

-- RESET_REMAINING survives the flags `getGlobalRateLimit` sets and clears.
theorem hasBehavior_reset_globalRequest (b : Behavior) :
    hasBehavior (setBehavior (setBehavior b Behavior.NO_BATCHING true) Behavior.GLOBAL false)
      Behavior.RESET_REMAINING = hasBehavior b Behavior.RESET_REMAINING := by
  rw [Behavior.RESET_REMAINING_eq, Behavior.GLOBAL_eq, Behavior.NO_BATCHING_eq,
    hasBehavior_setBehavior _ (by decide) (by decide), if_neg (by decide),
    hasBehavior_setBehavior _ (by decide) (by decide), if_neg (by decide)]

theorem tokenBucket_status_query (s : Option (Store σ)) (st : σ) {c : LRUCache} (sync : c.Sync)
    (now : Time) {r : RateLimitReq} (reqState : RateLimitReqState) {item : CacheItem} {t : TokenBucketItem}
    (found : find CacheItem.key c.entries r.hashKey = some item)
    (live : item.isExpired (millisecondNow now) = false) (value : item.value = .tokenBucket t)
    (noReset : hasBehavior r.behavior Behavior.RESET_REMAINING = false)
    (limit : t.limit = r.limit) (duration : t.duration = r.duration) (query : r.hits = 0) :
    (tokenBucket s st c now r reqState).resp =
      .ok { status := t.status, limit := r.limit, remaining := t.remaining, resetTime := item.expireAt } := by
  have cached := (sync.getItem_live found live).1
  have keyed : item.key = r.hashKey := key_of_find found
  have looked : lookupBucket s st c now r = (some item, (c.getItem r.hashKey (millisecondNow now)).2, st) := by
    rw [lookupBucket_of_cached s st cached]
    simp [sanityCheck, value, keyed]
  simp [tokenBucket, looked, noReset, value, tokenBucketUpdate_of_steady limit duration, tokenBucketHits, query]

namespace V1Instance

theorem getGlobalRateLimit_of_held (s : V1Instance σ) (st : σ) (now : Time) {r : RateLimitReq} {c : LRUCache}
    (got : s.workerPool.caches[s.workerPool.getWorker r.hashKey]? = some c) (sync : c.Sync) {item : CacheItem}
    {t : TokenBucketItem} (found : find CacheItem.key c.entries r.hashKey = some item)
    (live : item.isExpired (millisecondNow now) = false) (value : item.value = .tokenBucket t)
    (algorithm : r.algorithm = .TOKEN_BUCKET) (noReset : hasBehavior r.behavior Behavior.RESET_REMAINING = false)
    (limit : t.limit = r.limit) (duration : t.duration = r.duration) (query : r.hits = 0) :
    (s.getGlobalRateLimit st now r).map (·.1) =
      some (.ok { status := t.status, limit := r.limit, remaining := t.remaining, resetTime := item.expireAt }) := by
  -- The request the peer answers differs from `r` in two flags only.
  generalize flags : setBehavior (setBehavior r.behavior Behavior.NO_BATCHING true) Behavior.GLOBAL false = b
  have kept : hasBehavior b Behavior.RESET_REMAINING = false := by
    rw [← flags, hasBehavior_reset_globalRequest, noReset]
  have answered := tokenBucket_status_query s.workerPool.store st sync now ⟨false⟩
    (r := { r with behavior := b }) found live value kept limit duration query
  have got' : s.workerPool.caches[s.workerPool.getWorker ({ r with behavior := b } : RateLimitReq).hashKey]? =
      some c := got
  simp only [getGlobalRateLimit, getLocalRateLimit, flags]
  rw [WorkerPool.getRateLimit_of_getElem got']
  simp only [handleGetRateLimit, answered]
  simp only [algorithm]
  rfl

theorem updatePeerGlobals_sound (s : V1Instance σ) (sound : s.workerPool.Sound) (now : Time)
    (gs : List UpdatePeerGlobal) (routed : ∀ g ∈ gs, s.workerPool.getWorker g.key < s.workerPool.caches.length) :
    ∃ s', s.updatePeerGlobals now gs = some s' ∧ s'.workerPool.Sound ∧
      (∀ k, s'.workerPool.getWorker k = s.workerPool.getWorker k) ∧
      s'.workerPool.caches.length = s.workerPool.caches.length := by
  induction gs generalizing s with
  | nil => exact ⟨s, rfl, sound, fun _ => rfl, rfl⟩
  | cons g gs ih =>
    have inRange := routed g List.mem_cons_self
    have added : s.workerPool.addCacheItem g.key (globalItem (millisecondNow now) g) =
        some { s.workerPool with caches := (s.workerPool.caches.set (s.workerPool.getWorker g.key)
          (s.workerPool.caches[s.workerPool.getWorker g.key].add (globalItem (millisecondNow now) g)).1) } := by
      simp [WorkerPool.addCacheItem, List.getElem?_eq_getElem inRange]
    obtain ⟨s', ran, sound', same, length⟩ := ih { s with workerPool := _ } (sound.addCacheItem added)
      (fun g' member => by simpa using routed g' (List.mem_cons_of_mem g member))
    refine ⟨s', by simp [updatePeerGlobals, added, ran], sound', same, ?_⟩
    rw [length, List.length_set]

theorem updatePeerGlobals_append (s : V1Instance σ) (now : Time) (gs : List UpdatePeerGlobal)
    (g : UpdatePeerGlobal) :
    s.updatePeerGlobals now (gs ++ [g]) = (s.updatePeerGlobals now gs).bind fun s => s.updatePeerGlobals now [g] := by
  induction gs generalizing s with
  | nil => simp [updatePeerGlobals]
  | cons g' gs ih => simp [updatePeerGlobals, ih, Option.bind_assoc]

/-- A peer that installs a broadcast ending with a token bucket's status answers
a GLOBAL status query of that key, with the bucket's Limit and Duration, with
exactly the status the owner sent, for as long as its ResetTime has not passed. -/
theorem updatePeerGlobals_answers_status (s : V1Instance σ) (sound : s.workerPool.Sound) (st : σ)
    (installedAt askedAt : Time) (gs : List UpdatePeerGlobal) (g : UpdatePeerGlobal)
    (routed : ∀ g' ∈ gs ++ [g], s.workerPool.getWorker g'.key < s.workerPool.caches.length)
    (token : g.algorithm = .TOKEN_BUCKET) (live : millisecondNow askedAt ≤ g.status.resetTime)
    {r : RateLimitReq} (own : r.hashKey = g.key) (algorithm : r.algorithm = .TOKEN_BUCKET)
    (query : r.hits = 0) (limit : r.limit = g.status.limit) (duration : r.duration = g.duration)
    (noReset : hasBehavior r.behavior Behavior.RESET_REMAINING = false) :
    ∃ s', s.updatePeerGlobals installedAt (gs ++ [g]) = some s' ∧
      (s'.getGlobalRateLimit st askedAt r).map (·.1) =
        some (.ok { status := g.status.status, limit := g.status.limit, remaining := g.status.remaining,
                    resetTime := g.status.resetTime }) := by
  obtain ⟨s₁, first, sound₁, same, length⟩ := updatePeerGlobals_sound s sound installedAt gs
    (fun g' member => routed g' (List.mem_append_left _ member))
  have inRange : s₁.workerPool.getWorker g.key < s₁.workerPool.caches.length := by
    rw [same, length]
    exact routed g (List.mem_append_right _ List.mem_cons_self)
  obtain ⟨sync, sized⟩ := sound₁.cache (List.getElem?_eq_getElem inRange)
  -- The last install puts the rebuilt bucket in front of the cache of its key's worker.
  generalize held : s₁.workerPool.caches[s₁.workerPool.getWorker g.key] = c at sync sized
  set item := globalItem (millisecondNow installedAt) g with itemDef
  set pool : WorkerPool σ := { s₁.workerPool with caches := (s₁.workerPool.caches.set
    (s₁.workerPool.getWorker g.key) (c.add item).1) } with poolDef
  have added : s₁.workerPool.addCacheItem g.key item = some pool := by
    simp [WorkerPool.addCacheItem, List.getElem?_eq_getElem inRange, held, pool]
  have got : pool.caches[pool.getWorker r.hashKey]? = some (c.add item).1 := by
    simp [pool, own, List.getElem?_set_self inRange]
  have found : find CacheItem.key (c.add item).1.entries r.hashKey = some item := by
    rw [(sync.add_spec item).2.1, own]
    exact find_put_self _ _ sized
  have value : item.value =
      .tokenBucket { status := g.status.status, limit := g.status.limit, duration := g.duration,
                     remaining := g.status.remaining, createdAt := millisecondNow installedAt } := by
    simp [item, globalItem, token]
  refine ⟨{ s₁ with workerPool := pool }, ?_, ?_⟩
  · rw [updatePeerGlobals_append, first, Option.bind_some, updatePeerGlobals, added]
    rfl
  · have answered := getGlobalRateLimit_of_held { s₁ with workerPool := pool } st askedAt got (sync.add_steady item).1
      found (CacheItem.isExpired_eq_false rfl live) value algorithm noReset limit.symm duration.symm query
    rw [answered, limit]
    rfl

end V1Instance

def accountStatus (account : String) (remaining : Int64) : UpdatePeerGlobal :=
  { key := "requests_per_sec_" ++ account, algorithm := .TOKEN_BUCKET, duration := 1000, createdAt := 0,
    status := { limit := 5, remaining := remaining, resetTime := 1000 } }

def accountQuery : RateLimitReq :=
  { name := "requests_per_sec", uniqueKey := "account:1", limit := 5, duration := 1000,
    behavior := Behavior.GLOBAL, createdAt := some 0 }

theorem updatePeerGlobals_answers_status_accountOne :
    loneInstance.workerPool.Sound ∧
      (∀ g' ∈ [accountStatus "account:2" 4] ++ [accountStatus "account:1" 3],
        loneInstance.workerPool.getWorker g'.key < loneInstance.workerPool.caches.length) ∧
      (accountStatus "account:1" 3).algorithm = .TOKEN_BUCKET ∧
      millisecondNow ⟨500000000⟩ ≤ (accountStatus "account:1" 3).status.resetTime ∧
      accountQuery.hashKey = (accountStatus "account:1" 3).key ∧ accountQuery.algorithm = .TOKEN_BUCKET ∧
      accountQuery.hits = 0 ∧ accountQuery.limit = (accountStatus "account:1" 3).status.limit ∧
      accountQuery.duration = (accountStatus "account:1" 3).duration ∧
      hasBehavior accountQuery.behavior Behavior.RESET_REMAINING = false ∧
      ∃ s', loneInstance.updatePeerGlobals ⟨0⟩ ([accountStatus "account:2" 4] ++ [accountStatus "account:1" 3]) =
          some s' ∧
        (s'.getGlobalRateLimit () ⟨500000000⟩ accountQuery).map (·.1) =
          some (.ok { status := .UNDER_LIMIT, limit := 5, remaining := 3, resetTime := 1000 }) :=
  have sound : loneInstance.workerPool.Sound := WorkerPool.newWorkerPool_sound (fun _ => 0) 1 le_rfl none
  have routed : ∀ g' ∈ [accountStatus "account:2" 4] ++ [accountStatus "account:1" 3],
      loneInstance.workerPool.getWorker g'.key < loneInstance.workerPool.caches.length := by decide
  have live : millisecondNow ⟨500000000⟩ ≤ (accountStatus "account:1" 3).status.resetTime := by decide
  have own : accountQuery.hashKey = (accountStatus "account:1" 3).key := by decide
  have noReset : hasBehavior accountQuery.behavior Behavior.RESET_REMAINING = false := by decide
  ⟨sound, routed, rfl, live, own, rfl, rfl, rfl, rfl, noReset,
    V1Instance.updatePeerGlobals_answers_status loneInstance sound () ⟨0⟩ ⟨500000000⟩ _ _ routed rfl live own rfl
      rfl rfl rfl noReset⟩

def burstConfig (hits : Int64) : RateLimitReq :=
  { name := "requests_per_sec", uniqueKey := "account:1", algorithm := .LEAKY_BUCKET, hits := hits,
    limit := 10, burst := 20, duration := 1000, behavior := Behavior.GLOBAL, createdAt := some 0 }

/-- The status the owner broadcasts once the bucket holds 15: more than Limit, so
its ResetTime already lies in the past. -/
def burstStatus : UpdatePeerGlobal :=
  { key := (burstConfig 0).hashKey, algorithm := .LEAKY_BUCKET, duration := 1000, createdAt := 0,
    status := { limit := 10, remaining := 15, resetTime := -500 } }

/-- After a hit of 5 the owner holds 15 of its burst of 20 and broadcasts that
status. A peer installs it with Burst 10 and an `ExpireAt` already past, so at
the same instant the peer answers a hit of one with 19 left, where the owner
answers 14. -/
theorem globalBroadcast_drops_burst :
    ((loneInstance.getRateLimits () ⟨0⟩ [burstConfig 5]).bind fun o =>
        o.2.1.broadcastStatus () ⟨0⟩ (burstConfig 5)).map (·.1) = some (some burstStatus) ∧
      ((loneInstance.updatePeerGlobals ⟨0⟩ [burstStatus]).bind fun s =>
        s.getGlobalRateLimit () ⟨0⟩ (burstConfig 1)).map (·.1) =
        some (.ok { limit := 10, remaining := 19, resetTime := -900 }) ∧
      (((loneInstance.getRateLimits () ⟨0⟩ [burstConfig 5]).bind fun o =>
          o.2.1.broadcastStatus () ⟨0⟩ (burstConfig 5)).bind fun o =>
        o.2.1.getRateLimits () ⟨0⟩ [burstConfig 1]).map (·.1) =
        some (.ok [{ limit := 10, remaining := 14, resetTime := -400 }]) := by
  decide +kernel

end Gubernator
