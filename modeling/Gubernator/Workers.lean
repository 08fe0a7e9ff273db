import Gubernator.TokenBucket
import Gubernator.LeakyBucket

/-!
workers.go. The pool shards the key space over its workers: the 63-bit hash of
a HashKey, divided by the ring step, is the index of the worker that owns the
key, and each worker serves its requests one at a time against its own cache.
`workerHasher` is an interface whose default wraps xxhash, a library outside the
repository, so the hash is a parameter. The channels only serialise each
worker, so a call is a function of the worker's cache; an index past the last
worker is Go's out-of-range panic, `none` here. Metrics and tracing are left out.
-/

namespace Gubernator

open CivilTime

def wrapError (msg err : String) : String := msg ++ ": " ++ err

/-- The pool as `NewWorkerPool` builds it: `ComputeHash63`, the ring step, each
worker's cache in order, and the configured Store. -/
structure WorkerPool (σ : Type) where
  hasher : String → UInt64
  hashRingStep : UInt64
  caches : List LRUCache
  store : Option (Store σ)

variable {σ : Type}

/-- `NewWorkerPool`: a zero CacheSize means 50,000, shared out evenly. -/
def newWorkerPool (hasher : String → UInt64) (workers : Nat) (cacheSize : Int)
    (store : Option (Store σ)) : WorkerPool σ :=
  let cacheSize := if cacheSize = 0 then 50000 else cacheSize
  { hasher := hasher,
    hashRingStep := ((1 : UInt64) <<< 63) / UInt64.ofNat workers,
    caches := List.replicate workers (newLRUCache (cacheSize.tdiv workers)),
    store := store }

namespace WorkerPool

/-- `getWorker`: the index of the worker whose hash range holds the key. -/
def getWorker (p : WorkerPool σ) (key : String) : Nat := (p.hasher key / p.hashRingStep).toNat

end WorkerPool

def handleGetRateLimit (s : Option (Store σ)) (st : σ) (c : LRUCache) (now : Time)
    (req : RateLimitReq) (reqState : RateLimitReqState) : Outcome σ :=
  match req.algorithm with
  | .TOKEN_BUCKET =>
    let o := tokenBucket s st c now req reqState
    { o with resp := o.resp.mapError (wrapError "Error in tokenBucket") }
  | .LEAKY_BUCKET =>
    let o := leakyBucket s st c now req reqState
    { o with resp := o.resp.mapError (wrapError "Error in leakyBucket") }
  | .unrecognized value _ =>
    ⟨.error ("Invalid rate limit algorithm '" ++ toString value ++ "'"), c, st⟩

namespace WorkerPool

def getRateLimit (p : WorkerPool σ) (st : σ) (now : Time) (req : RateLimitReq)
    (reqState : RateLimitReqState) : Option (Except String RateLimitResp × WorkerPool σ × σ) :=
  let idx := p.getWorker req.hashKey
  match p.caches[idx]? with
  | none => none
  | some c =>
    let o := handleGetRateLimit p.store st c now req reqState
    some (o.resp, { p with caches := p.caches.set idx o.cache }, o.store)

def addCacheItem (p : WorkerPool σ) (key : String) (item : CacheItem) : Option (WorkerPool σ) :=
  let idx := p.getWorker key
  match p.caches[idx]? with
  | none => none
  | some c => some { p with caches := p.caches.set idx (c.add item).1 }

/-- `GetCacheItem`: what the cache of the worker that owns the key returns for it
from `GetItem` at the clock `now`; `found` is whether that is an item. -/
def getCacheItem (p : WorkerPool σ) (key : String) (now : Int64) :
    Option (Option CacheItem × WorkerPool σ) :=
  let idx := p.getWorker key
  match p.caches[idx]? with
  | none => none
  | some c =>
    let (item, c) := c.getItem key now
    some (item, { p with caches := p.caches.set idx c })

end WorkerPool

end Gubernator
