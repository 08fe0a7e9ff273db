import Gubernator.TokenBucket
import Gubernator.LeakyBucket
import Gubernator.Library.Run

/-!
Runs of one algorithm on one instance without a Store. `getRateLimit` hands each
request to its algorithm together with the worker's cache; with no Store the
Store state is never read, and is `Unit` here. A request lets its Hits through
when they are positive and its answer is UNDER_LIMIT, and `admittedTotal` adds
them up over a run.
-/

namespace Gubernator

open CivilTime RecencyList

variable {σ : Type}

def admitted (r : RateLimitReq) : Except String RateLimitResp → Int
  | .ok rl => if rl.status = .UNDER_LIMIT ∧ r.hits > 0 then r.hits.toInt else 0
  | .error _ => 0

def admittedTotal (is : List (Time × RateLimitReq)) (os : List (Except String RateLimitResp)) :
    Int :=
  Run.ledger (fun total i o => total + admitted i.2 o) 0 is os

def admittedBetween (a b : Int) (is : List (Time × RateLimitReq))
    (os : List (Except String RateLimitResp)) : Int :=
  Run.ledger (fun total i o =>
    if a ≤ i.2.createdAtValue.toInt ∧ i.2.createdAtValue.toInt ≤ b then total + admitted i.2 o
    else total) 0 is os

def tokenBucketStep (reqState : RateLimitReqState) (c : LRUCache) (i : Time × RateLimitReq) :
    Except String RateLimitResp × LRUCache :=
  let o := tokenBucket (none : Option (Store Unit)) () c i.1 i.2 reqState
  (o.resp, o.cache)

def leakyBucketStep (reqState : RateLimitReqState) (c : LRUCache) (i : Time × RateLimitReq) :
    Except String RateLimitResp × LRUCache :=
  let o := leakyBucket (none : Option (Store Unit)) () c i.1 i.2 reqState
  (o.resp, o.cache)

def storedValue (c : LRUCache) (k : String) : Option CacheValue :=
  (find CacheItem.key c.entries k).map (·.value)

theorem admitted_le_taken {r : RateLimitReq} {rl : RateLimitResp} {before after : Int}
    (falls : after ≤ before)
    (taken : rl.status = .UNDER_LIMIT → 0 < r.hits.toInt → after = before - r.hits.toInt) :
    admitted r (.ok rl) ≤ before - after := by
  simp only [admitted]
  split_ifs with through
  · obtain ⟨under, positive⟩ := through
    rw [gt_iff_lt, Int64.lt_iff_toInt_lt] at positive
    have fall := taken under positive
    simp only [Int64.toInt_zero] at positive
    omega
  · omega

/-! Without a Store, the lookup is `GetItem` followed by the sanity checks. -/

theorem lookupBucket_absent {c : LRUCache} (sync : c.Sync) (st : σ) (now : Time)
    {r : RateLimitReq} (absent : find CacheItem.key c.entries r.hashKey = none) :
    lookupBucket none st c now r = (none, c, st) := by
  simp [lookupBucket, sync.getItem_of_find_none absent, sanityCheck]

theorem lookupBucket_live {c : LRUCache} (sync : c.Sync) (st : σ) {now : Time}
    {r : RateLimitReq} {item : CacheItem} (found : find CacheItem.key c.entries r.hashKey = some item)
    (live : item.isExpired (millisecondNow now) = false) (present : item.value ≠ .nil) :
    lookupBucket none st c now r =
      (some item, (c.getItem r.hashKey (millisecondNow now)).2, st) := by
  have answer := (sync.getItem_live found live).1
  have keyed : item.key = r.hashKey := key_of_find found
  simp [lookupBucket, answer, sanityCheck, present, keyed]

end Gubernator
