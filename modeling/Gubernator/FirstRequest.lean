import Gubernator.Admission

/-!
The first request of a key against the request that finds the key's bucket
full. `tokenBucketNewItem` and `leakyBucketNewItem` decide the over-limit case
with their own code, apart from the hit branches of the existing-item path. The
full bucket the existing path starts from is the one a request with a zero hit
count would have created: Remaining at Limit (Burst for the leaky bucket),
created now and expiring after Duration.
-/

namespace Gubernator

open CivilTime RecencyList Truncation

/-- The token bucket `r` finds when its key holds a full bucket of `r`'s config. -/
def freshTokenItem (r : RateLimitReq) : CacheItem :=
  { algorithm := .TOKEN_BUCKET, key := r.hashKey, expireAt := r.createdAtValue + r.duration,
    value := .tokenBucket
      { limit := r.limit, duration := r.duration, remaining := r.limit, createdAt := r.createdAtValue } }

/-- The Burst `leakyBucket` uses: a zero Burst means Limit. -/
def leakyBurst (r : RateLimitReq) : Int64 := if r.burst = 0 then r.limit else r.burst

def freshLeakyItem (r : RateLimitReq) : CacheItem :=
  { algorithm := .LEAKY_BUCKET, key := r.hashKey, expireAt := r.createdAtValue + r.duration,
    value := .leakyBucket
      { limit := r.limit, duration := r.duration, remaining := ofInt64 (leakyBurst r),
        updatedAt := r.createdAtValue, burst := leakyBurst r } }

def drainingRequest : RateLimitReq :=
  { name := "requests_per_sec", uniqueKey := "account:1", hits := 10, limit := 5, duration := 1000,
    behavior := Behavior.DRAIN_OVER_LIMIT, createdAt := some 0 }

def overBurstRequest : RateLimitReq :=
  { name := "requests_per_sec", uniqueKey := "account:1", algorithm := .LEAKY_BUCKET, hits := 10,
    limit := 5, duration := 1000, createdAt := some 0 }

/-- The two paths part on an over-limit first request. The token bucket's first
request keeps Remaining at Limit although DRAIN_OVER_LIMIT asks to drain it,
where the full bucket drains to zero; the leaky bucket's first request zeroes
Remaining without DRAIN_OVER_LIMIT, where the full bucket keeps its Burst and
answers another ResetTime. -/
theorem firstRequest_overLimit_diverges :
    (tokenBucket none () (newLRUCache 0) ⟨0⟩ drainingRequest ⟨true⟩).resp =
        .ok { status := .OVER_LIMIT, limit := 5, remaining := 5, resetTime := 1000 } ∧
      storedValue (tokenBucket none () (newLRUCache 0) ⟨0⟩ drainingRequest ⟨true⟩).cache
          drainingRequest.hashKey =
        some (.tokenBucket { limit := 5, duration := 1000, remaining := 5, createdAt := 0 }) ∧
      (tokenBucket none () ((newLRUCache 0).add (freshTokenItem drainingRequest)).1 ⟨0⟩
          drainingRequest ⟨true⟩).resp =
        .ok { status := .OVER_LIMIT, limit := 5, remaining := 0, resetTime := 1000 } ∧
      storedValue (tokenBucket none () ((newLRUCache 0).add (freshTokenItem drainingRequest)).1 ⟨0⟩
          drainingRequest ⟨true⟩).cache drainingRequest.hashKey =
        some (.tokenBucket { limit := 5, duration := 1000, remaining := 0, createdAt := 0 }) ∧
      (leakyBucket none () (newLRUCache 0) ⟨0⟩ overBurstRequest ⟨true⟩).resp =
        .ok { status := .OVER_LIMIT, limit := 5, remaining := 0, resetTime := 1000 } ∧
      storedValue (leakyBucket none () (newLRUCache 0) ⟨0⟩ overBurstRequest ⟨true⟩).cache
          overBurstRequest.hashKey =
        some (.leakyBucket { limit := 5, duration := 1000, remaining := 0, updatedAt := 0, burst := 5 }) ∧
      (leakyBucket none () ((newLRUCache 0).add (freshLeakyItem overBurstRequest)).1 ⟨0⟩
          overBurstRequest ⟨true⟩).resp =
        .ok { status := .OVER_LIMIT, limit := 5, remaining := 5, resetTime := 0 } ∧
      storedValue (leakyBucket none () ((newLRUCache 0).add (freshLeakyItem overBurstRequest)).1 ⟨0⟩
          overBurstRequest ⟨true⟩).cache overBurstRequest.hashKey =
        some (.leakyBucket { limit := 5, duration := 1000, remaining := 5, updatedAt := 0, burst := 5 }) := by
  decide +kernel

end Gubernator
