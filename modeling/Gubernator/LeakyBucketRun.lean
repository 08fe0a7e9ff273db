import Gubernator.Admission

/-!
The leaky bucket over runs on one key. Hits leak out at `Duration / Limit`
milliseconds each and the bucket holds at most Burst, so over any interval of
time a run should let through at most Burst plus what leaked in the interval,
give or take the whole hit that the leak waits for. The item expires
`Duration` after its last hit, and `leakyBucketNewItem` then creates it full
with Burst; when Burst exceeds Limit that is more than the leak would have
restored in `Duration`.
-/

namespace Gubernator

open CivilTime

/-- A request of a steady leaky-bucket run opened by `first`: the same key,
limit, duration and burst, no reset and no Gregorian duration, hits that are not
negative, and `CreatedAt` read from the cache clock. -/
structure SteadyLeaky (first : RateLimitReq) (i : Time × RateLimitReq) : Prop where
  keyed : i.2.hashKey = first.hashKey
  limit : i.2.limit = first.limit
  duration : i.2.duration = first.duration
  burst : i.2.burst = first.burst
  noReset : hasBehavior i.2.behavior Behavior.RESET_REMAINING = false
  notGregorian : hasBehavior i.2.behavior Behavior.DURATION_IS_GREGORIAN = false
  nonneg : 0 ≤ i.2.hits.toInt
  clock : millisecondNow i.1 = i.2.createdAtValue

instance (first : RateLimitReq) (i : Time × RateLimitReq) : Decidable (SteadyLeaky first i) :=
  decidable_of_iff (i.2.hashKey = first.hashKey ∧ i.2.limit = first.limit ∧
      i.2.duration = first.duration ∧ i.2.burst = first.burst ∧
      hasBehavior i.2.behavior Behavior.RESET_REMAINING = false ∧
      hasBehavior i.2.behavior Behavior.DURATION_IS_GREGORIAN = false ∧ 0 ≤ i.2.hits.toInt ∧
      millisecondNow i.1 = i.2.createdAtValue)
    ⟨fun ⟨a, b, c, d, e, f, g, h⟩ => ⟨a, b, c, d, e, f, g, h⟩,
      fun ⟨a, b, c, d, e, f, g, h⟩ => ⟨a, b, c, d, e, f, g, h⟩⟩

def InTimeOrder (is : List (Time × RateLimitReq)) : Prop :=
  is.Pairwise (fun i j => i.2.createdAtValue ≤ j.2.createdAtValue)

instance (is : List (Time × RateLimitReq)) : Decidable (InTimeOrder is) :=
  inferInstanceAs (Decidable (List.Pairwise _ _))

/-- One hit per 10 ms with a burst of 100: a full burst at 0 ms, and another at
11 ms, after the item expired at 10 ms. -/
def burstRequest (createdAt : Int64) : RateLimitReq :=
  { name := "requests_per_sec", uniqueKey := "account:1", algorithm := .LEAKY_BUCKET,
    hits := 100, limit := 1, duration := 10, burst := 100, createdAt := some createdAt }

def burstRequests : List (Time × RateLimitReq) :=
  [(⟨0⟩, burstRequest 0), (⟨11 * 1000000⟩, burstRequest 11)]

/-- Both bursts are let through: 200 hits within `[0, 11]` ms, where the leak
allows 100 + 11 / 10 + 2. -/
theorem leakyBucket_expiry_refills_burst :
    (∀ i ∈ burstRequests, SteadyLeaky (burstRequest 0) i) ∧ InTimeOrder burstRequests ∧
      admittedBetween 0 11 burstRequests
          (Run.run (leakyBucketStep ⟨true⟩) (newLRUCache 0) burstRequests).1 = 200 ∧
      (100 : ℚ) + (11 - 0) / (10 / 1) + 2 < 200 := by
  decide +kernel

def remainderRequest (hits createdAt : Int64) : RateLimitReq :=
  { name := "requests_per_sec", uniqueKey := "account:1", algorithm := .LEAKY_BUCKET,
    hits := hits, limit := 10, duration := 1000, createdAt := some createdAt }

/-- All ten hits at 0 ms, then two at 250 ms, when two and a half have leaked back. -/
def remainderRequests : List (Time × RateLimitReq) :=
  [(⟨0⟩, remainderRequest 10 0), (⟨250 * 1000000⟩, remainderRequest 2 250)]

/-- The drained bucket holds 5/2 after the leak at 250 ms, and the two hits are
answered UNDER_LIMIT. The int64 part of 5/2 is the hits, so the takes-the-remainder
branch stores Remaining 0 where the deduction would store 1/2. -/
theorem leakyBucket_remainder_drops_fraction :
    storedValue (Run.run (leakyBucketStep ⟨true⟩) (newLRUCache 0) (remainderRequests.take 1)).2
        (remainderRequest 2 250).hashKey =
      some (.leakyBucket { limit := 10, duration := 1000, remaining := 0, updatedAt := 0, burst := 10 }) ∧
    (leakyBucketLeak { limit := 10, duration := 1000, remaining := 0, updatedAt := 0, burst := 10 } 250
        (1000 / 10)).remaining = 5 / 2 ∧
    (Run.run (leakyBucketStep ⟨true⟩) (newLRUCache 0) remainderRequests).1.map (·.map (·.status)) =
      [.ok .UNDER_LIMIT, .ok .UNDER_LIMIT] ∧
    storedValue (Run.run (leakyBucketStep ⟨true⟩) (newLRUCache 0) remainderRequests).2
        (remainderRequest 2 250).hashKey =
      some (.leakyBucket { limit := 10, duration := 1000, remaining := 0, updatedAt := 250, burst := 10 }) ∧
    (5 / 2 : ℚ) - 2 ≠ 0 := by
  decide +kernel

end Gubernator
