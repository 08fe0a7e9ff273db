import Gubernator.Admission

/-!
When a bucket starts over. RESET_REMAINING asks for a full bucket: only a token
bucket that the lookup found is dropped, from the cache and the Store, so that
the next request creates it afresh; a token bucket created by the reset request
itself, and a leaky bucket whether found or created, are filled and then have
the request's hits taken. Expiry is enforced by the cache's `GetItem` alone, so
a bucket that reaches the algorithms through `Store.Get` is used however old it
is: a request meets only live buckets exactly when the Store expires its items.
-/

namespace Gubernator

open CivilTime RecencyList

variable {σ : Type}

def resetRequest (algorithm : Algorithm) : RateLimitReq :=
  { name := "requests_per_sec", uniqueKey := "account:1", algorithm := algorithm, hits := 1,
    limit := 5, duration := 1000, behavior := Behavior.RESET_REMAINING, createdAt := some 0 }

def drawRequest (algorithm : Algorithm) : RateLimitReq :=
  { resetRequest algorithm with hits := 3, behavior := 0 }

/-- One reset with a hit, on each of the four paths. A token bucket drawn to two
is dropped and answered full. Without a cached bucket the token bucket is created
at Limit less the hit; the leaky bucket drawn to two is refilled to its Burst and
then has the hit taken, and without a cached bucket it is created at Burst less
the hit. -/
theorem resetRemaining_deducts_hits :
    (tokenBucket none () (tokenBucket none () (newLRUCache 0) ⟨0⟩ (drawRequest .TOKEN_BUCKET) ⟨true⟩).cache
        ⟨0⟩ (resetRequest .TOKEN_BUCKET) ⟨true⟩).resp =
        .ok { status := .UNDER_LIMIT, limit := 5, remaining := 5, resetTime := 0 } ∧
      storedValue (tokenBucket none () (tokenBucket none () (newLRUCache 0) ⟨0⟩
          (drawRequest .TOKEN_BUCKET) ⟨true⟩).cache ⟨0⟩ (resetRequest .TOKEN_BUCKET) ⟨true⟩).cache
        (resetRequest .TOKEN_BUCKET).hashKey = none ∧
      (tokenBucket none () (newLRUCache 0) ⟨0⟩ (resetRequest .TOKEN_BUCKET) ⟨true⟩).resp =
        .ok { status := .UNDER_LIMIT, limit := 5, remaining := 4, resetTime := 1000 } ∧
      storedValue (tokenBucket none () (newLRUCache 0) ⟨0⟩ (resetRequest .TOKEN_BUCKET) ⟨true⟩).cache
          (resetRequest .TOKEN_BUCKET).hashKey =
        some (.tokenBucket { limit := 5, duration := 1000, remaining := 4, createdAt := 0 }) ∧
      storedValue (leakyBucket none () (newLRUCache 0) ⟨0⟩ (drawRequest .LEAKY_BUCKET) ⟨true⟩).cache
          (resetRequest .LEAKY_BUCKET).hashKey =
        some (.leakyBucket { limit := 5, duration := 1000, remaining := 2, updatedAt := 0, burst := 5 }) ∧
      (leakyBucket none () (leakyBucket none () (newLRUCache 0) ⟨0⟩ (drawRequest .LEAKY_BUCKET) ⟨true⟩).cache
        ⟨0⟩ (resetRequest .LEAKY_BUCKET) ⟨true⟩).resp =
        .ok { status := .UNDER_LIMIT, limit := 5, remaining := 4, resetTime := 200 } ∧
      storedValue (leakyBucket none () (leakyBucket none () (newLRUCache 0) ⟨0⟩
          (drawRequest .LEAKY_BUCKET) ⟨true⟩).cache ⟨0⟩ (resetRequest .LEAKY_BUCKET) ⟨true⟩).cache
          (resetRequest .LEAKY_BUCKET).hashKey =
        some (.leakyBucket { limit := 5, duration := 1000, remaining := 4, updatedAt := 0, burst := 5 }) ∧
      (leakyBucket none () (newLRUCache 0) ⟨0⟩ (resetRequest .LEAKY_BUCKET) ⟨true⟩).resp =
        .ok { status := .UNDER_LIMIT, limit := 5, remaining := 4, resetTime := 200 } ∧
      storedValue (leakyBucket none () (newLRUCache 0) ⟨0⟩ (resetRequest .LEAKY_BUCKET) ⟨true⟩).cache
          (resetRequest .LEAKY_BUCKET).hashKey =
        some (.leakyBucket { limit := 5, duration := 1000, remaining := 4, updatedAt := 0, burst := 5 }) := by
  decide +kernel

def lateRequest : RateLimitReq :=
  { name := "requests_per_sec", uniqueKey := "account:1", hits := 1, limit := 5, duration := 1000,
    createdAt := some 10 }

/-- A Store that expires its items, as store.go leaves to it: `Get` returns no
item that has expired by the cache clock `now`. -/
def Store.ExpiresBy (s : Store σ) (now : Time) : Prop :=
  ∀ st r item, (s.get st r).1 = some item → item.isExpired (millisecondNow now) = false

/-- With no Store, or one that expires its items, the bucket a request's lookup
meets is live: the cache's own, which `GetItem` keeps only while live, or the
one the Store returned on a miss. Both algorithms take their bucket from this
lookup, and start a new one when it finds none. -/
theorem lookupBucket_live_of_expiring (s : Option (Store σ)) {now : Time}
    (expires : ∀ s' ∈ s, s'.ExpiresBy now) (st : σ) {c : LRUCache} (sync : c.Sync) (r : RateLimitReq)
    {item : CacheItem} (found : (lookupBucket s st c now r).1 = some item) :
    item.isExpired (millisecondNow now) = false ∧ item.key = r.hashKey ∧
      (find CacheItem.key c.entries r.hashKey = some item ∨ ∃ s' ∈ s, (s'.get st r).1 = some item) := by
  rcases cached : (c.getItem r.hashKey (millisecondNow now)).1 with _ | got
  · -- A miss: only the Store can supply the bucket.
    cases s with
    | none => simp [lookupBucket, cached, sanityCheck] at found
    | some s =>
      rcases answered : s.get st r with ⟨_ | stored, st'⟩
      · simp [lookupBucket, cached, answered, sanityCheck] at found
      · have checked : sanityCheck r.hashKey (some stored) = some item := by
          simpa [lookupBucket, cached, answered] using found
        obtain ⟨same, -, keyed⟩ := sanityCheck_eq_some checked
        cases same
        have given : (s.get st r).1 = some item := by rw [answered]
        exact ⟨expires s rfl st r item given, keyed, .inr ⟨s, rfl, given⟩⟩
  · rw [lookupBucket_of_cached s st cached] at found
    dsimp only at found
    obtain ⟨same, -, keyed⟩ := sanityCheck_eq_some found
    cases same
    obtain ⟨held, live⟩ := sync.getItem_some cached
    exact ⟨live, keyed, .inl held⟩

def freshItem (r : RateLimitReq) : CacheItem :=
  { algorithm := .TOKEN_BUCKET, key := r.hashKey, expireAt := 1000,
    value := .tokenBucket { limit := 5, duration := 1000, remaining := 3, createdAt := 0 } }

def freshStore : Store Unit :=
  { onChange := fun st _ _ => st, get := fun st r => (some (freshItem r), st), remove := fun st _ => st }

theorem lookupBucket_live_of_expiring_freshStore :
    (∀ s' ∈ some freshStore, s'.ExpiresBy ⟨10000000⟩) ∧
      (lookupBucket (some freshStore) () (newLRUCache 0) ⟨10000000⟩ lateRequest).1 =
        some (freshItem lateRequest) ∧
      (freshItem lateRequest).isExpired (millisecondNow ⟨10000000⟩) = false ∧
      (freshItem lateRequest).key = lateRequest.hashKey ∧
      (find CacheItem.key (newLRUCache 0).entries lateRequest.hashKey = some (freshItem lateRequest) ∨
        ∃ s' ∈ some freshStore, (s'.get () lateRequest).1 = some (freshItem lateRequest)) :=
  have expires : ∀ s' ∈ some freshStore, s'.ExpiresBy ⟨10000000⟩ := by
    rintro s' member st r item given
    obtain rfl := Option.mem_some_iff.mp member
    obtain rfl := Option.some.inj given
    rfl
  have found : (lookupBucket (some freshStore) () (newLRUCache 0) ⟨10000000⟩ lateRequest).1 =
      some (freshItem lateRequest) := rfl
  ⟨expires, found, lookupBucket_live_of_expiring (some freshStore) expires () (LRUCache.newLRUCache_sync 0)
    lateRequest found⟩

/-- A drained token bucket whose window closed at 0 ms. -/
def staleItem (r : RateLimitReq) : CacheItem :=
  { algorithm := .TOKEN_BUCKET, key := r.hashKey, expireAt := 0,
    value := .tokenBucket { limit := 5, duration := 1000, remaining := 0, createdAt := -1000 } }

def staleStore : Store Unit :=
  { onChange := fun st _ _ => st, get := fun st r => (some (staleItem r), st),
    remove := fun st _ => st }

/-- At 10 ms the stale bucket has expired. Held in the cache, it is dropped and
the request starts a new bucket; returned by the Store on a miss, it answers the
request OVER_LIMIT with its closed window's ResetTime and is cached again. -/
theorem store_revives_expired_bucket :
    (staleItem lateRequest).isExpired (millisecondNow ⟨10000000⟩) = true ∧
      (tokenBucket none () ((newLRUCache 0).add (staleItem lateRequest)).1 ⟨10000000⟩ lateRequest
          ⟨true⟩).resp =
        .ok { status := .UNDER_LIMIT, limit := 5, remaining := 4, resetTime := 1010 } ∧
      (tokenBucket (some staleStore) () (newLRUCache 0) ⟨10000000⟩ lateRequest ⟨true⟩).resp =
        .ok { status := .OVER_LIMIT, limit := 5, remaining := 0, resetTime := 0 } ∧
      (find CacheItem.key (tokenBucket (some staleStore) () (newLRUCache 0) ⟨10000000⟩ lateRequest
          ⟨true⟩).cache.entries lateRequest.hashKey).map (·.expireAt) = some 0 := by
  decide +kernel

/-- One hit against five at 10 ms, over a Duration of the largest int64. -/
def endlessRequest (algorithm : Algorithm) : RateLimitReq :=
  { name := "requests_per_sec", uniqueKey := "account:1", hits := 1, limit := 5,
    duration := 9223372036854775807, algorithm := algorithm, createdAt := some 10 }

def endlessRequests (algorithm : Algorithm) : List (Time × RateLimitReq) :=
  [(⟨10000000⟩, endlessRequest algorithm), (⟨10000000⟩, endlessRequest algorithm)]

/-- createdAt + Duration wraps below createdAt, so the item either algorithm
creates has expired when it is made: the second request finds nothing, starts a
new bucket and answers Remaining 4 again, the first hit forgotten. -/
theorem window_end_wraps :
    (find CacheItem.key (Run.run (tokenBucketStep ⟨true⟩) (newLRUCache 0)
        ((endlessRequests .TOKEN_BUCKET).take 1)).2.entries
        (endlessRequest .TOKEN_BUCKET).hashKey).map (·.expireAt.toInt) = some (10 + (2 ^ 63 - 1) - 2 ^ 64) ∧
      (Run.run (tokenBucketStep ⟨true⟩) (newLRUCache 0) (endlessRequests .TOKEN_BUCKET)).1.map
          (·.map (·.remaining)) = [.ok 4, .ok 4] ∧
      (find CacheItem.key (Run.run (leakyBucketStep ⟨true⟩) (newLRUCache 0)
        ((endlessRequests .LEAKY_BUCKET).take 1)).2.entries
        (endlessRequest .LEAKY_BUCKET).hashKey).map (·.expireAt.toInt) = some (10 + (2 ^ 63 - 1) - 2 ^ 64) ∧
      (Run.run (leakyBucketStep ⟨true⟩) (newLRUCache 0) (endlessRequests .LEAKY_BUCKET)).1.map
          (·.map (·.remaining)) = [.ok 4, .ok 4] := by
  decide +kernel

end Gubernator
