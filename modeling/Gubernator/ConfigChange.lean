import Gubernator.Admission

/-!
Requests that change a cached bucket's configuration. Both algorithms write the
new Limit (and the leaky bucket its Burst, Duration and a refill) into the
bucket the cache holds before they reach the calendar arithmetic that can fail,
and register the Store's `OnChange` only after it; an algorithm switch removes
the old bucket from the cache and the Store before the new one is made. A
failure therefore keeps the half-applied change in the cache, out of the Store's
sight.
-/

namespace Gubernator

open CivilTime RecencyList

variable {σ : Type}

/-! Only a Gregorian duration fails, and a failure never reaches `OnChange`. -/

theorem tokenBucketDurationChange_error {t : TokenBucketItem} {expireAt : Int64} {now : Time}
    {r : RateLimitReq} {e : String} (failed : tokenBucketDurationChange t expireAt now r = .error e) :
    hasBehavior r.behavior Behavior.DURATION_IS_GREGORIAN = true := by
  unfold tokenBucketDurationChange at failed
  split_ifs at failed with moved gregorian
  · exact gregorian
  · -- Without the flag the new expiry is an addition, which cannot fail.
    dsimp only at failed
    split_ifs at failed

-- The failure carries the bucket as the limit change left it.
theorem tokenBucketUpdate_error {t : TokenBucketItem} {expireAt : Int64} {now : Time}
    {r : RateLimitReq} {e : String} {t' : TokenBucketItem}
    (failed : tokenBucketUpdate t expireAt now r = .error (e, t')) :
    t' = tokenBucketLimitChange t r ∧ hasBehavior r.behavior Behavior.DURATION_IS_GREGORIAN = true := by
  unfold tokenBucketUpdate at failed
  cases changed : tokenBucketDurationChange (tokenBucketLimitChange t r) expireAt now r with
  | error e' =>
    simp only [changed, Except.error.injEq, Prod.mk.injEq] at failed
    exact ⟨failed.2.symm, tokenBucketDurationChange_error changed⟩
  | ok result => simp [changed] at failed

theorem tokenBucketNewItem_error {s : Option (Store σ)} {st : σ} {c : LRUCache} {now : Time}
    {r : RateLimitReq} {reqState : RateLimitReqState} {e : String}
    (failed : (tokenBucketNewItem s st c now r reqState).resp = .error e) :
    hasBehavior r.behavior Behavior.DURATION_IS_GREGORIAN = true ∧
      tokenBucketNewItem s st c now r reqState = ⟨.error e, c, st⟩ := by
  rcases tokenBucketNewItem_cases s st c now r reqState with ⟨e', gregorian, created⟩ | ⟨rl, item, -, created⟩
  · rw [created] at failed ⊢
    cases failed
    exact ⟨gregorian, rfl⟩
  · rw [created] at failed
    cases failed

/-- A token-bucket call fails only on a Gregorian duration, and leaves one of: the
cache and Store state of the lookup; the cached bucket with the new limit already
applied; or, on an algorithm switch, the old bucket removed from the cache and
the Store. -/
theorem tokenBucket_failure {s : Option (Store σ)} {st : σ} {c : LRUCache} {now : Time}
    {r : RateLimitReq} {reqState : RateLimitReqState} {found : Option CacheItem} {c' : LRUCache}
    {st' : σ} (looked : lookupBucket s st c now r = (found, c', st')) {e : String}
    (failed : (tokenBucket s st c now r reqState).resp = .error e) :
    hasBehavior r.behavior Behavior.DURATION_IS_GREGORIAN = true ∧
      (tokenBucket s st c now r reqState = ⟨.error e, c', st'⟩ ∨
        (∃ item t, found = some item ∧ item.value = .tokenBucket t ∧
          tokenBucket s st c now r reqState =
            ⟨.error e, c'.setItem r.hashKey { item with value := .tokenBucket (tokenBucketLimitChange t r) },
              st'⟩) ∨
        tokenBucket s st c now r reqState =
          ⟨.error e, c'.remove r.hashKey, Store.removeIf s st' r.hashKey⟩) := by
  rcases tokenBucket_cases reqState looked with
    ⟨-, fresh⟩ | ⟨item, -, -, reset⟩ | ⟨item, t, e', t', rfl, -, value, updated, stale⟩ |
    ⟨item, t, t', expire, rl, -, -, -, -, updated⟩ | ⟨item, -, -, -, switched⟩
  · rw [fresh] at failed ⊢
    obtain ⟨gregorian, created⟩ := tokenBucketNewItem_error failed
    exact ⟨gregorian, .inl created⟩
  · rw [reset] at failed
    cases failed
  · rw [stale] at failed ⊢
    cases failed
    obtain ⟨limited, gregorian⟩ := tokenBucketUpdate_error updated
    subst limited
    exact ⟨gregorian, .inr (.inl ⟨item, t, rfl, value, rfl⟩)⟩
  · rw [updated] at failed
    cases failed
  · rw [switched] at failed ⊢
    obtain ⟨gregorian, created⟩ := tokenBucketNewItem_error failed
    exact ⟨gregorian, .inr (.inr created)⟩

theorem leakyBucketRate_error {now : Time} {r : RateLimitReq} {e : String}
    (failed : leakyBucketRate now r = .error e) :
    hasBehavior r.behavior Behavior.DURATION_IS_GREGORIAN = true := by
  unfold leakyBucketRate at failed
  split_ifs at failed with gregorian
  exact gregorian

theorem leakyBucketNewItem_error {s : Option (Store σ)} {st : σ} {c : LRUCache} {now : Time}
    {r : RateLimitReq} {reqState : RateLimitReqState} {e : String}
    (failed : (leakyBucketNewItem s st c now r reqState).resp = .error e) :
    hasBehavior r.behavior Behavior.DURATION_IS_GREGORIAN = true ∧
      leakyBucketNewItem s st c now r reqState = ⟨.error e, c, st⟩ := by
  rcases leakyBucketNewItem_cases s st c now r reqState with ⟨e', gregorian, created⟩ | ⟨rl, item, -, created⟩
  · rw [created] at failed ⊢
    cases failed
    exact ⟨gregorian, rfl⟩
  · rw [created] at failed
    cases failed

/-- A leaky-bucket call fails only on a Gregorian duration, and leaves one of: the
cache and Store state of the lookup; the cached bucket with the new Limit,
Duration, Burst and refills already applied; or, on an algorithm switch, the old
bucket removed from the cache and the Store. -/
theorem leakyBucket_failure {s : Option (Store σ)} {st : σ} {c : LRUCache} {now : Time}
    {r r' : RateLimitReq} {reqState : RateLimitReqState}
    (burst : r' = if r.burst = 0 then { r with burst := r.limit } else r) {found : Option CacheItem}
    {c' : LRUCache} {st' : σ} (looked : lookupBucket s st c now r' = (found, c', st')) {e : String}
    (failed : (leakyBucket s st c now r reqState).resp = .error e) :
    hasBehavior r'.behavior Behavior.DURATION_IS_GREGORIAN = true ∧
      (leakyBucket s st c now r reqState = ⟨.error e, c', st'⟩ ∨
        (∃ item b, found = some item ∧ item.value = .leakyBucket b ∧
          leakyBucket s st c now r reqState =
            ⟨.error e, c'.setItem r'.hashKey { item with value := .leakyBucket (leakyBucketConfig b r') },
              st'⟩) ∨
        leakyBucket s st c now r reqState =
          ⟨.error e, c'.remove r'.hashKey, Store.removeIf s st' r'.hashKey⟩) := by
  rcases leakyBucket_cases reqState burst looked with
    ⟨-, fresh⟩ | ⟨item, b, e', rfl, value, rated, stale⟩ |
    ⟨item, b, rate, duration, -, -, -, c₂, it, rl, updated, -, -⟩ | ⟨item, -, -, switched⟩
  · rw [fresh] at failed ⊢
    obtain ⟨gregorian, created⟩ := leakyBucketNewItem_error failed
    exact ⟨gregorian, .inl created⟩
  · rw [stale] at failed ⊢
    cases failed
    exact ⟨leakyBucketRate_error rated, .inr (.inl ⟨item, b, rfl, value, rfl⟩)⟩
  · rw [updated] at failed
    cases failed
  · rw [switched] at failed ⊢
    obtain ⟨gregorian, created⟩ := leakyBucketNewItem_error failed
    exact ⟨gregorian, .inr (.inr created)⟩

def tenRequest (algorithm : Algorithm) : RateLimitReq :=
  { name := "requests_per_sec", uniqueKey := "account:1", algorithm := algorithm, hits := 5,
    limit := 10, duration := 1000, createdAt := some 0 }

def weeklyRequest (algorithm : Algorithm) : RateLimitReq :=
  { tenRequest algorithm with
    hits := 1, limit := 20, duration := GregorianWeeks, behavior := Behavior.DURATION_IS_GREGORIAN }

def tenCache (algorithm : Algorithm) : LRUCache :=
  match algorithm with
  | .LEAKY_BUCKET => (leakyBucket none () (newLRUCache 0) ⟨0⟩ (tenRequest .LEAKY_BUCKET) ⟨true⟩).cache
  | _ => (tokenBucket none () (newLRUCache 0) ⟨0⟩ (tenRequest .TOKEN_BUCKET) ⟨true⟩).cache

def weeklyLookup (algorithm : Algorithm) (r : RateLimitReq) : Option CacheItem × LRUCache × Unit :=
  lookupBucket none () (tenCache algorithm) ⟨0⟩ r

theorem tokenBucket_failure_weekly :
    hasBehavior (weeklyRequest .TOKEN_BUCKET).behavior Behavior.DURATION_IS_GREGORIAN = true ∧
      (tokenBucket none () (tenCache .TOKEN_BUCKET) ⟨0⟩ (weeklyRequest .TOKEN_BUCKET) ⟨true⟩ =
          ⟨.error gregorianWeeksError, (weeklyLookup .TOKEN_BUCKET (weeklyRequest .TOKEN_BUCKET)).2.1,
            (weeklyLookup .TOKEN_BUCKET (weeklyRequest .TOKEN_BUCKET)).2.2⟩ ∨
        (∃ item t, (weeklyLookup .TOKEN_BUCKET (weeklyRequest .TOKEN_BUCKET)).1 = some item ∧
          item.value = .tokenBucket t ∧
          tokenBucket none () (tenCache .TOKEN_BUCKET) ⟨0⟩ (weeklyRequest .TOKEN_BUCKET) ⟨true⟩ =
            ⟨.error gregorianWeeksError, (weeklyLookup .TOKEN_BUCKET (weeklyRequest .TOKEN_BUCKET)).2.1.setItem
                (weeklyRequest .TOKEN_BUCKET).hashKey
                { item with value := .tokenBucket (tokenBucketLimitChange t (weeklyRequest .TOKEN_BUCKET)) },
              (weeklyLookup .TOKEN_BUCKET (weeklyRequest .TOKEN_BUCKET)).2.2⟩) ∨
        tokenBucket none () (tenCache .TOKEN_BUCKET) ⟨0⟩ (weeklyRequest .TOKEN_BUCKET) ⟨true⟩ =
          ⟨.error gregorianWeeksError,
            (weeklyLookup .TOKEN_BUCKET (weeklyRequest .TOKEN_BUCKET)).2.1.remove (weeklyRequest .TOKEN_BUCKET).hashKey,
            Store.removeIf none (weeklyLookup .TOKEN_BUCKET (weeklyRequest .TOKEN_BUCKET)).2.2
              (weeklyRequest .TOKEN_BUCKET).hashKey⟩) :=
  have failed : (tokenBucket none () (tenCache .TOKEN_BUCKET) ⟨0⟩ (weeklyRequest .TOKEN_BUCKET) ⟨true⟩).resp =
      .error gregorianWeeksError := by
    rfl
  tokenBucket_failure rfl failed

theorem leakyBucket_failure_weekly :
    hasBehavior ({ weeklyRequest .LEAKY_BUCKET with burst := 20 } : RateLimitReq).behavior
        Behavior.DURATION_IS_GREGORIAN = true ∧
      (leakyBucket none () (tenCache .LEAKY_BUCKET) ⟨0⟩ (weeklyRequest .LEAKY_BUCKET) ⟨true⟩ =
          ⟨.error gregorianWeeksError, (weeklyLookup .LEAKY_BUCKET { weeklyRequest .LEAKY_BUCKET with burst := 20 }).2.1,
            (weeklyLookup .LEAKY_BUCKET { weeklyRequest .LEAKY_BUCKET with burst := 20 }).2.2⟩ ∨
        (∃ item b, (weeklyLookup .LEAKY_BUCKET { weeklyRequest .LEAKY_BUCKET with burst := 20 }).1 = some item ∧
          item.value = .leakyBucket b ∧
          leakyBucket none () (tenCache .LEAKY_BUCKET) ⟨0⟩ (weeklyRequest .LEAKY_BUCKET) ⟨true⟩ =
            ⟨.error gregorianWeeksError,
              (weeklyLookup .LEAKY_BUCKET { weeklyRequest .LEAKY_BUCKET with burst := 20 }).2.1.setItem
                ({ weeklyRequest .LEAKY_BUCKET with burst := 20 } : RateLimitReq).hashKey
                { item with value := .leakyBucket (leakyBucketConfig b { weeklyRequest .LEAKY_BUCKET with burst := 20 }) },
              (weeklyLookup .LEAKY_BUCKET { weeklyRequest .LEAKY_BUCKET with burst := 20 }).2.2⟩) ∨
        leakyBucket none () (tenCache .LEAKY_BUCKET) ⟨0⟩ (weeklyRequest .LEAKY_BUCKET) ⟨true⟩ =
          ⟨.error gregorianWeeksError,
            (weeklyLookup .LEAKY_BUCKET { weeklyRequest .LEAKY_BUCKET with burst := 20 }).2.1.remove
              ({ weeklyRequest .LEAKY_BUCKET with burst := 20 } : RateLimitReq).hashKey,
            Store.removeIf none (weeklyLookup .LEAKY_BUCKET { weeklyRequest .LEAKY_BUCKET with burst := 20 }).2.2
              ({ weeklyRequest .LEAKY_BUCKET with burst := 20 } : RateLimitReq).hashKey⟩) :=
  have failed : (leakyBucket none () (tenCache .LEAKY_BUCKET) ⟨0⟩ (weeklyRequest .LEAKY_BUCKET) ⟨true⟩).resp =
      .error gregorianWeeksError := by
    rfl
  leakyBucket_failure (by decide) rfl failed

/-- Each failing return changes the cache. A token bucket at Limit 10 and
Remaining 5 keeps Limit 20 and Remaining 15. A leaky bucket keeps Limit 20, the
week's unit code as Duration, Burst 20 and a refill to 20. A token bucket met by
a leaky request is gone. -/
theorem failed_request_changes_cache :
    storedValue (tokenBucket none () (newLRUCache 0) ⟨0⟩ (tenRequest .TOKEN_BUCKET) ⟨true⟩).cache
        (tenRequest .TOKEN_BUCKET).hashKey =
      some (.tokenBucket { limit := 10, duration := 1000, remaining := 5, createdAt := 0 }) ∧
    (tokenBucket none () (tokenBucket none () (newLRUCache 0) ⟨0⟩ (tenRequest .TOKEN_BUCKET) ⟨true⟩).cache
        ⟨0⟩ (weeklyRequest .TOKEN_BUCKET) ⟨true⟩).resp = .error gregorianWeeksError ∧
    storedValue (tokenBucket none () (tokenBucket none () (newLRUCache 0) ⟨0⟩ (tenRequest .TOKEN_BUCKET)
        ⟨true⟩).cache ⟨0⟩ (weeklyRequest .TOKEN_BUCKET) ⟨true⟩).cache (tenRequest .TOKEN_BUCKET).hashKey =
      some (.tokenBucket { limit := 20, duration := 1000, remaining := 15, createdAt := 0 }) ∧
    storedValue (leakyBucket none () (newLRUCache 0) ⟨0⟩ (tenRequest .LEAKY_BUCKET) ⟨true⟩).cache
        (tenRequest .LEAKY_BUCKET).hashKey =
      some (.leakyBucket { limit := 10, duration := 1000, remaining := 5, updatedAt := 0, burst := 10 }) ∧
    (leakyBucket none () (leakyBucket none () (newLRUCache 0) ⟨0⟩ (tenRequest .LEAKY_BUCKET) ⟨true⟩).cache
        ⟨0⟩ (weeklyRequest .LEAKY_BUCKET) ⟨true⟩).resp = .error gregorianWeeksError ∧
    storedValue (leakyBucket none () (leakyBucket none () (newLRUCache 0) ⟨0⟩ (tenRequest .LEAKY_BUCKET)
        ⟨true⟩).cache ⟨0⟩ (weeklyRequest .LEAKY_BUCKET) ⟨true⟩).cache (tenRequest .LEAKY_BUCKET).hashKey =
      some (.leakyBucket { limit := 20, duration := 3, remaining := 20, updatedAt := 0, burst := 20 }) ∧
    (leakyBucket none () (tokenBucket none () (newLRUCache 0) ⟨0⟩ (tenRequest .TOKEN_BUCKET) ⟨true⟩).cache
        ⟨0⟩ (weeklyRequest .LEAKY_BUCKET) ⟨true⟩).resp = .error gregorianWeeksError ∧
    storedValue (leakyBucket none () (tokenBucket none () (newLRUCache 0) ⟨0⟩ (tenRequest .TOKEN_BUCKET)
        ⟨true⟩).cache ⟨0⟩ (weeklyRequest .LEAKY_BUCKET) ⟨true⟩).cache (tenRequest .TOKEN_BUCKET).hashKey =
      none := by
  decide +kernel

def burstTenRequest : RateLimitReq :=
  { name := "requests_per_sec", uniqueKey := "account:1", algorithm := .LEAKY_BUCKET, hits := 8,
    limit := 10, burst := 10, duration := 1000, createdAt := some 0 }

def burstEightRequest : RateLimitReq := { burstTenRequest with hits := 0, burst := 8 }

/-- Lowering the burst refills. The first request leaves Remaining 2; the second,
with no hits and nothing leaked since, finds the new Burst 8 above the whole
hits left and sets Remaining to it. -/
theorem lowered_burst_refills :
    storedValue (leakyBucket none () (newLRUCache 0) ⟨0⟩ burstTenRequest ⟨true⟩).cache
        burstTenRequest.hashKey =
      some (.leakyBucket { limit := 10, duration := 1000, remaining := 2, updatedAt := 0, burst := 10 }) ∧
    (leakyBucket none () (leakyBucket none () (newLRUCache 0) ⟨0⟩ burstTenRequest ⟨true⟩).cache ⟨0⟩
        burstEightRequest ⟨true⟩).resp =
      .ok { status := .UNDER_LIMIT, limit := 10, remaining := 8, resetTime := 200 } ∧
    storedValue (leakyBucket none () (leakyBucket none () (newLRUCache 0) ⟨0⟩ burstTenRequest ⟨true⟩).cache
        ⟨0⟩ burstEightRequest ⟨true⟩).cache burstTenRequest.hashKey =
      some (.leakyBucket { limit := 10, duration := 1000, remaining := 8, updatedAt := 0, burst := 8 }) := by
  decide +kernel

end Gubernator
