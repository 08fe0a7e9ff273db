import Gubernator.Bucket
import Gubernator.Library.Truncation

/-!
`leakyBucket` and `leakyBucketNewItem` of algorithms.go, with `float64` as exact
rationals. The existing-item path follows the source's seams: the configuration
update (lines 320-333), the rate, which may fail on a Gregorian duration (lines
335-354), the expiry renewal (356-358), the leak and the Burst clamp (360-371)
and the hit branches (388-430). `UpdateExpiration` assigns `ExpireAt` of the very
item this call holds, so the call's own copy follows it.
-/

namespace Gubernator

open CivilTime Truncation

variable {σ : Type}

/-- Lines 320-333: a reset refills to Burst, a new Burst refills when it exceeds
the whole hits left, and Limit and Duration are overwritten. -/
def leakyBucketConfig (b : LeakyBucketItem) (r : RateLimitReq) : LeakyBucketItem :=
  let b := if hasBehavior r.behavior Behavior.RESET_REMAINING then
      { b with remaining := ofInt64 r.burst }
    else b
  let b := if b.burst ≠ r.burst then
      let b := if r.burst > toInt64 b.remaining then { b with remaining := ofInt64 r.burst } else b
      { b with burst := r.burst }
    else b
  { b with limit := r.limit, duration := r.duration }

/-- Lines 335-354: milliseconds per hit and the duration the window lasts. -/
def leakyBucketRate (now : Time) (r : RateLimitReq) : Except String (ℚ × Int64) :=
  if hasBehavior r.behavior Behavior.DURATION_IS_GREGORIAN then
    match gregorianDuration now r.duration with
    | .error e => .error e
    | .ok d =>
      match gregorianExpiration now r.duration with
      | .error e => .error e
      | .ok expire => .ok (ofInt64 d / ofInt64 r.limit, expire - now.unixNano / 1000000)
  else .ok (ofInt64 r.duration / ofInt64 r.limit, r.duration)

/-- Lines 360-371: credit the leak only once a whole hit has leaked, then clamp. -/
def leakyBucketLeak (b : LeakyBucketItem) (createdAt : Int64) (rate : ℚ) : LeakyBucketItem :=
  let leak := ofInt64 (createdAt - b.updatedAt) / rate
  let b := if toInt64 leak > 0 then
      { b with remaining := b.remaining + leak, updatedAt := createdAt }
    else b
  if toInt64 b.remaining > b.burst then { b with remaining := ofInt64 b.burst } else b

def leakyBucketHits (b : LeakyBucketItem) (rl : RateLimitResp) (r : RateLimitReq)
    (createdAt : Int64) (rate : ℚ) : LeakyBucketItem × RateLimitResp :=
  if toInt64 b.remaining = 0 ∧ r.hits > 0 then (b, { rl with status := .OVER_LIMIT })
  else if toInt64 b.remaining = r.hits then
    let b := { b with remaining := 0 }
    (b, { rl with remaining := toInt64 b.remaining,
                  resetTime := createdAt + (rl.limit - toInt64 b.remaining) * toInt64 rate })
  else if r.hits > toInt64 b.remaining then
    if hasBehavior r.behavior Behavior.DRAIN_OVER_LIMIT then
      ({ b with remaining := 0 }, { rl with status := .OVER_LIMIT, remaining := 0 })
    else (b, { rl with status := .OVER_LIMIT })
  else if r.hits = 0 then (b, rl)
  else
    let b := { b with remaining := b.remaining - ofInt64 r.hits }
    (b, { rl with remaining := toInt64 b.remaining,
                  resetTime := createdAt + (rl.limit - toInt64 b.remaining) * toInt64 rate })

def leakyBucketStatus (b : LeakyBucketItem) (createdAt : Int64) (rate : ℚ) : RateLimitResp :=
  { limit := b.limit, remaining := toInt64 b.remaining, status := .UNDER_LIMIT,
    resetTime := createdAt + (b.limit - toInt64 b.remaining) * toInt64 rate }

def leakyBucketCreate (r : RateLimitReq) (duration : Int64) :
    LeakyBucketItem × RateLimitResp :=
  let createdAt := r.createdAtValue
  let rate := ofInt64 r.duration / ofInt64 r.limit
  let b : LeakyBucketItem :=
    { remaining := ofInt64 (r.burst - r.hits), limit := r.limit, duration := duration,
      updatedAt := createdAt, burst := r.burst }
  let rl : RateLimitResp :=
    { status := .UNDER_LIMIT, limit := b.limit, remaining := r.burst - r.hits,
      resetTime := createdAt + (b.limit - (r.burst - r.hits)) * toInt64 rate }
  -- Client could be requesting that we start with the bucket OVER_LIMIT.
  if r.hits > r.burst then
    ({ b with remaining := 0 },
      { rl with status := .OVER_LIMIT, remaining := 0,
                resetTime := createdAt + (rl.limit - 0) * toInt64 rate })
  else (b, rl)

def leakyBucketNewItem (s : Option (Store σ)) (st : σ) (c : LRUCache) (now : Time)
    (r : RateLimitReq) (reqState : RateLimitReqState) : Outcome σ :=
  let duration : Except String Int64 :=
    if hasBehavior r.behavior Behavior.DURATION_IS_GREGORIAN then
      match gregorianExpiration now r.duration with
      | .error e => .error e
      | .ok expire => .ok (expire - now.unixNano / 1000000)
    else .ok r.duration
  match duration with
  | .error e => ⟨.error e, c, st⟩
  | .ok duration =>
    let (b, rl) := leakyBucketCreate r duration
    let item : CacheItem :=
      { expireAt := r.createdAtValue + duration, algorithm := r.algorithm, key := r.hashKey,
        value := .leakyBucket b }
    ⟨.ok rl, (c.add item).1, Store.onChangeIf s reqState st r item⟩

def leakyBucket (s : Option (Store σ)) (st : σ) (c : LRUCache) (now : Time)
    (r : RateLimitReq) (reqState : RateLimitReqState) : Outcome σ :=
  let r := if r.burst = 0 then { r with burst := r.limit } else r
  let createdAt := r.createdAtValue
  let hashKey := r.hashKey
  match lookupBucket s st c now r with
  | (none, c, st) => leakyBucketNewItem s st c now r reqState
  | (some item, c, st) =>
    match item.value with
    | .leakyBucket b =>
      let b := leakyBucketConfig b r
      match leakyBucketRate now r with
      | .error e => ⟨.error e, c.setItem hashKey { item with value := .leakyBucket b }, st⟩
      | .ok (rate, duration) =>
        let (c, item) : LRUCache × CacheItem :=
          if r.hits ≠ 0 then
            let (c, hit) := c.updateExpiration hashKey (createdAt + duration)
            (c, if hit then { item with expireAt := createdAt + duration } else item)
          else (c, item)
        let b := leakyBucketLeak b createdAt rate
        let (b, rl) := leakyBucketHits b (leakyBucketStatus b createdAt rate) r createdAt rate
        let item := { item with value := .leakyBucket b }
        ⟨.ok rl, c.setItem hashKey item, Store.onChangeIf s reqState st r item⟩
    -- Client switched algorithms; perhaps due to a migration?
    | _ => leakyBucketNewItem s (Store.removeIf s st hashKey) (c.remove hashKey) now r reqState

/-! Everything a call can do, one case per return of the source. The request
the algorithm works with is the one with the Burst default applied. -/

theorem leakyBucketNewItem_cases (s : Option (Store σ)) (st : σ) (c : LRUCache) (now : Time)
    (r : RateLimitReq) (reqState : RateLimitReqState) :
    (∃ e, hasBehavior r.behavior Behavior.DURATION_IS_GREGORIAN = true ∧
        leakyBucketNewItem s st c now r reqState = ⟨.error e, c, st⟩) ∨
      ∃ rl item, item.key = r.hashKey ∧
        leakyBucketNewItem s st c now r reqState =
          ⟨.ok rl, (c.add item).1, Store.onChangeIf s reqState st r item⟩ := by
  unfold leakyBucketNewItem
  cases gregorian : hasBehavior r.behavior Behavior.DURATION_IS_GREGORIAN
  · exact .inr ⟨_, _, rfl, rfl⟩
  · -- Only the calendar can refuse the duration.
    cases gregorianExpiration now r.duration with
    | error e => exact .inl ⟨e, rfl, rfl⟩
    | ok expire => exact .inr ⟨_, _, rfl, rfl⟩

theorem leakyBucket_cases {s : Option (Store σ)} {st : σ} {c : LRUCache} {now : Time}
    {r r' : RateLimitReq} (reqState : RateLimitReqState)
    (burst : r' = if r.burst = 0 then { r with burst := r.limit } else r) {found : Option CacheItem}
    {c' : LRUCache} {st' : σ} (looked : lookupBucket s st c now r' = (found, c', st')) :
    (found = none ∧ leakyBucket s st c now r reqState = leakyBucketNewItem s st' c' now r' reqState) ∨
      (∃ item b e, found = some item ∧ item.value = .leakyBucket b ∧ leakyBucketRate now r' = .error e ∧
        leakyBucket s st c now r reqState =
          ⟨.error e, c'.setItem r'.hashKey { item with value := .leakyBucket (leakyBucketConfig b r') },
            st'⟩) ∨
      (∃ item b rate duration, found = some item ∧ item.value = .leakyBucket b ∧
        leakyBucketRate now r' = .ok (rate, duration) ∧
        ∃ c₂ it rl, leakyBucket s st c now r reqState =
            ⟨.ok rl, c₂.setItem r'.hashKey it, Store.onChangeIf s reqState st' r' it⟩ ∧
          (c₂ = c' ∨ ∃ e, c₂ = (c'.updateExpiration r'.hashKey e).1) ∧ it.key = item.key) ∨
      (∃ item, found = some item ∧ (∀ b, item.value ≠ .leakyBucket b) ∧
        leakyBucket s st c now r reqState =
          leakyBucketNewItem s (Store.removeIf s st' r'.hashKey) (c'.remove r'.hashKey) now r' reqState) := by
  -- The source shadows the request with its Burst default; name it once.
  have unfolded : leakyBucket s st c now r reqState = leakyBucket s st c now r reqState := rfl
  conv at unfolded => rhs; unfold leakyBucket; rw [← burst]
  rw [unfolded]
  rcases found with _ | item
  · exact .inl ⟨rfl, by simp only [looked]⟩
  right
  cases value : item.value with
  | leakyBucket b =>
    cases rated : leakyBucketRate now r' with
    | error e => exact .inl ⟨item, b, e, rfl, value, rfl, by simp [looked, value, rated]⟩
    | ok result =>
      obtain ⟨rate, duration⟩ := result
      refine .inr (.inl ⟨item, b, rate, duration, rfl, value, rfl, ?_⟩)
      simp only [looked, value, rated]
      by_cases moved : r'.hits ≠ 0
      · -- A hit renews the expiry of the bucket the cache holds, and of this copy when it was held.
        rw [if_pos moved]
        rcases renewed : c'.updateExpiration r'.hashKey (r'.createdAtValue + duration) with ⟨c₂, held⟩
        dsimp only
        refine ⟨c₂, _, _, rfl, .inr ⟨_, by rw [renewed]⟩, ?_⟩
        cases held <;> rfl
      · rw [if_neg moved]
        exact ⟨c', _, _, rfl, .inl rfl, rfl⟩
  | nil | tokenBucket _ =>
    -- Another algorithm's bucket: the switch path.
    refine .inr (.inr ⟨item, rfl, by simp [value], ?_⟩)
    simp only [looked, value]

end Gubernator
