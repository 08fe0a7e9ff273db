import Gubernator.Bucket
import Gubernator.Library.Int64Range

/-!
`tokenBucket` and `tokenBucketNewItem` of algorithms.go. The existing-item path
is split at the source's own seams: the limit update (lines 105-113), the
duration update that may fail on a Gregorian duration (lines 122-147), and the
hit branches (lines 155-198). The bucket a cache holds is updated in place in
the source, so every return, the error included, leaves the updated bucket in
the cache. The deferred `OnChange` runs on every return after line 149.
-/

namespace Gubernator

open CivilTime

variable {σ : Type}

/-- Lines 105-113: a new limit moves Remaining by the difference, floored at 0. -/
def tokenBucketLimitChange (t : TokenBucketItem) (r : RateLimitReq) : TokenBucketItem :=
  if t.limit ≠ r.limit then
    let remaining := t.remaining + (r.limit - t.limit)
    { t with remaining := if remaining < 0 then 0 else remaining, limit := r.limit }
  else t

/-- Lines 122-147: the bucket and its `ExpireAt` after a Duration change. A window
that the new duration has already closed is renewed from the request's time. -/
def tokenBucketDurationChange (t : TokenBucketItem) (expireAt : Int64) (now : Time)
    (r : RateLimitReq) : Except String (TokenBucketItem × Int64) :=
  if t.duration ≠ r.duration then
    let expire : Except String Int64 :=
      if hasBehavior r.behavior Behavior.DURATION_IS_GREGORIAN then
        gregorianExpiration now r.duration
      else .ok (t.createdAt + r.duration)
    match expire with
    | .error e => .error e
    | .ok expire =>
      let createdAt := r.createdAtValue
      if expire ≤ createdAt then
        .ok ({ t with createdAt := createdAt, remaining := t.limit, duration := r.duration },
          createdAt + r.duration)
      else .ok ({ t with duration := r.duration }, expire)
  else .ok (t, expireAt)

/-- Lines 155-198. The first test reads the response's Remaining, which a
renewal at line 141 does not refresh; the others read the bucket's. -/
def tokenBucketHits (t : TokenBucketItem) (rl : RateLimitResp) (r : RateLimitReq) :
    TokenBucketItem × RateLimitResp :=
  if r.hits = 0 then (t, rl)
  else if rl.remaining = 0 ∧ r.hits > 0 then
    ({ t with status := .OVER_LIMIT }, { rl with status := .OVER_LIMIT })
  else if t.remaining = r.hits then
    ({ t with remaining := 0 }, { rl with remaining := 0 })
  else if r.hits > t.remaining then
    if hasBehavior r.behavior Behavior.DRAIN_OVER_LIMIT then
      ({ t with remaining := 0 }, { rl with status := .OVER_LIMIT, remaining := 0 })
    else (t, { rl with status := .OVER_LIMIT })
  else
    ({ t with remaining := t.remaining - r.hits }, { rl with remaining := t.remaining - r.hits })

/-- Lines 105-198 on a cached bucket: the new bucket, its `ExpireAt` and the
response, or the error together with the bucket as line 112 left it. -/
def tokenBucketUpdate (t : TokenBucketItem) (expireAt : Int64) (now : Time) (r : RateLimitReq) :
    Except (String × TokenBucketItem) (TokenBucketItem × Int64 × RateLimitResp) :=
  let t := tokenBucketLimitChange t r
  let rl : RateLimitResp :=
    { status := t.status, limit := r.limit, remaining := t.remaining, resetTime := expireAt }
  match tokenBucketDurationChange t expireAt now r with
  | .error e => .error (e, t)
  | .ok (t, expire) =>
    let (t, rl) := tokenBucketHits t { rl with resetTime := expire } r
    .ok (t, expire, rl)

def tokenBucketCreate (r : RateLimitReq) (expire : Int64) : TokenBucketItem × RateLimitResp :=
  let t : TokenBucketItem :=
    { limit := r.limit, duration := r.duration, remaining := r.limit - r.hits,
      createdAt := r.createdAtValue }
  let rl : RateLimitResp :=
    { status := .UNDER_LIMIT, limit := r.limit, remaining := t.remaining, resetTime := expire }
  -- Client could be requesting that we always return OVER_LIMIT.
  if r.hits > r.limit then
    ({ t with remaining := r.limit }, { rl with status := .OVER_LIMIT, remaining := r.limit })
  else (t, rl)

open Int64Range in
theorem tokenBucketCreate_takes (r : RateLimitReq) (expire : Int64) (nonneg : 0 ≤ r.hits.toInt) :
    (tokenBucketCreate r expire).1.limit = r.limit ∧
      (tokenBucketCreate r expire).1.duration = r.duration ∧
      (0 ≤ r.limit.toInt → 0 ≤ (tokenBucketCreate r expire).1.remaining.toInt) ∧
      (tokenBucketCreate r expire).1.remaining.toInt ≤ r.limit.toInt ∧
      ((tokenBucketCreate r expire).2.status = .UNDER_LIMIT → 0 < r.hits.toInt →
        (tokenBucketCreate r expire).1.remaining.toInt = r.limit.toInt - r.hits.toInt) := by
  unfold tokenBucketCreate
  split_ifs with exceeded
  · simp
  · rw [gt_iff_lt, Int64.lt_iff_toInt_lt] at exceeded
    have fits : Fits (r.limit.toInt - r.hits.toInt) := by
      have := fits_toInt r.limit
      have := fits_toInt r.hits
      simp only [Fits] at *
      omega
    dsimp only
    rw [toInt_sub_of_fits _ _ fits]
    exact ⟨rfl, rfl, fun _ => by omega, by omega, fun _ _ => rfl⟩

def tokenBucketNewItem (s : Option (Store σ)) (st : σ) (c : LRUCache) (now : Time)
    (r : RateLimitReq) (reqState : RateLimitReqState) : Outcome σ :=
  let expire : Except String Int64 :=
    if hasBehavior r.behavior Behavior.DURATION_IS_GREGORIAN then gregorianExpiration now r.duration
    else .ok (r.createdAtValue + r.duration)
  match expire with
  | .error e => ⟨.error e, c, st⟩
  | .ok expire =>
    let (t, rl) := tokenBucketCreate r expire
    let item : CacheItem :=
      { algorithm := .TOKEN_BUCKET, key := r.hashKey, value := .tokenBucket t, expireAt := expire }
    ⟨.ok rl, (c.add item).1, Store.onChangeIf s reqState st r item⟩

/-! A request with the bucket's own limit and duration leaves both alone, and
the hit branches decide the rest. -/

theorem tokenBucketLimitChange_of_same {t : TokenBucketItem} {r : RateLimitReq}
    (same : t.limit = r.limit) : tokenBucketLimitChange t r = t := by
  simp [tokenBucketLimitChange, same]

theorem tokenBucketDurationChange_of_same {t : TokenBucketItem} {r : RateLimitReq}
    (same : t.duration = r.duration) (expireAt : Int64) (now : Time) :
    tokenBucketDurationChange t expireAt now r = .ok (t, expireAt) := by
  simp [tokenBucketDurationChange, same]

theorem tokenBucketUpdate_of_steady {t : TokenBucketItem} {r : RateLimitReq}
    (limit : t.limit = r.limit) (duration : t.duration = r.duration) (expireAt : Int64) (now : Time) :
    tokenBucketUpdate t expireAt now r =
      let rl : RateLimitResp :=
        { status := t.status, limit := r.limit, remaining := t.remaining, resetTime := expireAt }
      .ok ((tokenBucketHits t rl r).1, expireAt, (tokenBucketHits t rl r).2) := by
  simp [tokenBucketUpdate, tokenBucketLimitChange_of_same limit,
    tokenBucketDurationChange_of_same duration]

-- The hit branches touch only Remaining and Status of the bucket.
theorem tokenBucketHits_config (t : TokenBucketItem) (rl : RateLimitResp) (r : RateLimitReq) :
    (tokenBucketHits t rl r).1.limit = t.limit ∧ (tokenBucketHits t rl r).1.duration = t.duration := by
  unfold tokenBucketHits
  split_ifs <;> exact ⟨rfl, rfl⟩

open Int64Range in
theorem tokenBucketHits_takes (t : TokenBucketItem) (rl : RateLimitResp) (r : RateLimitReq)
    (stocked : 0 ≤ t.remaining.toInt)
    (nonneg : 0 ≤ r.hits.toInt) :
    0 ≤ (tokenBucketHits t rl r).1.remaining.toInt ∧
      (tokenBucketHits t rl r).1.remaining.toInt ≤ t.remaining.toInt ∧
      ((tokenBucketHits t rl r).2.status = .UNDER_LIMIT → 0 < r.hits.toInt →
        (tokenBucketHits t rl r).1.remaining.toInt = t.remaining.toInt - r.hits.toInt) := by
  unfold tokenBucketHits
  split_ifs with none empty exact exceeded drain
  · have : r.hits.toInt = 0 := by simp [none]
    simp only [this]
    omega
  · simp
    omega
  · simp [exact, nonneg]
  · simp
    omega
  · simp
    omega
  · rw [gt_iff_lt, Int64.lt_iff_toInt_lt] at exceeded
    dsimp only
    rw [toInt_sub_of_nonneg _ _ stocked nonneg]
    omega

theorem tokenBucketHits_status_iff_taken (t : TokenBucketItem) (rl : RateLimitResp) (r : RateLimitReq)
    (stored : rl.status = .UNDER_LIMIT) (positive : 0 < r.hits) :
    (tokenBucketHits t rl r).2.status = .UNDER_LIMIT ↔
      (tokenBucketHits t rl r).1.remaining = t.remaining - r.hits := by
  have moved : r.hits ≠ 0 := fun zero => Int64.lt_irrefl (zero ▸ positive)
  unfold tokenBucketHits
  split_ifs with none empty exact exceeded drain
  · exact absurd none moved
  · -- Already at the limit: refused, and nothing is taken.
    simp only [false_iff]
    grind
  · simp only [stored, true_iff]
    grind
  · -- More than Remaining: refused, and a drain empties Remaining instead of taking the hits.
    simp only [false_iff]
    intro drained
    have same : t.remaining = r.hits := by grind
    exact Int64.lt_irrefl (same ▸ exceeded)
  · simp only [false_iff]
    grind
  · simp [stored]

def tokenBucket (s : Option (Store σ)) (st : σ) (c : LRUCache) (now : Time)
    (r : RateLimitReq) (reqState : RateLimitReqState) : Outcome σ :=
  let hashKey := r.hashKey
  match lookupBucket s st c now r with
  | (none, c, st) => tokenBucketNewItem s st c now r reqState
  | (some item, c, st) =>
    if hasBehavior r.behavior Behavior.RESET_REMAINING then
      ⟨.ok { status := .UNDER_LIMIT, limit := r.limit, remaining := r.limit, resetTime := 0 },
        c.remove hashKey, Store.removeIf s st hashKey⟩
    else
      match item.value with
      | .tokenBucket t =>
        match tokenBucketUpdate t item.expireAt now r with
        | .error (e, t) => ⟨.error e, c.setItem hashKey { item with value := .tokenBucket t }, st⟩
        | .ok (t, expire, rl) =>
          let item := { item with value := .tokenBucket t, expireAt := expire }
          ⟨.ok rl, c.setItem hashKey item, Store.onChangeIf s reqState st r item⟩
      -- Client switched algorithms; perhaps due to a migration?
      | _ => tokenBucketNewItem s (Store.removeIf s st hashKey) (c.remove hashKey) now r reqState

/-! Everything a call can do, one case per return of the source: callers take
these apart and never unfold the algorithm. -/

theorem tokenBucketNewItem_cases (s : Option (Store σ)) (st : σ) (c : LRUCache) (now : Time)
    (r : RateLimitReq) (reqState : RateLimitReqState) :
    (∃ e, hasBehavior r.behavior Behavior.DURATION_IS_GREGORIAN = true ∧
        tokenBucketNewItem s st c now r reqState = ⟨.error e, c, st⟩) ∨
      ∃ rl item, item.key = r.hashKey ∧
        tokenBucketNewItem s st c now r reqState =
          ⟨.ok rl, (c.add item).1, Store.onChangeIf s reqState st r item⟩ := by
  unfold tokenBucketNewItem
  cases gregorian : hasBehavior r.behavior Behavior.DURATION_IS_GREGORIAN
  · exact .inr ⟨_, _, rfl, rfl⟩
  · -- Only the calendar can refuse the duration.
    cases gregorianExpiration now r.duration with
    | error e => exact .inl ⟨e, rfl, rfl⟩
    | ok expire => exact .inr ⟨_, _, rfl, rfl⟩

theorem tokenBucket_cases {s : Option (Store σ)} {st : σ} {c : LRUCache} {now : Time}
    {r : RateLimitReq} (reqState : RateLimitReqState) {found : Option CacheItem} {c' : LRUCache}
    {st' : σ} (looked : lookupBucket s st c now r = (found, c', st')) :
    (found = none ∧ tokenBucket s st c now r reqState = tokenBucketNewItem s st' c' now r reqState) ∨
      (∃ item, found = some item ∧ hasBehavior r.behavior Behavior.RESET_REMAINING = true ∧
        tokenBucket s st c now r reqState =
          ⟨.ok { status := .UNDER_LIMIT, limit := r.limit, remaining := r.limit, resetTime := 0 },
            c'.remove r.hashKey, Store.removeIf s st' r.hashKey⟩) ∨
      (∃ item t e t', found = some item ∧ hasBehavior r.behavior Behavior.RESET_REMAINING = false ∧
        item.value = .tokenBucket t ∧ tokenBucketUpdate t item.expireAt now r = .error (e, t') ∧
        tokenBucket s st c now r reqState =
          ⟨.error e, c'.setItem r.hashKey { item with value := .tokenBucket t' }, st'⟩) ∨
      (∃ item t t' expire rl, found = some item ∧
        hasBehavior r.behavior Behavior.RESET_REMAINING = false ∧
        item.value = .tokenBucket t ∧ tokenBucketUpdate t item.expireAt now r = .ok (t', expire, rl) ∧
        tokenBucket s st c now r reqState =
          ⟨.ok rl, c'.setItem r.hashKey { item with value := .tokenBucket t', expireAt := expire },
            Store.onChangeIf s reqState st' r { item with value := .tokenBucket t', expireAt := expire }⟩) ∨
      (∃ item, found = some item ∧ hasBehavior r.behavior Behavior.RESET_REMAINING = false ∧
        (∀ t, item.value ≠ .tokenBucket t) ∧
        tokenBucket s st c now r reqState =
          tokenBucketNewItem s (Store.removeIf s st' r.hashKey) (c'.remove r.hashKey) now r reqState) := by
  rcases found with _ | item
  · exact .inl ⟨rfl, by simp only [tokenBucket, looked]⟩
  right
  cases reset : hasBehavior r.behavior Behavior.RESET_REMAINING
  · right
    cases value : item.value with
    | tokenBucket t =>
      cases updated : tokenBucketUpdate t item.expireAt now r with
      | error failure =>
        obtain ⟨e, t'⟩ := failure
        exact .inl ⟨item, t, e, t', rfl, rfl, value, updated,
          by simp [tokenBucket, looked, reset, value, updated]⟩
      | ok result =>
        obtain ⟨t', expire, rl⟩ := result
        exact .inr (.inl ⟨item, t, t', expire, rl, rfl, rfl, value, updated,
          by simp [tokenBucket, looked, reset, value, updated]⟩)
    | nil | leakyBucket _ =>
      -- Another algorithm's bucket: the switch path.
      refine .inr (.inr ⟨item, rfl, rfl, by simp [value], ?_⟩)
      simp only [tokenBucket, looked, reset, value, Bool.false_eq_true, if_false]
  · exact .inl ⟨item, rfl, rfl, by simp [tokenBucket, looked, reset]⟩

end Gubernator
