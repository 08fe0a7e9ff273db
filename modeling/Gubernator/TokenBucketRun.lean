import Gubernator.Admission

/-!
The token bucket over a window: the first request of a run creates the item,
and while the clock has not passed the `ExpireAt` it set, every later request
with the same limit and duration finds that item and draws on the same
Remaining. Everything let through is then taken from Remaining, which stays in
`[0, Limit]`, so a window never lets through more than Limit hits.
-/

namespace Gubernator

open CivilTime RecencyList Int64Range

/-- The cache item `tokenBucketNewItem` creates, as later updates keep it. -/
def tokenItem (k : String) (expireAt : Int64) (t : TokenBucketItem) : CacheItem :=
  { algorithm := .TOKEN_BUCKET, key := k, value := .tokenBucket t, expireAt := expireAt }

/-- A request of the window the `first` request opens: the same key, limit and
duration, no reset and no Gregorian duration, hits that are not negative, and a
cache clock that has not passed the expiry `first` set. -/
structure SameWindow (first : RateLimitReq) (i : Time × RateLimitReq) : Prop where
  keyed : i.2.hashKey = first.hashKey
  limit : i.2.limit = first.limit
  duration : i.2.duration = first.duration
  noReset : hasBehavior i.2.behavior Behavior.RESET_REMAINING = false
  notGregorian : hasBehavior i.2.behavior Behavior.DURATION_IS_GREGORIAN = false
  nonneg : 0 ≤ i.2.hits.toInt
  live : millisecondNow i.1 ≤ first.createdAtValue + first.duration

instance (first : RateLimitReq) (i : Time × RateLimitReq) : Decidable (SameWindow first i) :=
  decidable_of_iff (i.2.hashKey = first.hashKey ∧ i.2.limit = first.limit ∧
      i.2.duration = first.duration ∧ hasBehavior i.2.behavior Behavior.RESET_REMAINING = false ∧
      hasBehavior i.2.behavior Behavior.DURATION_IS_GREGORIAN = false ∧ 0 ≤ i.2.hits.toInt ∧
      millisecondNow i.1 ≤ first.createdAtValue + first.duration)
    ⟨fun ⟨a, b, c, d, e, f, g⟩ => ⟨a, b, c, d, e, f, g⟩, fun ⟨a, b, c, d, e, f, g⟩ => ⟨a, b, c, d, e, f, g⟩⟩

/-- What a window keeps: the item of key `k` is cached with a bucket of limit `L`
and duration `D` whose Remaining lies in `[0, L]`, and the `total` let through so
far was taken from it. -/
structure TokenHeld (k : String) (L D E : Int64) (c : LRUCache) (total : Int) : Prop where
  sync : c.Sync
  held : ∃ t : TokenBucketItem, find CacheItem.key c.entries k = some (tokenItem k E t) ∧
    t.limit = L ∧ t.duration = D ∧ 0 ≤ t.remaining.toInt ∧ t.remaining.toInt ≤ L.toInt ∧
    total ≤ L.toInt - t.remaining.toInt

variable (reqState : RateLimitReqState)

-- Writing the bucket back leaves it as the entry of its key.
theorem find_setItem_tokenItem {c : LRUCache} (sync : c.Sync) {k : String} {E : Int64}
    {old : CacheItem} (t : TokenBucketItem) (found : find CacheItem.key c.entries k = some old) :
    (c.setItem k (tokenItem k E t)).Sync ∧
      find CacheItem.key (c.setItem k (tokenItem k E t)).entries k = some (tokenItem k E t) := by
  obtain ⟨synced, entries⟩ := sync.setItem_spec k (show (tokenItem k E t).key = k from rfl)
  refine ⟨synced, ?_⟩
  rw [entries, find_update k k _ (fun _ _ => rfl), found]
  simp

theorem tokenBucketStep_creates {c : LRUCache} (sync : c.Sync) (room : 0 ≤ c.cacheSize)
    {i : Time × RateLimitReq} (absent : find CacheItem.key c.entries i.2.hashKey = none)
    (notGregorian : hasBehavior i.2.behavior Behavior.DURATION_IS_GREGORIAN = false)
    (nonneg : 0 ≤ i.2.hits.toInt) (limitNonneg : 0 ≤ i.2.limit.toInt) :
    TokenHeld i.2.hashKey i.2.limit i.2.duration (i.2.createdAtValue + i.2.duration)
      (tokenBucketStep reqState c i).2 (admitted i.2 (tokenBucketStep reqState c i).1) := by
  obtain ⟨now, r⟩ := i
  set t := (tokenBucketCreate r (r.createdAtValue + r.duration)).1
  set rl := (tokenBucketCreate r (r.createdAtValue + r.duration)).2
  have item : tokenItem r.hashKey (r.createdAtValue + r.duration) t =
      { algorithm := .TOKEN_BUCKET, key := r.hashKey, value := .tokenBucket t,
        expireAt := r.createdAtValue + r.duration } := rfl
  have result : tokenBucketStep reqState c (now, r) =
      (.ok rl, (c.add (tokenItem r.hashKey (r.createdAtValue + r.duration) t)).1) := by
    simp [tokenBucketStep, tokenBucket, lookupBucket_absent sync () now absent, tokenBucketNewItem,
      notGregorian, item, t, rl]
  rw [result]
  obtain ⟨limit, duration, stocked, bounded, taken⟩ := tokenBucketCreate_takes r _ nonneg
  obtain ⟨synced, entries, -, -⟩ := sync.add_spec (tokenItem r.hashKey (r.createdAtValue + r.duration) t)
  refine ⟨synced, t, ?_, limit, duration, stocked limitNonneg, bounded, ?_⟩
  · rw [entries]
    exact find_put_self _ _ room
  · have fall := admitted_le_taken bounded taken
    omega

theorem tokenBucketStep_keeps {first : RateLimitReq} {c : LRUCache} {total : Int}
    (held : TokenHeld first.hashKey first.limit first.duration (first.createdAtValue + first.duration)
      c total)
    {i : Time × RateLimitReq} (window : SameWindow first i) :
    TokenHeld first.hashKey first.limit first.duration (first.createdAtValue + first.duration)
      (tokenBucketStep reqState c i).2 (total + admitted i.2 (tokenBucketStep reqState c i).1) := by
  obtain ⟨now, r⟩ := i
  obtain ⟨t, found, limit, duration, stocked, bounded, taken⟩ := held.held
  set E := first.createdAtValue + first.duration
  have keyed : r.hashKey = first.hashKey := window.keyed
  rw [← keyed] at found ⊢
  have live : (tokenItem r.hashKey E t).isExpired (millisecondNow now) = false :=
    CacheItem.isExpired_eq_false rfl window.live
  obtain ⟨-, synced, entries⟩ := held.sync.getItem_live found live
  have lookup := lookupBucket_live held.sync () found live (by simp [tokenItem])
  -- Same limit and same duration: the update is the hit branches alone.
  have update := tokenBucketUpdate_of_steady (limit.trans window.limit.symm)
    (duration.trans window.duration.symm) E now
  set rl : RateLimitResp :=
    { status := t.status, limit := r.limit, remaining := t.remaining, resetTime := E }
  set c' := (c.getItem r.hashKey (millisecondNow now)).2
  have result : tokenBucketStep reqState c (now, r) =
      (.ok (tokenBucketHits t rl r).2, c'.setItem r.hashKey (tokenItem r.hashKey E (tokenBucketHits t rl r).1)) := by
    simp [tokenBucketStep, tokenBucket, lookup, window.noReset, tokenItem, update, rl, c']
  rw [result]
  dsimp only
  have refound : find CacheItem.key c'.entries r.hashKey = some (tokenItem r.hashKey E t) := by
    rw [entries, find_cons]
    simp [tokenItem]
  obtain ⟨synced', found'⟩ := find_setItem_tokenItem synced (tokenBucketHits t rl r).1 refound
  obtain ⟨floor, falls, drawn⟩ := tokenBucketHits_takes t rl r stocked window.nonneg
  obtain ⟨limit', duration'⟩ := tokenBucketHits_config t rl r
  refine ⟨synced', _, found', limit'.trans limit, duration'.trans duration, floor, by omega, ?_⟩
  have fall := admitted_le_taken falls drawn
  omega

/-- The token bucket never lets through more than its limit in one window: over
any run whose first request creates the item and whose every request stays in
that request's window, the item stays cached with Remaining in `[0, Limit]`,
what the run let through is at most Limit less Remaining, and so at most Limit. -/
theorem tokenBucket_window_admits_at_most_limit {c : LRUCache} (sync : c.Sync)
    (room : 0 ≤ c.cacheSize) (first : Time × RateLimitReq) (rest : List (Time × RateLimitReq))
    (absent : find CacheItem.key c.entries first.2.hashKey = none)
    (limitNonneg : 0 ≤ first.2.limit.toInt)
    (window : ∀ i ∈ first :: rest, SameWindow first.2 i) :
    ∃ t : TokenBucketItem,
      find CacheItem.key (Run.run (tokenBucketStep reqState) c (first :: rest)).2.entries
          first.2.hashKey =
        some (tokenItem first.2.hashKey (first.2.createdAtValue + first.2.duration) t) ∧
      0 ≤ t.remaining.toInt ∧ t.remaining.toInt ≤ first.2.limit.toInt ∧
      admittedTotal (first :: rest) (Run.run (tokenBucketStep reqState) c (first :: rest)).1 ≤
        first.2.limit.toInt - t.remaining.toInt ∧
      admittedTotal (first :: rest) (Run.run (tokenBucketStep reqState) c (first :: rest)).1 ≤
        first.2.limit.toInt := by
  simp only [admittedTotal, Run.run_cons, Run.ledger_cons]
  have opening := window first List.mem_cons_self
  have created := tokenBucketStep_creates reqState sync room absent opening.notGregorian
    opening.nonneg limitNonneg
  rw [← zero_add (admitted _ _)] at created
  have kept := @Run.ledger_run _ _ _ _ (tokenBucketStep reqState)
    (TokenHeld first.2.hashKey first.2.limit first.2.duration (first.2.createdAtValue + first.2.duration))
    (fun total i o => total + admitted i.2 o) (SameWindow first.2)
    (fun _ _ _ inWindow held => tokenBucketStep_keeps reqState held inWindow) rest _ _
    (fun i member => window i (List.mem_cons_of_mem first member)) created
  obtain ⟨t, found, -, -, stocked, bounded, taken⟩ := kept.held
  exact ⟨t, found, stocked, bounded, taken, by omega⟩

def windowOpening : RateLimitReq :=
  { name := "requests_per_sec", uniqueKey := "account:1", hits := 3, limit := 5, duration := 1000,
    createdAt := some 0 }

def windowRequests : List (Time × RateLimitReq) :=
  [(⟨0⟩, windowOpening), (⟨0⟩, { windowOpening with hits := 2 })]

theorem tokenBucket_window_admits_at_most_limit_twice :
    (∀ i ∈ windowRequests, SameWindow windowOpening i) ∧
    ∃ t : TokenBucketItem,
      find CacheItem.key (Run.run (tokenBucketStep ⟨true⟩) (newLRUCache 0) windowRequests).2.entries
          windowOpening.hashKey = some (tokenItem windowOpening.hashKey 1000 t) ∧
      0 ≤ t.remaining.toInt ∧ t.remaining.toInt ≤ 5 ∧
      admittedTotal windowRequests
          (Run.run (tokenBucketStep ⟨true⟩) (newLRUCache 0) windowRequests).1 ≤ 5 - t.remaining.toInt ∧
      admittedTotal windowRequests
          (Run.run (tokenBucketStep ⟨true⟩) (newLRUCache 0) windowRequests).1 ≤ 5 :=
  ⟨by decide, tokenBucket_window_admits_at_most_limit ⟨true⟩ (LRUCache.newLRUCache_sync 0) (by decide)
    (⟨0⟩, windowOpening) [(⟨0⟩, { windowOpening with hits := 2 })] rfl (by decide) (by decide)⟩

/-! Status against accounting. The response of a cached bucket starts from the
Status the bucket stores; the branch for a bucket already at the limit stores
OVER_LIMIT, and nothing but a new bucket stores UNDER_LIMIT again. While the
stored Status is UNDER_LIMIT, `tokenBucketHits_status_iff_taken` makes the
answer agree with what is taken; once the bucket has been refilled after it,
a hit that is taken is still answered OVER_LIMIT. -/

def refillRequest (hits : Int64) : RateLimitReq :=
  { name := "requests_per_sec", uniqueKey := "account:1", hits := hits, limit := 1, duration := 1000,
    createdAt := some 0 }

/-- A hit, a hit past the limit, a negative hit that hands one back, then a hit. -/
def refillRequests : List (Time × RateLimitReq) :=
  [(⟨0⟩, refillRequest 1), (⟨0⟩, refillRequest 1), (⟨0⟩, refillRequest (-1)), (⟨0⟩, refillRequest 1)]

theorem tokenBucket_status_disagrees_after_refill :
    storedValue (Run.run (tokenBucketStep ⟨true⟩) (newLRUCache 0) (refillRequests.take 3)).2
        (refillRequest 1).hashKey =
      some (.tokenBucket
        { status := .OVER_LIMIT, limit := 1, duration := 1000, remaining := 1, createdAt := 0 }) ∧
    (Run.run (tokenBucketStep ⟨true⟩) (newLRUCache 0) refillRequests).1 =
      [.ok { status := .UNDER_LIMIT, limit := 1, remaining := 0, resetTime := 1000 },
       .ok { status := .OVER_LIMIT, limit := 1, remaining := 0, resetTime := 1000 },
       .ok { status := .OVER_LIMIT, limit := 1, remaining := 1, resetTime := 1000 },
       .ok { status := .OVER_LIMIT, limit := 1, remaining := 0, resetTime := 1000 }] ∧
    storedValue (Run.run (tokenBucketStep ⟨true⟩) (newLRUCache 0) refillRequests).2
        (refillRequest 1).hashKey =
      some (.tokenBucket
        { status := .OVER_LIMIT, limit := 1, duration := 1000, remaining := 0, createdAt := 0 }) := by
  decide +kernel

end Gubernator
