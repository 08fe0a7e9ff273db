import Gubernator.TokenBucketRun

/-!
Runs on one key. A run on one key reads the cache only through that key's
bucket, so from two caches that hold the same bucket for it, each with room for
it beside its other entries, a token-bucket run answers alike. A status query on
a live token bucket of the query's own Limit and Duration writes that bucket
back as it found it, so inserting it into a run changes no later answer. A query
on a key with no bucket creates one, opening its window at the query's time, and
on a leaky bucket a query commits the leak so far: both show in later answers.
-/

namespace Gubernator

open CivilTime RecencyList

namespace LRUCache

/-- A cache in step with its map and with room for the bucket of `k` beside its
other entries, so that adding that bucket evicts nothing. -/
structure RoomFor (k : String) (c : LRUCache) : Prop where
  sync : c.Sync
  room : ((erase CacheItem.key c.entries k).length : Int) < c.cacheSize

/-- Two caches that a run on `k` cannot tell apart: both have room for the
bucket of `k`, and they hold the same one. -/
structure KeyAgree (k : String) (c₁ c₂ : LRUCache) : Prop where
  left : RoomFor k c₁
  right : RoomFor k c₂
  same : find CacheItem.key c₁.entries k = find CacheItem.key c₂.entries k

variable {k : String} {c c₁ c₂ : LRUCache}

theorem RoomFor.nonneg (roomy : RoomFor k c) : 0 ≤ c.cacheSize := by
  have room := roomy.room
  omega

-- Each operation on `k` leaves the other keys' entries, and so the room, as they were.
theorem RoomFor.getItem (roomy : RoomFor k c) (now : Int64) : RoomFor k (c.getItem k now).2 := by
  obtain ⟨synced, -, entries⟩ := roomy.sync.getItem_spec k now
  refine ⟨synced, ?_⟩
  rw [entries, erase_get_self, getItem_cacheSize]
  exact roomy.room

theorem RoomFor.add (roomy : RoomFor k c) {item : CacheItem} (keyed : item.key = k) :
    RoomFor k (c.add item).1 := by
  subst keyed
  obtain ⟨synced, entries, size, -⟩ := roomy.sync.add_spec item
  refine ⟨synced, ?_⟩
  rw [entries, size, erase_put_self roomy.room]
  exact roomy.room

theorem RoomFor.remove (roomy : RoomFor k c) : RoomFor k (c.remove k) := by
  obtain ⟨synced, entries⟩ := roomy.sync.remove_spec k
  refine ⟨synced, ?_⟩
  rw [entries, erase_erase_self, remove_cacheSize]
  exact roomy.room

theorem RoomFor.setItem (roomy : RoomFor k c) {item : CacheItem} (keyed : item.key = k) :
    RoomFor k (c.setItem k item) := by
  obtain ⟨synced, entries⟩ := roomy.sync.setItem_spec k keyed
  refine ⟨synced, ?_⟩
  rw [entries, erase_update_self _ _ _ (fun _ _ => keyed), setItem_cacheSize]
  exact roomy.room

theorem KeyAgree.refl (roomy : RoomFor k c) : KeyAgree k c c := ⟨roomy, roomy, rfl⟩

theorem KeyAgree.getItem (agree : KeyAgree k c₁ c₂) (now : Int64) :
    (c₁.getItem k now).1 = (c₂.getItem k now).1 ∧ KeyAgree k (c₁.getItem k now).2 (c₂.getItem k now).2 := by
  obtain ⟨-, answer₁, entries₁⟩ := agree.left.sync.getItem_spec k now
  obtain ⟨-, answer₂, entries₂⟩ := agree.right.sync.getItem_spec k now
  have answers : (c₁.getItem k now).1 = (c₂.getItem k now).1 := by
    rw [answer₁, answer₂, get_fst, get_fst, agree.same]
  refine ⟨answers, agree.left.getItem now, agree.right.getItem now, ?_⟩
  rw [entries₁, entries₂, find_get, find_get, if_pos rfl, if_pos rfl, ← answer₁, ← answer₂, answers]

theorem KeyAgree.add (agree : KeyAgree k c₁ c₂) {item : CacheItem} (keyed : item.key = k) :
    KeyAgree k (c₁.add item).1 (c₂.add item).1 := by
  refine ⟨agree.left.add keyed, agree.right.add keyed, ?_⟩
  subst keyed
  rw [(agree.left.sync.add_spec item).2.1, (agree.right.sync.add_spec item).2.1,
    find_put_self _ _ agree.left.nonneg, find_put_self _ _ agree.right.nonneg]

theorem KeyAgree.remove (agree : KeyAgree k c₁ c₂) : KeyAgree k (c₁.remove k) (c₂.remove k) := by
  refine ⟨agree.left.remove, agree.right.remove, ?_⟩
  rw [(agree.left.sync.remove_spec k).2, (agree.right.sync.remove_spec k).2, find_erase, find_erase,
    if_pos rfl, if_pos rfl]

theorem KeyAgree.setItem (agree : KeyAgree k c₁ c₂) (item : CacheItem) (keyed : item.key = k) :
    KeyAgree k (c₁.setItem k item) (c₂.setItem k item) := by
  refine ⟨agree.left.setItem keyed, agree.right.setItem keyed, ?_⟩
  rw [(agree.left.sync.setItem_spec k keyed).2, (agree.right.sync.setItem_spec k keyed).2,
    find_update _ _ _ (fun _ _ => keyed), find_update _ _ _ (fun _ _ => keyed), if_pos rfl, if_pos rfl,
    agree.same]

end LRUCache

open LRUCache

variable {σ : Type} {k : String} {c₁ c₂ : LRUCache}

theorem lookupBucket_none_eq (st : σ) (c : LRUCache) (now : Time) (r : RateLimitReq) :
    lookupBucket none st c now r =
      (sanityCheck r.hashKey (c.getItem r.hashKey (millisecondNow now)).1,
        (c.getItem r.hashKey (millisecondNow now)).2, st) := rfl

theorem lookupBucket_agree (st : σ) (agree : KeyAgree k c₁ c₂) (now : Time) {r : RateLimitReq}
    (keyed : r.hashKey = k) :
    (lookupBucket none st c₁ now r).1 = (lookupBucket none st c₂ now r).1 ∧
      KeyAgree k (lookupBucket none st c₁ now r).2.1 (lookupBucket none st c₂ now r).2.1 := by
  subst keyed
  obtain ⟨answers, agreed⟩ := agree.getItem (millisecondNow now)
  rw [lookupBucket_none_eq, lookupBucket_none_eq]
  exact ⟨by rw [answers], agreed⟩

theorem tokenBucketNewItem_agree (st : σ) (agree : KeyAgree k c₁ c₂) (now : Time) {r : RateLimitReq}
    (keyed : r.hashKey = k) (reqState : RateLimitReqState) :
    (tokenBucketNewItem none st c₁ now r reqState).resp = (tokenBucketNewItem none st c₂ now r reqState).resp ∧
      KeyAgree k (tokenBucketNewItem none st c₁ now r reqState).cache
        (tokenBucketNewItem none st c₂ now r reqState).cache := by
  unfold tokenBucketNewItem
  dsimp only
  -- The new bucket is made from the request and the clock alone.
  generalize (if hasBehavior r.behavior Behavior.DURATION_IS_GREGORIAN then gregorianExpiration now r.duration
    else .ok (r.createdAtValue + r.duration) : Except String Int64) = expire
  cases expire with
  | error e => exact ⟨rfl, agree⟩
  | ok expire => exact ⟨rfl, agree.add keyed⟩

-- Both caches take the same branch of the algorithm: the one their common
-- lookup selects, and each branch is an operation on the request's key.
theorem tokenBucket_agree (st : σ) (agree : KeyAgree k c₁ c₂) (now : Time) {r : RateLimitReq}
    (keyed : r.hashKey = k) (reqState : RateLimitReqState) :
    (tokenBucket none st c₁ now r reqState).resp = (tokenBucket none st c₂ now r reqState).resp ∧
      KeyAgree k (tokenBucket none st c₁ now r reqState).cache (tokenBucket none st c₂ now r reqState).cache := by
  obtain ⟨answers, agreed⟩ := lookupBucket_agree st agree now keyed
  rw [lookupBucket_none_eq, lookupBucket_none_eq] at answers agreed
  dsimp only at answers agreed
  unfold tokenBucket
  rw [lookupBucket_none_eq, lookupBucket_none_eq]
  dsimp only
  rw [← answers]
  subst keyed
  generalize found : sanityCheck r.hashKey (c₁.getItem r.hashKey (millisecondNow now)).1 = item at *
  cases item with
  | none => exact tokenBucketNewItem_agree st agreed now rfl reqState
  | some item =>
    obtain ⟨-, -, itemKeyed⟩ := sanityCheck_eq_some found
    dsimp only
    cases reset : hasBehavior r.behavior Behavior.RESET_REMAINING with
    | true => exact ⟨rfl, agreed.remove⟩
    | false =>
      simp only [Bool.false_eq_true, if_false]
      cases value : item.value with
      | tokenBucket t =>
        dsimp only
        cases update : tokenBucketUpdate t item.expireAt now r with
        | error failure =>
          obtain ⟨e, t'⟩ := failure
          exact ⟨rfl, agreed.setItem _ itemKeyed⟩
        | ok result =>
          obtain ⟨t', expire, rl⟩ := result
          exact ⟨rfl, agreed.setItem _ itemKeyed⟩
      | nil => exact tokenBucketNewItem_agree st agreed.remove now rfl reqState
      | leakyBucket b => exact tokenBucketNewItem_agree st agreed.remove now rfl reqState


theorem tokenBucketStep_agree (reqState : RateLimitReqState) (agree : KeyAgree k c₁ c₂)
    {i : Time × RateLimitReq} (keyed : i.2.hashKey = k) :
    (tokenBucketStep reqState c₁ i).1 = (tokenBucketStep reqState c₂ i).1 ∧
      KeyAgree k (tokenBucketStep reqState c₁ i).2 (tokenBucketStep reqState c₂ i).2 :=
  tokenBucket_agree () agree i.1 keyed reqState

theorem tokenBucketStep_roomFor (reqState : RateLimitReqState) {c : LRUCache} (roomy : RoomFor k c)
    {i : Time × RateLimitReq} (keyed : i.2.hashKey = k) : RoomFor k (tokenBucketStep reqState c i).2 :=
  (tokenBucketStep_agree reqState (KeyAgree.refl roomy) keyed).2.left

theorem tokenBucket_run_agree (reqState : RateLimitReqState) (agree : KeyAgree k c₁ c₂)
    (is : List (Time × RateLimitReq)) (oneKey : ∀ i ∈ is, i.2.hashKey = k) :
    (Run.run (tokenBucketStep reqState) c₁ is).1 = (Run.run (tokenBucketStep reqState) c₂ is).1 ∧
      KeyAgree k (Run.run (tokenBucketStep reqState) c₁ is).2 (Run.run (tokenBucketStep reqState) c₂ is).2 :=
  @Run.run_congr _ _ _ (tokenBucketStep reqState) (KeyAgree k) (fun i => i.2.hashKey = k)
    (fun _ _ _ keyed agree => tokenBucketStep_agree reqState agree keyed) is c₁ c₂ oneKey agree

theorem tokenBucketStep_query (reqState : RateLimitReqState) {c : LRUCache} {q : Time × RateLimitReq}
    (roomy : RoomFor q.2.hashKey c) {item : CacheItem} {t : TokenBucketItem}
    (held : find CacheItem.key c.entries q.2.hashKey = some item)
    (live : item.isExpired (millisecondNow q.1) = false) (bucket : item.value = .tokenBucket t)
    (query : q.2.hits = 0) (limit : t.limit = q.2.limit) (duration : t.duration = q.2.duration)
    (noReset : hasBehavior q.2.behavior Behavior.RESET_REMAINING = false) :
    KeyAgree q.2.hashKey (tokenBucketStep reqState c q).2 c := by
  obtain ⟨now, r⟩ := q
  dsimp only at *
  have lookup := lookupBucket_live roomy.sync () held live (by simp [bucket])
  have steady := tokenBucketUpdate_of_steady limit duration item.expireAt now
  have rewritten : ({ item with value := .tokenBucket t, expireAt := item.expireAt } : CacheItem) = item := by
    rw [← bucket]
  have result : (tokenBucketStep reqState c (now, r)).2 =
      (c.getItem r.hashKey (millisecondNow now)).2.setItem r.hashKey item := by
    simp [tokenBucketStep, tokenBucket, lookup, noReset, bucket, steady, tokenBucketHits, query, rewritten]
  obtain ⟨-, synced, entries⟩ := roomy.sync.getItem_live held live
  have keyed : item.key = r.hashKey := key_of_find held
  rw [result]
  refine ⟨(roomy.getItem _).setItem keyed, roomy, ?_⟩
  rw [(synced.setItem_spec _ keyed).2, find_update _ _ _ (fun _ _ => keyed), if_pos rfl, entries, find_cons,
    if_pos keyed, held]
  rfl


/-- Inserting a status query into a token-bucket run on one key, at a point where
the key's bucket is live and has the query's Limit and Duration, changes no later
answer: from a cache with room for the key, the answers to the requests after the
query are those of the run without it. -/
theorem status_query_keeps_later_answers (reqState : RateLimitReqState) {c : LRUCache} (sync : c.Sync)
    (before after : List (Time × RateLimitReq)) (q : Time × RateLimitReq)
    (room : ((erase CacheItem.key c.entries q.2.hashKey).length : Int) < c.cacheSize)
    (oneKey : ∀ i ∈ before ++ q :: after, i.2.hashKey = q.2.hashKey)
    (query : q.2.hits = 0) (noReset : hasBehavior q.2.behavior Behavior.RESET_REMAINING = false)
    (live : ∃ item t, find CacheItem.key (Run.run (tokenBucketStep reqState) c before).2.entries q.2.hashKey =
        some item ∧ item.isExpired (millisecondNow q.1) = false ∧ item.value = .tokenBucket t ∧
      t.limit = q.2.limit ∧ t.duration = q.2.duration) :
    (Run.run (tokenBucketStep reqState) c (before ++ q :: after)).1.drop (before.length + 1) =
      (Run.run (tokenBucketStep reqState) c (before ++ after)).1.drop before.length := by
  obtain ⟨item, t, held, alive, bucket, limit, duration⟩ := live
  -- The run up to the query keeps the room for the key.
  have reached : RoomFor q.2.hashKey (Run.run (tokenBucketStep reqState) c before).2 :=
    @Run.invariant_run _ _ _ (tokenBucketStep reqState) (RoomFor q.2.hashKey) (fun i => i.2.hashKey = q.2.hashKey)
      (fun _ _ keyed roomy => tokenBucketStep_roomFor reqState roomy keyed) before c
      (fun i member => oneKey i (List.mem_append_left _ member)) ⟨sync, room⟩
  set c' := (Run.run (tokenBucketStep reqState) c before).2
  -- After the query the cache agrees with the one before it on the key.
  have queried := tokenBucketStep_query reqState reached held alive bucket query limit duration noReset
  have later := tokenBucket_run_agree reqState queried after
    (fun i member => oneKey i (List.mem_append_right _ (List.mem_cons_of_mem q member)))
  calc (Run.run (tokenBucketStep reqState) c (before ++ q :: after)).1.drop (before.length + 1)
      = ((Run.run (tokenBucketStep reqState) c (before ++ q :: after)).1.drop before.length).drop 1 := by
        rw [List.drop_drop]
    _ = (Run.run (tokenBucketStep reqState) (tokenBucketStep reqState c' q).2 after).1 := by
        rw [Run.drop_run_append, Run.run_cons, List.drop_one, List.tail_cons]
    _ = (Run.run (tokenBucketStep reqState) c' after).1 := later.1
    _ = (Run.run (tokenBucketStep reqState) c (before ++ after)).1.drop before.length :=
        (Run.drop_run_append c before after).symm

def queryRequest (hits createdAt : Int64) : RateLimitReq :=
  { name := "requests_per_sec", uniqueKey := "account:1", hits := hits, limit := 5, duration := 1000,
    createdAt := some createdAt }

/-- A hit at 0 ms opens the bucket of `account:1`, a status query follows at 100 ms
and a hit at 500 ms. -/
def queriedRun : List (Time × RateLimitReq) × (Time × RateLimitReq) × List (Time × RateLimitReq) :=
  ([(⟨0⟩, queryRequest 1 0)], (⟨100 * 1000000⟩, queryRequest 0 100), [(⟨500 * 1000000⟩, queryRequest 1 500)])

theorem status_query_keeps_later_answers_account :
    (∀ i ∈ queriedRun.1 ++ queriedRun.2.1 :: queriedRun.2.2, i.2.hashKey = queriedRun.2.1.2.hashKey) ∧
      (∃ item t, find CacheItem.key (Run.run (tokenBucketStep ⟨true⟩) (newLRUCache 0) queriedRun.1).2.entries
          queriedRun.2.1.2.hashKey = some item ∧ item.isExpired (millisecondNow queriedRun.2.1.1) = false ∧
        item.value = .tokenBucket t ∧ t.limit = queriedRun.2.1.2.limit ∧ t.duration = queriedRun.2.1.2.duration) ∧
      (Run.run (tokenBucketStep ⟨true⟩) (newLRUCache 0) (queriedRun.1 ++ queriedRun.2.1 :: queriedRun.2.2)).1.drop
          (queriedRun.1.length + 1) =
        (Run.run (tokenBucketStep ⟨true⟩) (newLRUCache 0) (queriedRun.1 ++ queriedRun.2.2)).1.drop
          queriedRun.1.length :=
  have oneKey : ∀ i ∈ queriedRun.1 ++ queriedRun.2.1 :: queriedRun.2.2,
      i.2.hashKey = queriedRun.2.1.2.hashKey := by decide
  have live : ∃ item t, find CacheItem.key (Run.run (tokenBucketStep ⟨true⟩) (newLRUCache 0)
        queriedRun.1).2.entries queriedRun.2.1.2.hashKey = some item ∧
      item.isExpired (millisecondNow queriedRun.2.1.1) = false ∧ item.value = .tokenBucket t ∧
      t.limit = queriedRun.2.1.2.limit ∧ t.duration = queriedRun.2.1.2.duration :=
    ⟨tokenItem (queryRequest 1 0).hashKey 1000 { limit := 5, duration := 1000, remaining := 4, createdAt := 0 },
      { limit := 5, duration := 1000, remaining := 4, createdAt := 0 }, rfl, rfl, rfl, rfl, rfl⟩
  ⟨oneKey, live, status_query_keeps_later_answers ⟨true⟩ (LRUCache.newLRUCache_sync 0) queriedRun.1
    queriedRun.2.2 queriedRun.2.1 (by decide) oneKey rfl rfl live⟩

def hitAlone : List (Time × RateLimitReq) := [(⟨500 * 1000000⟩, queryRequest 1 500)]

def hitAfterQuery : List (Time × RateLimitReq) :=
  [(⟨0⟩, queryRequest 0 0), (⟨500 * 1000000⟩, queryRequest 1 500)]

def leakyQueryRequest (hits createdAt : Int64) : RateLimitReq :=
  { name := "requests_per_sec", uniqueKey := "account:1", hits := hits, limit := 2, duration := 3,
    algorithm := .LEAKY_BUCKET, createdAt := some createdAt }

def leakyHitAlone : List (Time × RateLimitReq) :=
  [(⟨0⟩, leakyQueryRequest 2 0), (⟨3 * 1000000⟩, leakyQueryRequest 1 3)]

/-- The same run with a status query at 2 ms. -/
def leakyHitAfterQuery : List (Time × RateLimitReq) :=
  [(⟨0⟩, leakyQueryRequest 2 0), (⟨2 * 1000000⟩, leakyQueryRequest 0 2), (⟨3 * 1000000⟩, leakyQueryRequest 1 3)]

/-- A status query changes later answers in two ways. On a key with no bucket it
creates the token bucket and opens its window at the query's time, so the later
hit is answered with ResetTime 1000 instead of the 1500 of the window it would
open itself. On a live leaky bucket it commits the leak so far, 4/3 of a hit, and
moves UpdatedAt; the 2/3 that leaks by 3 ms is below one hit and is not added, so
the later hit takes the last whole hit and is answered Remaining 0, where without
the query the full leak of two refills the bucket and the hit leaves Remaining 1. -/
theorem status_query_changes_later_answers :
    (Run.run (tokenBucketStep ⟨true⟩) (newLRUCache 0) hitAlone).1 =
      [.ok { status := .UNDER_LIMIT, limit := 5, remaining := 4, resetTime := 1500 }] ∧
    (Run.run (tokenBucketStep ⟨true⟩) (newLRUCache 0) hitAfterQuery).1 =
      [.ok { status := .UNDER_LIMIT, limit := 5, remaining := 5, resetTime := 1000 },
       .ok { status := .UNDER_LIMIT, limit := 5, remaining := 4, resetTime := 1000 }] ∧
    (Run.run (leakyBucketStep ⟨true⟩) (newLRUCache 0) leakyHitAlone).1 =
      [.ok { status := .UNDER_LIMIT, limit := 2, remaining := 0, resetTime := 2 },
       .ok { status := .UNDER_LIMIT, limit := 2, remaining := 1, resetTime := 4 }] ∧
    (Run.run (leakyBucketStep ⟨true⟩) (newLRUCache 0) leakyHitAfterQuery).1 =
      [.ok { status := .UNDER_LIMIT, limit := 2, remaining := 0, resetTime := 2 },
       .ok { status := .UNDER_LIMIT, limit := 2, remaining := 1, resetTime := 3 },
       .ok { status := .UNDER_LIMIT, limit := 2, remaining := 0, resetTime := 5 }] :=
  ⟨rfl, rfl, by decide +kernel, by decide +kernel⟩

end Gubernator
