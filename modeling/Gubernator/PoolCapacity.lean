import Gubernator.PoolInvariants

/-! The capacity of the workers' caches. A cache property that every `LRUCache`
operation keeps is kept by every algorithm and every pool call; that a cache holds
no more items than its capacity is one (`Add` evicts the oldest item past it), so
over every run of a pool each worker's cache stays within its share of `CacheSize`
and its `Size` counts the items it holds. -/

namespace Gubernator

open CivilTime RecencyList

variable {σ : Type}

namespace LRUCache

/-- A property of caches that every cache operation keeps, on a cache in step
with its map. -/
structure Closed (Q : LRUCache → Prop) : Prop where
  add : ∀ c item, c.Sync → Q c → Q (c.add item).1
  remove : ∀ c k, c.Sync → Q c → Q (c.remove k)
  getItem : ∀ c k now, c.Sync → Q c → Q (c.getItem k now).2
  setItem : ∀ c k item, c.Sync → item.key = k → Q c → Q (c.setItem k item)
  updateExpiration : ∀ c k e, c.Sync → Q c → Q (c.updateExpiration k e).1

def WithinCapacity (c : LRUCache) : Prop := 1 ≤ c.cacheSize ∧ (c.entries.length : Int) ≤ c.cacheSize

-- Only `Add` grows the list, and it evicts past the capacity.
theorem withinCapacity_closed : Closed WithinCapacity where
  add c item sync within := by
    obtain ⟨-, entries, size, -⟩ := sync.add_spec item
    rw [WithinCapacity, entries, size]
    exact ⟨within.1, length_put_le item within.1 within.2⟩
  remove c k sync within := by
    obtain ⟨positive, bounded⟩ := within
    rw [WithinCapacity, (sync.remove_spec k).2, remove_cacheSize]
    have shorter : (erase CacheItem.key c.entries k).length ≤ c.entries.length := length_erase_le _ _
    exact ⟨positive, by omega⟩
  getItem c k now sync within := by
    obtain ⟨positive, bounded⟩ := within
    rw [WithinCapacity, (sync.getItem_spec k now).2.2, getItem_cacheSize]
    have shorter : (get CacheItem.key c.entries k (·.isExpired now)).2.length ≤ c.entries.length :=
      length_get_le _ _ _
    exact ⟨positive, by omega⟩
  setItem c k item sync keyed within := by
    rw [WithinCapacity, (sync.setItem_spec k keyed).2, setItem_cacheSize]
    simpa [update, WithinCapacity] using within
  updateExpiration c k e sync within := by
    rw [WithinCapacity, (sync.updateExpiration_spec k e).2.1, updateExpiration_cacheSize]
    simpa [update, WithinCapacity] using within

theorem sound_closed : Closed fun c => c.Sync ∧ 0 ≤ c.cacheSize where
  add c item sync q := ⟨(sync.add_spec item).1, by rw [(sync.add_spec item).2.2.1]; exact q.2⟩
  remove c k sync q := ⟨(sync.remove_spec k).1, by rw [remove_cacheSize]; exact q.2⟩
  getItem c k now sync q := ⟨(sync.getItem_spec k now).1, by rw [getItem_cacheSize]; exact q.2⟩
  setItem c k item sync keyed q := ⟨(sync.setItem_spec k keyed).1, by rw [setItem_cacheSize]; exact q.2⟩
  updateExpiration c k e sync q :=
    ⟨(sync.updateExpiration_spec k e).1, by rw [updateExpiration_cacheSize]; exact q.2⟩

-- `setter.SetDefault` makes a zero size 50,000, so a size that is not negative is positive.
theorem newLRUCache_withinCapacity {maxSize : Int} (nonneg : 0 ≤ maxSize) :
    (newLRUCache maxSize).WithinCapacity := by
  unfold WithinCapacity newLRUCache
  simp only [entries, LinkedList.empty, LinkedList.values, List.map_nil, List.length_nil, Nat.cast_zero]
  split <;> omega

end LRUCache

section Closed

variable {Q : LRUCache → Prop} (closed : LRUCache.Closed Q)
include closed

theorem lookupBucket_closed (s : Option (Store σ)) (st : σ) {c : LRUCache} (sync : c.Sync) (q : Q c)
    (now : Time) (r : RateLimitReq) : Q (lookupBucket s st c now r).2.1 := by
  have got := (sync.getItem_spec r.hashKey (millisecondNow now)).1
  have kept := closed.getItem c r.hashKey (millisecondNow now) sync q
  rcases cached : (c.getItem r.hashKey (millisecondNow now)).1 with _ | item
  · cases s with
    | none => simpa [lookupBucket, cached] using kept
    | some s =>
      -- A miss asks the Store, and an item it returns is added.
      rcases answered : s.get st r with ⟨_ | found, st'⟩
      · simpa [lookupBucket, cached, answered] using kept
      · simpa [lookupBucket, cached, answered] using closed.add _ found got kept
  · rw [lookupBucket_of_cached s st cached]
    exact kept

theorem tokenBucketNewItem_closed (s : Option (Store σ)) (st : σ) {c : LRUCache} (sync : c.Sync) (q : Q c)
    (now : Time) (r : RateLimitReq) (reqState : RateLimitReqState) :
    Q (tokenBucketNewItem s st c now r reqState).cache := by
  rcases tokenBucketNewItem_cases s st c now r reqState with ⟨e, -, made⟩ | ⟨rl, item, -, made⟩ <;> rw [made]
  · exact q
  · exact closed.add c item sync q

theorem leakyBucketNewItem_closed (s : Option (Store σ)) (st : σ) {c : LRUCache} (sync : c.Sync) (q : Q c)
    (now : Time) (r : RateLimitReq) (reqState : RateLimitReqState) :
    Q (leakyBucketNewItem s st c now r reqState).cache := by
  rcases leakyBucketNewItem_cases s st c now r reqState with ⟨e, -, made⟩ | ⟨rl, item, -, made⟩ <;> rw [made]
  · exact q
  · exact closed.add c item sync q

theorem tokenBucket_closed (s : Option (Store σ)) (st : σ) {c : LRUCache} (sync : c.Sync) (q : Q c)
    (now : Time) (r : RateLimitReq) (reqState : RateLimitReqState) :
    Q (tokenBucket s st c now r reqState).cache := by
  rcases looked : lookupBucket s st c now r with ⟨found, c', st'⟩
  have synced : c'.Sync := by simpa [looked] using lookupBucket_sync s st sync now r
  have q' : Q c' := by simpa [looked] using lookupBucket_closed closed s st sync q now r
  rcases tokenBucket_cases reqState looked with
    ⟨-, fresh⟩ | ⟨item, -, -, reset⟩ | ⟨item, t, e, t', isFound, -, -, -, failed⟩ |
      ⟨item, t, t', expire, rl, isFound, -, -, -, ran⟩ | ⟨item, -, -, -, switched⟩
  · rw [fresh]
    exact tokenBucketNewItem_closed closed s st' synced q' now r reqState
  · rw [reset]
    exact closed.remove c' r.hashKey synced q'
  · have keyed := found_key looked isFound
    rw [failed]
    exact closed.setItem c' r.hashKey _ synced keyed q'
  · have keyed := found_key looked isFound
    rw [ran]
    exact closed.setItem c' r.hashKey _ synced keyed q'
  · rw [switched]
    exact tokenBucketNewItem_closed closed _ _ (synced.remove_spec _).1 (closed.remove c' _ synced q') now r
      reqState

theorem leakyBucket_closed (s : Option (Store σ)) (st : σ) {c : LRUCache} (sync : c.Sync) (q : Q c)
    (now : Time) (r : RateLimitReq) (reqState : RateLimitReqState) :
    Q (leakyBucket s st c now r reqState).cache := by
  -- The algorithm works with the request whose Burst defaults to Limit.
  set r' : RateLimitReq := if r.burst = 0 then { r with burst := r.limit } else r with burst
  rcases looked : lookupBucket s st c now r' with ⟨found, c', st'⟩
  have synced : c'.Sync := by simpa [looked] using lookupBucket_sync s st sync now r'
  have q' : Q c' := by simpa [looked] using lookupBucket_closed closed s st sync q now r'
  rcases leakyBucket_cases reqState burst looked with
    ⟨-, fresh⟩ | ⟨item, b, e, isFound, -, -, failed⟩ |
      ⟨item, b, rate, duration, isFound, -, -, c₂, it, rl, ran, renewed, sameKey⟩ | ⟨item, -, -, switched⟩
  · rw [fresh]
    exact leakyBucketNewItem_closed closed s st' synced q' now r' reqState
  · have keyed := found_key looked isFound
    rw [failed]
    exact closed.setItem c' r'.hashKey _ synced keyed q'
  · -- The window may have been renewed before the bucket is stored.
    have renews : c₂.Sync ∧ Q c₂ := by
      rcases renewed with rfl | ⟨e, rfl⟩
      · exact ⟨synced, q'⟩
      · exact ⟨(synced.updateExpiration_spec _ e).1, closed.updateExpiration c' _ e synced q'⟩
    have keyed := sameKey.trans (found_key looked isFound)
    rw [ran]
    exact closed.setItem c₂ r'.hashKey it renews.1 keyed renews.2
  · rw [switched]
    exact leakyBucketNewItem_closed closed _ _ (synced.remove_spec _).1 (closed.remove c' _ synced q') now r'
      reqState

theorem handleGetRateLimit_closed (s : Option (Store σ)) (st : σ) {c : LRUCache} (sync : c.Sync) (q : Q c)
    (now : Time) (r : RateLimitReq) (reqState : RateLimitReqState) :
    Q (handleGetRateLimit s st c now r reqState).cache := by
  unfold handleGetRateLimit
  cases r.algorithm with
  | TOKEN_BUCKET => exact tokenBucket_closed closed s st sync q now r reqState
  | LEAKY_BUCKET => exact leakyBucket_closed closed s st sync q now r reqState
  | unrecognized value _ => exact q

end Closed

namespace WorkerPool

variable {p : WorkerPool σ}

theorem all_set {Q : LRUCache → Prop} (all : ∀ c ∈ p.caches, Q c) {i : Nat} {c' : LRUCache} (new : Q c') :
    ∀ c ∈ ({ p with caches := p.caches.set i c' } : WorkerPool σ).caches, Q c := by
  intro d member
  rcases List.mem_or_eq_of_mem_set member with old | rfl
  · exact all d old
  · exact new

theorem serve_closed {Q : LRUCache → Prop} (closed : LRUCache.Closed Q) (sound : p.Sound)
    (all : ∀ c ∈ p.caches, Q c) {call : Call} {st st' : σ} {p' : WorkerPool σ}
    (served : serve (p, st) call = some (p', st')) : ∀ c ∈ p'.caches, Q c := by
  cases call with
  | getRateLimit now req reqState =>
    obtain ⟨⟨resp, q, st''⟩, ran, same⟩ := Option.map_eq_some_iff.mp served
    cases same
    obtain ⟨c, got, -, rfl, -⟩ := getRateLimit_eq_some ran
    exact all_set all (handleGetRateLimit_closed closed p.store st (sound.cache got).1
      (all c (List.mem_of_getElem? got)) now req reqState)
  | addCacheItem key item =>
    obtain ⟨q, added, same⟩ := Option.map_eq_some_iff.mp served
    cases same
    obtain ⟨c, got, rfl⟩ := addCacheItem_eq_some added
    exact all_set all (closed.add c item (sound.cache got).1 (all c (List.mem_of_getElem? got)))
  | getCacheItem key now =>
    obtain ⟨⟨item, q⟩, read, same⟩ := Option.map_eq_some_iff.mp served
    cases same
    obtain ⟨c, got, -, rfl⟩ := getCacheItem_eq_some read
    exact all_set all (closed.getItem c key now (sound.cache got).1 (all c (List.mem_of_getElem? got)))

theorem serve_run_closed {Q : LRUCache → Prop} (closed : LRUCache.Closed Q) {start : WorkerPool σ}
    (sound : start.Sound) (all : ∀ c ∈ start.caches, Q c) (calls : List Call) (st : σ) :
    ∀ ps ∈ Run.runSome serve (start, st) calls, ps.1.Sound ∧ ∀ c ∈ ps.1.caches, Q c := by
  rintro ⟨p, st'⟩ ran
  refine Run.invariant_runSome serve (fun ps => ps.1.Sound ∧ ∀ c ∈ ps.1.caches, Q c) ?_ calls (start, st)
    (p, st') ⟨sound, all⟩ ran
  rintro ⟨q, _⟩ call ⟨q', _⟩ ⟨sound, all⟩ served
  -- Soundness is itself such a property.
  have synced := serve_closed LRUCache.sound_closed sound
    (fun c member => ⟨sound.sync c member, sound.sized c member⟩) served
  exact ⟨⟨fun c member => (synced c member).1, fun c member => (synced c member).2⟩,
    serve_closed closed sound all served⟩

theorem newWorkerPool_withinCapacity (hasher : String → UInt64) (workers : Nat) {cacheSize : Int}
    (nonneg : 0 ≤ cacheSize) (store : Option (Store σ)) :
    ∀ c ∈ (newWorkerPool hasher workers cacheSize store).caches, c.WithinCapacity := by
  intro c member
  obtain ⟨-, rfl⟩ := List.mem_replicate.mp member
  exact LRUCache.newLRUCache_withinCapacity (Int.tdiv_nonneg (by split <;> omega) (Int.natCast_nonneg workers))

/-- Over every run of calls, in any order and on any keys, from sound caches within
their capacity, every worker's cache holds no more items than its capacity, and
its `Size` is the number of items it holds. -/
theorem serve_run_within_capacity {start : WorkerPool σ} (sound : start.Sound)
    (within : ∀ c ∈ start.caches, c.WithinCapacity) (calls : List Call) (st : σ) :
    ∀ ps ∈ Run.runSome serve (start, st) calls, ∀ c ∈ ps.1.caches,
      (c.entries.length : Int) ≤ c.cacheSize ∧ c.size = Int64.ofNat c.entries.length := by
  intro ps ran c member
  obtain ⟨reached, bounded⟩ := serve_run_closed LRUCache.withinCapacity_closed sound within calls st ps ran
  refine ⟨(bounded c member).2, ?_⟩
  rw [LRUCache.size, (reached.sync c member).counted]
  simp [LRUCache.entries, LinkedList.values, LinkedList.len]

theorem serve_run_within_capacity_accountTwo :
    onePool.Sound ∧ (∀ c ∈ onePool.caches, c.WithinCapacity) ∧
      (Run.runSome serve (onePool, ()) accountTwoCalls).isSome = true ∧
      ∀ ps ∈ Run.runSome serve (onePool, ()) accountTwoCalls, ∀ c ∈ ps.1.caches,
        (c.entries.length : Int) ≤ c.cacheSize ∧ c.size = Int64.ofNat c.entries.length :=
  have sound : onePool.Sound := newWorkerPool_sound (fun _ => 0) 1 le_rfl none
  have within : ∀ c ∈ onePool.caches, c.WithinCapacity := newWorkerPool_withinCapacity (fun _ => 0) 1 le_rfl none
  ⟨sound, within, by rfl, serve_run_within_capacity sound within accountTwoCalls ()⟩

end WorkerPool

end Gubernator
