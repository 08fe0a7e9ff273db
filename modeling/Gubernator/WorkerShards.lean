import Gubernator.Workers
import Gubernator.Library.Run
import Gubernator.Library.Interleave

/-!
The worker shards of workers.go. `getWorker` divides a key's 63-bit hash by the
ring step, 2^63 floored by the worker count; where the count does not divide
2^63 the steps stop short of 2^63 and the top hashes index one worker past the
last. `Load` sends each item the Loader yields to the worker of its key, whose
`handleLoad` adds it to that worker's cache; `Store` has every worker's
`handleStore` send its cache's `Each` into one channel that `Loader.Save` reads.
The workers' caches are disjoint, so the order in which the workers run does not
change what a load builds. Cancelled contexts and Loader errors are left out.
-/

namespace Gubernator

open RecencyList Interleave

variable {σ : Type}

namespace WorkerPool

/-- `Load`: the Loader's items in the order its channel yields them, each added
to the cache of the worker of its key. -/
def load (p : WorkerPool σ) (items : List CacheItem) : Option (WorkerPool σ) :=
  Run.runSome (fun p item => p.addCacheItem item.key item) p items

theorem getWorker_toNat (p : WorkerPool σ) (key : String) :
    p.getWorker key = (p.hasher key).toNat / p.hashRingStep.toNat :=
  UInt64.toNat_div _ _

theorem getRateLimit_isNone_iff (p : WorkerPool σ) (st : σ) (now : CivilTime.Time) (r : RateLimitReq)
    (reqState : RateLimitReqState) :
    (p.getRateLimit st now r reqState).isNone = true ↔ p.caches.length ≤ p.getWorker r.hashKey := by
  unfold getRateLimit
  dsimp only
  rw [← List.getElem?_eq_none_iff]
  split
  · next found => simp [found]
  · next found => simp [found]

end WorkerPool

section Routing

variable (hasher : String → UInt64) (cacheSize : Int) (store : Option (Store σ))

@[simp] theorem newWorkerPool_caches_length (workers : Nat) :
    (newWorkerPool hasher workers cacheSize store).caches.length = workers := by
  simp [newWorkerPool]

theorem newWorkerPool_hashRingStep {workers : Nat} (pos : 1 ≤ workers) (le : workers ≤ 2 ^ 63) :
    (newWorkerPool hasher workers cacheSize store).hashRingStep.toNat = 2 ^ 63 / workers := by
  have top : ((1 : UInt64) <<< 63).toNat = 2 ^ 63 := by decide
  have count : (UInt64.ofNat workers).toNat = workers :=
    UInt64.toNat_ofNat_of_lt (by rw [UInt64.size]; omega)
  simp only [newWorkerPool]
  rw [UInt64.toNat_div, top, count]

theorem newWorkerPool_getWorker_lt_iff {workers : Nat} (pos : 1 ≤ workers) (le : workers ≤ 2 ^ 63)
    (key : String) :
    (newWorkerPool hasher workers cacheSize store).getWorker key < workers ↔
      (hasher key).toNat < workers * (2 ^ 63 / workers) := by
  have step : 0 < 2 ^ 63 / workers := Nat.div_pos le pos
  rw [WorkerPool.getWorker_toNat, newWorkerPool_hashRingStep hasher cacheSize store pos le]
  exact Nat.div_lt_iff_lt_mul step

end Routing

/-- The largest hash `ComputeHash63` returns, as a test's mock hasher may. -/
def topHasher : String → UInt64 := fun _ => ((1 : UInt64) <<< 63) - 1

/-- With three workers the step is ⌊2^63 / 3⌋, three steps stop two short of
2^63, and the top hash indexes a fourth worker: GetRateLimit then fails with
the index out of range, for every key and request. -/
theorem getWorker_past_last_worker (key : String) (st : σ) (now : CivilTime.Time) (r : RateLimitReq)
    (reqState : RateLimitReqState) :
    (newWorkerPool topHasher 3 0 (none : Option (Store σ))).getWorker key = 3 ∧
      ((newWorkerPool topHasher 3 0 (none : Option (Store σ))).getRateLimit st now r reqState).isNone =
        true := by
  have past : ∀ k, (newWorkerPool topHasher 3 0 (none : Option (Store σ))).getWorker k = 3 := by
    intro k
    rw [WorkerPool.getWorker_toNat]
    show (((1 : UInt64) <<< 63) - 1).toNat / (((1 : UInt64) <<< 63) / UInt64.ofNat 3).toNat = 3
    decide
  refine ⟨past key, ?_⟩
  rw [WorkerPool.getRateLimit_isNone_iff, past r.hashKey, newWorkerPool_caches_length]

/-! A load into fresh shards: each shard ends up holding exactly the items routed
to it, so the Store that follows hands `Loader.Save` every item once. -/

/-- What a load has built from `base` after the items `done`: the routing is
`base`'s, and shard `i` is a consistent cache of capacity `cap` holding the items
routed to `i`, latest first. -/
structure Loaded (base : WorkerPool σ) (cap : Int) (done : List CacheItem) (p : WorkerPool σ) : Prop where
  hasher : p.hasher = base.hasher
  hashRingStep : p.hashRingStep = base.hashRingStep
  length : p.caches.length = base.caches.length
  shard : ∀ i c, p.caches[i]? = some c →
    c.Sync ∧ c.cacheSize = cap ∧ c.entries = (done.filter fun v => base.getWorker v.key = i).reverse

theorem Loaded.getWorker {base p : WorkerPool σ} {cap : Int} {done : List CacheItem}
    (loaded : Loaded base cap done p) (key : String) : p.getWorker key = base.getWorker key := by
  simp only [WorkerPool.getWorker, loaded.hasher, loaded.hashRingStep]

theorem Loaded.addCacheItem {base p : WorkerPool σ} {cap : Int} {done : List CacheItem}
    (loaded : Loaded base cap done p) {item : CacheItem} (fresh : ∀ v ∈ done, v.key ≠ item.key)
    (routed : base.getWorker item.key < base.caches.length)
    (room : cap = 0 ∨
      (((done.filter fun v => base.getWorker v.key = base.getWorker item.key).length : Int) + 1 ≤ cap)) :
    ∃ p', p.addCacheItem item.key item = some p' ∧ Loaded base cap (done ++ [item]) p' := by
  have same := loaded.getWorker item.key
  have inRange : base.getWorker item.key < p.caches.length := by
    rw [loaded.length]
    exact routed
  obtain ⟨c, found⟩ : ∃ c, p.caches[base.getWorker item.key]? = some c :=
    ⟨_, List.getElem?_eq_getElem inRange⟩
  obtain ⟨sync, size, entries⟩ := loaded.shard _ c found
  have absent : find CacheItem.key c.entries item.key = none := by
    rw [find_eq_none_iff, entries]
    intro v member
    exact fresh v (List.mem_filter.mp (List.mem_reverse.mp member)).1
  obtain ⟨added, put, addedSize, -⟩ := sync.add_spec item
  have front : (c.add item).1.entries = item :: c.entries := by
    rw [put, size]
    apply put_of_fresh absent
    rw [entries, List.length_reverse]
    exact room
  refine ⟨{ p with caches := p.caches.set (base.getWorker item.key) (c.add item).1 },
    by simp [WorkerPool.addCacheItem, same, found], ⟨loaded.hasher, loaded.hashRingStep, ?_, ?_⟩⟩
  · simp [loaded.length]
  · intro i c' got
    rw [List.getElem?_set] at got
    by_cases here : base.getWorker item.key = i
    · subst here
      rw [if_pos rfl, if_pos inRange] at got
      cases got
      refine ⟨added, addedSize.trans size, ?_⟩
      rw [front, entries]
      simp
    · simp only [here, if_false] at got
      obtain ⟨synced, sized, held⟩ := loaded.shard i c' got
      refine ⟨synced, sized, ?_⟩
      rw [held]
      simp [here]

theorem Loaded.load {base p : WorkerPool σ} {cap : Int} {done : List CacheItem}
    (loaded : Loaded base cap done p) (rest : List CacheItem)
    (distinct : ((done ++ rest).map CacheItem.key).Nodup)
    (routed : ∀ item ∈ rest, base.getWorker item.key < base.caches.length)
    (room : ∀ item ∈ rest, cap = 0 ∨
      ((((done ++ rest).filter fun v => base.getWorker v.key = base.getWorker item.key).length : Int) ≤ cap)) :
    ∃ p', p.load rest = some p' ∧ Loaded base cap (done ++ rest) p' := by
  induction rest generalizing done p with
  | nil => exact ⟨p, rfl, by simpa using loaded⟩
  | cons item rest ih =>
    have fresh : ∀ v ∈ done, v.key ≠ item.key := by
      intro v member same
      rw [List.map_append] at distinct
      have apart := (List.nodup_append.mp distinct).2.2
      exact apart _ (List.mem_map_of_mem member) _ (List.mem_map_of_mem List.mem_cons_self) same
    -- The items routed with this one so far, and it, are among those routed to its shard.
    have counted : (((done.filter fun v => base.getWorker v.key = base.getWorker item.key).length : Int) + 1) ≤
        (((done ++ item :: rest).filter fun v => base.getWorker v.key = base.getWorker item.key).length : Int) := by
      simp only [List.filter_append, List.filter_cons, decide_true, if_true, List.length_append,
        List.length_cons]
      omega
    have roomy : cap = 0 ∨
        (((done.filter fun v => base.getWorker v.key = base.getWorker item.key).length : Int) + 1 ≤ cap) := by
      rcases room item List.mem_cons_self with unbounded | bounded
      · exact .inl unbounded
      · exact .inr (counted.trans bounded)
    obtain ⟨p₁, added, loaded₁⟩ := loaded.addCacheItem fresh (routed item List.mem_cons_self) roomy
    have shifted : done ++ [item] ++ rest = done ++ item :: rest := by simp
    obtain ⟨p', ran, final⟩ := ih loaded₁ (shifted ▸ distinct)
      (fun v member => routed v (List.mem_cons_of_mem _ member))
      (fun v member => shifted ▸ room v (List.mem_cons_of_mem _ member))
    refine ⟨p', ?_, shifted ▸ final⟩
    simp only [WorkerPool.load, Run.runSome, added, Option.bind_some]
    exact ran

/-- One item of a key that `getWorker` sends past the last of three workers: its
key is distinct and no shard receives more than it holds, yet the load fails with
the index out of range. -/
def shardItem : CacheItem :=
  { algorithm := .TOKEN_BUCKET, key := "requests_per_sec_account:1", expireAt := 1000,
    value := .tokenBucket { limit := 5, duration := 1000, remaining := 4, createdAt := 0 } }

theorem load_past_last_worker :
    ([shardItem].map CacheItem.key).Nodup ∧
      (∀ i < 3, (([shardItem].filter fun item =>
          (newWorkerPool topHasher 3 0 (none : Option (Store Unit))).getWorker item.key = i).length : Int) ≤
        (if (0 : Int) = 0 then (50000 : Int) else 0).tdiv 3) ∧
      ((newWorkerPool topHasher 3 0 (none : Option (Store Unit))).load [shardItem]).isNone = true := by
  decide +kernel

end Gubernator
