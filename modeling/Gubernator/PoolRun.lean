import Gubernator.CacheFrame
import Gubernator.Workers
import Gubernator.Library.Run

/-!
The worker pool of workers.go as a machine that serves calls. Each worker serves
its requests one at a time against its own cache, and no two workers share a
cache, so whatever order the channels deliver them in, the pool goes through a
sequence of `GetRateLimit`, `AddCacheItem` and `GetCacheItem` calls, each on the
cache of the worker its key picks. What the pool holds for a key is what that
cache holds: `GetRateLimit` and `GetCacheItem` look nowhere else. Every call
keeps every cache in step with its map, and a key that no call names keeps its
item or loses it to an eviction, when the Store keeps items under the keys it
is asked for.
-/

namespace Gubernator

open CivilTime RecencyList

variable {σ : Type}

theorem handleGetRateLimit_steady (s : Option (Store σ)) (st : σ) {c : LRUCache} (sync : c.Sync)
    (now : Time) (r : RateLimitReq) (reqState : RateLimitReqState) :
    Steady c (handleGetRateLimit s st c now r reqState).cache := by
  unfold handleGetRateLimit
  cases r.algorithm with
  | TOKEN_BUCKET => exact tokenBucket_steady s st sync now r reqState
  | LEAKY_BUCKET => exact leakyBucket_steady s st sync now r reqState
  | unrecognized value _ => exact sync.steady

theorem handleGetRateLimit_keeps {s : Option (Store σ)} (keyed : ∀ s' ∈ s, s'.Keyed) (st : σ)
    {c : LRUCache} (sync : c.Sync) (now : Time) {r : RateLimitReq} (reqState : RateLimitReqState)
    {k : String} (other : k ≠ r.hashKey) :
    KeptOrDropped k c (handleGetRateLimit s st c now r reqState).cache := by
  unfold handleGetRateLimit
  cases r.algorithm with
  | TOKEN_BUCKET => exact tokenBucket_keeps keyed st sync now reqState other
  | LEAKY_BUCKET => exact leakyBucket_keeps keyed st sync now reqState other
  | unrecognized value _ => exact .refl k c

namespace WorkerPool

/-- What the pool holds for a key: the entry of the cache of the worker that owns it. -/
def holding (p : WorkerPool σ) (k : String) : Option CacheItem :=
  (p.caches[p.getWorker k]?).bind fun c => find CacheItem.key c.entries k

/-- Every worker's cache is in step with its map, with a capacity that keeps the
item just added. -/
structure Sound (p : WorkerPool σ) : Prop where
  sync : ∀ c ∈ p.caches, c.Sync
  sized : ∀ c ∈ p.caches, 0 ≤ c.cacheSize

def Kept (k : String) (before after : WorkerPool σ) : Prop :=
  after.holding k = before.holding k ∨ after.holding k = none

theorem Kept.refl (k : String) (p : WorkerPool σ) : Kept k p p := .inl rfl

theorem Kept.trans {k : String} {a b c : WorkerPool σ} (first : Kept k a b) (second : Kept k b c) :
    Kept k a c := by
  rcases second with same | gone
  · rw [Kept, same]
    exact first
  · exact .inr gone

/-! One call replaces one cache, and the worker each key picks stays the same. -/

variable {p : WorkerPool σ} {i : Nat} {c c' : LRUCache}

@[simp] theorem getWorker_set (p : WorkerPool σ) (i : Nat) (c : LRUCache) (k : String) :
    ({ p with caches := p.caches.set i c } : WorkerPool σ).getWorker k = p.getWorker k := rfl

theorem Sound.cache (sound : p.Sound) (got : p.caches[i]? = some c) : c.Sync ∧ 0 ≤ c.cacheSize :=
  ⟨sound.sync c (List.mem_of_getElem? got), sound.sized c (List.mem_of_getElem? got)⟩

theorem Sound.set (sound : p.Sound) (got : p.caches[i]? = some c) (steady : Steady c c') :
    ({ p with caches := p.caches.set i c' } : WorkerPool σ).Sound := by
  constructor
  · intro d member
    rcases List.mem_or_eq_of_mem_set member with old | rfl
    · exact sound.sync d old
    · exact steady.1
  · intro d member
    rcases List.mem_or_eq_of_mem_set member with old | rfl
    · exact sound.sized d old
    · rw [steady.2]
      exact (sound.cache got).2

-- The cache of the worker that owns `k` is the one whose entry for `k` may change.
theorem holding_set (got : p.caches[i]? = some c) (k : String) :
    ({ p with caches := p.caches.set i c' } : WorkerPool σ).holding k =
      if p.getWorker k = i then find CacheItem.key c'.entries k else p.holding k := by
  have inRange : i < p.caches.length := (List.getElem?_eq_some_iff.mp got).1
  unfold holding
  rw [getWorker_set, List.getElem?_set]
  by_cases same : i = p.getWorker k
  · subst same
    simp [inRange]
  · simp [same, Ne.symm same]

theorem holding_of_getElem (got : p.caches[p.getWorker k]? = some c) :
    p.holding k = find CacheItem.key c.entries k := by
  simp [holding, got]

theorem kept_set (got : p.caches[i]? = some c) {k : String} (keeps : p.getWorker k = i → KeptOrDropped k c c') :
    Kept k p { p with caches := p.caches.set i c' } := by
  unfold Kept
  rw [holding_set got]
  by_cases same : p.getWorker k = i
  · rw [if_pos same, holding_of_getElem (same ▸ got)]
    exact keeps same
  · rw [if_neg same]
    exact .inl rfl

theorem newWorkerPool_sound (hasher : String → UInt64) (workers : Nat) {cacheSize : Int} (nonneg : 0 ≤ cacheSize)
    (store : Option (Store σ)) : (newWorkerPool hasher workers cacheSize store).Sound := by
  -- Every shard is a new cache of CacheSize / Workers, or of 50,000 where that is zero.
  have shard : 0 ≤ (newLRUCache ((if cacheSize = 0 then 50000 else cacheSize).tdiv workers)).cacheSize := by
    have divided : (if cacheSize = 0 then 50000 else cacheSize).tdiv workers ≥ 0 :=
      Int.tdiv_nonneg (by split <;> omega) (Int.natCast_nonneg workers)
    unfold newLRUCache
    dsimp only
    generalize (if cacheSize = 0 then 50000 else cacheSize).tdiv workers = size at divided ⊢
    split <;> omega
  constructor
  · intro c member
    obtain ⟨-, rfl⟩ := List.mem_replicate.mp member
    exact LRUCache.newLRUCache_sync _
  · intro c member
    obtain ⟨-, rfl⟩ := List.mem_replicate.mp member
    exact shard

/-! What each call does, as one equation each: the cache of the key's worker,
and the pool with that cache replaced. -/

theorem getRateLimit_eq_some {st st' : σ} {now : Time} {r : RateLimitReq} {reqState : RateLimitReqState}
    {resp : Except String RateLimitResp} {p' : WorkerPool σ}
    (ran : p.getRateLimit st now r reqState = some (resp, p', st')) :
    ∃ c, p.caches[p.getWorker r.hashKey]? = some c ∧
      resp = (handleGetRateLimit p.store st c now r reqState).resp ∧
      p' = { p with caches := (p.caches.set (p.getWorker r.hashKey)
        (handleGetRateLimit p.store st c now r reqState).cache) } ∧
      st' = (handleGetRateLimit p.store st c now r reqState).store := by
  unfold getRateLimit at ran
  dsimp only at ran
  split at ran
  · cases ran
  · next c got =>
    cases ran
    exact ⟨c, got, rfl, rfl, rfl⟩

theorem getRateLimit_of_getElem {st : σ} {now : Time} {r : RateLimitReq} {reqState : RateLimitReqState}
    (got : p.caches[p.getWorker r.hashKey]? = some c) :
    p.getRateLimit st now r reqState =
      some ((handleGetRateLimit p.store st c now r reqState).resp,
        { p with caches := (p.caches.set (p.getWorker r.hashKey)
          (handleGetRateLimit p.store st c now r reqState).cache) },
        (handleGetRateLimit p.store st c now r reqState).store) := by
  simp [getRateLimit, got]

theorem addCacheItem_eq_some {key : String} {item : CacheItem} {p' : WorkerPool σ}
    (added : p.addCacheItem key item = some p') :
    ∃ c, p.caches[p.getWorker key]? = some c ∧
      p' = { p with caches := p.caches.set (p.getWorker key) (c.add item).1 } := by
  unfold addCacheItem at added
  dsimp only at added
  split at added
  · cases added
  · next c got =>
    cases added
    exact ⟨c, got, rfl⟩

theorem getCacheItem_eq_some {key : String} {now : Int64} {item : Option CacheItem} {p' : WorkerPool σ}
    (read : p.getCacheItem key now = some (item, p')) :
    ∃ c, p.caches[p.getWorker key]? = some c ∧ item = (c.getItem key now).1 ∧
      p' = { p with caches := p.caches.set (p.getWorker key) (c.getItem key now).2 } := by
  unfold getCacheItem at read
  dsimp only at read
  split at read
  · cases read
  · next c got =>
    cases read
    exact ⟨c, got, rfl, rfl⟩

theorem Sound.addCacheItem (sound : p.Sound) {key : String} {item : CacheItem} {p' : WorkerPool σ}
    (added : p.addCacheItem key item = some p') : p'.Sound := by
  obtain ⟨c, got, rfl⟩ := addCacheItem_eq_some added
  exact sound.set got ((sound.cache got).1.add_steady item)

theorem Sound.getCacheItem_fst (sound : p.Sound) (k : String) (now : Int64) :
    (p.getCacheItem k now).map (·.1) =
      if p.getWorker k < p.caches.length then some ((p.holding k).filter fun v => !v.isExpired now)
      else none := by
  unfold getCacheItem
  dsimp only
  split
  · next absent =>
    rw [if_neg (by simpa using absent)]
    rfl
  · next c got =>
    have inRange : p.getWorker k < p.caches.length := (List.getElem?_eq_some_iff.mp got).1
    rw [if_pos inRange, holding_of_getElem got, ← get_fst, ← ((sound.cache got).1.getItem_spec k now).2.1]
    rfl

/-! The pool as a machine: the calls it serves, and the pool and Store state
each leaves. -/

/-- A call of the pool's API, with the clock it reads. -/
inductive Call where
  | getRateLimit (now : Time) (req : RateLimitReq) (reqState : RateLimitReqState)
  | addCacheItem (key : String) (item : CacheItem)
  | getCacheItem (key : String) (now : Int64)

/-- One call served: `none` where the key's worker does not exist. -/
def serve (ps : WorkerPool σ × σ) : Call → Option (WorkerPool σ × σ)
  | .getRateLimit now req reqState => (ps.1.getRateLimit ps.2 now req reqState).map fun o => (o.2.1, o.2.2)
  | .addCacheItem key item => (ps.1.addCacheItem key item).map fun p => (p, ps.2)
  | .getCacheItem key now => (ps.1.getCacheItem key now).map fun o => (o.2, ps.2)

/-- The key under which a call may change the cache: an `Add` files the item
under its own key, whichever key picked the worker. -/
def Call.Names (k : String) : Call → Prop
  | .getRateLimit _ req _ => req.hashKey = k
  | .addCacheItem _ item => item.key = k
  | .getCacheItem key _ => key = k

instance (k : String) : DecidablePred (Call.Names k) := fun call =>
  match call with
  | .getRateLimit _ req _ => inferInstanceAs (Decidable (req.hashKey = k))
  | .addCacheItem _ item => inferInstanceAs (Decidable (item.key = k))
  | .getCacheItem key _ => inferInstanceAs (Decidable (key = k))

theorem serve_cases (sound : p.Sound) (keyed : ∀ s ∈ p.store, s.Keyed) {st st' : σ} {call : Call}
    {p' : WorkerPool σ} (served : serve (p, st) call = some (p', st')) :
    ∃ i c c', p.caches[i]? = some c ∧ p' = { p with caches := p.caches.set i c' } ∧ Steady c c' ∧
      ∀ k, ¬ call.Names k → KeptOrDropped k c c' := by
  cases call with
  | getRateLimit now req reqState =>
    obtain ⟨⟨resp, q, st''⟩, ran, same⟩ := Option.map_eq_some_iff.mp served
    cases same
    obtain ⟨c, got, -, rfl, -⟩ := getRateLimit_eq_some ran
    have sync := (sound.cache got).1
    exact ⟨_, c, _, got, rfl, handleGetRateLimit_steady p.store st sync now req reqState,
      fun k other => handleGetRateLimit_keeps keyed st sync now reqState fun same => other same.symm⟩
  | addCacheItem key item =>
    obtain ⟨q, added, same⟩ := Option.map_eq_some_iff.mp served
    cases same
    obtain ⟨c, got, rfl⟩ := addCacheItem_eq_some added
    have sync := (sound.cache got).1
    exact ⟨_, c, _, got, rfl, sync.add_steady item, fun k other => sync.add_keeps other⟩
  | getCacheItem key now =>
    obtain ⟨⟨item, q⟩, read, same⟩ := Option.map_eq_some_iff.mp served
    cases same
    obtain ⟨c, got, -, rfl⟩ := getCacheItem_eq_some read
    have sync := (sound.cache got).1
    exact ⟨_, c, _, got, rfl, sync.getItem_steady key now,
      fun k other => sync.getItem_keeps (Ne.symm other) now⟩

/-- What a run keeps: sound caches, the Store of the start, and the start's entry
for a key no call names, or nothing. -/
structure Keeps (k : String) (start p : WorkerPool σ) : Prop where
  sound : p.Sound
  store : p.store = start.store
  kept : Kept k start p

theorem Keeps.serve {k : String} {start : WorkerPool σ} (keyed : ∀ s ∈ start.store, s.Keyed)
    {call : Call} (apart : ¬ call.Names k) {st st' : σ} {p' : WorkerPool σ} (keeps : Keeps k start p)
    (served : serve (p, st) call = some (p', st')) : Keeps k start p' := by
  obtain ⟨i, c, c', got, rfl, steady, frame⟩ :=
    serve_cases keeps.sound (keeps.store ▸ keyed) served
  exact ⟨keeps.sound.set got steady, keeps.store, keeps.kept.trans (kept_set got fun _ => frame k apart)⟩

/-- Over every run of calls that never name the key `k`, from a pool whose caches
are sound and whose Store keeps items under the keys it is asked for, every
cache stays in step with its map, and the pool's entry for `k` is the one it
started with, or gone to an eviction. -/
theorem serve_run_frame {start : WorkerPool σ} (sound : start.Sound) (keyed : ∀ s ∈ start.store, s.Keyed)
    (k : String) (calls : List Call) (apart : ∀ call ∈ calls, ¬ call.Names k) (st : σ) :
    ∀ ps ∈ Run.runSome serve (start, st) calls, ps.1.Sound ∧ Kept k start ps.1 := by
  rintro ⟨p, st'⟩ ran
  have keeps := Run.invariant_runSome_on serve (fun ps => Keeps k start ps.1) (fun call => ¬ call.Names k)
    (fun ⟨_, _⟩ _ ⟨_, _⟩ apart keeps served => keeps.serve keyed apart served)
    calls (start, st) (p, st') apart ⟨sound, rfl, .refl k start⟩ ran
  exact ⟨keeps.sound, keeps.kept⟩

def onePool : WorkerPool Unit := newWorkerPool (fun _ => 0) 1 0 none

def accountItem (key : String) : CacheItem :=
  { algorithm := .TOKEN_BUCKET, key := key, expireAt := 1000,
    value := .tokenBucket { limit := 5, duration := 1000, remaining := 5, createdAt := 0 } }

def heldPool : WorkerPool Unit :=
  (onePool.addCacheItem "requests_per_sec_account:1" (accountItem "requests_per_sec_account:1")).getD onePool

theorem heldPool_added :
    onePool.addCacheItem "requests_per_sec_account:1" (accountItem "requests_per_sec_account:1") =
      some heldPool := rfl

def accountTwoHit : RateLimitReq :=
  { name := "requests_per_sec", uniqueKey := "account:2", hits := 1, limit := 5, duration := 1000,
    createdAt := some 0 }

def accountTwoCalls : List Call :=
  [.addCacheItem "requests_per_sec_account:2" (accountItem "requests_per_sec_account:2"),
   .getRateLimit ⟨0⟩ accountTwoHit ⟨true⟩, .getCacheItem "requests_per_sec_account:2" 500]

theorem serve_run_frame_accountTwo :
    heldPool.Sound ∧ (∀ s ∈ heldPool.store, s.Keyed) ∧
      (∀ call ∈ accountTwoCalls, ¬ call.Names "requests_per_sec_account:1") ∧
      (Run.runSome serve (heldPool, ()) accountTwoCalls).isSome = true ∧
      ∀ ps ∈ Run.runSome serve (heldPool, ()) accountTwoCalls,
        ps.1.Sound ∧ Kept "requests_per_sec_account:1" heldPool ps.1 :=
  have sound : heldPool.Sound :=
    Sound.addCacheItem (newWorkerPool_sound (fun _ => 0) 1 le_rfl none) heldPool_added
  have keyed : ∀ s ∈ heldPool.store, s.Keyed := fun _ none => by cases none
  have apart : ∀ call ∈ accountTwoCalls, ¬ call.Names "requests_per_sec_account:1" := by decide
  ⟨sound, keyed, apart, by rfl,
    serve_run_frame sound keyed "requests_per_sec_account:1" accountTwoCalls apart ()⟩

/-- `AddCacheItem` then `GetCacheItem` of the same key gives the item back while
it is live, and nothing once it has expired; every other key reads as before,
or as a miss where the `Add` evicted it. -/
theorem addCacheItem_getCacheItem (sound : p.Sound) {key : String} {item : CacheItem}
    (keyed : item.key = key) {p' : WorkerPool σ} (added : p.addCacheItem key item = some p') (now : Int64) :
    (p'.getCacheItem key now).map (·.1) = some ((some item).filter fun v => !v.isExpired now) ∧
      ∀ k ≠ key, (p'.getCacheItem k now).map (·.1) = (p.getCacheItem k now).map (·.1) ∨
        (p'.getCacheItem k now).map (·.1) = some none := by
  obtain ⟨c, got, rfl⟩ := addCacheItem_eq_some added
  obtain ⟨sync, sized⟩ := sound.cache got
  have sound' := sound.set got (sync.add_steady item)
  have inRange : p.getWorker key < p.caches.length := (List.getElem?_eq_some_iff.mp got).1
  constructor
  · rw [sound'.getCacheItem_fst, getWorker_set, List.length_set, if_pos inRange, holding_set got, if_pos rfl,
      (sync.add_spec item).2.1, ← keyed, find_put_self _ _ sized]
  · intro k other
    have kept : Kept k p { p with caches := p.caches.set (p.getWorker key) (c.add item).1 } :=
      kept_set got fun _ => sync.add_keeps (by rw [keyed]; exact Ne.symm other)
    rw [sound'.getCacheItem_fst, sound.getCacheItem_fst, getWorker_set, List.length_set]
    split_ifs
    · rcases kept with same | gone
      · left
        rw [same]
      · right
        rw [gone]
        rfl
    · exact .inl rfl

theorem addCacheItem_getCacheItem_accountOne :
    onePool.Sound ∧ (accountItem "requests_per_sec_account:1").key = "requests_per_sec_account:1" ∧
      onePool.addCacheItem "requests_per_sec_account:1" (accountItem "requests_per_sec_account:1") =
        some heldPool ∧
      (heldPool.getCacheItem "requests_per_sec_account:1" 500).map (·.1) =
        some ((some (accountItem "requests_per_sec_account:1")).filter fun v => !v.isExpired 500) ∧
      ∀ k ≠ "requests_per_sec_account:1", (heldPool.getCacheItem k 500).map (·.1) =
          (onePool.getCacheItem k 500).map (·.1) ∨
        (heldPool.getCacheItem k 500).map (·.1) = some none :=
  have sound : onePool.Sound := newWorkerPool_sound (fun _ => 0) 1 le_rfl none
  have keyed : (accountItem "requests_per_sec_account:1").key = "requests_per_sec_account:1" := rfl
  ⟨sound, keyed, heldPool_added, addCacheItem_getCacheItem sound keyed heldPool_added 500⟩

end WorkerPool

end Gubernator
