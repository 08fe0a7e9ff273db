import Gubernator.Workers

/-!
The Store kept in step with the cache. A Store is user code with a state of its
own; `Store.recording` runs any Store and logs the calls it receives, latest
last, so that what the algorithms tell the Store can be read off the log. On
every successful call by the owner, the bucket the cache holds for the
request's key afterwards is the one last passed to `OnChange`, and a bucket the
call drops from the cache was passed to `Remove`.
-/

namespace Gubernator

open CivilTime RecencyList

variable {σ : Type}

/-- A call of the Store interface. -/
inductive StoreCall where
  | onChange (r : RateLimitReq) (item : CacheItem)
  | get (r : RateLimitReq)
  | remove (key : String)
  deriving DecidableEq

/-- The Store `s`, with every call it receives appended to a log. -/
def Store.recording (s : Store σ) : Store (σ × List StoreCall) where
  onChange st r item := (s.onChange st.1 r item, st.2 ++ [.onChange r item])
  get st r := ((s.get st.1 r).1, (s.get st.1 r).2, st.2 ++ [.get r])
  remove st key := (s.remove st.1 key, st.2 ++ [.remove key])

def StoreCall.changeOf (k : String) : StoreCall → Option CacheItem
  | .onChange r item => if r.hashKey = k then some item else none
  | _ => none

/-- The item most recently passed to `OnChange` for key `k`. -/
def lastChange (k : String) (log : List StoreCall) : Option CacheItem :=
  log.reverse.findSome? (StoreCall.changeOf k)

theorem lastChange_onChange (log : List StoreCall) (r : RateLimitReq) (item : CacheItem) :
    lastChange r.hashKey (log ++ [.onChange r item]) = some item := by
  simp [lastChange, StoreCall.changeOf]

@[simp] theorem onChangeIf_recording (s : Store σ) (st : σ × List StoreCall) (r : RateLimitReq)
    (item : CacheItem) :
    (Store.onChangeIf (some s.recording) ⟨true⟩ st r item).2 = st.2 ++ [.onChange r item] := rfl

@[simp] theorem removeIf_recording (s : Store σ) (st : σ × List StoreCall) (key : String) :
    (Store.removeIf (some s.recording) st key).2 = st.2 ++ [.remove key] := rfl

/-- Whatever the cache holds for `k` is the item last passed to `OnChange` for `k`. -/
def ChangedLast (k : String) (c : LRUCache) (log : List StoreCall) : Prop :=
  ∀ it, find CacheItem.key c.entries k = some it → lastChange k log = some it

/-- Whether a call drops the bucket its lookup found, from the cache and from the
Store: the token bucket drops any bucket on `RESET_REMAINING` and one of the other
algorithm (algorithms.go 78-103), the leaky bucket one of the other algorithm
(308-318). -/
def dropsFound (r : RateLimitReq) (item : CacheItem) : Bool :=
  match r.algorithm, item.value with
  | .TOKEN_BUCKET, .tokenBucket _ => hasBehavior r.behavior Behavior.RESET_REMAINING
  | .TOKEN_BUCKET, _ => true
  | .LEAKY_BUCKET, .leakyBucket _ => false
  | .LEAKY_BUCKET, _ => true
  | .unrecognized .., _ => false

/-- The request an algorithm looks its bucket up with: the leaky bucket first
defaults an unset Burst to Limit (algorithms.go 264-266). -/
def lookupRequest (r : RateLimitReq) : RateLimitReq :=
  match r.algorithm with
  | .LEAKY_BUCKET => if r.burst = 0 then { r with burst := r.limit } else r
  | _ => r

theorem lookupRequest_of_token {r : RateLimitReq} (token : r.algorithm = .TOKEN_BUCKET) :
    lookupRequest r = r := by
  simp [lookupRequest, token]

theorem lookupRequest_of_leaky {r : RateLimitReq} (leaky : r.algorithm = .LEAKY_BUCKET) :
    lookupRequest r = if r.burst = 0 then { r with burst := r.limit } else r := by
  unfold lookupRequest
  split
  · rfl
  · contradiction

-- The lookup asks the Store at most once, so it only adds to the log.
theorem lookupBucket_recording_extends (s : Store σ) (st : σ) (log : List StoreCall) (c : LRUCache)
    (now : Time) (r : RateLimitReq) :
    ∃ calls, (lookupBucket (some s.recording) (st, log) c now r).2.2.2 = log ++ calls := by
  rcases cached : (c.getItem r.hashKey (millisecondNow now)).1 with _ | item
  · rcases answered : (s.get st r).1 with _ | found
    · exact ⟨[.get r], by simp [lookupBucket, cached, Store.recording, answered]⟩
    · exact ⟨[.get r], by simp [lookupBucket, cached, Store.recording, answered]⟩
  · rw [lookupBucket_of_cached _ _ cached]
    exact ⟨[], (List.append_nil log).symm⟩

/-! The three ways a successful call leaves the cache: an item added, an item
written over, or the key removed. -/

section Writes

variable {c : LRUCache} (sync : c.Sync) {r : RateLimitReq} {item : CacheItem}
include sync

theorem changedLast_add (keyed : item.key = r.hashKey) (log : List StoreCall) :
    ChangedLast r.hashKey (c.add item).1 (log ++ [.onChange r item]) := by
  intro it found
  rw [(sync.add_spec item).2.1, ← keyed] at found
  rw [find_put_key found, ← keyed, keyed, lastChange_onChange]

theorem changedLast_setItem (keyed : item.key = r.hashKey) (log : List StoreCall) :
    ChangedLast r.hashKey (c.setItem r.hashKey item) (log ++ [.onChange r item]) := by
  intro it found
  rw [(sync.setItem_spec r.hashKey keyed).2, find_update _ _ _ (fun _ _ => keyed)] at found
  simp only [if_true, Option.map_eq_some_iff] at found
  obtain ⟨-, -, rfl⟩ := found
  rw [lastChange_onChange]

theorem changedLast_remove (k : String) (log : List StoreCall) : ChangedLast k (c.remove k) log := by
  intro it found
  rw [(sync.remove_spec k).2, find_erase] at found
  simp at found

end Writes

/-! Each successful return of each algorithm, from the cache and log the lookup
left. -/

section Algorithms

variable (s : Store σ) {st : σ × List StoreCall} {c : LRUCache} {now : Time} {found : Option CacheItem}
  {c' : LRUCache} {st' : σ × List StoreCall} {rl : RateLimitResp}

theorem newItem_writes_through {o : Outcome (σ × List StoreCall)} {r : RateLimitReq} {c₁ : LRUCache}
    (synced : c₁.Sync) {st₁ : σ × List StoreCall}
    (created : (∃ e, hasBehavior r.behavior Behavior.DURATION_IS_GREGORIAN = true ∧
        o = ⟨.error e, c₁, st₁⟩) ∨ ∃ rl item, item.key = r.hashKey ∧
      o = ⟨.ok rl, (c₁.add item).1, Store.onChangeIf (some s.recording) ⟨true⟩ st₁ r item⟩)
    (ok : o.resp = .ok rl) :
    ChangedLast r.hashKey o.cache o.store.2 ∧ ∃ item, o.store.2 = st₁.2 ++ [.onChange r item] := by
  rcases created with ⟨e, -, rfl⟩ | ⟨rl', item, keyed, rfl⟩
  · cases ok
  · exact ⟨changedLast_add synced keyed st₁.2, item, rfl⟩

theorem switch_writes_through {o : Outcome (σ × List StoreCall)} {r : RateLimitReq} {c₁ : LRUCache}
    (synced : c₁.Sync) {st₁ : σ × List StoreCall}
    (created : (∃ e, hasBehavior r.behavior Behavior.DURATION_IS_GREGORIAN = true ∧
        o = ⟨.error e, c₁.remove r.hashKey, Store.removeIf (some s.recording) st₁ r.hashKey⟩) ∨
      ∃ rl item, item.key = r.hashKey ∧ o = ⟨.ok rl, ((c₁.remove r.hashKey).add item).1,
        Store.onChangeIf (some s.recording) ⟨true⟩ (Store.removeIf (some s.recording) st₁ r.hashKey) r item⟩)
    (ok : o.resp = .ok rl) :
    ChangedLast r.hashKey o.cache o.store.2 ∧
      ∃ calls, o.store.2 = st₁.2 ++ calls ∧ StoreCall.remove r.hashKey ∈ calls := by
  obtain ⟨changed, new, logged⟩ := newItem_writes_through s (synced.remove_spec _).1 created ok
  exact ⟨changed, [.remove r.hashKey, .onChange r new], by simp [logged], by simp⟩

theorem tokenBucket_writes_through {r : RateLimitReq} (token : r.algorithm = .TOKEN_BUCKET)
    (looked : lookupBucket (some s.recording) st c now r = (found, c', st')) (synced : c'.Sync)
    (ok : (tokenBucket (some s.recording) st c now r ⟨true⟩).resp = .ok rl) :
    ChangedLast r.hashKey (tokenBucket (some s.recording) st c now r ⟨true⟩).cache
        (tokenBucket (some s.recording) st c now r ⟨true⟩).store.2 ∧
      ∀ item, found = some item → dropsFound r item = true →
        ∃ calls, (tokenBucket (some s.recording) st c now r ⟨true⟩).store.2 = st'.2 ++ calls ∧
          StoreCall.remove r.hashKey ∈ calls := by
  rcases tokenBucket_cases ⟨true⟩ looked with
    ⟨rfl, fresh⟩ | ⟨item, -, -, reset⟩ | ⟨item, t, e, t', -, -, -, -, failed⟩ |
    ⟨item, t, t', expire, rl', rfl, kept, value, -, updated⟩ | ⟨item, -, -, -, switched⟩
  · rw [fresh] at ok ⊢
    obtain ⟨changed, -⟩ := newItem_writes_through s synced (tokenBucketNewItem_cases _ _ _ _ _ _) ok
    exact ⟨changed, fun _ missing => by cases missing⟩
  · -- A reset drops the bucket from the cache and the Store.
    rw [reset]
    exact ⟨changedLast_remove synced _ _, fun _ _ _ => ⟨[.remove r.hashKey], rfl, List.mem_singleton_self _⟩⟩
  · rw [failed] at ok
    cases ok
  · -- A token bucket without a reset is written over, in the cache and then in the Store.
    rw [updated]
    have held : (lookupBucket (some s.recording) st c now r).1 = some item := by rw [looked]
    have keyed : ({ item with value := .tokenBucket t', expireAt := expire } : CacheItem).key =
        r.hashKey := (lookupBucket_keyed _ _ _ _ _ held).1
    refine ⟨changedLast_setItem synced keyed _, fun _ same drops => ?_⟩
    cases same
    simp [dropsFound, token, value, kept] at drops
  · -- An algorithm switch removes the old bucket everywhere before creating the new one.
    rw [switched] at ok ⊢
    obtain ⟨changed, removed⟩ := switch_writes_through s synced (tokenBucketNewItem_cases _ _ _ _ _ _) ok
    exact ⟨changed, fun _ _ _ => removed⟩

theorem leakyBucket_writes_through {r r' : RateLimitReq} (leaky : r.algorithm = .LEAKY_BUCKET)
    (burst : r' = if r.burst = 0 then { r with burst := r.limit } else r)
    (looked : lookupBucket (some s.recording) st c now r' = (found, c', st')) (synced : c'.Sync)
    (ok : (leakyBucket (some s.recording) st c now r ⟨true⟩).resp = .ok rl) :
    ChangedLast r'.hashKey (leakyBucket (some s.recording) st c now r ⟨true⟩).cache
        (leakyBucket (some s.recording) st c now r ⟨true⟩).store.2 ∧
      ∀ item, found = some item → dropsFound r item = true →
        ∃ calls, (leakyBucket (some s.recording) st c now r ⟨true⟩).store.2 = st'.2 ++ calls ∧
          StoreCall.remove r'.hashKey ∈ calls := by
  rcases leakyBucket_cases ⟨true⟩ burst looked with
    ⟨rfl, fresh⟩ | ⟨item, b, e, -, -, -, failed⟩ |
    ⟨item, b, rate, duration, rfl, value, -, c₂, it, rl', updated, renewed, sameKey⟩ | ⟨item, -, -, switched⟩
  · rw [fresh] at ok ⊢
    obtain ⟨changed, -⟩ := newItem_writes_through s synced (leakyBucketNewItem_cases _ _ _ _ _ _) ok
    exact ⟨changed, fun _ missing => by cases missing⟩
  · rw [failed] at ok
    cases ok
  · -- A leaky bucket is written over, in the cache and then in the Store; a hit
    -- may renew its expiry first.
    rw [updated]
    have held : (lookupBucket (some s.recording) st c now r').1 = some item := by rw [looked]
    have keyed : it.key = r'.hashKey := sameKey.trans (lookupBucket_keyed _ _ _ _ _ held).1
    have renewedSync : c₂.Sync := by
      rcases renewed with rfl | ⟨e, rfl⟩
      · exact synced
      · exact (synced.updateExpiration_spec _ e).1
    refine ⟨changedLast_setItem renewedSync keyed _, fun _ same drops => ?_⟩
    cases same
    simp [dropsFound, leaky, value] at drops
  · -- An algorithm switch removes the old bucket everywhere before creating the new one.
    rw [switched] at ok ⊢
    obtain ⟨changed, removed⟩ := switch_writes_through s synced (leakyBucketNewItem_cases _ _ _ _ _ _) ok
    exact ⟨changed, fun _ _ _ => removed⟩

end Algorithms

theorem mapError_eq_ok {ε ε' α : Type} {x : Except ε α} {f : ε → ε'} {a : α}
    (mapped : x.mapError f = .ok a) : x = .ok a := by
  cases x with
  | error e => cases mapped
  | ok b => cases mapped; rfl

-- The leaky bucket works with the request whose Burst defaults to Limit, under the same key.
theorem burstDefault_hashKey (r : RateLimitReq) :
    (if r.burst = 0 then { r with burst := r.limit } else r).hashKey = r.hashKey := by
  split <;> rfl

-- Both algorithms, from the log the lookup left: the Remove, when the call drops
-- the bucket it found, is among the calls after the lookup.
theorem handleGetRateLimit_after_lookup (s : Store σ) (st : σ × List StoreCall) {c : LRUCache}
    (sync : c.Sync) (now : Time) (r : RateLimitReq) {rl : RateLimitResp}
    (ok : (handleGetRateLimit (some s.recording) st c now r ⟨true⟩).resp = .ok rl) :
    ChangedLast r.hashKey (handleGetRateLimit (some s.recording) st c now r ⟨true⟩).cache
        (handleGetRateLimit (some s.recording) st c now r ⟨true⟩).store.2 ∧
      ∀ item, (lookupBucket (some s.recording) st c now (lookupRequest r)).1 = some item →
        dropsFound r item = true →
        ∃ calls, (handleGetRateLimit (some s.recording) st c now r ⟨true⟩).store.2 =
            (lookupBucket (some s.recording) st c now (lookupRequest r)).2.2.2 ++ calls ∧
          StoreCall.remove r.hashKey ∈ calls := by
  unfold handleGetRateLimit at ok ⊢
  cases algorithm : r.algorithm with
  | TOKEN_BUCKET =>
    simp only [algorithm] at ok ⊢
    rw [lookupRequest_of_token algorithm]
    rcases looked : lookupBucket (some s.recording) st c now r with ⟨found, c', st'⟩
    have synced : c'.Sync := by
      simpa [looked] using lookupBucket_sync (some s.recording) st sync now r
    exact tokenBucket_writes_through s algorithm looked synced (mapError_eq_ok ok)
  | LEAKY_BUCKET =>
    simp only [algorithm] at ok ⊢
    rw [lookupRequest_of_leaky algorithm]
    rcases looked : lookupBucket (some s.recording) st c now
      (if r.burst = 0 then { r with burst := r.limit } else r) with ⟨found, c', st'⟩
    have synced : c'.Sync := by
      simpa [looked] using lookupBucket_sync (some s.recording) st sync now
        (if r.burst = 0 then { r with burst := r.limit } else r)
    exact burstDefault_hashKey r ▸ leakyBucket_writes_through s algorithm rfl looked synced (mapError_eq_ok ok)
  | unrecognized value outside =>
    simp only [algorithm] at ok
    cases ok

theorem handleGetRateLimit_changedLast (s : Store σ) (st : σ) (log : List StoreCall) {c : LRUCache}
    (sync : c.Sync) (now : Time) (r : RateLimitReq) {rl : RateLimitResp}
    (ok : (handleGetRateLimit (some s.recording) (st, log) c now r ⟨true⟩).resp = .ok rl) :
    ChangedLast r.hashKey (handleGetRateLimit (some s.recording) (st, log) c now r ⟨true⟩).cache
      (handleGetRateLimit (some s.recording) (st, log) c now r ⟨true⟩).store.2 :=
  (handleGetRateLimit_after_lookup s (st, log) sync now r ok).1

/-- Write-through on a successful call of the owner with a Store: whatever the
cache holds for the key afterwards is the item last passed to `OnChange` for it,
and when the call drops the bucket its lookup found, on a reset or an algorithm
switch, the calls it makes to the Store include `Remove` of the key. -/
theorem handleGetRateLimit_writes_through (s : Store σ) (st : σ) (log : List StoreCall) {c : LRUCache}
    (sync : c.Sync) (now : Time) (r : RateLimitReq) {rl : RateLimitResp}
    (ok : (handleGetRateLimit (some s.recording) (st, log) c now r ⟨true⟩).resp = .ok rl) :
    ChangedLast r.hashKey (handleGetRateLimit (some s.recording) (st, log) c now r ⟨true⟩).cache
        (handleGetRateLimit (some s.recording) (st, log) c now r ⟨true⟩).store.2 ∧
      ∀ item, (lookupBucket (some s.recording) (st, log) c now (lookupRequest r)).1 = some item →
        dropsFound r item = true →
        ∃ calls, (handleGetRateLimit (some s.recording) (st, log) c now r ⟨true⟩).store.2 = log ++ calls ∧
          StoreCall.remove r.hashKey ∈ calls := by
  have through := handleGetRateLimit_after_lookup s (st, log) sync now r ok
  refine ⟨through.1, fun item held drops => ?_⟩
  -- The calls after the lookup hold the `Remove`; the lookup itself only added to the log.
  obtain ⟨calls, logged, removed⟩ := through.2 item held drops
  obtain ⟨asked, extended⟩ := lookupBucket_recording_extends s st log c now (lookupRequest r)
  exact ⟨asked ++ calls, by rw [logged, extended, List.append_assoc], List.mem_append_right _ removed⟩

def emptyStore : Store Unit :=
  { onChange := fun st _ _ => st, get := fun st _ => (none, st), remove := fun st _ => st }

def ownerRequest : RateLimitReq :=
  { name := "requests_per_sec", uniqueKey := "account:1", hits := 1, limit := 5, duration := 1000,
    createdAt := some 0 }

theorem first_request_writes_through :
    (newLRUCache 0).Sync ∧
      (handleGetRateLimit (some emptyStore.recording) ((), []) (newLRUCache 0) ⟨0⟩ ownerRequest ⟨true⟩).resp =
        .ok { status := .UNDER_LIMIT, limit := 5, remaining := 4, resetTime := 1000 } ∧
      ChangedLast ownerRequest.hashKey
          (handleGetRateLimit (some emptyStore.recording) ((), []) (newLRUCache 0) ⟨0⟩ ownerRequest
            ⟨true⟩).cache
          (handleGetRateLimit (some emptyStore.recording) ((), []) (newLRUCache 0) ⟨0⟩ ownerRequest
            ⟨true⟩).store.2 ∧
      ∀ item, (lookupBucket (some emptyStore.recording) ((), []) (newLRUCache 0) ⟨0⟩
          (lookupRequest ownerRequest)).1 = some item →
        dropsFound ownerRequest item = true →
        ∃ calls, (handleGetRateLimit (some emptyStore.recording) ((), []) (newLRUCache 0) ⟨0⟩ ownerRequest
          ⟨true⟩).store.2 = [] ++ calls ∧ StoreCall.remove ownerRequest.hashKey ∈ calls :=
  ⟨LRUCache.newLRUCache_sync 0, by decide +kernel,
    @handleGetRateLimit_writes_through Unit emptyStore () [] (newLRUCache 0) (LRUCache.newLRUCache_sync 0) ⟨0⟩
      ownerRequest { status := .UNDER_LIMIT, limit := 5, remaining := 4, resetTime := 1000 }
      (by decide +kernel)⟩

end Gubernator
