import Gubernator.TokenBucket
import Gubernator.LeakyBucket

/-!
What a rate-limit call changes in the cache besides its own key. Every cache
operation of `tokenBucket` and `leakyBucket` names the request's HashKey, so
every other key keeps its entry or loses it to the eviction of an `Add`. The
one operation that names another key is the `Add` of the item a Store returns
on a miss: `lookupBucket` adds it before the sanity checks look at its key, so
the frame holds for a Store that keeps each item under the key it is asked for.
-/

namespace Gubernator

open CivilTime RecencyList

/-- Under `k`, `after` holds what `before` held, or nothing. -/
def KeptOrDropped (k : String) (before after : LRUCache) : Prop :=
  find CacheItem.key after.entries k = find CacheItem.key before.entries k ∨
    find CacheItem.key after.entries k = none

namespace KeptOrDropped

theorem refl (k : String) (c : LRUCache) : KeptOrDropped k c c := .inl rfl

theorem trans {k : String} {a b c : LRUCache} (first : KeptOrDropped k a b)
    (second : KeptOrDropped k b c) : KeptOrDropped k a c := by
  rcases second with same | gone
  · rw [KeptOrDropped, same]
    exact first
  · exact .inr gone

end KeptOrDropped

namespace LRUCache

variable {c : LRUCache} {k k' : String}

theorem Sync.getItem_keeps (sync : c.Sync) (other : k ≠ k') (now : Int64) :
    KeptOrDropped k c (c.getItem k' now).2 := by
  left
  rw [(sync.getItem_spec k' now).2.2, find_get, if_neg other]

theorem Sync.add_keeps (sync : c.Sync) {item : CacheItem} (other : item.key ≠ k) :
    KeptOrDropped k c (c.add item).1 := by
  unfold KeptOrDropped
  rw [(sync.add_spec item).2.1]
  exact find_put_of_ne sync.distinct_entries item c.cacheSize other

theorem Sync.setItem_keeps (sync : c.Sync) {item : CacheItem} (keyed : item.key = k') (other : k ≠ k') :
    KeptOrDropped k c (c.setItem k' item) := by
  left
  rw [(sync.setItem_spec k' keyed).2, find_update _ _ _ (fun _ _ => keyed), if_neg other]

theorem Sync.updateExpiration_keeps (sync : c.Sync) (other : k ≠ k') (expireAt : Int64) :
    KeptOrDropped k c (c.updateExpiration k' expireAt).1 := by
  left
  rw [(sync.updateExpiration_spec k' expireAt).2.1, find_update, if_neg other]
  -- A new expiry keeps the item's key.
  intro _ keyed
  exact keyed

theorem Sync.remove_keeps (sync : c.Sync) (other : k ≠ k') : KeptOrDropped k c (c.remove k') := by
  left
  rw [(sync.remove_spec k').2, find_erase, if_neg other]

end LRUCache

variable {σ : Type}

/-- A Store whose `Get` answers with an item kept under the request's key. -/
def Store.Keyed (s : Store σ) : Prop :=
  ∀ st r item, (s.get st r).1 = some item → item.key = r.hashKey

theorem lookupBucket_keeps {s : Option (Store σ)} (keyed : ∀ s' ∈ s, s'.Keyed) (st : σ)
    {c : LRUCache} (sync : c.Sync) (now : Time) {r : RateLimitReq} {k : String} (other : k ≠ r.hashKey) :
    KeptOrDropped k c (lookupBucket s st c now r).2.1 := by
  have looked := sync.getItem_keeps other (millisecondNow now)
  rcases cached : (c.getItem r.hashKey (millisecondNow now)).1 with _ | item
  · cases s with
    | none => simpa [lookupBucket, cached] using looked
    | some s =>
      rcases stored : s.get st r with ⟨_ | found, st'⟩
      · simpa [lookupBucket, cached, stored] using looked
      · -- The Store's item is added under its own key, which is the request's.
        have key : found.key = r.hashKey := keyed s rfl st r found (by rw [stored])
        have added := (sync.getItem_spec r.hashKey (millisecondNow now)).1.add_keeps
          (k := k) (by rw [key]; exact Ne.symm other)
        simpa [lookupBucket, cached, stored] using looked.trans added
  · rw [lookupBucket_of_cached s st cached]
    exact looked

theorem lookupBucket_frame {s : Option (Store σ)} (keyed : ∀ s' ∈ s, s'.Keyed) {st st' : σ}
    {c c' : LRUCache} (sync : c.Sync) {now : Time} {r : RateLimitReq} {k : String} (other : k ≠ r.hashKey)
    {found : Option CacheItem} (looked : lookupBucket s st c now r = (found, c', st')) :
    KeptOrDropped k c c' ∧ c'.Sync := by
  have keeps := lookupBucket_keeps keyed st sync now other
  have synced := lookupBucket_sync s st sync now r
  rw [looked] at keeps synced
  exact ⟨keeps, synced⟩

theorem found_key {s : Option (Store σ)} {st st' : σ} {c c' : LRUCache} {now : Time} {r : RateLimitReq}
    {found : Option CacheItem} (looked : lookupBucket s st c now r = (found, c', st')) {item : CacheItem}
    (isFound : found = some item) : item.key = r.hashKey :=
  (lookupBucket_keyed s st c now r (by rw [looked, isFound])).1

theorem tokenBucketNewItem_keeps (s : Option (Store σ)) (st : σ) {c : LRUCache} (sync : c.Sync)
    (now : Time) {r : RateLimitReq} (reqState : RateLimitReqState) {k : String} (other : k ≠ r.hashKey) :
    KeptOrDropped k c (tokenBucketNewItem s st c now r reqState).cache := by
  rcases tokenBucketNewItem_cases s st c now r reqState with ⟨e, -, made⟩ | ⟨rl, item, keyed, made⟩
  · rw [made]
    exact .refl k c
  · rw [made]
    exact sync.add_keeps (by rw [keyed]; exact Ne.symm other)

theorem leakyBucketNewItem_keeps (s : Option (Store σ)) (st : σ) {c : LRUCache} (sync : c.Sync)
    (now : Time) {r : RateLimitReq} (reqState : RateLimitReqState) {k : String} (other : k ≠ r.hashKey) :
    KeptOrDropped k c (leakyBucketNewItem s st c now r reqState).cache := by
  rcases leakyBucketNewItem_cases s st c now r reqState with ⟨e, -, made⟩ | ⟨rl, item, keyed, made⟩
  · rw [made]
    exact .refl k c
  · rw [made]
    exact sync.add_keeps (by rw [keyed]; exact Ne.symm other)

theorem tokenBucket_keeps {s : Option (Store σ)} (keyed : ∀ s' ∈ s, s'.Keyed) (st : σ)
    {c : LRUCache} (sync : c.Sync) (now : Time) {r : RateLimitReq} (reqState : RateLimitReqState)
    {k : String} (other : k ≠ r.hashKey) :
    KeptOrDropped k c (tokenBucket s st c now r reqState).cache := by
  rcases looked : lookupBucket s st c now r with ⟨found, c', st'⟩
  obtain ⟨looks, synced⟩ := lookupBucket_frame keyed sync other looked
  rcases tokenBucket_cases reqState looked with
    ⟨-, ran⟩ | ⟨item, -, -, ran⟩ | ⟨item, t, e, t', isFound, -, -, -, ran⟩ |
      ⟨item, t, t', expire, rl, isFound, -, -, -, ran⟩ | ⟨item, -, -, -, ran⟩
  · rw [ran]
    exact looks.trans (tokenBucketNewItem_keeps s st' synced now reqState other)
  · rw [ran]
    exact looks.trans (synced.remove_keeps other)
  · have keyed := found_key looked isFound
    rw [ran]
    exact looks.trans (synced.setItem_keeps keyed other)
  · have keyed := found_key looked isFound
    rw [ran]
    exact looks.trans (synced.setItem_keeps keyed other)
  · -- The algorithm switched: the old item is removed and a new one added.
    rw [ran]
    exact (looks.trans (synced.remove_keeps other)).trans
      (tokenBucketNewItem_keeps _ _ (synced.remove_spec _).1 now reqState other)

theorem leakyBucket_keeps {s : Option (Store σ)} (keyed : ∀ s' ∈ s, s'.Keyed) (st : σ)
    {c : LRUCache} (sync : c.Sync) (now : Time) {r : RateLimitReq} (reqState : RateLimitReqState)
    {k : String} (other : k ≠ r.hashKey) :
    KeptOrDropped k c (leakyBucket s st c now r reqState).cache := by
  generalize burst : (if r.burst = 0 then { r with burst := r.limit } else r) = r'
  have other' : k ≠ r'.hashKey := by
    rw [← burst]
    split <;> exact other
  rcases looked : lookupBucket s st c now r' with ⟨found, c', st'⟩
  obtain ⟨looks, synced⟩ := lookupBucket_frame keyed sync other' looked
  rcases leakyBucket_cases reqState burst.symm looked with
    ⟨-, ran⟩ | ⟨item, b, e, isFound, -, -, ran⟩ |
      ⟨item, b, rate, duration, isFound, -, -, c₂, it, rl, ran, renewed, sameKey⟩ | ⟨item, -, -, ran⟩
  · rw [ran]
    exact looks.trans (leakyBucketNewItem_keeps s st' synced now reqState other')
  · have keyed := found_key looked isFound
    rw [ran]
    exact looks.trans (synced.setItem_keeps keyed other')
  · -- The window may have been renewed before the item is stored.
    have renews : KeptOrDropped k c' c₂ ∧ c₂.Sync := by
      rcases renewed with same | ⟨e, renewed⟩
      · rw [same]
        exact ⟨.refl k c', synced⟩
      · rw [renewed]
        exact ⟨synced.updateExpiration_keeps other' e, (synced.updateExpiration_spec _ e).1⟩
    have keyed := sameKey.trans (found_key looked isFound)
    rw [ran]
    exact (looks.trans renews.1).trans (renews.2.setItem_keeps keyed other')
  · rw [ran]
    exact (looks.trans (synced.remove_keeps other')).trans
      (leakyBucketNewItem_keeps _ _ (synced.remove_spec _).1 now reqState other')

/-! Every cache operation of a call keeps the map and the list in step and the
capacity as it was, so a call leaves a cache the next call can rely on. -/

/-- `after` is in sync and has the capacity of `before`. -/
def Steady (before after : LRUCache) : Prop := after.Sync ∧ after.cacheSize = before.cacheSize

theorem Steady.trans {a b c : LRUCache} (first : Steady a b) (second : Steady b c) : Steady a c :=
  ⟨second.1, second.2.trans first.2⟩

namespace LRUCache

variable {c : LRUCache}

theorem Sync.steady (sync : c.Sync) : Steady c c := ⟨sync, rfl⟩

theorem Sync.getItem_steady (sync : c.Sync) (k : String) (now : Int64) : Steady c (c.getItem k now).2 :=
  ⟨(sync.getItem_spec k now).1, getItem_cacheSize c k now⟩

theorem Sync.add_steady (sync : c.Sync) (item : CacheItem) : Steady c (c.add item).1 :=
  ⟨(sync.add_spec item).1, (sync.add_spec item).2.2.1⟩

theorem Sync.remove_steady (sync : c.Sync) (k : String) : Steady c (c.remove k) :=
  ⟨(sync.remove_spec k).1, remove_cacheSize c k⟩

theorem Sync.setItem_steady (sync : c.Sync) {k : String} {item : CacheItem} (keyed : item.key = k) :
    Steady c (c.setItem k item) :=
  ⟨(sync.setItem_spec k keyed).1, setItem_cacheSize c k item⟩

theorem Sync.updateExpiration_steady (sync : c.Sync) (k : String) (expireAt : Int64) :
    Steady c (c.updateExpiration k expireAt).1 :=
  ⟨(sync.updateExpiration_spec k expireAt).1, updateExpiration_cacheSize c k expireAt⟩

end LRUCache

theorem lookupBucket_steady (s : Option (Store σ)) (st : σ) {c : LRUCache} (sync : c.Sync)
    (now : Time) (r : RateLimitReq) : Steady c (lookupBucket s st c now r).2.1 := by
  have got := sync.getItem_steady r.hashKey (millisecondNow now)
  rcases cached : (c.getItem r.hashKey (millisecondNow now)).1 with _ | item
  · cases s with
    | none => simpa [lookupBucket, cached] using got
    | some s =>
      rcases stored : s.get st r with ⟨_ | found, st'⟩
      · simpa [lookupBucket, cached, stored] using got
      · simpa [lookupBucket, cached, stored] using got.trans (got.1.add_steady found)
  · rw [lookupBucket_of_cached s st cached]
    exact got

theorem tokenBucketNewItem_steady (s : Option (Store σ)) (st : σ) {c : LRUCache} (sync : c.Sync)
    (now : Time) (r : RateLimitReq) (reqState : RateLimitReqState) :
    Steady c (tokenBucketNewItem s st c now r reqState).cache := by
  rcases tokenBucketNewItem_cases s st c now r reqState with ⟨e, -, made⟩ | ⟨rl, item, -, made⟩
  · rw [made]
    exact sync.steady
  · rw [made]
    exact sync.add_steady item

theorem leakyBucketNewItem_steady (s : Option (Store σ)) (st : σ) {c : LRUCache} (sync : c.Sync)
    (now : Time) (r : RateLimitReq) (reqState : RateLimitReqState) :
    Steady c (leakyBucketNewItem s st c now r reqState).cache := by
  rcases leakyBucketNewItem_cases s st c now r reqState with ⟨e, -, made⟩ | ⟨rl, item, -, made⟩
  · rw [made]
    exact sync.steady
  · rw [made]
    exact sync.add_steady item

theorem tokenBucket_steady (s : Option (Store σ)) (st : σ) {c : LRUCache} (sync : c.Sync) (now : Time)
    (r : RateLimitReq) (reqState : RateLimitReqState) : Steady c (tokenBucket s st c now r reqState).cache := by
  rcases looked : lookupBucket s st c now r with ⟨found, c', st'⟩
  have looks := lookupBucket_steady s st sync now r
  rw [looked] at looks
  rcases tokenBucket_cases reqState looked with
    ⟨-, ran⟩ | ⟨item, -, -, ran⟩ | ⟨item, t, e, t', isFound, -, -, -, ran⟩ |
      ⟨item, t, t', expire, rl, isFound, -, -, -, ran⟩ | ⟨item, -, -, -, ran⟩
  · rw [ran]
    exact looks.trans (tokenBucketNewItem_steady s st' looks.1 now r reqState)
  · rw [ran]
    exact looks.trans (looks.1.remove_steady _)
  · have keyed := found_key looked isFound
    rw [ran]
    exact looks.trans (looks.1.setItem_steady keyed)
  · have keyed := found_key looked isFound
    rw [ran]
    exact looks.trans (looks.1.setItem_steady keyed)
  · have removed := looks.trans (looks.1.remove_steady r.hashKey)
    rw [ran]
    exact removed.trans (tokenBucketNewItem_steady _ _ removed.1 now r reqState)

theorem leakyBucket_steady (s : Option (Store σ)) (st : σ) {c : LRUCache} (sync : c.Sync) (now : Time)
    (r : RateLimitReq) (reqState : RateLimitReqState) : Steady c (leakyBucket s st c now r reqState).cache := by
  generalize burst : (if r.burst = 0 then { r with burst := r.limit } else r) = r'
  rcases looked : lookupBucket s st c now r' with ⟨found, c', st'⟩
  have looks := lookupBucket_steady s st sync now r'
  rw [looked] at looks
  rcases leakyBucket_cases reqState burst.symm looked with
    ⟨-, ran⟩ | ⟨item, b, e, isFound, -, -, ran⟩ |
      ⟨item, b, rate, duration, isFound, -, -, c₂, it, rl, ran, renewed, sameKey⟩ | ⟨item, -, -, ran⟩
  · rw [ran]
    exact looks.trans (leakyBucketNewItem_steady s st' looks.1 now r' reqState)
  · have keyed := found_key looked isFound
    rw [ran]
    exact looks.trans (looks.1.setItem_steady keyed)
  · -- The window may have been renewed before the item is stored.
    have renews : Steady c' c₂ := by
      rcases renewed with same | ⟨e, renewed⟩
      · rw [same]
        exact looks.1.steady
      · rw [renewed]
        exact looks.1.updateExpiration_steady _ e
    have keyed := sameKey.trans (found_key looked isFound)
    rw [ran]
    exact (looks.trans renews).trans (renews.1.setItem_steady keyed)
  · have removed := looks.trans (looks.1.remove_steady r'.hashKey)
    rw [ran]
    exact removed.trans (leakyBucketNewItem_steady _ _ removed.1 now r' reqState)

/-! A Store that keeps an item under another key than the one asked for. -/

def foreignItem : CacheItem :=
  { algorithm := .TOKEN_BUCKET, key := "requests_per_sec_account:2", expireAt := 5000,
    value := .tokenBucket { limit := 5, duration := 1000, remaining := 3, createdAt := 0 } }

def foreignStore : Store Unit :=
  { onChange := fun st _ _ => st, get := fun st _ => (some foreignItem, st), remove := fun st _ => st }

def accountOneRequest : RateLimitReq :=
  { name := "requests_per_sec", uniqueKey := "account:1", hits := 1, limit := 5, duration := 1000,
    createdAt := some 10 }

/-- The sanity checks reject the Store's item for account 2, and the call
answers account 1 with a new bucket, but the rejected item stays in the cache
under account 2's key, which the cache did not hold before. -/
theorem rejected_store_item_stays_cached :
    foreignItem.key ≠ accountOneRequest.hashKey ∧
      find CacheItem.key (newLRUCache 0).entries foreignItem.key = none ∧
      find CacheItem.key (tokenBucket (some foreignStore) () (newLRUCache 0) ⟨10000000⟩ accountOneRequest
          ⟨true⟩).cache.entries foreignItem.key = some foreignItem ∧
      find CacheItem.key (leakyBucket (some foreignStore) () (newLRUCache 0) ⟨10000000⟩ accountOneRequest
          ⟨true⟩).cache.entries foreignItem.key = some foreignItem := by
  decide +kernel

end Gubernator
