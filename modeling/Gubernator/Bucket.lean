import Gubernator.Interval
import Gubernator.LRUCache

/-!
What the two algorithms of algorithms.go share: the result of a call and the
lookup that both inline (lines 41-74 and 270-303). A cache miss asks the Store,
and an item the Store returns is added to the cache before it is checked; an item
with a nil value or stored under another key is then ignored.
-/

namespace Gubernator

open CivilTime

/-- The response or error of one call, with the cache and the Store state after it. -/
structure Outcome (σ : Type) where
  resp : Except String RateLimitResp
  cache : LRUCache
  store : σ

variable {σ : Type}

/-- The sanity checks: a nil value or a key mismatch makes the item count as absent. -/
def sanityCheck (hashKey : String) : Option CacheItem → Option CacheItem
  | some item =>
    if item.value = .nil then none
    else if item.key ≠ hashKey then none
    else some item
  | none => none

-- An item that passes the checks has a value and the request's key.
theorem sanityCheck_eq_some {k : String} {o : Option CacheItem} {item : CacheItem}
    (checked : sanityCheck k o = some item) :
    o = some item ∧ item.value ≠ .nil ∧ item.key = k := by
  cases o with
  | none => cases checked
  | some v =>
    simp only [sanityCheck] at checked
    split_ifs at checked with empty other
    cases checked
    exact ⟨rfl, empty, not_not.mp other⟩

/-- `c.GetItem(hashKey)`, then on a miss `s.Get` and `c.Add`, then the sanity checks. -/
def lookupBucket (s : Option (Store σ)) (st : σ) (c : LRUCache) (now : Time)
    (r : RateLimitReq) : Option CacheItem × LRUCache × σ :=
  let hashKey := r.hashKey
  let (item, c) := c.getItem hashKey (millisecondNow now)
  let (item, c, st) : Option CacheItem × LRUCache × σ :=
    match s, item with
    | some s, none =>
      match s.get st r with
      | (some found, st) => (some found, (c.add found).1, st)
      | (none, st) => (none, c, st)
    | _, item => (item, c, st)
  (sanityCheck hashKey item, c, st)

/-! A live item in the cache answers the lookup without the Store. On a miss the
Store's item is used once it passes the checks: its expiry is never looked at. -/

theorem lookupBucket_of_cached (s : Option (Store σ)) (st : σ) {c : LRUCache} {now : Time}
    {r : RateLimitReq} {item : CacheItem}
    (cached : (c.getItem r.hashKey (millisecondNow now)).1 = some item) :
    lookupBucket s st c now r =
      (sanityCheck r.hashKey (some item), (c.getItem r.hashKey (millisecondNow now)).2, st) := by
  cases s <;> simp [lookupBucket, cached]

theorem lookupBucket_of_store {s : Store σ} {st st' : σ} {c : LRUCache} {now : Time}
    {r : RateLimitReq} {found : CacheItem}
    (missed : (c.getItem r.hashKey (millisecondNow now)).1 = none)
    (stored : s.get st r = (some found, st')) (keyed : found.key = r.hashKey)
    (present : found.value ≠ .nil) :
    lookupBucket (some s) st c now r =
      (some found, ((c.getItem r.hashKey (millisecondNow now)).2.add found).1, st') := by
  simp [lookupBucket, missed, stored, sanityCheck, present, keyed]

-- Whatever the lookup returns has a value and the request's key.
theorem lookupBucket_keyed (s : Option (Store σ)) (st : σ) (c : LRUCache) (now : Time)
    (r : RateLimitReq) {item : CacheItem} (found : (lookupBucket s st c now r).1 = some item) :
    item.key = r.hashKey ∧ item.value ≠ .nil := by
  suffices checked : ∃ o, sanityCheck r.hashKey o = some item by
    obtain ⟨o, checked⟩ := checked
    obtain ⟨-, present, keyed⟩ := sanityCheck_eq_some checked
    exact ⟨keyed, present⟩
  rcases cached : (c.getItem r.hashKey (millisecondNow now)).1 with _ | got
  · cases s with
    | none => simp [lookupBucket, cached, sanityCheck] at found
    | some s =>
      rcases stored : s.get st r with ⟨_ | got, st'⟩
      · simp [lookupBucket, cached, stored, sanityCheck] at found
      · exact ⟨some got, by simpa [lookupBucket, cached, stored] using found⟩
  · rw [lookupBucket_of_cached s st cached] at found
    exact ⟨some got, found⟩

theorem lookupBucket_sync (s : Option (Store σ)) (st : σ) {c : LRUCache} (sync : c.Sync)
    (now : Time) (r : RateLimitReq) : (lookupBucket s st c now r).2.1.Sync := by
  have got := (sync.getItem_spec r.hashKey (millisecondNow now)).1
  rcases cached : (c.getItem r.hashKey (millisecondNow now)).1 with _ | item
  · cases s with
    | none => simpa [lookupBucket, cached] using got
    | some s =>
      -- A miss asks the Store, and an item it returns is added.
      rcases stored : s.get st r with ⟨_ | found, st'⟩
      · simpa [lookupBucket, cached, stored] using got
      · simpa [lookupBucket, cached, stored] using (got.add_spec found).1
  · rw [lookupBucket_of_cached s st cached]
    exact got

end Gubernator
