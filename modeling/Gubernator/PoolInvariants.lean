import Gubernator.PoolRun
import Gubernator.StoreSync
import Gubernator.ConfigChange

/-!
What every run of the worker pool keeps, over any keys and in any order of the
calls. A cache invariant is a property every item satisfies (`LRUCache.All`),
kept by each cache operation when the new item has it. Two such invariants of
the whole pool: every token bucket stays between zero and its Limit, under
token-bucket requests whose Limit and Hits are not negative, and so does every
answer; and, on an owner serving its own requests with a Store, what the pool
holds for a key is the bucket the Store last received for it through `OnChange`,
since every Store call of a request concerns the request's key only.
-/

namespace Gubernator

open CivilTime RecencyList

variable {σ : Type}

namespace LRUCache

def All (P : CacheItem → Prop) (c : LRUCache) : Prop := ∀ it ∈ c.entries, P it

variable {P : CacheItem → Prop} {c : LRUCache}

theorem All.add (all : c.All P) (sync : c.Sync) {item : CacheItem} (new : P item) :
    (c.add item).1.All P := by
  intro it member
  rw [(sync.add_spec item).2.1] at member
  rcases mem_put member with rfl | old
  · exact new
  · exact all it old

theorem All.remove (all : c.All P) (sync : c.Sync) (k : String) : (c.remove k).All P := by
  intro it member
  rw [(sync.remove_spec k).2] at member
  exact all it (mem_erase.mp member).1

theorem All.getItem (all : c.All P) (sync : c.Sync) (k : String) (now : Int64) :
    (c.getItem k now).2.All P := by
  intro it member
  rw [(sync.getItem_spec k now).2.2] at member
  exact all it (mem_get member)

theorem All.getItem_found (all : c.All P) (sync : c.Sync) {k : String} {now : Int64} {item : CacheItem}
    (found : (c.getItem k now).1 = some item) : P item := by
  rw [(sync.getItem_spec k now).2.1, get_fst] at found
  exact all item (mem_of_find (Option.filter_eq_some_iff.mp found).1)

theorem All.setItem (all : c.All P) (sync : c.Sync) {k : String} {item : CacheItem} (keyed : item.key = k)
    (new : P item) : (c.setItem k item).All P := by
  intro it member
  rw [(sync.setItem_spec k keyed).2] at member
  rcases mem_update member with old | ⟨_, -, rfl⟩
  · exact all it old
  · exact new

end LRUCache

open LRUCache in
theorem lookupBucket_all {P : CacheItem → Prop} (s : Option (Store σ)) (st : σ) {c : LRUCache}
    (sync : c.Sync) (all : c.All P) (stored : ∀ s' ∈ s, ∀ st r item, (s'.get st r).1 = some item → P item)
    (now : Time) (r : RateLimitReq) :
    (lookupBucket s st c now r).2.1.All P ∧ ∀ item, (lookupBucket s st c now r).1 = some item → P item := by
  have got := (sync.getItem_spec r.hashKey (millisecondNow now)).1
  have kept := all.getItem sync r.hashKey (millisecondNow now)
  rcases cached : (c.getItem r.hashKey (millisecondNow now)).1 with _ | item
  · cases s with
    | none => simpa [lookupBucket, cached, sanityCheck] using kept
    | some s =>
      rcases answered : s.get st r with ⟨_ | found, st'⟩
      · simpa [lookupBucket, cached, answered, sanityCheck] using kept
      · -- A miss asks the Store, and the item it returns is added.
        have new : P found := stored s rfl st r found (by rw [answered])
        refine ⟨by simpa [lookupBucket, cached, answered] using kept.add got new, fun it checked => ?_⟩
        simp only [lookupBucket, cached, answered] at checked
        obtain ⟨same, -, -⟩ := sanityCheck_eq_some checked
        cases same
        exact new
  · rw [lookupBucket_of_cached s st cached]
    refine ⟨kept, fun it checked => ?_⟩
    dsimp only at checked
    obtain ⟨same, -, -⟩ := sanityCheck_eq_some checked
    cases same
    exact all.getItem_found sync cached

def TokenBucketItem.Bounded (t : TokenBucketItem) : Prop :=
  0 ≤ t.remaining.toInt ∧ t.remaining.toInt ≤ t.limit.toInt

instance : DecidablePred TokenBucketItem.Bounded := fun _ => inferInstanceAs (Decidable (_ ∧ _))

def CacheValue.TokenBounded : CacheValue → Prop
  | .tokenBucket t => t.Bounded
  | _ => True

instance : DecidablePred CacheValue.TokenBounded := fun v =>
  match v with
  | .nil => isTrue trivial
  | .tokenBucket t => inferInstanceAs (Decidable t.Bounded)
  | .leakyBucket _ => isTrue trivial

def RateLimitResp.Bounded (rl : RateLimitResp) : Prop :=
  0 ≤ rl.remaining.toInt ∧ rl.remaining.toInt ≤ rl.limit.toInt

/-! The bound through each block of the source: the limit change adds the
difference and floors at zero, a renewal refills to the limit, and a hit takes
no more than Remaining. -/

open Int64Range in
theorem tokenBucketLimitChange_bounded {t : TokenBucketItem} (bounded : t.Bounded) {r : RateLimitReq}
    (limit : 0 ≤ r.limit.toInt) :
    (tokenBucketLimitChange t r).Bounded ∧ (tokenBucketLimitChange t r).limit = r.limit := by
  unfold tokenBucketLimitChange
  split_ifs with moved
  · -- With Remaining within the old limit, neither the difference nor the sum leaves int64.
    obtain ⟨stocked, within⟩ := bounded
    have := fits_toInt r.limit
    have := fits_toInt t.limit
    have diff : (r.limit - t.limit).toInt = r.limit.toInt - t.limit.toInt :=
      toInt_sub_of_fits _ _ (by simp only [Fits] at *; omega)
    have sum : (t.remaining + (r.limit - t.limit)).toInt =
        t.remaining.toInt + (r.limit.toInt - t.limit.toInt) := by
      rw [toInt_add_of_fits _ _ (by rw [diff]; simp only [Fits] at *; omega), diff]
    refine ⟨?_, rfl⟩
    unfold TokenBucketItem.Bounded
    dsimp only
    split_ifs with negative
    · simp only [Int64.toInt_zero]
      omega
    · rw [Int64.lt_iff_toInt_lt, sum] at negative
      simp only [Int64.toInt_zero] at negative
      rw [sum]
      omega
  · exact ⟨bounded, not_not.mp moved⟩

theorem tokenBucketDurationChange_bounded {t : TokenBucketItem} (bounded : t.Bounded) {expireAt : Int64}
    {now : Time} {r : RateLimitReq} {t' : TokenBucketItem} {expire : Int64}
    (changed : tokenBucketDurationChange t expireAt now r = .ok (t', expire)) :
    t'.Bounded ∧ t'.limit = t.limit := by
  unfold tokenBucketDurationChange at changed
  by_cases moved : t.duration ≠ r.duration
  · rw [if_pos moved] at changed
    dsimp only at changed
    split at changed
    · cases changed
    · split_ifs at changed with closed
      · -- A window the new duration has closed is refilled to the limit.
        obtain ⟨rfl, -⟩ := Prod.mk.inj (Except.ok.inj changed)
        exact ⟨⟨le_trans bounded.1 bounded.2, le_rfl⟩, rfl⟩
      · obtain ⟨rfl, -⟩ := Prod.mk.inj (Except.ok.inj changed)
        exact ⟨bounded, rfl⟩
  · rw [if_neg moved] at changed
    obtain ⟨rfl, -⟩ := Prod.mk.inj (Except.ok.inj changed)
    exact ⟨bounded, rfl⟩

-- The answer keeps its Limit, and carries the Remaining it came with, zero, or
-- the bucket's new Remaining.
theorem tokenBucketHits_answer (t : TokenBucketItem) (rl : RateLimitResp) (r : RateLimitReq) :
    (tokenBucketHits t rl r).2.limit = rl.limit ∧
      ((tokenBucketHits t rl r).2.remaining = rl.remaining ∨ (tokenBucketHits t rl r).2.remaining = 0 ∨
        (tokenBucketHits t rl r).2.remaining = (tokenBucketHits t rl r).1.remaining) := by
  unfold tokenBucketHits
  split_ifs <;> simp

theorem tokenBucketHits_bounded {t : TokenBucketItem} (bounded : t.Bounded) (rl : RateLimitResp)
    {r : RateLimitReq} (hits : 0 ≤ r.hits.toInt) : (tokenBucketHits t rl r).1.Bounded := by
  obtain ⟨stocked, taken, -⟩ := tokenBucketHits_takes t rl r bounded.1 hits
  have config := (tokenBucketHits_config t rl r).1
  exact ⟨stocked, by rw [config]; exact le_trans taken bounded.2⟩

theorem tokenBucketUpdate_bounded {t : TokenBucketItem} (bounded : t.Bounded) {expireAt : Int64}
    {now : Time} {r : RateLimitReq} (limit : 0 ≤ r.limit.toInt) (hits : 0 ≤ r.hits.toInt)
    {t' : TokenBucketItem} {expire : Int64} {rl : RateLimitResp}
    (updated : tokenBucketUpdate t expireAt now r = .ok (t', expire, rl)) : t'.Bounded ∧ rl.Bounded := by
  obtain ⟨changedBounded, changedLimit⟩ := tokenBucketLimitChange_bounded bounded limit
  unfold tokenBucketUpdate at updated
  cases renewed : tokenBucketDurationChange (tokenBucketLimitChange t r) expireAt now r with
  | error e => simp [renewed] at updated
  | ok result =>
    obtain ⟨t₂, expire₂⟩ := result
    obtain ⟨renewedBounded, renewedLimit⟩ := tokenBucketDurationChange_bounded changedBounded renewed
    simp only [renewed, Except.ok.injEq, Prod.mk.injEq] at updated
    obtain ⟨rfl, -, rfl⟩ := updated
    -- The answer starts from the Remaining the limit change left, under the request's Limit.
    set rl₀ : RateLimitResp :=
      { status := (tokenBucketLimitChange t r).status, limit := r.limit,
        remaining := (tokenBucketLimitChange t r).remaining, resetTime := expire₂ }
    have taken := tokenBucketHits_bounded renewedBounded rl₀ hits
    obtain ⟨answerLimit, answered⟩ := tokenBucketHits_answer t₂ rl₀ r
    have limits : t₂.limit = r.limit := renewedLimit.trans changedLimit
    have startLimit : rl₀.limit = r.limit := rfl
    have startRemaining : rl₀.remaining = (tokenBucketLimitChange t r).remaining := rfl
    refine ⟨taken, ?_⟩
    unfold RateLimitResp.Bounded
    rw [answerLimit, startLimit]
    rcases answered with same | zero | same
    · rw [same, startRemaining, ← changedLimit]
      exact changedBounded
    · rw [zero]
      exact ⟨le_rfl, limit⟩
    · rw [same, ← limits, ← (tokenBucketHits_config t₂ rl₀ r).1]
      exact taken

-- A new bucket's answer carries the bucket's own Remaining under the request's Limit.
theorem tokenBucketCreate_answer (r : RateLimitReq) (expire : Int64) :
    (tokenBucketCreate r expire).2.remaining = (tokenBucketCreate r expire).1.remaining ∧
      (tokenBucketCreate r expire).2.limit = r.limit := by
  unfold tokenBucketCreate
  split_ifs <;> exact ⟨rfl, rfl⟩

theorem tokenBucketCreate_bounded {r : RateLimitReq} (limit : 0 ≤ r.limit.toInt) (hits : 0 ≤ r.hits.toInt)
    (expire : Int64) : (tokenBucketCreate r expire).1.Bounded ∧ (tokenBucketCreate r expire).2.Bounded := by
  obtain ⟨sameLimit, -, stocked, within, -⟩ := tokenBucketCreate_takes r expire hits
  obtain ⟨answerRemaining, answerLimit⟩ := tokenBucketCreate_answer r expire
  have made : (tokenBucketCreate r expire).1.Bounded := ⟨stocked limit, sameLimit ▸ within⟩
  refine ⟨made, ?_⟩
  unfold RateLimitResp.Bounded
  rw [answerRemaining, answerLimit]
  exact ⟨stocked limit, within⟩

open LRUCache in
theorem tokenBucketNewItem_bounded (s : Option (Store σ)) (st : σ) {c : LRUCache} (sync : c.Sync)
    (all : c.All (·.value.TokenBounded)) (now : Time) {r : RateLimitReq} (limit : 0 ≤ r.limit.toInt)
    (hits : 0 ≤ r.hits.toInt) (reqState : RateLimitReqState) :
    (tokenBucketNewItem s st c now r reqState).cache.All (·.value.TokenBounded) ∧
      ∀ rl, (tokenBucketNewItem s st c now r reqState).resp = .ok rl → rl.Bounded := by
  unfold tokenBucketNewItem
  dsimp only
  -- Only the expiry can fail; the bucket is then the one tokenBucketCreate builds.
  generalize (if hasBehavior r.behavior Behavior.DURATION_IS_GREGORIAN then
    gregorianExpiration now r.duration else .ok (r.createdAtValue + r.duration) : Except String Int64) = expire
  cases expire with
  | error e => exact ⟨all, fun _ failed => by cases failed⟩
  | ok expire =>
    obtain ⟨made, answered⟩ := tokenBucketCreate_bounded limit hits expire
    exact ⟨all.add sync made, fun rl ok => by cases ok; exact answered⟩

open LRUCache in
theorem tokenBucket_bounded {s : Option (Store σ)}
    (stored : ∀ s' ∈ s, ∀ st r item, (s'.get st r).1 = some item → item.value.TokenBounded) (st : σ)
    {c : LRUCache} (sync : c.Sync) (all : c.All (·.value.TokenBounded)) (now : Time) {r : RateLimitReq}
    (limit : 0 ≤ r.limit.toInt) (hits : 0 ≤ r.hits.toInt) (reqState : RateLimitReqState) :
    (tokenBucket s st c now r reqState).cache.All (·.value.TokenBounded) ∧
      ∀ rl, (tokenBucket s st c now r reqState).resp = .ok rl → rl.Bounded := by
  rcases looked : lookupBucket s st c now r with ⟨found, c', st'⟩
  have synced : c'.Sync := by simpa [looked] using lookupBucket_sync s st sync now r
  obtain ⟨kept, foundBounded⟩ : c'.All (·.value.TokenBounded) ∧
      ∀ item, found = some item → item.value.TokenBounded := by
    simpa [looked] using lookupBucket_all s st sync all stored now r
  rcases tokenBucket_cases reqState looked with
    ⟨-, fresh⟩ | ⟨item, -, -, reset⟩ | ⟨item, t, e, t', isFound, -, value, failed, ran⟩ |
      ⟨item, t, t', expire, rl, isFound, -, value, updated, ran⟩ | ⟨item, -, -, -, switched⟩
  · rw [fresh]
    exact tokenBucketNewItem_bounded s st' synced kept now limit hits reqState
  · -- RESET_REMAINING drops the bucket and answers a full one.
    rw [reset]
    exact ⟨kept.remove synced _, fun rl ok => by cases ok; exact ⟨limit, le_rfl⟩⟩
  · -- A failed duration change leaves the bucket as the limit change made it.
    have bounded : t.Bounded := by simpa [value, CacheValue.TokenBounded] using foundBounded item isFound
    have keyed := found_key looked isFound
    obtain ⟨rfl, -⟩ := tokenBucketUpdate_error failed
    rw [ran]
    exact ⟨kept.setItem synced keyed (tokenBucketLimitChange_bounded bounded limit).1,
      fun _ failed => by cases failed⟩
  · have bounded : t.Bounded := by simpa [value, CacheValue.TokenBounded] using foundBounded item isFound
    have keyed := found_key looked isFound
    obtain ⟨made, answered⟩ := tokenBucketUpdate_bounded bounded limit hits updated
    rw [ran]
    exact ⟨kept.setItem synced keyed made, fun _ ok => by cases ok; exact answered⟩
  · -- An algorithm switch removes the old bucket before creating a new one.
    rw [switched]
    exact tokenBucketNewItem_bounded _ _ (synced.remove_spec _).1 (kept.remove synced _) now limit hits
      reqState

open LRUCache in
theorem handleGetRateLimit_bounded {s : Option (Store σ)}
    (stored : ∀ s' ∈ s, ∀ st r item, (s'.get st r).1 = some item → item.value.TokenBounded) (st : σ)
    {c : LRUCache} (sync : c.Sync) (all : c.All (·.value.TokenBounded)) (now : Time) {r : RateLimitReq}
    (token : r.algorithm = .TOKEN_BUCKET) (limit : 0 ≤ r.limit.toInt) (hits : 0 ≤ r.hits.toInt)
    (reqState : RateLimitReqState) :
    (handleGetRateLimit s st c now r reqState).cache.All (·.value.TokenBounded) ∧
      ∀ rl, (handleGetRateLimit s st c now r reqState).resp = .ok rl → rl.Bounded := by
  obtain ⟨kept, answered⟩ := tokenBucket_bounded stored st sync all now limit hits reqState
  unfold handleGetRateLimit
  rw [token]
  exact ⟨kept, fun rl ok => answered rl (mapError_eq_ok ok)⟩

def StoreCall.keyOf : StoreCall → String
  | .onChange r _ => r.hashKey
  | .get r => r.hashKey
  | .remove key => key

/-- The calls appended to `log` all concern the key `k`. -/
def LogFor (k : String) (log log' : List StoreCall) : Prop :=
  ∃ calls, log' = log ++ calls ∧ ∀ call ∈ calls, call.keyOf = k

namespace LogFor

variable {k : String}

theorem refl (k : String) (log : List StoreCall) : LogFor k log log := ⟨[], by simp, by simp⟩

theorem trans {a b c : List StoreCall} (first : LogFor k a b) (second : LogFor k b c) : LogFor k a c := by
  obtain ⟨xs, rfl, xsKey⟩ := first
  obtain ⟨ys, rfl, ysKey⟩ := second
  refine ⟨xs ++ ys, by simp, fun call member => ?_⟩
  rcases List.mem_append.mp member with inXs | inYs
  · exact xsKey call inXs
  · exact ysKey call inYs

theorem single (log : List StoreCall) (call : StoreCall) : LogFor call.keyOf log (log ++ [call]) :=
  ⟨[call], rfl, by simp⟩

-- Calls about one key leave the last change of every other key as it was.
theorem lastChange_eq {log log' : List StoreCall} (logged : LogFor k log log') {k' : String}
    (other : k' ≠ k) : lastChange k' log' = lastChange k' log := by
  obtain ⟨calls, rfl, keyed⟩ := logged
  have silent : calls.reverse.findSome? (StoreCall.changeOf k') = none := by
    rw [List.findSome?_eq_none_iff]
    intro call member
    have about := keyed call (List.mem_reverse.mp member)
    cases call with
    | onChange r item =>
      have apart : r.hashKey ≠ k' := fun same => other (same.symm.trans about)
      simp [StoreCall.changeOf, apart]
    | get r => rfl
    | remove key => rfl
  simp [lastChange, List.findSome?_append, silent]

end LogFor

section Recording

variable (s : Store σ)

theorem onChangeIf_logFor (reqState : RateLimitReqState) (st : σ × List StoreCall) (r : RateLimitReq)
    (item : CacheItem) : LogFor r.hashKey st.2 (Store.onChangeIf (some s.recording) reqState st r item).2 := by
  obtain ⟨owner⟩ := reqState
  cases owner
  · exact .refl _ _
  · exact .single st.2 (.onChange r item)

theorem removeIf_logFor (st : σ × List StoreCall) (key : String) :
    LogFor key st.2 (Store.removeIf (some s.recording) st key).2 :=
  .single st.2 (.remove key)

-- The lookup asks the Store only on a miss, and only about the request.
theorem lookupBucket_logFor (st : σ × List StoreCall) (c : LRUCache) (now : Time) (r : RateLimitReq) :
    LogFor r.hashKey st.2 (lookupBucket (some s.recording) st c now r).2.2.2 := by
  rcases cached : (c.getItem r.hashKey (millisecondNow now)).1 with _ | item
  · rcases answered : (s.get st.1 r).1 with _ | found
    · simpa [lookupBucket, cached, Store.recording, answered, StoreCall.keyOf] using LogFor.single st.2 (.get r)
    · simpa [lookupBucket, cached, Store.recording, answered, StoreCall.keyOf] using LogFor.single st.2 (.get r)
  · rw [lookupBucket_of_cached _ st cached]
    exact .refl _ _

theorem tokenBucketNewItem_logFor (st : σ × List StoreCall) (c : LRUCache) (now : Time) (r : RateLimitReq)
    (reqState : RateLimitReqState) :
    LogFor r.hashKey st.2 (tokenBucketNewItem (some s.recording) st c now r reqState).store.2 := by
  rcases tokenBucketNewItem_cases (some s.recording) st c now r reqState with ⟨e, -, made⟩ | ⟨rl, item, -, made⟩
  · rw [made]
    exact .refl _ _
  · rw [made]
    exact onChangeIf_logFor s reqState st r item

theorem leakyBucketNewItem_logFor (st : σ × List StoreCall) (c : LRUCache) (now : Time) (r : RateLimitReq)
    (reqState : RateLimitReqState) :
    LogFor r.hashKey st.2 (leakyBucketNewItem (some s.recording) st c now r reqState).store.2 := by
  rcases leakyBucketNewItem_cases (some s.recording) st c now r reqState with ⟨e, -, made⟩ | ⟨rl, item, -, made⟩
  · rw [made]
    exact .refl _ _
  · rw [made]
    exact onChangeIf_logFor s reqState st r item

theorem tokenBucket_logFor (st : σ × List StoreCall) (c : LRUCache) (now : Time) (r : RateLimitReq)
    (reqState : RateLimitReqState) :
    LogFor r.hashKey st.2 (tokenBucket (some s.recording) st c now r reqState).store.2 := by
  rcases looked : lookupBucket (some s.recording) st c now r with ⟨found, c', st'⟩
  have asked : LogFor r.hashKey st.2 st'.2 := by simpa [looked] using lookupBucket_logFor s st c now r
  rcases tokenBucket_cases reqState looked with
    ⟨-, fresh⟩ | ⟨item, -, -, reset⟩ | ⟨item, t, e, t', -, -, -, -, failed⟩ |
      ⟨item, t, t', expire, rl, -, -, -, -, ran⟩ | ⟨item, -, -, -, switched⟩
  · rw [fresh]
    exact asked.trans (tokenBucketNewItem_logFor s st' c' now r reqState)
  · rw [reset]
    exact asked.trans (removeIf_logFor s st' r.hashKey)
  · rw [failed]
    exact asked
  · rw [ran]
    exact asked.trans (onChangeIf_logFor s reqState st' r _)
  · rw [switched]
    exact (asked.trans (removeIf_logFor s st' r.hashKey)).trans (tokenBucketNewItem_logFor s _ _ now r reqState)

theorem leakyBucket_logFor (st : σ × List StoreCall) (c : LRUCache) (now : Time) (r : RateLimitReq)
    (reqState : RateLimitReqState) :
    LogFor r.hashKey st.2 (leakyBucket (some s.recording) st c now r reqState).store.2 := by
  -- The algorithm works with the request whose Burst defaults to Limit, under the same key.
  set r' : RateLimitReq := if r.burst = 0 then { r with burst := r.limit } else r with burst
  have sameKey : r'.hashKey = r.hashKey := by
    rw [burst]
    split <;> rfl
  rw [← sameKey]
  rcases looked : lookupBucket (some s.recording) st c now r' with ⟨found, c', st'⟩
  have asked : LogFor r'.hashKey st.2 st'.2 := by simpa [looked] using lookupBucket_logFor s st c now r'
  rcases leakyBucket_cases reqState burst looked with
    ⟨-, fresh⟩ | ⟨item, b, e, -, -, -, failed⟩ | ⟨item, b, rate, duration, -, -, -, c₂, it, rl, ran, -, -⟩ |
      ⟨item, -, -, switched⟩
  · rw [fresh]
    exact asked.trans (leakyBucketNewItem_logFor s st' c' now r' reqState)
  · rw [failed]
    exact asked
  · rw [ran]
    exact asked.trans (onChangeIf_logFor s reqState st' r' it)
  · rw [switched]
    exact (asked.trans (removeIf_logFor s st' r'.hashKey)).trans
      (leakyBucketNewItem_logFor s _ _ now r' reqState)

theorem handleGetRateLimit_logFor (st : σ × List StoreCall) (c : LRUCache) (now : Time) (r : RateLimitReq)
    (reqState : RateLimitReqState) :
    LogFor r.hashKey st.2 (handleGetRateLimit (some s.recording) st c now r reqState).store.2 := by
  unfold handleGetRateLimit
  cases r.algorithm with
  | TOKEN_BUCKET => exact tokenBucket_logFor s st c now r reqState
  | LEAKY_BUCKET => exact leakyBucket_logFor s st c now r reqState
  | unrecognized value _ => exact .refl _ _

end Recording

theorem Store.Keyed.recording {s : Store σ} (keyed : s.Keyed) : s.recording.Keyed :=
  fun st r item got => keyed st.1 r item got

namespace WorkerPool

open LRUCache

section Bounded


def TokenBounded (p : WorkerPool σ) : Prop := ∀ c ∈ p.caches, c.All (·.value.TokenBounded)

/-- The calls that keep the bound: token-bucket requests whose Limit and Hits are
not negative, additions of bounded buckets, and any read. -/
def Call.TokenAdmissible : Call → Prop
  | .getRateLimit _ req _ => req.algorithm = .TOKEN_BUCKET ∧ 0 ≤ req.limit.toInt ∧ 0 ≤ req.hits.toInt
  | .addCacheItem _ item => item.value.TokenBounded
  | .getCacheItem _ _ => True

instance : DecidablePred Call.TokenAdmissible := fun call =>
  match call with
  | .getRateLimit _ req _ =>
    inferInstanceAs (Decidable (req.algorithm = .TOKEN_BUCKET ∧ 0 ≤ req.limit.toInt ∧ 0 ≤ req.hits.toInt))
  | .addCacheItem _ item => inferInstanceAs (Decidable item.value.TokenBounded)
  | .getCacheItem _ _ => isTrue trivial

variable {p : WorkerPool σ}

theorem newWorkerPool_tokenBounded (hasher : String → UInt64) (workers : Nat) (cacheSize : Int)
    (store : Option (Store σ)) : (newWorkerPool hasher workers cacheSize store).TokenBounded := by
  intro c member it inside
  obtain ⟨-, rfl⟩ := List.mem_replicate.mp member
  simp [newLRUCache, LRUCache.entries, LinkedList.empty, LinkedList.values] at inside

theorem TokenBounded.cache (bounded : p.TokenBounded) {i : Nat} {c : LRUCache} (got : p.caches[i]? = some c) :
    c.All (·.value.TokenBounded) :=
  bounded c (List.mem_of_getElem? got)

theorem TokenBounded.set (bounded : p.TokenBounded) {i : Nat} {c' : LRUCache}
    (all : c'.All (·.value.TokenBounded)) : ({ p with caches := p.caches.set i c' } : WorkerPool σ).TokenBounded := by
  intro d member
  rcases List.mem_or_eq_of_mem_set member with old | rfl
  · exact bounded d old
  · exact all

/-- What a run keeps: sound caches, the Store of the start, and bounded token buckets. -/
structure Bounds (start p : WorkerPool σ) : Prop where
  sound : p.Sound
  store : p.store = start.store
  bounded : p.TokenBounded

section Stored

variable {start : WorkerPool σ}
  (stored : ∀ s ∈ start.store, ∀ st r item, (s.get st r).1 = some item → item.value.TokenBounded)
include stored

theorem Bounds.getRateLimit (bounds : Bounds start p) {st st' : σ} {now : Time} {req : RateLimitReq}
    {reqState : RateLimitReqState} (admissible : (Call.getRateLimit now req reqState).TokenAdmissible)
    {resp : Except String RateLimitResp} {p' : WorkerPool σ}
    (ran : p.getRateLimit st now req reqState = some (resp, p', st')) :
    Bounds start p' ∧ ∀ rl, resp = .ok rl → rl.Bounded := by
  obtain ⟨token, limit, hits⟩ := admissible
  obtain ⟨c, got, rfl, rfl, -⟩ := getRateLimit_eq_some ran
  have sync := (bounds.sound.cache got).1
  obtain ⟨kept, answered⟩ := handleGetRateLimit_bounded (bounds.store ▸ stored) st sync
    (bounds.bounded.cache got) now token limit hits reqState
  exact ⟨⟨bounds.sound.set got (handleGetRateLimit_steady _ st sync now req reqState), bounds.store,
    bounds.bounded.set kept⟩, answered⟩

-- One case per call; each replaces the cache of the key's worker.
theorem Bounds.serve (bounds : Bounds start p) {call : Call} (admissible : call.TokenAdmissible)
    {st st' : σ} {p' : WorkerPool σ} (served : serve (p, st) call = some (p', st')) : Bounds start p' := by
  cases call with
  | getRateLimit now req reqState =>
    obtain ⟨⟨resp, q, st''⟩, ran, same⟩ := Option.map_eq_some_iff.mp served
    cases same
    exact (bounds.getRateLimit stored admissible ran).1
  | addCacheItem key item =>
    obtain ⟨q, added, same⟩ := Option.map_eq_some_iff.mp served
    cases same
    obtain ⟨c, got, rfl⟩ := addCacheItem_eq_some added
    have sync := (bounds.sound.cache got).1
    exact ⟨bounds.sound.set got (sync.add_steady item), bounds.store,
      bounds.bounded.set ((bounds.bounded.cache got).add sync admissible)⟩
  | getCacheItem key now =>
    obtain ⟨⟨item, q⟩, read, same⟩ := Option.map_eq_some_iff.mp served
    cases same
    obtain ⟨c, got, -, rfl⟩ := getCacheItem_eq_some read
    have sync := (bounds.sound.cache got).1
    exact ⟨bounds.sound.set got (sync.getItem_steady key now), bounds.store,
      bounds.bounded.set ((bounds.bounded.cache got).getItem sync key now)⟩

end Stored

/-- Over every run of token-bucket requests with a Limit and Hits that are not
negative, additions of bounded buckets and reads, in any order and on any keys,
from a pool whose token buckets are bounded and whose Store only answers with
bounded buckets, every token bucket stays between zero and its Limit, and every
answer the pool then gives has Remaining between zero and its Limit. -/
theorem tokenBucket_run_bounded {start : WorkerPool σ} (sound : start.Sound) (bounded : start.TokenBounded)
    (stored : ∀ s ∈ start.store, ∀ st r item, (s.get st r).1 = some item → item.value.TokenBounded)
    (calls : List Call) (admissible : ∀ call ∈ calls, call.TokenAdmissible) (st : σ) :
    ∀ ps ∈ Run.runSome serve (start, st) calls, ps.1.TokenBounded ∧
      ∀ now req reqState, (Call.getRateLimit now req reqState).TokenAdmissible →
        ∀ rl p' st', ps.1.getRateLimit ps.2 now req reqState = some (.ok rl, p', st') → rl.Bounded := by
  rintro ⟨p, st'⟩ ran
  have bounds := Run.invariant_runSome_on serve (fun ps => Bounds start ps.1) Call.TokenAdmissible
    (fun ⟨_, _⟩ _ ⟨_, _⟩ admissible bounds served => bounds.serve stored admissible served)
    calls (start, st) (p, st') admissible ⟨sound, rfl, bounded⟩ ran
  exact ⟨bounds.bounded, fun now req reqState admissible rl p' st'' answered =>
    (bounds.getRateLimit stored admissible answered).2 rl rfl⟩

/-- A hit on account 2, account 1's bucket added, then a hit on account 1 that
lowers its Limit, and a read. -/
def boundedCalls : List Call :=
  [.getRateLimit ⟨0⟩ accountTwoHit ⟨true⟩,
   .addCacheItem "requests_per_sec_account:1" (accountItem "requests_per_sec_account:1"),
   .getRateLimit ⟨0⟩ { accountTwoHit with uniqueKey := "account:1", limit := 3 } ⟨true⟩,
   .getCacheItem "requests_per_sec_account:1" 500]

theorem tokenBucket_run_bounded_accounts :
    onePool.Sound ∧ onePool.TokenBounded ∧
      (∀ s ∈ onePool.store, ∀ st r item, (s.get st r).1 = some item → item.value.TokenBounded) ∧
      (∀ call ∈ boundedCalls, call.TokenAdmissible) ∧
      (Run.runSome serve (onePool, ()) boundedCalls).isSome = true ∧
      ∀ ps ∈ Run.runSome serve (onePool, ()) boundedCalls, ps.1.TokenBounded ∧
        ∀ now req reqState, (Call.getRateLimit now req reqState).TokenAdmissible →
          ∀ rl p' st', ps.1.getRateLimit ps.2 now req reqState = some (.ok rl, p', st') → rl.Bounded :=
  have sound : onePool.Sound := newWorkerPool_sound (fun _ => 0) 1 le_rfl none
  have bounded : onePool.TokenBounded := newWorkerPool_tokenBounded (fun _ => 0) 1 0 none
  have stored : ∀ s ∈ onePool.store, ∀ st r item, (s.get st r).1 = some item → item.value.TokenBounded :=
    fun _ none => by cases none
  have admissible : ∀ call ∈ boundedCalls, call.TokenAdmissible := by decide
  ⟨sound, bounded, stored, admissible, by rfl,
    tokenBucket_run_bounded sound bounded stored boundedCalls admissible ()⟩

end Bounded

section WriteThrough


/-- Whatever the pool holds for a key is the item last passed to `OnChange` for it. -/
def InStep (p : WorkerPool (σ × List StoreCall)) (log : List StoreCall) : Prop :=
  ∀ k it, p.holding k = some it → lastChange k log = some it

/-- One call served, refused where a `GetRateLimit` answers an error: its runs are
those in which every request succeeds. -/
def serveOk (ps : WorkerPool σ × σ) : Call → Option (WorkerPool σ × σ)
  | .getRateLimit now req reqState =>
    match ps.1.getRateLimit ps.2 now req reqState with
    | some (.ok _, p, st) => some (p, st)
    | _ => none
  | call => serve ps call

theorem serveOk_getRateLimit_eq_some {ps ps' : WorkerPool σ × σ} {now : Time} {req : RateLimitReq}
    {reqState : RateLimitReqState} (served : serveOk ps (.getRateLimit now req reqState) = some ps') :
    ∃ rl, ps.1.getRateLimit ps.2 now req reqState = some (.ok rl, ps'.1, ps'.2) := by
  rcases ran : ps.1.getRateLimit ps.2 now req reqState with _ | ⟨_ | rl, p, st⟩ <;>
    simp only [serveOk, ran, reduceCtorEq] at served
  cases served
  exact ⟨rl, rfl⟩

theorem serveOk_getCacheItem (ps : WorkerPool σ × σ) (key : String) (now : Int64) :
    serveOk ps (.getCacheItem key now) = serve ps (.getCacheItem key now) := rfl

/-- The calls of an owner serving its own requests: rate-limit requests as owner,
and reads. An `AddCacheItem` writes a bucket the Store is not told of. -/
def Call.Owned : Call → Prop
  | .getRateLimit _ _ reqState => reqState.IsOwner = true
  | .addCacheItem _ _ => False
  | .getCacheItem _ _ => True

instance : DecidablePred Call.Owned := fun call =>
  match call with
  | .getRateLimit _ _ reqState => inferInstanceAs (Decidable (reqState.IsOwner = true))
  | .addCacheItem _ _ => isFalse id
  | .getCacheItem _ _ => isTrue trivial

variable {p : WorkerPool (σ × List StoreCall)}

theorem newWorkerPool_inStep (hasher : String → UInt64) (workers : Nat) (cacheSize : Int)
    (store : Option (Store (σ × List StoreCall))) (log : List StoreCall) :
    InStep (newWorkerPool hasher workers cacheSize store) log := by
  intro k it held
  obtain ⟨c, got, found⟩ := Option.bind_eq_some_iff.mp held
  obtain ⟨-, rfl⟩ := List.mem_replicate.mp (List.mem_of_getElem? got)
  simp [newLRUCache, LRUCache.entries, LinkedList.empty, LinkedList.values, find] at found

-- A call on the worker of `k₀` that concerns only `k₀` in the Store, keeps every
-- other key's entry or drops it, and leaves under `k₀` the last change, keeps the pool in step.
theorem InStep.set {log log' : List StoreCall} (inStep : InStep p log) {k₀ : String} {c c' : LRUCache}
    (got : p.caches[p.getWorker k₀]? = some c) (logged : LogFor k₀ log log')
    (frame : ∀ k ≠ k₀, KeptOrDropped k c c') (own : ChangedLast k₀ c' log') :
    InStep { p with caches := p.caches.set (p.getWorker k₀) c' } log' := by
  intro k it held
  rw [holding_set got] at held
  by_cases here : k = k₀
  · subst here
    rw [if_pos rfl] at held
    exact own it held
  · rw [logged.lastChange_eq here]
    split_ifs at held with sameWorker
    · -- Another key of the same worker: its entry is kept, or dropped.
      rcases frame k here with same | gone
      · rw [same] at held
        exact inStep k it (by rw [holding_of_getElem (sameWorker ▸ got)]; exact held)
      · rw [gone] at held
        cases held
    · exact inStep k it held

/-- What a run keeps: sound caches, the recording Store, and the pool in step with
its log. -/
structure Recorded (s : Store σ) (p : WorkerPool (σ × List StoreCall)) (log : List StoreCall) : Prop where
  sound : p.Sound
  store : p.store = some s.recording
  inStep : InStep p log

theorem Recorded.serveOk {s : Store σ} (keyed : s.Keyed) {log : List StoreCall} (recorded : Recorded s p log)
    {call : Call} (owned : call.Owned) {st st' : σ} {log' : List StoreCall} {p' : WorkerPool (σ × List StoreCall)}
    (served : serveOk (p, (st, log)) call = some (p', (st', log'))) : Recorded s p' log' := by
  cases call with
  | getRateLimit now req reqState =>
    obtain ⟨owner⟩ := reqState
    cases (owned : owner = true)
    obtain ⟨rl, ran⟩ := serveOk_getRateLimit_eq_some served
    obtain ⟨c, got, answered, rfl, same⟩ := getRateLimit_eq_some ran
    have sync := (recorded.sound.cache got).1
    have sound := recorded.sound.set got (handleGetRateLimit_steady p.store (st, log) sync now req ⟨true⟩)
    have recording := recorded.store
    rw [recording] at answered same sound ⊢
    -- The Store was told only about the request's key, and last about its new bucket.
    have logged : LogFor req.hashKey log log' := by
      simpa [← same] using handleGetRateLimit_logFor s (st, log) c now req ⟨true⟩
    have own := handleGetRateLimit_changedLast s st log sync now req answered.symm
    rw [← same] at own
    refine ⟨sound, rfl, recorded.inStep.set got logged (fun k other => ?_) own⟩
    have recordedKeyed : ∀ s' ∈ some s.recording, s'.Keyed := fun _ member => by
      obtain rfl := Option.mem_some_iff.mp member
      exact keyed.recording
    exact handleGetRateLimit_keeps recordedKeyed (st, log) sync now ⟨true⟩ other
  | addCacheItem key item => exact absurd owned id
  | getCacheItem key now =>
    rw [serveOk_getCacheItem] at served
    obtain ⟨⟨item, q⟩, read, same⟩ := Option.map_eq_some_iff.mp served
    cases same
    obtain ⟨c, got, -, rfl⟩ := getCacheItem_eq_some read
    have sync := (recorded.sound.cache got).1
    refine ⟨recorded.sound.set got (sync.getItem_steady key now), recorded.store,
      recorded.inStep.set got (.refl key log) (fun k other => sync.getItem_keeps other now) ?_⟩
    -- A read keeps the key's live bucket, or drops an expired one.
    intro it found
    rw [(sync.getItem_spec key now).2.2, find_get, if_pos rfl, get_fst] at found
    have held : p.holding key = some it := by
      rw [holding_of_getElem got]
      exact (Option.filter_eq_some_iff.mp found).1
    exact recorded.inStep key it held

/-- Over every run of an owner's own rate-limit requests, each answered without
error, and reads, in any order and on any keys, from a pool in step with the log
of a recording Store that keeps items under the keys it is asked for, whatever
the pool holds for a key is the bucket the Store last received for it through
`OnChange`. -/
theorem writeThrough_run {s : Store σ} (keyed : s.Keyed) {start : WorkerPool (σ × List StoreCall)}
    (sound : start.Sound) (recording : start.store = some s.recording) (st : σ) (log : List StoreCall)
    (inStep : InStep start log) (calls : List Call) (owned : ∀ call ∈ calls, call.Owned) :
    ∀ ps ∈ Run.runSome serveOk (start, (st, log)) calls,
      ∀ k it, ps.1.holding k = some it → lastChange k ps.2.2 = some it := by
  rintro ⟨p, st', log'⟩ ran
  exact (Run.invariant_runSome_on serveOk (fun ps => Recorded s ps.1 ps.2.2) Call.Owned
    (fun ⟨_, _, _⟩ _ ⟨_, _, _⟩ owned recorded served => recorded.serveOk keyed owned served)
    calls (start, (st, log)) (p, (st', log')) owned ⟨sound, recording, inStep⟩ ran).inStep

def recordedPool : WorkerPool (Unit × List StoreCall) :=
  newWorkerPool (fun _ => 0) 1 0 (some emptyStore.recording)

def ownerCalls : List Call :=
  [.getRateLimit ⟨0⟩ ownerRequest ⟨true⟩, .getRateLimit ⟨0⟩ ownerRequest ⟨true⟩,
   .getCacheItem ownerRequest.hashKey 500]

theorem writeThrough_run_ownerCalls :
    emptyStore.Keyed ∧ recordedPool.Sound ∧ recordedPool.store = some emptyStore.recording ∧
      InStep recordedPool [] ∧ (∀ call ∈ ownerCalls, call.Owned) ∧
      (Run.runSome serveOk (recordedPool, ((), [])) ownerCalls).isSome = true ∧
      ∀ ps ∈ Run.runSome serveOk (recordedPool, ((), [])) ownerCalls,
        ∀ k it, ps.1.holding k = some it → lastChange k ps.2.2 = some it :=
  have keyed : emptyStore.Keyed := fun _ _ _ found => by simp [emptyStore] at found
  have sound : recordedPool.Sound := newWorkerPool_sound (fun _ => 0) 1 le_rfl _
  have inStep : InStep recordedPool [] := newWorkerPool_inStep (fun _ => 0) 1 0 _ []
  have owned : ∀ call ∈ ownerCalls, call.Owned := by decide
  ⟨keyed, sound, rfl, inStep, owned, by rfl,
    writeThrough_run keyed sound rfl () [] inStep ownerCalls owned⟩

end WriteThrough

end WorkerPool

end Gubernator
