import Gubernator.LRUCache
import Gubernator.Library.Run

/-!
The LRU cache as a machine answering calls: `Add`, `GetItem`, `Remove` and
`UpdateExpiration`, in any order and on any keys. Each call of `LRUCache` is
the matching operation of the recency list on its entries, so over every run
the cache answers as the recency list does. Two ghost records follow a run from
its calls and answers: the item each key should hold by the history of calls,
and when each key was last added or hit. The entries hold exactly the first
and are ordered by the second, and an eviction, which the source performs
without a trace, is named in the answer to `Add` so that the history can see it.
-/

namespace Gubernator

open RecencyList

/-- The calls of lrucache.go that change or read the entries. -/
inductive CacheOp where
  | add (item : CacheItem)
  | getItem (key : String) (now : Int64)
  | remove (key : String)
  | updateExpiration (key : String) (expireAt : Int64)

/-- The answers to those calls; `add` also names the item it evicted. -/
inductive CacheAnswer where
  | add (found : Bool) (evicted : Option CacheItem)
  | getItem (item : Option CacheItem)
  | remove
  | updateExpiration (found : Bool)
  deriving DecidableEq

namespace LRUCache

def addEvicts (c : LRUCache) (item : CacheItem) : Option CacheItem :=
  match c.cache.lookup item.key with
  | some _ => none
  | none =>
    if c.cacheSize ≠ 0 ∧ ((c.ll.len + 1 : Nat) : Int) > c.cacheSize then (item :: c.entries).getLast?
    else none

def call (c : LRUCache) : CacheOp → CacheAnswer × LRUCache
  | .add item => (.add (c.add item).2 (c.addEvicts item), (c.add item).1)
  | .getItem k now => (.getItem (c.getItem k now).1, (c.getItem k now).2)
  | .remove k => (.remove, c.remove k)
  | .updateExpiration k expireAt =>
    (.updateExpiration (c.updateExpiration k expireAt).2, (c.updateExpiration k expireAt).1)

end LRUCache

def recencyCall (cap : Int) (l : List CacheItem) : CacheOp → CacheAnswer × List CacheItem
  | .add item =>
    (.add (find CacheItem.key l item.key).isSome (evicted CacheItem.key l item cap),
      put CacheItem.key l item cap)
  | .getItem k now =>
    (.getItem (get CacheItem.key l k (·.isExpired now)).1, (get CacheItem.key l k (·.isExpired now)).2)
  | .remove k => (.remove, erase CacheItem.key l k)
  | .updateExpiration k expireAt =>
    (.updateExpiration (find CacheItem.key l k).isSome,
      update CacheItem.key l k fun v => { v with expireAt := expireAt })

/-- What the history of calls says the cache holds, and when each key was last
added or hit, with calls counted from one. -/
structure CacheHistory where
  expected : String → Option CacheItem
  clock : Nat
  touched : String → Nat

namespace CacheHistory

def empty : CacheHistory := ⟨fun _ => none, 0, fun _ => 0⟩

/-- A call and its answer, recorded: an added item is what its key holds, and a
removed, evicted or expired one is gone; an update of the expiry changes the
item held; adds and hits are the touches. -/
def record (h : CacheHistory) : CacheOp → CacheAnswer → CacheHistory
  | .add item, .add _ dropped =>
    let expected := match dropped with
      | some w => Function.update h.expected w.key none
      | none => h.expected
    ⟨Function.update expected item.key (some item), h.clock + 1,
      Function.update h.touched item.key (h.clock + 1)⟩
  | .getItem k now, .getItem answer =>
    ⟨Function.update h.expected k ((h.expected k).filter fun v => !v.isExpired now), h.clock + 1,
      if answer.isSome then Function.update h.touched k (h.clock + 1) else h.touched⟩
  | .remove k, _ => ⟨Function.update h.expected k none, h.clock + 1, h.touched⟩
  | .updateExpiration k expireAt, _ =>
    ⟨Function.update h.expected k ((h.expected k).map fun v => { v with expireAt := expireAt }),
      h.clock + 1, h.touched⟩
  | _, _ => h

end CacheHistory

/-! Every call of the cache is the recency list's call on its entries. -/

namespace LRUCache

variable {c : LRUCache}

theorem entries_length (c : LRUCache) : c.entries.length = c.ll.len := by
  simp [entries, LinkedList.values, LinkedList.len]

theorem Sync.addEvicts_eq (sync : c.Sync) (item : CacheItem) :
    c.addEvicts item = evicted CacheItem.key c.entries item c.cacheSize := by
  unfold addEvicts evicted
  cases mapped : c.cache.lookup item.key with
  | some e =>
    obtain ⟨v, member, keyed⟩ := sync.mapped _ e mapped
    have found : find CacheItem.key c.entries item.key = some v := by
      rw [sync.find_entries, mapped]
      exact (c.ll.get_eq_some_iff e v).mpr member
    rw [found]
  | none =>
    have absent : find CacheItem.key c.entries item.key = none :=
      (sync.find_eq_none_iff _).mpr mapped
    rw [absent, List.length_cons, entries_length]

theorem Sync.call_refines (sync : c.Sync) (op : CacheOp) :
    (c.call op).1 = (recencyCall c.cacheSize c.entries op).1 ∧
      (c.call op).2.entries = (recencyCall c.cacheSize c.entries op).2 ∧
      (c.call op).2.Sync ∧ (c.call op).2.cacheSize = c.cacheSize := by
  cases op with
  | add item =>
    obtain ⟨synced, entries, sized, found⟩ := sync.add_spec item
    simp only [call, recencyCall, found, sync.addEvicts_eq item]
    exact ⟨trivial, entries, synced, sized⟩
  | getItem k now =>
    obtain ⟨synced, answer, entries⟩ := sync.getItem_spec k now
    simp only [call, recencyCall, answer]
    exact ⟨trivial, entries, synced, getItem_cacheSize c k now⟩
  | remove k =>
    obtain ⟨synced, entries⟩ := sync.remove_spec k
    exact ⟨rfl, entries, synced, remove_cacheSize c k⟩
  | updateExpiration k expireAt =>
    obtain ⟨synced, entries, found⟩ := sync.updateExpiration_spec k expireAt
    simp only [call, recencyCall, found]
    exact ⟨trivial, entries, synced, updateExpiration_cacheSize c k expireAt⟩

end LRUCache

/-! The entries against the history of calls. -/

/-- One entry per key, no more than the capacity, exactly the items the history
expects, the most recently touched first, and none touched after the clock. -/
structure Recency (cap : Int) (l : List CacheItem) (h : CacheHistory) : Prop where
  distinct : Distinct CacheItem.key l
  bounded : (l.length : Int) ≤ cap
  expected : ∀ k, find CacheItem.key l k = h.expected k
  ordered : l.Pairwise fun a b => h.touched b.key < h.touched a.key
  past : ∀ v ∈ l, h.touched v.key ≤ h.clock

theorem recency_empty {cap : Int} (nonneg : 0 ≤ cap) : Recency cap [] CacheHistory.empty :=
  ⟨List.nodup_nil, by simpa using nonneg, fun _ => rfl, List.Pairwise.nil, fun _ none => by cases none⟩

namespace Recency

variable {cap : Int} {l : List CacheItem} {h : CacheHistory}

-- The entry touched now goes before every other one, which was touched before now.
theorem touch_front (r : Recency cap l h) (v : CacheItem) :
    (v :: erase CacheItem.key l v.key).Pairwise (fun a b =>
        Function.update h.touched v.key (h.clock + 1) b.key <
          Function.update h.touched v.key (h.clock + 1) a.key) ∧
      ∀ u ∈ v :: l, Function.update h.touched v.key (h.clock + 1) u.key ≤ h.clock + 1 := by
  have others : ∀ u ∈ erase CacheItem.key l v.key,
      Function.update h.touched v.key (h.clock + 1) u.key = h.touched u.key :=
    fun u member => Function.update_of_ne (mem_erase.mp member).2 _ _
  refine ⟨List.pairwise_cons.mpr ⟨fun u member => ?_, ?_⟩, fun u member => ?_⟩
  · rw [others u member, Function.update_self]
    have := r.past u (mem_erase.mp member).1
    omega
  · refine (r.ordered.sublist List.filter_sublist).imp_of_mem fun {a b} inA inB before => ?_
    rw [others a inA, others b inB]
    exact before
  · by_cases same : u.key = v.key
    · rw [same, Function.update_self]
    · rw [Function.update_of_ne same]
      rcases List.mem_cons.mp member with rfl | old
      · exact absurd rfl same
      · have := r.past u old
        omega

theorem add (positive : 1 ≤ cap) (r : Recency cap l h) (item : CacheItem) :
    Recency cap (recencyCall cap l (.add item)).2
      (h.record (.add item) (recencyCall cap l (.add item)).1) := by
  obtain ⟨ordered, past⟩ := r.touch_front item
  obtain ⟨front, rest⟩ := List.pairwise_cons.mp ordered
  refine ⟨distinct_put r.distinct item cap, length_put_le item positive r.bounded, fun k => ?_,
    pairwise_put item positive rest front, fun u member => past u ?_⟩
  · simp only [recencyCall, CacheHistory.record]
    rw [find_put r.distinct item positive k, r.expected]
    cases evicted CacheItem.key l item cap with
    | none => by_cases same : k = item.key <;> simp [same, eq_comm]
    | some w =>
      by_cases same : k = item.key
      · simp [same]
      · by_cases gone : k = w.key <;> simp [Function.update_apply, same, gone, eq_comm]
  · rcases mem_put member with rfl | old
    · exact List.mem_cons_self
    · exact List.mem_cons_of_mem _ old

theorem remove (r : Recency cap l h) (k : String) :
    Recency cap (recencyCall cap l (.remove k)).2
      (h.record (.remove k) (recencyCall cap l (.remove k)).1) := by
  simp only [recencyCall, CacheHistory.record]
  refine ⟨distinct_erase r.distinct k, ?_, fun k' => ?_, r.ordered.sublist List.filter_sublist,
    fun u member => Nat.le_succ_of_le (r.past u (mem_erase.mp member).1)⟩
  · have shorter : (erase CacheItem.key l k).length ≤ l.length := length_erase_le l k
    have := r.bounded
    omega
  · dsimp only
    rw [find_erase, r.expected, Function.update_apply]

theorem updateExpiration (r : Recency cap l h) (k : String) (expireAt : Int64) :
    Recency cap (recencyCall cap l (.updateExpiration k expireAt)).2
      (h.record (.updateExpiration k expireAt) (recencyCall cap l (.updateExpiration k expireAt)).1) := by
  have keeps : ∀ v : CacheItem, v.key = k → ({ v with expireAt := expireAt } : CacheItem).key = k :=
    fun _ same => same
  have keyed : ∀ v : CacheItem,
      (if v.key = k then ({ v with expireAt := expireAt } : CacheItem) else v).key = v.key := by
    intro v
    split <;> rfl
  refine ⟨distinct_update r.distinct k _ keeps, by simpa [recencyCall, update] using r.bounded,
    fun k' => ?_, ?_, fun u member => ?_⟩
  · simp only [recencyCall, CacheHistory.record]
    rw [find_update k k' _ keeps, r.expected, r.expected, Function.update_apply]
  · simp only [recencyCall, CacheHistory.record, update, List.pairwise_map, keyed]
    exact r.ordered
  · simp only [recencyCall, CacheHistory.record, update, List.mem_map] at member ⊢
    obtain ⟨v, old, rfl⟩ := member
    rw [keyed]
    exact Nat.le_succ_of_le (r.past v old)

theorem getItem (r : Recency cap l h) (k : String) (now : Int64) :
    Recency cap (recencyCall cap l (.getItem k now)).2
      (h.record (.getItem k now) (recencyCall cap l (.getItem k now)).1) := by
  have dropped : ∀ k', find CacheItem.key (erase CacheItem.key l k) k' =
      Function.update h.expected k none k' := by
    intro k'
    rw [find_erase, r.expected, Function.update_apply]
  rcases get_cases l k (·.isExpired now) with ⟨absent, shape⟩ | ⟨v, found, dead, shape⟩ |
    ⟨v, found, live, shape⟩
  · -- Nothing under the key: the list and the history stay as they are.
    have nothing : h.expected k = none := by rw [← r.expected k, absent]
    have unchanged : Function.update h.expected k ((h.expected k).filter fun v => !v.isExpired now) =
        h.expected := by
      rw [nothing, Option.filter_none]
      exact Function.update_eq_self_iff.mpr nothing.symm
    simp only [recencyCall, CacheHistory.record, shape, unchanged, Option.isSome_none]
    exact ⟨r.distinct, r.bounded, r.expected, r.ordered, fun u member => Nat.le_succ_of_le (r.past u member)⟩
  · have gone : (h.expected k).filter (fun v => !v.isExpired now) = none := by
      rw [← r.expected k, found]
      simp [Option.filter, dead]
    simp only [recencyCall, CacheHistory.record, shape, gone, Option.isSome_none]
    refine ⟨distinct_erase r.distinct k, ?_, dropped, r.ordered.sublist List.filter_sublist,
      fun u member => Nat.le_succ_of_le (r.past u (mem_erase.mp member).1)⟩
    have shorter : (erase CacheItem.key l k).length ≤ l.length := length_erase_le l k
    have := r.bounded
    omega
  · -- A hit: the entry moves to the front and is touched now.
    have keyed : v.key = k := key_of_find found
    have held : (h.expected k).filter (fun v => !v.isExpired now) = some v := by
      rw [← r.expected k, found]
      simp [Option.filter, live]
    obtain ⟨ordered, past⟩ := r.touch_front v
    simp only [recencyCall, CacheHistory.record, shape, held, Option.isSome_some, if_true]
    subst keyed
    refine ⟨distinct_cons (distinct_erase r.distinct _) (by simp [find_erase]), ?_, fun k' => ?_,
      ordered, fun u member => past u ?_⟩
    · have shorter : (erase CacheItem.key l v.key).length < l.length :=
        List.length_filter_lt_length_iff_exists.mpr ⟨v, mem_of_find found, by simp⟩
      have := r.bounded
      simp only [List.length_cons]
      omega
    · dsimp only
      rw [find_cons, dropped, Function.update_apply, Function.update_apply]
      by_cases same : k' = v.key
      · simp [same]
      · simp [same, Ne.symm same]
    · rcases List.mem_cons.mp member with rfl | rest
      · exact List.mem_cons_self
      · exact List.mem_cons_of_mem _ (mem_erase.mp rest).1

theorem call (positive : 1 ≤ cap) (r : Recency cap l h) (op : CacheOp) :
    Recency cap (recencyCall cap l op).2 (h.record op (recencyCall cap l op).1) := by
  cases op with
  | add item => exact r.add positive item
  | getItem k now => exact r.getItem k now
  | remove k => exact r.remove k
  | updateExpiration k expireAt => exact r.updateExpiration k expireAt

end Recency

theorem newLRUCache_positive {maxSize : Int} (nonneg : 0 ≤ maxSize) :
    1 ≤ (newLRUCache maxSize).cacheSize := by
  unfold newLRUCache
  dsimp only
  split <;> omega

theorem cacheRun_recency (maxSize : Int) (nonneg : 0 ≤ maxSize) (ops : List CacheOp) :
    (Run.run LRUCache.call (newLRUCache maxSize) ops).2.Sync ∧
      (Run.run LRUCache.call (newLRUCache maxSize) ops).2.cacheSize = (newLRUCache maxSize).cacheSize ∧
      Recency (newLRUCache maxSize).cacheSize (Run.run LRUCache.call (newLRUCache maxSize) ops).2.entries
        (Run.ledger CacheHistory.record CacheHistory.empty ops
          (Run.run LRUCache.call (newLRUCache maxSize) ops).1) := by
  -- The cache in step with its map, of unchanged capacity, and its entries
  -- against the history: kept by every call.
  have keeps : ∀ (c : LRUCache) (h : CacheHistory) (op : CacheOp), True →
      (c.Sync ∧ c.cacheSize = (newLRUCache maxSize).cacheSize ∧
        Recency (newLRUCache maxSize).cacheSize c.entries h) →
      (c.call op).2.Sync ∧ (c.call op).2.cacheSize = (newLRUCache maxSize).cacheSize ∧
        Recency (newLRUCache maxSize).cacheSize (c.call op).2.entries (h.record op (c.call op).1) := by
    rintro c h op - ⟨sync, sized, r⟩
    obtain ⟨answer, entries, synced, sized'⟩ := sync.call_refines op
    rw [sized] at answer entries
    rw [answer, entries]
    exact ⟨synced, sized'.trans sized, r.call (newLRUCache_positive nonneg) op⟩
  have start : (newLRUCache maxSize).Sync ∧ (newLRUCache maxSize).cacheSize = (newLRUCache maxSize).cacheSize ∧
      Recency (newLRUCache maxSize).cacheSize (newLRUCache maxSize).entries CacheHistory.empty :=
    ⟨LRUCache.newLRUCache_sync maxSize, rfl,
      recency_empty (by have := newLRUCache_positive nonneg; omega)⟩
  exact @Run.ledger_run _ _ _ _ LRUCache.call
    (fun c h => c.Sync ∧ c.cacheSize = (newLRUCache maxSize).cacheSize ∧
      Recency (newLRUCache maxSize).cacheSize c.entries h)
    CacheHistory.record (fun _ => True) keeps ops _ _ (fun _ _ => trivial) start

open LRUCache in
/-- Over every run of calls, a synchronised cache answers as the recency list of
its capacity does, and its entries are that list. -/
theorem cacheRun_refines (c : LRUCache) (sync : c.Sync) (ops : List CacheOp) :
    (Run.run call c ops).1 = (Run.run (recencyCall c.cacheSize) c.entries ops).1 ∧
      (Run.run call c ops).2.entries = (Run.run (recencyCall c.cacheSize) c.entries ops).2 ∧
      (Run.run call c ops).2.Sync := by
  obtain ⟨answers, entries, synced⟩ := Run.run_simulates entries (recencyCall c.cacheSize)
    (fun d => d.Sync ∧ d.cacheSize = c.cacheSize)
    (fun d op ⟨synced, sized⟩ => by
      obtain ⟨answer, image, synced', sized'⟩ := synced.call_refines op
      rw [sized] at answer image
      exact ⟨answer, image, synced', sized'.trans sized⟩)
    ops c ⟨sync, rfl⟩
  exact ⟨answers, entries, synced.1⟩

/-- The LRU cache over every run of `Add`, `GetItem`, `Remove` and
`UpdateExpiration` from a new cache of positive or default size: the map and
the list agree, hold each key once, are counted by `Size()` and stay within the
capacity; `GetItem` returns the item the history of calls expects under the key
unless it has expired now; a hit moves the item to the front; and the item an
`Add` evicts is the one whose key was added or hit least recently. -/
theorem lruCache_refines_recency_history (maxSize : Int) (nonneg : 0 ≤ maxSize)
    (ops : List CacheOp) :
    let c := (Run.run LRUCache.call (newLRUCache maxSize) ops).2
    let h := Run.ledger CacheHistory.record CacheHistory.empty ops
      (Run.run LRUCache.call (newLRUCache maxSize) ops).1
    (c.Sync ∧ Distinct CacheItem.key c.entries ∧ c.size = Int64.ofNat c.entries.length ∧
        (c.entries.length : Int) ≤ c.cacheSize) ∧
      (∀ k now, (c.getItem k now).1 = (h.expected k).filter fun v => !v.isExpired now) ∧
      (∀ k now v, (c.getItem k now).1 = some v → (c.getItem k now).2.entries.head? = some v) ∧
      (∀ item w, c.addEvicts item = some w →
        w ∈ c.entries ∧ ∀ u ∈ c.entries, u.key ≠ w.key → h.touched w.key < h.touched u.key) := by
  intro c h
  obtain ⟨sync, sized, r⟩ := cacheRun_recency maxSize nonneg ops
  refine ⟨⟨sync, r.distinct, ?_, sized ▸ r.bounded⟩, fun k now => ?_, fun k now v hit => ?_,
    fun item w dropped => ?_⟩
  · rw [LRUCache.size, sync.counted, LRUCache.entries_length]
  · rw [(sync.getItem_spec k now).2.1, get_fst, r.expected]
  · rw [(sync.getItem_spec k now).2.2]
    rw [(sync.getItem_spec k now).2.1] at hit
    rcases get_cases c.entries k (·.isExpired now) with ⟨-, shape⟩ | ⟨_, -, -, shape⟩ |
      ⟨u, -, -, shape⟩ <;> rw [shape] at hit ⊢
    · cases hit
    · cases hit
    · cases hit
      rfl
  · rw [sync.addEvicts_eq, sized] at dropped
    obtain ⟨-, last, -⟩ := put_of_evicted_some (newLRUCache_positive nonneg) dropped
    refine ⟨List.mem_of_getLast? last, fun u member other => ?_⟩
    exact getLast_after r.ordered last member fun same => other (congrArg CacheItem.key same)

/-- Three items through a cache of two: the third evicts the one not hit since. -/
def twoSlotCalls : List CacheOp :=
  [.add { algorithm := .TOKEN_BUCKET, key := "a", value := .nil, expireAt := 100 },
   .add { algorithm := .TOKEN_BUCKET, key := "b", value := .nil, expireAt := 100 },
   .getItem "a" 50,
   .add { algorithm := .TOKEN_BUCKET, key := "c", value := .nil, expireAt := 100 }]

example : (Run.run LRUCache.call (newLRUCache 2) twoSlotCalls).1 =
    [.add false none, .add false none,
     .getItem (some { algorithm := .TOKEN_BUCKET, key := "a", value := .nil, expireAt := 100 }),
     .add false (some { algorithm := .TOKEN_BUCKET, key := "b", value := .nil, expireAt := 100 })] := by
  decide

theorem cacheRun_refines_twoSlots :
    (Run.run LRUCache.call (newLRUCache 2) twoSlotCalls).1 =
        (Run.run (recencyCall 2) (newLRUCache 2).entries twoSlotCalls).1 ∧
      (Run.run LRUCache.call (newLRUCache 2) twoSlotCalls).2.entries =
        (Run.run (recencyCall 2) (newLRUCache 2).entries twoSlotCalls).2 ∧
      (Run.run LRUCache.call (newLRUCache 2) twoSlotCalls).2.Sync :=
  cacheRun_refines (newLRUCache 2) (LRUCache.newLRUCache_sync 2) twoSlotCalls

theorem lruCache_refines_recency_history_twoSlots :
    (0 : Int) ≤ 2 ∧
      ((Run.run LRUCache.call (newLRUCache 2) twoSlotCalls).2.getItem "b" 60).1 =
        ((Run.ledger CacheHistory.record CacheHistory.empty twoSlotCalls
          (Run.run LRUCache.call (newLRUCache 2) twoSlotCalls).1).expected "b").filter
            fun v => !v.isExpired 60 :=
  ⟨by decide, (lruCache_refines_recency_history 2 (by decide) twoSlotCalls).2.1 "b" 60⟩

end Gubernator
