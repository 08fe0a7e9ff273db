import Mathlib.Data.List.AList
import Gubernator.Cache
import Gubernator.Library.LinkedList
import Gubernator.Library.RecencyList

/-!
lrucache.go. The cache keeps a Go map from keys to list elements and a
`container/list` of items, most recently used first, plus the length it
publishes through `Size()`. Metrics are left out. `setItem` is not a method of
the source: it is the effect of the algorithms assigning fields of an item they
obtained from `GetItem` or passed to `Add`, which the cache observes through the
shared pointer.
-/

namespace Gubernator

structure LRUCache where
  cache : AList (fun _ : String => Nat)
  ll : LinkedList CacheItem
  cacheSize : Int
  cacheLen : Int64

/-- `NewLRUCache`; `setter.SetDefault` replaces a zero size by 50,000. -/
def newLRUCache (maxSize : Int) : LRUCache :=
  { cache := ∅, ll := LinkedList.empty, cacheSize := if maxSize = 0 then 50000 else maxSize,
    cacheLen := 0 }

namespace LRUCache

def removeElement (c : LRUCache) (e : Nat) : LRUCache :=
  match c.ll.get e with
  | some kv =>
    let ll := c.ll.remove e
    { c with ll := ll, cache := c.cache.erase kv.key, cacheLen := Int64.ofNat ll.len }
  | none => c

def removeOldest (c : LRUCache) : LRUCache :=
  match c.ll.back with
  | some e => c.removeElement e
  | none => c

/-- `Add`: overwrite in place when the key is cached, else push and evict. -/
def add (c : LRUCache) (item : CacheItem) : LRUCache × Bool :=
  match c.cache.lookup item.key with
  | some ee => ({ c with ll := (c.ll.moveToFront ee).setValue ee item }, true)
  | none =>
    let (ll, ele) := c.ll.pushFront item
    let c := { c with ll := ll, cache := c.cache.insert item.key ele }
    let c :=
      if c.cacheSize ≠ (0 : Int) ∧ ((c.ll.len : Nat) : Int) > c.cacheSize then c.removeOldest else c
    ({ c with cacheLen := Int64.ofNat c.ll.len }, false)

/-- `GetItem` at clock `now` (epoch milliseconds): an expired entry is removed. -/
def getItem (c : LRUCache) (key : String) (now : Int64) : Option CacheItem × LRUCache :=
  match c.cache.lookup key with
  | none => (none, c)
  | some ele =>
    match c.ll.get ele with
    | none => (none, c)
    | some entry =>
      if entry.isExpired now then (none, c.removeElement ele)
      else (some entry, { c with ll := c.ll.moveToFront ele })

def remove (c : LRUCache) (key : String) : LRUCache :=
  match c.cache.lookup key with
  | some ele => c.removeElement ele
  | none => c

def size (c : LRUCache) : Int64 := c.cacheLen

def updateExpiration (c : LRUCache) (key : String) (expireAt : Int64) : LRUCache × Bool :=
  match c.cache.lookup key with
  | some ele =>
    match c.ll.get ele with
    | some entry => ({ c with ll := c.ll.setValue ele { entry with expireAt := expireAt } }, true)
    | none => (c, true)
  | none => (c, false)

/-- `Each`: the items of the map's elements. Go ranges over the map in an
unspecified order; the model takes the map's own order. -/
def each (c : LRUCache) : List CacheItem := c.cache.entries.filterMap (fun p => c.ll.get p.2)

/-- The update seen through a shared item pointer: the element the map holds
for `key` now carries `item`, in the same position. -/
def setItem (c : LRUCache) (key : String) (item : CacheItem) : LRUCache :=
  match c.cache.lookup key with
  | some ele => { c with ll := c.ll.setValue ele item }
  | none => c

def entries (c : LRUCache) : List CacheItem := c.ll.values

/-- The map and the list describe the same entries: every element is mapped
from its item's key, and every mapped element exists with that key. -/
structure Linked (c : LRUCache) : Prop where
  listed : ∀ e v, (e, v) ∈ c.ll.elems → c.cache.lookup v.key = some e
  mapped : ∀ k e, c.cache.lookup k = some e → ∃ v, (e, v) ∈ c.ll.elems ∧ v.key = k

/-- Linked, and `Size()` publishes the list's length. -/
structure Sync (c : LRUCache) : Prop extends c.Linked where
  counted : c.cacheLen = Int64.ofNat c.ll.len

/-! The map and the list agree, so element operations are key operations on
the recency list. -/

variable {c : LRUCache}

open RecencyList

-- Two elements with one key are mapped from it to the same identity.
theorem Linked.same_element (sync : c.Linked) {p q : Nat × CacheItem} (left : p ∈ c.ll.elems)
    (right : q ∈ c.ll.elems) (sameKey : p.2.key = q.2.key) : p = q := by
  have mappedP := sync.listed p.1 p.2 left
  have mappedQ := sync.listed q.1 q.2 right
  rw [sameKey, mappedQ] at mappedP
  exact List.inj_on_of_nodup_map c.ll.distinct left right (Option.some_injective _ mappedP).symm

theorem Linked.distinct_entries (sync : c.Linked) : Distinct CacheItem.key c.entries := by
  unfold Distinct entries LinkedList.values
  rw [List.map_map]
  exact List.Nodup.map_on (fun p left q right sameKey => sync.same_element left right sameKey)
    c.ll.distinct.of_map

theorem Linked.find_entries (sync : c.Linked) (k : String) :
    find CacheItem.key c.entries k = (c.cache.lookup k).bind c.ll.get := by
  cases mapped : c.cache.lookup k with
  | none =>
    apply (find_eq_none_iff _ _).mpr
    intro v inside same
    obtain ⟨p, member, rfl⟩ := List.mem_map.mp inside
    have := sync.listed p.1 p.2 member
    rw [same, mapped] at this
    cases this
  | some e =>
    obtain ⟨v, member, keyed⟩ := sync.mapped k e mapped
    have got : c.ll.get e = some v := (c.ll.get_eq_some_iff e v).mpr member
    rw [Option.bind_some, got]
    exact (find_eq_some_iff sync.distinct_entries k v).mpr
      ⟨List.mem_map_of_mem (f := Prod.snd) member, keyed⟩

theorem Linked.values_remove (sync : c.Linked) {e : Nat} {v : CacheItem}
    (member : (e, v) ∈ c.ll.elems) :
    (c.ll.remove e).values = erase CacheItem.key c.entries v.key := by
  simp only [LinkedList.values, LinkedList.remove, erase, entries, List.filter_map]
  congr 1
  apply List.filter_congr
  intro p inside
  have sameIff : p.1 = e ↔ p.2.key = v.key := by
    constructor
    · intro same
      have := List.inj_on_of_nodup_map c.ll.distinct inside member same
      rw [this]
    · intro sameKey
      have := sync.same_element inside member sameKey
      rw [this]
  simp [sameIff]

theorem Linked.removeElement_spec (sync : c.Linked) {e : Nat} {v : CacheItem}
    (member : (e, v) ∈ c.ll.elems) :
    (c.removeElement e).Sync ∧ (c.removeElement e).entries = (c.ll.remove e).values := by
  have got : c.ll.get e = some v := (c.ll.get_eq_some_iff e v).mpr member
  have shape : c.removeElement e =
      { c with ll := c.ll.remove e, cache := c.cache.erase v.key,
               cacheLen := Int64.ofNat (c.ll.remove e).len } := by
    simp [removeElement, got]
  rw [shape]
  refine ⟨⟨⟨?_, ?_⟩, rfl⟩, rfl⟩
  · intro e' v' inside
    obtain ⟨old, other⟩ := (LinkedList.mem_remove _ _ _).mp inside
    have keyDiff : v'.key ≠ v.key := by
      intro sameKey
      exact other (congrArg Prod.fst (sync.same_element old member sameKey))
    rw [AList.lookup_erase_ne keyDiff]
    exact sync.listed e' v' old
  · intro k e' found
    have keyDiff : k ≠ v.key := by
      intro same
      rw [same, AList.lookup_erase] at found
      cases found
    rw [AList.lookup_erase_ne keyDiff] at found
    obtain ⟨v', inside, keyed⟩ := sync.mapped k e' found
    refine ⟨v', (LinkedList.mem_remove _ _ _).mpr ⟨inside, ?_⟩, keyed⟩
    intro same
    cases List.inj_on_of_nodup_map c.ll.distinct inside member same
    exact keyDiff keyed.symm

theorem Linked.removeElement_entries (sync : c.Linked) {e : Nat} {v : CacheItem}
    (member : (e, v) ∈ c.ll.elems) :
    (c.removeElement e).entries = erase CacheItem.key c.entries v.key := by
  rw [(sync.removeElement_spec member).2, sync.values_remove member]

theorem Linked.find_eq_none_iff (sync : c.Linked) (k : String) :
    find CacheItem.key c.entries k = none ↔ c.cache.lookup k = none := by
  rw [sync.find_entries]
  cases mapped : c.cache.lookup k with
  | none => simp
  | some e =>
    obtain ⟨v, member, _⟩ := sync.mapped k e mapped
    simp [(c.ll.get_eq_some_iff e v).mpr member]

-- Replacing the list by one with the same elements and length keeps the agreement.
theorem Sync.with_ll (sync : c.Sync) {ll : LinkedList CacheItem}
    (same : ∀ p, p ∈ ll.elems ↔ p ∈ c.ll.elems) (length : ll.len = c.ll.len) :
    ({ c with ll := ll } : LRUCache).Sync :=
  ⟨⟨fun e v inside => sync.listed e v ((same _).mp inside),
    fun k e found => by
      obtain ⟨v, inside, keyed⟩ := sync.mapped k e found
      exact ⟨v, (same _).mpr inside, keyed⟩⟩,
   by rw [sync.counted]; exact congrArg _ length.symm⟩

-- Assigning the value of the element that holds key `v.key` is a key update.
theorem Linked.values_setValue (sync : c.Linked) {e : Nat} {v : CacheItem}
    (member : (e, v) ∈ c.ll.elems) (f : CacheItem → CacheItem) :
    (c.ll.setValue e (f v)).values = update CacheItem.key c.entries v.key f := by
  rw [LinkedList.values_setValue]
  simp only [update, entries, LinkedList.values, List.map_map]
  apply List.map_congr_left
  intro p inside
  by_cases same : p.1 = e
  · have := List.inj_on_of_nodup_map c.ll.distinct inside member same
    subst this
    simp
  · have other : p.2.key ≠ v.key := fun sameKey =>
      same (congrArg Prod.fst (sync.same_element inside member sameKey))
    simp [same, other]

theorem Linked.setValue_same (sync : c.Linked) {e : Nat} {v w : CacheItem}
    (member : (e, v) ∈ c.ll.elems) (keyed : w.key = v.key) :
    ({ c with ll := c.ll.setValue e w } : LRUCache).Linked := by
  constructor
  · intro e' v' inside
    rcases (LinkedList.mem_setValue _ _ _ _).mp inside with ⟨same, _⟩ | ⟨old, _⟩
    · cases same
      rw [keyed]
      exact sync.listed e v member
    · exact sync.listed e' v' old
  · intro k e' found
    obtain ⟨v', inside, rfl⟩ := sync.mapped k e' found
    by_cases same : e' = e
    · subst same
      have sameV : v' = v := (Prod.mk.inj (List.inj_on_of_nodup_map c.ll.distinct inside member rfl)).2
      exact ⟨w, (LinkedList.mem_setValue _ _ _ _).mpr (Or.inl ⟨rfl, v, member⟩), by rw [keyed, sameV]⟩
    · exact ⟨v', (LinkedList.mem_setValue _ _ _ _).mpr (Or.inr ⟨inside, same⟩), rfl⟩

theorem Sync.remove_spec (sync : c.Sync) (k : String) :
    (c.remove k).Sync ∧ (c.remove k).entries = erase CacheItem.key c.entries k := by
  unfold remove
  cases mapped : c.cache.lookup k with
  | none =>
    have absent : find CacheItem.key c.entries k = none := by
      rw [sync.find_entries, mapped]
      rfl
    exact ⟨sync, (erase_of_find_none absent).symm⟩
  | some e =>
    obtain ⟨v, member, rfl⟩ := sync.mapped _ e mapped
    exact ⟨(sync.removeElement_spec member).1, sync.removeElement_entries member⟩

theorem Sync.getItem_spec (sync : c.Sync) (k : String) (now : Int64) :
    (c.getItem k now).2.Sync ∧
      (c.getItem k now).1 = (RecencyList.get CacheItem.key c.entries k (·.isExpired now)).1 ∧
      (c.getItem k now).2.entries =
        (RecencyList.get CacheItem.key c.entries k (·.isExpired now)).2 := by
  unfold getItem RecencyList.get
  cases mapped : c.cache.lookup k with
  | none =>
    have absent : find CacheItem.key c.entries k = none := by
      rw [sync.find_entries, mapped]
      rfl
    simp [absent, sync]
  | some e =>
    obtain ⟨v, member, rfl⟩ := sync.mapped _ e mapped
    have got : c.ll.get e = some v := (c.ll.get_eq_some_iff e v).mpr member
    have found : find CacheItem.key c.entries v.key = some v := by
      rw [sync.find_entries, mapped]
      exact got
    simp only [got, found]
    by_cases dead : v.isExpired now = true
    · simp only [dead, if_true]
      exact ⟨(sync.removeElement_spec member).1, trivial, sync.removeElement_entries member⟩
    · simp only [dead, Bool.false_eq_true, if_false]
      refine ⟨sync.with_ll (c.ll.mem_moveToFront e) (c.ll.len_moveToFront e), trivial, ?_⟩
      simp only [entries]
      rw [LinkedList.values_moveToFront got, sync.values_remove member]
      rfl

theorem Linked.getItem_of_find_none (sync : c.Linked) {k : String}
    (absent : find CacheItem.key c.entries k = none) (now : Int64) : c.getItem k now = (none, c) := by
  simp [getItem, (sync.find_eq_none_iff k).mp absent]

-- A live entry is returned and becomes the most recent.
theorem Sync.getItem_live (sync : c.Sync) {k : String} {now : Int64} {item : CacheItem}
    (found : find CacheItem.key c.entries k = some item) (live : item.isExpired now = false) :
    (c.getItem k now).1 = some item ∧ (c.getItem k now).2.Sync ∧
      (c.getItem k now).2.entries = item :: erase CacheItem.key c.entries k := by
  obtain ⟨synced, answer, entries⟩ := sync.getItem_spec k now
  rw [get_of_live found live] at answer entries
  exact ⟨answer, synced, entries⟩

-- What `GetItem` returns is the live entry of its key.
theorem Sync.getItem_some (sync : c.Sync) {k : String} {now : Int64} {item : CacheItem}
    (got : (c.getItem k now).1 = some item) :
    find CacheItem.key c.entries k = some item ∧ item.isExpired now = false := by
  rw [(sync.getItem_spec k now).2.1, get_fst, Option.filter_eq_some_iff] at got
  simpa using got

theorem Sync.updateExpiration_spec (sync : c.Sync) (k : String) (expireAt : Int64) :
    (c.updateExpiration k expireAt).1.Sync ∧
      (c.updateExpiration k expireAt).1.entries =
        update CacheItem.key c.entries k (fun v => { v with expireAt := expireAt }) ∧
      (c.updateExpiration k expireAt).2 = (find CacheItem.key c.entries k).isSome := by
  unfold updateExpiration
  cases mapped : c.cache.lookup k with
  | none =>
    have absent : find CacheItem.key c.entries k = none := by
      rw [sync.find_entries, mapped]
      rfl
    simp [absent, sync, update_of_find_none absent]
  | some e =>
    obtain ⟨v, member, rfl⟩ := sync.mapped _ e mapped
    have got : c.ll.get e = some v := (c.ll.get_eq_some_iff e v).mpr member
    have found : find CacheItem.key c.entries v.key = some v := by
      rw [sync.find_entries, mapped]
      exact got
    simp only [got, found, Option.isSome_some]
    refine ⟨⟨sync.setValue_same member rfl, ?_⟩,
      sync.values_setValue member (fun v => { v with expireAt := expireAt }), trivial⟩
    rw [sync.counted]
    exact congrArg _ (c.ll.len_setValue e _).symm

theorem Sync.setItem_spec (sync : c.Sync) (k : String) {item : CacheItem} (keyed : item.key = k) :
    (c.setItem k item).Sync ∧
      (c.setItem k item).entries = update CacheItem.key c.entries k (fun _ => item) := by
  unfold setItem
  cases mapped : c.cache.lookup k with
  | none =>
    have absent : find CacheItem.key c.entries k = none := by
      rw [sync.find_entries, mapped]
      rfl
    simp [sync, update_of_find_none absent]
  | some e =>
    obtain ⟨v, member, rfl⟩ := sync.mapped _ e mapped
    refine ⟨⟨sync.setValue_same member keyed, ?_⟩, sync.values_setValue member (fun _ => item)⟩
    rw [sync.counted]
    exact congrArg _ (c.ll.len_setValue e _).symm

theorem newLRUCache_sync (maxSize : Int) : (newLRUCache maxSize).Sync :=
  ⟨⟨fun _ _ inside => by simp [newLRUCache, LinkedList.empty] at inside,
    fun _ _ found => by simp [newLRUCache] at found⟩, rfl⟩

/-! No operation changes the capacity. -/

@[simp] theorem removeElement_cacheSize (c : LRUCache) (e : Nat) :
    (c.removeElement e).cacheSize = c.cacheSize := by
  unfold removeElement
  split <;> rfl

@[simp] theorem removeOldest_cacheSize (c : LRUCache) : c.removeOldest.cacheSize = c.cacheSize := by
  unfold removeOldest
  split <;> simp

@[simp] theorem getItem_cacheSize (c : LRUCache) (k : String) (now : Int64) :
    (c.getItem k now).2.cacheSize = c.cacheSize := by
  unfold getItem
  repeat' split
  all_goals simp

@[simp] theorem remove_cacheSize (c : LRUCache) (k : String) : (c.remove k).cacheSize = c.cacheSize := by
  unfold remove
  split <;> simp

@[simp] theorem setItem_cacheSize (c : LRUCache) (k : String) (item : CacheItem) :
    (c.setItem k item).cacheSize = c.cacheSize := by
  unfold setItem
  split <;> rfl

@[simp] theorem updateExpiration_cacheSize (c : LRUCache) (k : String) (expireAt : Int64) :
    (c.updateExpiration k expireAt).1.cacheSize = c.cacheSize := by
  unfold updateExpiration
  repeat' split
  all_goals rfl

theorem Linked.removeOldest_spec (sync : c.Linked) (nonempty : c.ll.elems ≠ []) :
    c.removeOldest.Sync ∧ c.removeOldest.entries = c.entries.dropLast := by
  obtain ⟨p, final⟩ := Option.ne_none_iff_exists'.mp (mt List.getLast?_eq_none_iff.mp nonempty)
  have last : c.ll.back = some p.1 := by simp [LinkedList.back, final]
  have member : (p.1, p.2) ∈ c.ll.elems := List.mem_of_getLast? final
  unfold removeOldest
  rw [last]
  exact ⟨(sync.removeElement_spec member).1,
    by rw [(sync.removeElement_spec member).2, LinkedList.values_remove_back last]; rfl⟩

-- Pushing a key the map does not hold, and mapping it to the new element.
theorem Linked.push_spec (sync : c.Linked) {item : CacheItem}
    (absent : c.cache.lookup item.key = none) :
    ({ c with ll := (c.ll.pushFront item).1,
              cache := c.cache.insert item.key (c.ll.pushFront item).2 } : LRUCache).Linked := by
  constructor
  · intro e v inside
    rcases (LinkedList.mem_pushFront _ _ _).mp inside with same | old
    · cases same
      exact AList.lookup_insert _
    · have other : v.key ≠ item.key := by
        intro sameKey
        have := sync.listed e v old
        rw [sameKey, absent] at this
        cases this
      rw [AList.lookup_insert_ne other]
      exact sync.listed e v old
  · intro k e found
    by_cases same : k = item.key
    · subst same
      rw [AList.lookup_insert] at found
      cases found
      exact ⟨item, (LinkedList.mem_pushFront _ _ _).mpr (Or.inl rfl), rfl⟩
    · rw [AList.lookup_insert_ne same] at found
      obtain ⟨v, inside, keyed⟩ := sync.mapped k e found
      exact ⟨v, (LinkedList.mem_pushFront _ _ _).mpr (Or.inr inside), keyed⟩

theorem Sync.add_spec (sync : c.Sync) (item : CacheItem) :
    (c.add item).1.Sync ∧
      (c.add item).1.entries = put CacheItem.key c.entries item c.cacheSize ∧
      (c.add item).1.cacheSize = c.cacheSize ∧
      (c.add item).2 = (find CacheItem.key c.entries item.key).isSome := by
  unfold add put
  cases mapped : c.cache.lookup item.key with
  | some ee =>
    obtain ⟨old, member, keyed⟩ := sync.mapped _ ee mapped
    have found : find CacheItem.key c.entries item.key = some old := by
      rw [sync.find_entries, mapped]
      exact (c.ll.get_eq_some_iff ee old).mpr member
    have got : c.ll.get ee = some old := (c.ll.get_eq_some_iff ee old).mpr member
    -- Moving the element first, then assigning it, as the source does.
    have moved := sync.with_ll (c.ll.mem_moveToFront ee) (c.ll.len_moveToFront ee)
    have member' : (ee, old) ∈ (c.ll.moveToFront ee).elems :=
      (c.ll.mem_moveToFront ee _).mpr member
    have movedEntries : ({ c with ll := c.ll.moveToFront ee } : LRUCache).entries =
        old :: erase CacheItem.key c.entries item.key := by
      simp only [entries]
      rw [LinkedList.values_moveToFront got, sync.values_remove member, keyed]
      rfl
    simp only [found, Option.isSome_some]
    refine ⟨⟨moved.setValue_same member' keyed.symm, ?_⟩, ?_, trivial, trivial⟩
    · rw [sync.counted]
      exact congrArg _ ((LinkedList.len_setValue _ _ _).trans (c.ll.len_moveToFront ee)).symm
    · have assigned := moved.values_setValue member' (fun _ => item)
      have rest : find CacheItem.key (erase CacheItem.key c.ll.values item.key) item.key = none := by
        simp [find_erase]
      simp only [entries] at assigned movedEntries ⊢
      rw [assigned, movedEntries, keyed, update_cons, update_of_find_none rest, if_pos keyed]
  | none =>
    have absent : find CacheItem.key c.entries item.key = none := by
      rw [sync.find_entries, mapped]
      rfl
    have pushed := sync.push_spec mapped
    simp only [absent, Option.isSome_none]
    split
    · rename_i evict
      have nonempty : (c.ll.pushFront item).1.elems ≠ [] := by simp [LinkedList.pushFront]
      have evicted := pushed.removeOldest_spec nonempty
      refine ⟨⟨⟨evicted.1.listed, evicted.1.mapped⟩, rfl⟩, ?_, removeOldest_cacheSize _, trivial⟩
      have grown : ((item :: c.ll.values).length : Int) > c.cacheSize := by
        simpa [LinkedList.len, LinkedList.values, LinkedList.pushFront] using evict.2
      rw [if_pos ⟨evict.1, grown⟩]
      exact evicted.2
    · rename_i keep
      refine ⟨⟨⟨pushed.listed, pushed.mapped⟩, rfl⟩, ?_, rfl, trivial⟩
      have small : ¬ (c.cacheSize ≠ 0 ∧ ((item :: c.entries).length : Int) > c.cacheSize) := by
        simpa [LinkedList.len, entries, LinkedList.values, LinkedList.pushFront] using keep
      rw [if_neg small]
      rfl

end LRUCache

end Gubernator
