import Mathlib.Data.List.Nodup
import Mathlib.Tactic.Common

/-!
The abstract expiring LRU map: a list of entries, most recently used first,
holding at most one entry per key. `put` inserts or replaces and then evicts
the least recent entry when the list outgrows a nonzero capacity; `get` either
drops an expired entry or moves a live one to the front. Keys are read through
`key`, expiry through a predicate, so the same list serves any cache.
-/

namespace RecencyList

variable {α K : Type} [DecidableEq K] (key : α → K)

def find (l : List α) (k : K) : Option α := l.find? (fun v => key v = k)

def erase (l : List α) (k : K) : List α := l.filter (fun v => key v ≠ k)

def put (l : List α) (v : α) (cap : Int) : List α :=
  match find key l (key v) with
  | some _ => v :: erase key l (key v)
  | none =>
    let grown := v :: l
    if cap ≠ 0 ∧ (grown.length : Int) > cap then grown.dropLast else grown

def get (l : List α) (k : K) (expired : α → Bool) : Option α × List α :=
  match find key l k with
  | some v => if expired v then (none, erase key l k) else (some v, v :: erase key l k)
  | none => (none, l)

def update (l : List α) (k : K) (f : α → α) : List α :=
  l.map (fun v => if key v = k then f v else v)

def evicted (l : List α) (v : α) (cap : Int) : Option α :=
  match find key l (key v) with
  | some _ => none
  | none => if cap ≠ 0 ∧ ((v :: l).length : Int) > cap then (v :: l).getLast? else none

def Distinct (l : List α) : Prop := (l.map key).Nodup

variable {key}

theorem find_eq_some_iff {l : List α} (distinct : Distinct key l) (k : K) (v : α) :
    find key l k = some v ↔ v ∈ l ∧ key v = k := by
  constructor
  · intro found
    exact ⟨List.mem_of_find?_eq_some found, by simpa using List.find?_some found⟩
  · rintro ⟨member, rfl⟩
    have present : (find key l (key v)).isSome := by
      rw [find, List.find?_isSome]
      exact ⟨v, member, by simp⟩
    obtain ⟨w, hit⟩ := Option.isSome_iff_exists.mp present
    have same : w = v := List.inj_on_of_nodup_map distinct (List.mem_of_find?_eq_some hit)
      member (by simpa using List.find?_some hit)
    rw [hit, same]

theorem find_eq_none_iff (l : List α) (k : K) : find key l k = none ↔ ∀ v ∈ l, key v ≠ k := by
  simp [find]

theorem key_of_find {l : List α} {k : K} {v : α} (found : find key l k = some v) : key v = k := by
  simpa using List.find?_some found

theorem mem_of_find {l : List α} {k : K} {v : α} (found : find key l k = some v) : v ∈ l :=
  List.mem_of_find?_eq_some found

theorem mem_erase {l : List α} {k : K} {v : α} : v ∈ erase key l k ↔ v ∈ l ∧ key v ≠ k := by
  simp [erase]

theorem find_erase (l : List α) (k k' : K) :
    find key (erase key l k) k' = if k' = k then none else find key l k' := by
  by_cases same : k' = k
  · subst same
    simp [find, erase, List.find?_eq_none]
  · simp only [find, erase, same, if_false, List.find?_filter]
    congr 1
    funext v
    by_cases hit : key v = k' <;> simp [hit, same]

theorem erase_of_find_none {l : List α} {k : K} (absent : find key l k = none) :
    erase key l k = l := by
  apply List.filter_eq_self.mpr
  intro v inside
  simpa using (find_eq_none_iff l k).mp absent v inside

theorem update_of_find_none {l : List α} {k : K} (absent : find key l k = none) (f : α → α) :
    update key l k f = l := by
  calc update key l k f = l.map id :=
        List.map_congr_left (fun v inside => by simp [(find_eq_none_iff l k).mp absent v inside])
    _ = l := List.map_id l

theorem distinct_erase {l : List α} (distinct : Distinct key l) (k : K) :
    Distinct key (erase key l k) :=
  distinct.sublist ((List.filter_sublist).map key)

theorem distinct_cons {l : List α} {v : α} (distinct : Distinct key l)
    (fresh : find key l (key v) = none) : Distinct key (v :: l) := by
  refine List.nodup_cons.mpr ⟨?_, distinct⟩
  intro member
  obtain ⟨w, inside, same⟩ := List.mem_map.mp member
  exact (find_eq_none_iff l (key v)).mp fresh w inside same

theorem find_cons (l : List α) (v : α) (k : K) :
    find key (v :: l) k = if key v = k then some v else find key l k := by
  by_cases hit : key v = k <;> simp [find, hit]

theorem distinct_put {l : List α} (distinct : Distinct key l) (v : α) (cap : Int) :
    Distinct key (put key l v cap) := by
  unfold put
  cases found : find key l (key v) with
  | some w =>
    refine distinct_cons (distinct_erase distinct _) ?_
    simp [find_erase]
  | none =>
    have grown := distinct_cons distinct found
    dsimp only
    split
    · exact grown.sublist ((List.dropLast_sublist _).map key)
    · exact grown

-- A new key with room to spare goes in front, and nothing is evicted.
theorem put_of_fresh {l : List α} {v : α} {cap : Int} (absent : find key l (key v) = none)
    (room : cap = 0 ∨ ((l.length : Int) + 1 ≤ cap)) : put key l v cap = v :: l := by
  have keep : ¬ (cap ≠ 0 ∧ ((v :: l).length : Int) > cap) := by
    simp only [List.length_cons]
    push_cast
    omega
  unfold put
  rw [absent]
  exact if_neg keep

-- A capacity that is not negative never evicts the entry just put: an eviction
-- needs two entries and drops the last.
theorem find_put_self (l : List α) (v : α) {cap : Int} (nonneg : 0 ≤ cap) :
    find key (put key l v cap) (key v) = some v := by
  unfold put
  cases found : find key l (key v) with
  | some w => simp [find_cons]
  | none =>
    dsimp only
    split
    · rename_i evict
      cases l with
      | nil => simp at evict; omega
      | cons w rest => simp [List.dropLast_cons_cons, find_cons]
    · simp [find_cons]

-- The only entry `put` can leave under the key it puts is the one it put.
theorem find_put_key {l : List α} {v w : α} {cap : Int}
    (found : find key (put key l v cap) (key v) = some w) : w = v := by
  unfold put at found
  split at found
  · simpa [find_cons] using found.symm
  · dsimp only at found
    split_ifs at found
    · cases l with
      | nil => simp [find] at found
      | cons u rest => simpa [List.dropLast_cons_cons, find_cons] using found.symm
    · simpa [find_cons] using found.symm

theorem get_fst {l : List α} (k : K) (expired : α → Bool) :
    (get key l k expired).1 = (find key l k).filter (fun v => !expired v) := by
  unfold get
  cases find key l k with
  | none => rfl
  | some v => by_cases dead : expired v = true <;> simp [dead, Option.filter]

theorem get_of_live {l : List α} {k : K} {v : α} {expired : α → Bool}
    (found : find key l k = some v) (live : expired v = false) :
    get key l k expired = (some v, v :: erase key l k) := by
  simp [get, found, live]

theorem find_get {l : List α} (k k' : K) (expired : α → Bool) :
    find key (get key l k expired).2 k' =
      if k' = k then (get key l k expired).1 else find key l k' := by
  unfold get
  cases found : find key l k with
  | none =>
    by_cases same : k' = k
    · simp [same, found]
    · simp [same]
  | some v =>
    have keyed := key_of_find found
    by_cases dead : expired v = true
    · simp [dead, find_erase]
    · by_cases same : k' = k
      · simp [dead, same, find_cons, keyed]
      · simp [dead, same, find_cons, keyed, find_erase, Ne.symm same]

theorem find_update {l : List α} (k k' : K) (f : α → α) (keeps : ∀ v, key v = k → key (f v) = k) :
    find key (update key l k f) k' = if k' = k then (find key l k).map f else find key l k' := by
  induction l with
  | nil => by_cases same : k' = k <;> simp [find, update, same]
  | cons w rest ih =>
    simp only [update, List.map_cons] at ih ⊢
    simp only [find_cons, ih]
    by_cases hit : key w = k
    · by_cases same : k' = k
      · subst same
        simp [hit, keeps w hit]
      · simp [hit, keeps w hit, same, Ne.symm same]
    · by_cases same : k' = k
      · subst same
        simp [hit]
      · simp [hit, same]

theorem update_cons (l : List α) (v : α) (k : K) (f : α → α) :
    update key (v :: l) k f = (if key v = k then f v else v) :: update key l k f := rfl

theorem distinct_update {l : List α} (distinct : Distinct key l) (k : K) (f : α → α)
    (keeps : ∀ v, key v = k → key (f v) = k) : Distinct key (update key l k f) := by
  have same : (update key l k f).map key = l.map key := by
    simp only [update, List.map_map]
    apply List.map_congr_left
    intro v _
    by_cases hit : key v = k <;> simp [hit, keeps]
  unfold Distinct
  rw [same]
  exact distinct

/-! Each operation's result by cases, and what these cases keep: the bound on
the length, and any order of the entries in which the entry just used comes
first. -/

theorem put_of_evicted_none {l : List α} {v : α} {cap : Int} (kept : evicted key l v cap = none) :
    put key l v cap = v :: erase key l (key v) := by
  unfold evicted at kept
  unfold put
  cases found : find key l (key v) with
  | some w => rfl
  | none =>
    rw [found] at kept
    dsimp only at kept ⊢
    have small : ¬ (cap ≠ 0 ∧ ((v :: l).length : Int) > cap) := by
      intro evict
      rw [if_pos evict] at kept
      simp at kept
    rw [if_neg small, erase_of_find_none found]

theorem put_of_evicted_some {l : List α} {v w : α} {cap : Int} (positive : 1 ≤ cap)
    (dropped : evicted key l v cap = some w) :
    find key l (key v) = none ∧ l.getLast? = some w ∧ put key l v cap = v :: l.dropLast := by
  unfold evicted at dropped
  unfold put
  cases found : find key l (key v) with
  | some u => rw [found] at dropped; cases dropped
  | none =>
    rw [found] at dropped
    dsimp only at dropped ⊢
    by_cases evict : cap ≠ 0 ∧ ((v :: l).length : Int) > cap
    · rw [if_pos evict] at dropped
      have nonempty : l ≠ [] := by
        rintro rfl
        simp at evict
        omega
      refine ⟨rfl, ?_, ?_⟩
      · rwa [List.getLast?_cons_of_ne_nil nonempty] at dropped
      · rw [if_pos evict, List.dropLast_cons_of_ne_nil nonempty]
    · rw [if_neg evict] at dropped
      cases dropped

theorem mem_put {l : List α} {v u : α} {cap : Int} (member : u ∈ put key l v cap) : u = v ∨ u ∈ l := by
  unfold put at member
  split at member
  · rcases List.mem_cons.mp member with rfl | rest
    · exact Or.inl rfl
    · exact Or.inr (List.mem_of_mem_filter rest)
  · dsimp only at member
    split at member
    · exact List.mem_cons.mp ((List.dropLast_sublist _).subset member)
    · exact List.mem_cons.mp member

theorem find_dropLast {l : List α} (distinct : Distinct key l) {w : α} (last : l.getLast? = some w)
    (k : K) : find key l.dropLast k = if key w = k then none else find key l k := by
  have whole : l.dropLast ++ [w] = l := List.dropLast_append_getLast? w (by simp [last])
  by_cases hit : key w = k
  · rw [if_pos hit, find_eq_none_iff]
    intro u inside same
    have nodup : ((l.dropLast ++ [w]).map key).Nodup := by rw [whole]; exact distinct
    rw [List.map_append, List.nodup_append] at nodup
    exact nodup.2.2 (key u) (List.mem_map_of_mem inside) (key w) (by simp) (same.trans hit.symm)
  · rw [if_neg hit]
    conv_rhs => rw [← whole]
    simp [find, List.find?_append, hit]

theorem find_put {l : List α} (distinct : Distinct key l) (v : α) {cap : Int} (positive : 1 ≤ cap)
    (k : K) :
    find key (put key l v cap) k =
      if key v = k then some v
      else match evicted key l v cap with
        | some w => if key w = k then none else find key l k
        | none => find key l k := by
  cases dropped : evicted key l v cap with
  | none =>
    rw [put_of_evicted_none dropped, find_cons, find_erase]
    by_cases hit : key v = k
    · simp [hit]
    · simp [hit, Ne.symm hit]
  | some w =>
    obtain ⟨_, last, shape⟩ := put_of_evicted_some positive dropped
    rw [shape, find_cons, find_dropLast distinct last]

theorem find_put_of_ne {l : List α} (distinct : Distinct key l) (v : α) (cap : Int) {k : K}
    (other : key v ≠ k) :
    find key (put key l v cap) k = find key l k ∨ find key (put key l v cap) k = none := by
  unfold put
  cases found : find key l (key v) with
  | some w =>
    left
    rw [find_cons, if_neg other, find_erase, if_neg (Ne.symm other)]
  | none =>
    dsimp only
    split
    · cases last : (v :: l).getLast? with
      | none => simp at last
      | some w =>
        rw [find_dropLast (distinct_cons distinct found) last, find_cons, if_neg other]
        by_cases hit : key w = k
        · exact .inr (if_pos hit)
        · exact .inl (if_neg hit)
    · left
      rw [find_cons, if_neg other]

theorem length_erase_lt {l : List α} {k : K} {v : α} (found : find key l k = some v) :
    (erase key l k).length < l.length :=
  List.length_filter_lt_length_iff_exists.mpr ⟨v, mem_of_find found, by simp [key_of_find found]⟩

theorem length_put_le {l : List α} (v : α) {cap : Int} (positive : 1 ≤ cap)
    (bounded : (l.length : Int) ≤ cap) : ((put key l v cap).length : Int) ≤ cap := by
  unfold put
  cases found : find key l (key v) with
  | some w =>
    have shorter := length_erase_lt found
    simp only [List.length_cons]
    omega
  | none =>
    dsimp only
    split
    · rename_i evict
      simp only [List.length_dropLast, List.length_cons, Nat.add_sub_cancel]
      exact bounded
    · rename_i small
      simp only [List.length_cons] at small ⊢
      push_cast at small ⊢
      omega

theorem pairwise_put {R : α → α → Prop} {l : List α} (v : α) {cap : Int} (positive : 1 ≤ cap)
    (rest : (erase key l (key v)).Pairwise R) (front : ∀ u ∈ erase key l (key v), R v u) :
    (put key l v cap).Pairwise R := by
  cases dropped : evicted key l v cap with
  | none =>
    rw [put_of_evicted_none dropped]
    exact List.pairwise_cons.mpr ⟨front, rest⟩
  | some w =>
    obtain ⟨absent, _, shape⟩ := put_of_evicted_some positive dropped
    rw [erase_of_find_none absent] at rest front
    rw [shape]
    exact (List.pairwise_cons.mpr ⟨front, rest⟩).sublist
      ((List.dropLast_sublist l).cons_cons v)

theorem get_cases (l : List α) (k : K) (expired : α → Bool) :
    (find key l k = none ∧ get key l k expired = (none, l)) ∨
      (∃ v, find key l k = some v ∧ expired v = true ∧ get key l k expired = (none, erase key l k)) ∨
      (∃ v, find key l k = some v ∧ expired v = false ∧
        get key l k expired = (some v, v :: erase key l k)) := by
  unfold get
  cases found : find key l k with
  | none => exact Or.inl ⟨rfl, rfl⟩
  | some v =>
    cases dead : expired v
    · exact Or.inr (Or.inr ⟨v, rfl, dead, by simp [dead]⟩)
    · exact Or.inr (Or.inl ⟨v, rfl, dead, by simp [dead]⟩)

theorem mem_get {l : List α} {k : K} {expired : α → Bool} {u : α}
    (member : u ∈ (get key l k expired).2) : u ∈ l := by
  rcases get_cases l k expired with ⟨-, got⟩ | ⟨v, -, -, got⟩ | ⟨v, found, -, got⟩ <;>
    rw [got] at member
  · exact member
  · exact (mem_erase.mp member).1
  · rcases List.mem_cons.mp member with rfl | rest
    · exact mem_of_find found
    · exact (mem_erase.mp rest).1

theorem mem_update {l : List α} {k : K} {f : α → α} {u : α} (member : u ∈ update key l k f) :
    u ∈ l ∨ ∃ v ∈ l, u = f v := by
  obtain ⟨v, inside, changed⟩ := List.mem_map.mp member
  by_cases hit : key v = k
  · exact .inr ⟨v, inside, by rw [← changed, if_pos hit]⟩
  · exact .inl (by rwa [← changed, if_neg hit])

theorem length_erase_le (l : List α) (k : K) : (erase key l k).length ≤ l.length :=
  List.length_filter_le _ _

-- A lookup never lengthens the list: a live entry moves to the front.
theorem length_get_le (l : List α) (k : K) (expired : α → Bool) :
    (get key l k expired).2.length ≤ l.length := by
  rcases get_cases l k expired with ⟨-, got⟩ | ⟨v, -, -, got⟩ | ⟨v, found, -, got⟩
  · have same : (get key l k expired).2 = l := by rw [got]
    exact Nat.le_of_eq (congrArg List.length same)
  · rw [got]
    exact length_erase_le l k
  · have shorter := length_erase_lt found
    rw [got]
    simp only [List.length_cons]
    omega

-- The entry an eviction drops is the last of the list, so an order in which
-- every entry precedes the later ones puts it after every other entry.
theorem getLast_after {R : α → α → Prop} {l : List α} (ordered : l.Pairwise R) {w : α}
    (last : l.getLast? = some w) {u : α} (member : u ∈ l) (other : u ≠ w) : R u w := by
  have whole : l.dropLast ++ [w] = l := List.dropLast_append_getLast? w (by simp [last])
  rw [← whole] at ordered member
  rcases List.mem_append.mp member with before | final
  · exact List.pairwise_append.mp ordered |>.2.2 u before w (by simp)
  · exact absurd (List.mem_singleton.mp final) other

/-! The entries of the other keys, which operations on one key leave alone. -/

theorem erase_erase_self (l : List α) (k : K) : erase key (erase key l k) k = erase key l k := by
  simp [erase, List.filter_filter]

theorem erase_cons_self {l : List α} {v : α} {k : K} (keyed : key v = k) :
    erase key (v :: l) k = erase key l k := by
  simp [erase, keyed]

theorem erase_get_self (l : List α) (k : K) (expired : α → Bool) :
    erase key (get key l k expired).2 k = erase key l k := by
  rcases get_cases l k expired with ⟨-, got⟩ | ⟨v, -, -, got⟩ | ⟨v, found, -, got⟩
  · rw [got]
  · rw [got, erase_erase_self]
  · rw [got, erase_cons_self (key_of_find found), erase_erase_self]

theorem erase_put_self {l : List α} {v : α} {cap : Int}
    (room : ((erase key l (key v)).length : Int) < cap) :
    erase key (put key l v cap) (key v) = erase key l (key v) := by
  unfold put
  cases found : find key l (key v) with
  | some w => rw [erase_cons_self rfl, erase_erase_self]
  | none =>
    -- A new key: the list holds only other keys, so one more entry still fits.
    have others := erase_of_find_none found
    rw [others] at room ⊢
    have fits : ¬ (cap ≠ 0 ∧ ((v :: l).length : Int) > cap) := by
      simp only [List.length_cons]
      omega
    simp only [if_neg fits]
    rw [erase_cons_self rfl, others]

theorem erase_update_self (l : List α) (k : K) (f : α → α) (keeps : ∀ v, key v = k → key (f v) = k) :
    erase key (update key l k f) k = erase key l k := by
  induction l with
  | nil => rfl
  | cons w rest ih =>
    by_cases hit : key w = k
    · have moved : key (f w) = k := keeps w hit
      simpa [update, erase, hit, moved] using ih
    · simpa [update, erase, hit] using ih

end RecencyList
