import Mathlib.Data.List.Basic
import Mathlib.Data.List.Nodup

/-!
Go's `container/list` as a list of identified elements, front first. An element
is its identity (the `*list.Element` pointer) with its current `Value`;
`PushFront` allocates a fresh identity, and the structure carries the facts that
identities are distinct and below the allocator, so a list with a repeated
element cannot be built. `MoveToFront`, `Remove` and assigning `e.Value` act on
the element with the given identity, as the pointer operations do.
-/

structure LinkedList (α : Type) where
  elems : List (Nat × α)
  fresh : Nat
  distinct : (elems.map Prod.fst).Nodup
  bounded : ∀ p ∈ elems, p.1 < fresh

namespace LinkedList

variable {α : Type}

def empty : LinkedList α := ⟨[], 0, List.nodup_nil, by simp⟩

def len (l : LinkedList α) : Nat := l.elems.length

def values (l : LinkedList α) : List α := l.elems.map Prod.snd

/-- `e.Value` for the element `e`, if `e` belongs to the list. -/
def get (l : LinkedList α) (e : Nat) : Option α := (l.elems.find? (·.1 = e)).map Prod.snd

def back (l : LinkedList α) : Option Nat := l.elems.getLast?.map Prod.fst

theorem fresh_not_mem (l : LinkedList α) : l.fresh ∉ l.elems.map Prod.fst := by
  intro member
  obtain ⟨p, inside, same⟩ := List.mem_map.mp member
  have := l.bounded p inside
  omega

theorem get_eq_some_iff (l : LinkedList α) (e : Nat) (v : α) :
    l.get e = some v ↔ (e, v) ∈ l.elems := by
  constructor
  · intro found
    obtain ⟨q, hit, rfl⟩ := Option.map_eq_some_iff.mp found
    have key : q.1 = e := by simpa using List.find?_some hit
    have member := List.mem_of_find?_eq_some hit
    rw [← key]
    exact member
  · intro member
    have present : (l.elems.find? (·.1 = e)).isSome := by
      rw [List.find?_isSome]
      exact ⟨(e, v), member, by simp⟩
    obtain ⟨q, hit⟩ := Option.isSome_iff_exists.mp present
    have key : q.1 = e := by simpa using List.find?_some hit
    have same : q = (e, v) :=
      List.inj_on_of_nodup_map l.distinct (List.mem_of_find?_eq_some hit) member key
    simp [get, hit, same]

def pushFront (l : LinkedList α) (v : α) : LinkedList α × Nat :=
  (⟨(l.fresh, v) :: l.elems, l.fresh + 1,
    List.nodup_cons.mpr ⟨l.fresh_not_mem, l.distinct⟩,
    by
      intro p member
      rcases List.mem_cons.mp member with same | inside
      · simp [same]
      · have := l.bounded p inside
        omega⟩, l.fresh)

theorem filter_distinct (l : LinkedList α) (keep : Nat × α → Bool) :
    ((l.elems.filter keep).map Prod.fst).Nodup :=
  (l.distinct.sublist ((List.filter_sublist).map Prod.fst))

def remove (l : LinkedList α) (e : Nat) : LinkedList α :=
  ⟨l.elems.filter (·.1 ≠ e), l.fresh, l.filter_distinct _,
    fun p member => l.bounded p (List.mem_of_mem_filter member)⟩

def moveToFront (l : LinkedList α) (e : Nat) : LinkedList α :=
  match found : l.get e with
  | none => l
  | some v =>
    ⟨(e, v) :: (l.remove e).elems, l.fresh,
      by
        refine List.nodup_cons.mpr ⟨?_, (l.remove e).distinct⟩
        simp [remove],
      by
        intro p member
        rcases List.mem_cons.mp member with same | inside
        · have := l.bounded _ ((l.get_eq_some_iff e v).mp found)
          simpa [same] using this
        · exact (l.remove e).bounded p inside⟩

def setValue (l : LinkedList α) (e : Nat) (v : α) : LinkedList α :=
  ⟨l.elems.map (fun p => if p.1 = e then (e, v) else p), l.fresh,
    by
      have same : (l.elems.map (fun p => if p.1 = e then (e, v) else p)).map Prod.fst =
          l.elems.map Prod.fst := by
        rw [List.map_map]
        apply List.map_congr_left
        intro p _
        by_cases hit : p.1 = e <;> simp [hit]
      rw [same]
      exact l.distinct,
    by
      intro p member
      obtain ⟨q, inside, rfl⟩ := List.mem_map.mp member
      by_cases hit : q.1 = e
      · simpa [hit] using l.bounded q inside
      · simpa [hit] using l.bounded q inside⟩

/-! Membership, values and length after each operation. -/

theorem mem_pushFront (l : LinkedList α) (v : α) (p : Nat × α) :
    p ∈ (l.pushFront v).1.elems ↔ p = (l.fresh, v) ∨ p ∈ l.elems := by
  simp [pushFront]

theorem mem_remove (l : LinkedList α) (e : Nat) (p : Nat × α) :
    p ∈ (l.remove e).elems ↔ p ∈ l.elems ∧ p.1 ≠ e := by
  simp [remove]

theorem mem_moveToFront (l : LinkedList α) (e : Nat) (p : Nat × α) :
    p ∈ (l.moveToFront e).elems ↔ p ∈ l.elems := by
  unfold moveToFront
  split
  · rfl
  · rename_i v found
    have present := (l.get_eq_some_iff e v).mp found
    simp only [List.mem_cons, mem_remove]
    constructor
    · rintro (rfl | ⟨inside, _⟩)
      · exact present
      · exact inside
    · intro inside
      by_cases same : p.1 = e
      · left
        have := List.inj_on_of_nodup_map l.distinct inside present same
        exact this
      · exact Or.inr ⟨inside, same⟩

theorem mem_setValue (l : LinkedList α) (e : Nat) (v : α) (p : Nat × α) :
    p ∈ (l.setValue e v).elems ↔
      (p = (e, v) ∧ ∃ w, (e, w) ∈ l.elems) ∨ (p ∈ l.elems ∧ p.1 ≠ e) := by
  simp only [setValue, List.mem_map]
  constructor
  · rintro ⟨q, inside, rfl⟩
    by_cases hit : q.1 = e
    · left
      refine ⟨by simp [hit], q.2, ?_⟩
      rw [← hit]
      exact inside
    · right
      simp [hit, inside]
  · rintro (⟨rfl, w, inside⟩ | ⟨inside, other⟩)
    · exact ⟨(e, w), inside, by simp⟩
    · exact ⟨p, inside, by simp [other]⟩

theorem values_pushFront (l : LinkedList α) (v : α) :
    (l.pushFront v).1.values = v :: l.values := rfl

theorem values_moveToFront {l : LinkedList α} {e : Nat} {v : α} (found : l.get e = some v) :
    (l.moveToFront e).values = v :: (l.remove e).values := by
  unfold moveToFront
  split
  · simp_all
  · rename_i w hit
    rw [found] at hit
    cases hit
    rfl

theorem values_setValue (l : LinkedList α) (e : Nat) (v : α) :
    (l.setValue e v).values = l.elems.map (fun p => if p.1 = e then v else p.2) := by
  simp only [values, setValue, List.map_map]
  apply List.map_congr_left
  intro p _
  by_cases hit : p.1 = e <;> simp [hit]

theorem len_pushFront (l : LinkedList α) (v : α) : (l.pushFront v).1.len = l.len + 1 := rfl

theorem len_moveToFront (l : LinkedList α) (e : Nat) : (l.moveToFront e).len = l.len := by
  have perm : (l.moveToFront e).elems.Perm l.elems :=
    (List.perm_ext_iff_of_nodup (l.moveToFront e).distinct.of_map l.distinct.of_map).mpr
      (l.mem_moveToFront e)
  exact perm.length_eq

theorem len_setValue (l : LinkedList α) (e : Nat) (v : α) : (l.setValue e v).len = l.len := by
  simp [len, setValue]

-- Removing the back element by its identity drops exactly the last value.
theorem values_remove_back {l : LinkedList α} {e : Nat} (last : l.back = some e) :
    (l.remove e).values = l.values.dropLast := by
  obtain ⟨p, final, rfl⟩ := Option.map_eq_some_iff.mp last
  obtain ⟨front, shape⟩ := List.getLast?_eq_some_iff.mp final
  have distinct := l.distinct
  rw [shape] at distinct
  have outside : p.1 ∉ front.map Prod.fst := by
    rw [List.map_append, List.nodup_append] at distinct
    intro member
    exact distinct.2.2 _ member _ (by simp) rfl
  have kept : front.filter (fun q => !decide (q.1 = p.1)) = front := by
    apply List.filter_eq_self.mpr
    intro q inside
    have : q.1 ≠ p.1 := fun same => outside (same ▸ List.mem_map_of_mem inside)
    simpa using this
  simp [values, remove, shape, List.filter_append, kept]

end LinkedList
