import Mathlib.Data.List.Sort

/-!
Go's `sort` package as the ring of peers uses it. `sort.Search` is a binary
search for the least index at which a monotone predicate holds. `sort.Slice`
sorts by a less function without promising stability; for a slice of at most
twelve elements its pattern-defeating quicksort runs an insertion sort, which
moves each element left past the elements it is less than, and so keeps equal
elements in their order.
-/

namespace GoSort

variable {α : Type}

/-- The loop of `sort.Search` on `[i, j)`; each turn shrinks the interval, so
`fuel` at least `j - i` finishes it. -/
def searchFrom (f : Nat → Bool) : Nat → Nat → Nat → Nat
  | 0, i, _ => i
  | fuel + 1, i, j =>
    if i < j then
      let h := (i + j) / 2
      if !f h then searchFrom f fuel (h + 1) j else searchFrom f fuel i h
    else i

def search (n : Nat) (f : Nat → Bool) : Nat := searchFrom f n 0 n

/-- The predicate `sort.Search` asks for: once true on `[0, n)`, true up to `n`. -/
def MonotoneBelow (n : Nat) (f : Nat → Bool) : Prop :=
  ∀ i j, i ≤ j → j < n → f i = true → f j = true

/-- The answer of `sort.Search`: the first index of `[0, n)` where `f` holds,
or `n`. -/
def IsFirstTrue (n : Nat) (f : Nat → Bool) (r : Nat) : Prop :=
  r ≤ n ∧ (∀ k < r, f k = false) ∧ ∀ k, r ≤ k → k < n → f k = true

/-- One turn of `insertionSortLessFunc`, on the sorted prefix kept right to
left: the new element swaps left while it is less than its neighbour. -/
def insertLeft (less : α → α → Bool) (x : α) : List α → List α
  | [] => [x]
  | y :: ys => if less x y then y :: insertLeft less x ys else x :: y :: ys

def insertionSortLess (less : α → α → Bool) (l : List α) : List α :=
  (l.foldl (fun sortedRev x => insertLeft less x sortedRev) []).reverse

/-- A slice in the order `sort.Slice` leaves it: no element is less than one
before it. -/
def Ordered (less : α → α → Bool) (l : List α) : Prop := l.Pairwise fun a b => less b a = false

/-- What `sort.Slice` promises about any less function it is given. -/
def SortsBy (less : α → α → Bool) (sort : List α → List α) : Prop :=
  ∀ l, (sort l).Perm l ∧ Ordered less (sort l)

/-- What `sort.Slice` asks of its less function: a strict weak order. -/
structure StrictWeakOrder (less : α → α → Bool) : Prop where
  asymm : ∀ a b, less a b = true → less b a = false
  notLess_trans : ∀ a b c, less b a = false → less c b = false → less c a = false

section Insertion

variable (less : α → α → Bool)

theorem insertLeft_perm (x : α) (l : List α) : (insertLeft less x l).Perm (x :: l) := by
  induction l with
  | nil => rfl
  | cons y ys ih =>
    unfold insertLeft
    split
    · exact (ih.cons y).trans (List.Perm.swap x y ys)
    · rfl

theorem foldl_insertLeft_perm (l r : List α) :
    (l.foldl (fun sortedRev x => insertLeft less x sortedRev) r).Perm (l.reverse ++ r) := by
  induction l generalizing r with
  | nil => rfl
  | cons x xs ih =>
    rw [List.foldl_cons, List.reverse_cons, List.append_assoc]
    exact (ih _).trans ((insertLeft_perm less x r).append_left xs.reverse)

variable {less}

theorem insertLeft_ordered (order : StrictWeakOrder less) (x : α) {r : List α}
    (ordered : r.Pairwise fun a b => less a b = false) :
    (insertLeft less x r).Pairwise fun a b => less a b = false := by
  induction r with
  | nil => exact List.pairwise_singleton _ x
  | cons y ys ih =>
    obtain ⟨yFirst, rest⟩ := List.pairwise_cons.mp ordered
    unfold insertLeft
    split
    · rename_i xLess
      refine List.pairwise_cons.mpr ⟨fun z mem => ?_, ih rest⟩
      rcases List.mem_cons.mp ((insertLeft_perm less x ys).mem_iff.mp mem) with rfl | later
      · exact order.asymm _ _ xLess
      · exact yFirst z later
    · rename_i xNotLess
      have notLess : less x y = false := by simpa using xNotLess
      refine List.pairwise_cons.mpr ⟨fun z mem => ?_, ordered⟩
      rcases List.mem_cons.mp mem with rfl | later
      · exact notLess
      · exact order.notLess_trans z y x (yFirst z later) notLess

theorem insertionSortLess_sortsBy (order : StrictWeakOrder less) :
    SortsBy less (insertionSortLess less) := by
  unfold SortsBy Ordered insertionSortLess
  intro l
  have ordered : ∀ (l r : List α), (r.Pairwise fun a b => less a b = false) →
      (l.foldl (fun sortedRev x => insertLeft less x sortedRev) r).Pairwise
        fun a b => less a b = false := by
    intro l
    induction l with
    | nil => exact fun _ start => start
    | cons x xs ih => exact fun r start => ih _ (insertLeft_ordered order x start)
  refine ⟨?_, List.pairwise_reverse.mpr (ordered l [] List.Pairwise.nil)⟩
  have reversed := foldl_insertLeft_perm less l []
  rw [List.append_nil] at reversed
  exact (List.reverse_perm _).trans (reversed.trans (List.reverse_perm l))

end Insertion

section Search

variable {n : Nat} {f : Nat → Bool}

/-- The loop invariant of `sort.Search`: `f` is false below `i` and true from
`j` on. -/
theorem searchFrom_isFirstTrue (mono : MonotoneBelow n f) (fuel : Nat) :
    ∀ i j, i ≤ j → j ≤ n → (∀ k < i, f k = false) → (∀ k, j ≤ k → k < n → f k = true) →
      j - i ≤ fuel → IsFirstTrue n f (searchFrom f fuel i j) := by
  induction fuel with
  | zero =>
    intro i j ordered bounded below above enough
    have closed : j = i := by omega
    subst closed
    exact ⟨bounded, below, above⟩
  | succ fuel ih =>
    intro i j ordered bounded below above enough
    unfold searchFrom
    split
    · rename_i nonempty
      dsimp only
      split
      · rename_i midFalse
        refine ih _ j (by omega) bounded (fun k lt => ?_) above (by omega)
        cases fk : f k
        · rfl
        · have := mono k ((i + j) / 2) (by omega) (by omega) fk
          simp_all
      · rename_i midTrue
        refine ih i _ (by omega) (by omega) below (fun k le lt => ?_) (by omega)
        exact mono ((i + j) / 2) k le lt (by simpa using midTrue)
    · have closed : j = i := by omega
      subst closed
      exact ⟨bounded, below, above⟩

theorem search_isFirstTrue (mono : MonotoneBelow n f) : IsFirstTrue n f (search n f) :=
  searchFrom_isFirstTrue mono n 0 n (Nat.zero_le n) le_rfl (fun _ lt => absurd lt (Nat.not_lt_zero _))
    (fun _ le lt => absurd lt (Nat.not_lt.mpr le)) (Nat.sub_le n 0)

theorem getElem?_eq_find?_of_isFirstTrue {l : List α} (p : α → Bool) {r : Nat}
    (agree : ∀ i (lt : i < l.length), f i = p l[i]) (first : IsFirstTrue l.length f r) :
    l[r]? = l.find? p := by
  obtain ⟨bounded, below, above⟩ := first
  by_cases inside : r < l.length
  · rw [List.getElem?_eq_getElem inside, eq_comm, List.find?_eq_some_iff_getElem]
    refine ⟨by rw [← agree r inside]; exact above r le_rfl inside, r, inside, rfl, fun j before => ?_⟩
    rw [← agree j (by omega), below j before]
    rfl
  · have past : r = l.length := by omega
    rw [past, List.getElem?_eq_none le_rfl, eq_comm, List.find?_eq_none]
    intro x mem
    obtain ⟨i, lt, rfl⟩ := List.getElem_of_mem mem
    rw [← agree i lt, below i (by omega)]
    simp

end Search

end GoSort
