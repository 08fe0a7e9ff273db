import Mathlib

/-!
The successor of a key on a ring kept as a sorted list: the first element whose
key is at or after it, or round to the first element when every key lies before
it. On a sorted list this is the element of least key at or after the given
one, or of least key overall, so a sublist that still holds the successor of the
whole list has it as its own successor.
-/

namespace SortedRing

variable {α β : Type} [LinearOrder β] (key : α → β)

def successor (l : List α) (h : β) : Option α :=
  (l.find? fun a => decide (h ≤ key a)).or l.head?

/-- `a` is the successor of `h` on `l`: the least key at or after `h`, or the
least key when all lie before `h`. -/
def IsSuccessor (l : List α) (h : β) (a : α) : Prop :=
  a ∈ l ∧ ((h ≤ key a ∧ ∀ b ∈ l, h ≤ key b → key a ≤ key b) ∨
    ((∀ b ∈ l, key b < h) ∧ ∀ b ∈ l, key a ≤ key b))

variable {key}

theorem find?_least {l : List α} (sorted : l.Pairwise fun a b => key a ≤ key b) {h : β} {a : α}
    (found : l.find? (fun a => decide (h ≤ key a)) = some a) :
    a ∈ l ∧ h ≤ key a ∧ ∀ b ∈ l, h ≤ key b → key a ≤ key b := by
  induction l with
  | nil => simp at found
  | cons x l ih =>
    rw [List.pairwise_cons] at sorted
    by_cases here : h ≤ key x
    · rw [List.find?_cons_of_pos (by simpa using here)] at found
      cases found
      refine ⟨List.mem_cons_self, here, ?_⟩
      intro b member _
      rcases List.mem_cons.mp member with rfl | later
      · exact le_refl _
      · exact sorted.1 b later
    · rw [List.find?_cons_of_neg (by simpa using here)] at found
      obtain ⟨member, above, least⟩ := ih sorted.2 found
      refine ⟨List.mem_cons_of_mem x member, above, ?_⟩
      intro b inList after
      rcases List.mem_cons.mp inList with rfl | later
      · exact absurd after here
      · exact least b later after

theorem head?_least {l : List α} (sorted : l.Pairwise fun a b => key a ≤ key b) {a : α}
    (first : l.head? = some a) : ∀ b ∈ l, key a ≤ key b := by
  cases l with
  | nil => simp at first
  | cons x l =>
    cases first
    intro b member
    rcases List.mem_cons.mp member with rfl | later
    · exact le_refl _
    · exact (List.pairwise_cons.mp sorted).1 b later

theorem successor_isSuccessor {l : List α} (sorted : l.Pairwise fun a b => key a ≤ key b) {h : β} {a : α}
    (got : successor key l h = some a) : IsSuccessor key l h a := by
  unfold successor at got
  cases found : l.find? (fun a => decide (h ≤ key a)) with
  | some b =>
    rw [found, Option.some_or] at got
    cases got
    obtain ⟨member, above, least⟩ := find?_least sorted found
    exact ⟨member, .inl ⟨above, least⟩⟩
  | none =>
    rw [found, Option.none_or] at got
    -- No key is at or after h: the ring goes round to its first element.
    have below : ∀ b ∈ l, key b < h := by
      intro b member
      exact lt_of_not_ge (by simpa using List.find?_eq_none.mp found b member)
    exact ⟨List.mem_of_mem_head? got, .inr ⟨below, head?_least sorted got⟩⟩

theorem successor_isSome {l : List α} (nonempty : l ≠ []) (h : β) : (successor key l h).isSome := by
  cases l with
  | nil => exact absurd rfl nonempty
  | cons x l => cases l.find? (fun a => decide (h ≤ key a)) <;> simp [successor, List.find?_cons]

theorem IsSuccessor.of_subset {l m : List α} {h : β} {a : α} (succ : IsSuccessor key m h a) (sub : l ⊆ m)
    (member : a ∈ l) : IsSuccessor key l h a := by
  rcases succ with ⟨-, ⟨above, least⟩ | ⟨below, least⟩⟩
  · exact ⟨member, .inl ⟨above, fun b inL => least b (sub inL)⟩⟩
  · exact ⟨member, .inr ⟨fun b inL => below b (sub inL), fun b inL => least b (sub inL)⟩⟩

theorem IsSuccessor.key_eq {l : List α} {h : β} {a b : α} (sa : IsSuccessor key l h a)
    (sb : IsSuccessor key l h b) : key a = key b := by
  rcases sa with ⟨inA, ⟨aboveA, leastA⟩ | ⟨belowA, leastA⟩⟩ <;>
    rcases sb with ⟨inB, ⟨aboveB, leastB⟩ | ⟨belowB, leastB⟩⟩
  · exact le_antisymm (leastA b inB aboveB) (leastB a inA aboveA)
  · exact absurd aboveA (not_le_of_gt (belowB a inA))
  · exact absurd aboveB (not_le_of_gt (belowA b inB))
  · exact le_antisymm (leastA b inB) (leastB a inA)

theorem successor_of_subset {l m : List α} (sortedL : l.Pairwise fun a b => key a ≤ key b)
    (sortedM : m.Pairwise fun a b => key a ≤ key b) (distinct : (l.map key).Nodup) (sub : l ⊆ m)
    {h : β} {a : α} (got : successor key m h = some a) (member : a ∈ l) : successor key l h = some a := by
  have ofM := (successor_isSuccessor sortedM got).of_subset sub member
  obtain ⟨b, ofL⟩ := Option.isSome_iff_exists.mp (successor_isSome (List.ne_nil_of_mem member) h)
  have same : b = a :=
    List.inj_on_of_nodup_map distinct (successor_isSuccessor sortedL ofL).1 member
      ((successor_isSuccessor sortedL ofL).key_eq ofM)
  rw [ofL, same]

end SortedRing
