import Mathlib.Data.List.Basic

/-!
Slots filled by index, as Go's fan-in loops fill a slice made with `make`:
writes `s[i] = v` of messages that carry their index, a goroutine's entry taken
out of a list of waiting ones, answers paired with requests by position, and a
list of optional answers read once every slot is filled.
-/

namespace Slots

variable {α β : Type}

/-- The writes `s[m.1] = m.2` of every message, in order. -/
def writeAll (msgs : List (Nat × α)) (slots : List (Option α)) : List (Option α) :=
  msgs.foldl (fun rs m => rs.set m.1 (some m.2)) slots

@[simp] theorem length_writeAll (msgs : List (Nat × α)) (slots : List (Option α)) :
    (writeAll msgs slots).length = slots.length := by
  induction msgs generalizing slots with
  | nil => rfl
  | cons m msgs ih =>
    show (writeAll msgs (slots.set m.1 (some m.2))).length = slots.length
    rw [ih, List.length_set]

-- A filled slot holds what it held before or what one message wrote there.
theorem writeAll_filled {msgs : List (Nat × α)} {slots : List (Option α)} {i : Nat} {a : α}
    (filled : (writeAll msgs slots)[i]? = some (some a)) :
    slots[i]? = some (some a) ∨ (i, a) ∈ msgs := by
  induction msgs generalizing slots with
  | nil => exact Or.inl filled
  | cons m msgs ih =>
    rcases ih filled with earlier | later
    · rw [List.getElem?_set] at earlier
      by_cases same : m.1 = i
      · subst same
        have inside : m.1 < slots.length := by
          by_contra outside
          simp [outside] at earlier
        simp only [inside, if_true] at earlier
        cases earlier
        exact Or.inr List.mem_cons_self
      · rw [if_neg same] at earlier
        exact Or.inl earlier
    · exact Or.inr (List.mem_cons_of_mem m later)

-- A slot that was filled, or that some message writes, ends filled.
theorem writeAll_fills {msgs : List (Nat × α)} {slots : List (Option α)} {i : Nat}
    (inside : i < slots.length) (covered : (∃ a, slots[i]? = some (some a)) ∨ i ∈ msgs.map (·.1)) :
    ∃ a, (writeAll msgs slots)[i]? = some (some a) := by
  induction msgs generalizing slots with
  | nil =>
    rcases covered with filled | none
    · exact filled
    · cases none
  | cons m msgs ih =>
    apply ih (by simpa using inside)
    by_cases same : m.1 = i
    · exact Or.inl ⟨m.2, by simp [same, inside]⟩
    · rcases covered with ⟨a, filled⟩ | written
      · exact Or.inl ⟨a, by rw [List.getElem?_set, if_neg same]; exact filled⟩
      · rcases List.mem_cons.mp written with first | rest
        · exact absurd first.symm same
        · exact Or.inr rest

theorem mem_eraseIdx_or {l : List α} {j : Nat} {b : α} (taken : l[j]? = some b) {a : α}
    (member : a ∈ l) : a ∈ l.eraseIdx j ∨ a = b := by
  obtain ⟨i, found⟩ := List.mem_iff_getElem?.mp member
  by_cases same : i = j
  · subst same
    rw [taken] at found
    exact Or.inr (Option.some.inj found).symm
  · exact Or.inl (List.mem_eraseIdx_iff_getElem?.mpr ⟨i, same, found⟩)

theorem mem_map_eraseIdx_or {γ : Type} {l : List α} {j : Nat} {b : α} (taken : l[j]? = some b)
    {g : α → γ} {x : γ} (member : x ∈ l.map g) : x ∈ (l.eraseIdx j).map g ∨ x = g b := by
  obtain ⟨a, inside, rfl⟩ := List.mem_map.mp member
  rcases mem_eraseIdx_or taken inside with kept | rfl
  · exact Or.inl (List.mem_map_of_mem kept)
  · exact Or.inr rfl

theorem exists_of_mem_zip {xs : List α} {ys : List β} {p : α × β} (member : p ∈ xs.zip ys) :
    ∃ k : Nat, xs[k]? = some p.1 ∧ ys[k]? = some p.2 := by
  obtain ⟨k, found⟩ := List.mem_iff_getElem?.mp member
  exact ⟨k, List.getElem?_zip_eq_some.mp found⟩

theorem mapM_id_eq_some {slots : List (Option α)} {answers : List α}
    (filled : slots.mapM id = some answers) :
    answers.length = slots.length ∧ ∀ (k : Nat) a, answers[k]? = some a → slots[k]? = some (some a) := by
  induction slots generalizing answers with
  | nil =>
    simp only [List.mapM_nil, pure, Option.some.injEq] at filled
    subst filled
    exact ⟨rfl, fun _ _ none => by simp at none⟩
  | cons x slots ih =>
    simp only [List.mapM_cons, id, bind, Option.bind_eq_some_iff, pure, Option.some.injEq] at filled
    obtain ⟨a, rfl, rest, tail, rfl⟩ := filled
    obtain ⟨length, each⟩ := ih tail
    refine ⟨by simp [length], fun k b found => ?_⟩
    cases k with
    | zero => simpa using found
    | succ k => simpa using each k b (by simpa using found)

end Slots
