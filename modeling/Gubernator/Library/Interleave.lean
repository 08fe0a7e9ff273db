import Mathlib.Data.List.Perm.Basic
import Mathlib.Data.List.Range

/-!
A stream routed to several producers and merged back into one channel. Each
producer emits its own list in order and the channel takes their outputs in any
interleaving: such an interleaving is a permutation of the lists put end to end,
and putting them end to end is one of them. A list routed by an index function
into blocks `0, …, n - 1` is a permutation of its blocks put end to end.
-/

namespace Interleave

variable {α : Type}

/-- `out` takes, step by step, the next element of one of the lists `ls`, until all
are drained. -/
inductive Interleaving : List (List α) → List α → Prop
  | done {ls : List (List α)} (drained : ∀ l ∈ ls, l = []) : Interleaving ls []
  | step {ls : List (List α)} {k : Nat} {x : α} {rest out : List α}
      (next : ls[k]? = some (x :: rest)) (later : Interleaving (ls.set k rest) out) :
      Interleaving ls (x :: out)

theorem flatten_perm_of_getElem? {ls : List (List α)} {k : Nat} {x : α} {rest : List α}
    (next : ls[k]? = some (x :: rest)) : ls.flatten.Perm (x :: (ls.set k rest).flatten) := by
  induction ls generalizing k with
  | nil => simp at next
  | cons l ls ih =>
    cases k with
    | zero =>
      simp only [List.getElem?_cons_zero, Option.some.injEq] at next
      subst next
      simp
    | succ k =>
      simp only [List.getElem?_cons_succ] at next
      simp only [List.flatten_cons, List.set_cons_succ]
      exact ((ih next).append_left l).trans List.perm_middle

theorem Interleaving.perm {ls : List (List α)} {out : List α} (merged : Interleaving ls out) :
    out.Perm ls.flatten := by
  induction merged with
  | done drained => simp [List.flatten_eq_nil_iff.mpr drained]
  | step next later ih => exact (ih.cons _).trans (flatten_perm_of_getElem? next).symm

-- A drained producer in front changes nothing: every step moves one place on.
theorem Interleaving.cons_nil {ls : List (List α)} {out : List α} (merged : Interleaving ls out) :
    Interleaving ([] :: ls) out := by
  induction merged with
  | done drained =>
    refine .done fun l member => ?_
    rcases List.mem_cons.mp member with rfl | inside
    · rfl
    · exact drained l inside
  | @step ls k x rest out next later ih =>
    exact .step (k := k + 1) (by simpa using next) (by simpa using ih)

theorem Interleaving.append_left (l : List α) {ls : List (List α)} {out : List α}
    (merged : Interleaving ls out) : Interleaving (l :: ls) (l ++ out) := by
  induction l with
  | nil => exact merged.cons_nil
  | cons x l ih => exact .step (k := 0) rfl (by simpa using ih)

-- The producers one after another.
theorem Interleaving.flatten (ls : List (List α)) : Interleaving ls ls.flatten := by
  induction ls with
  | nil => exact .done (by simp)
  | cons l ls ih => exact ih.append_left l

end Interleave
