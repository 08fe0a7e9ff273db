import Mathlib.Logic.Basic

/-!
Runs of a machine that answers each input it is given: the answers in order and
the state it ends in. A ledger folds a quantity over the inputs together with
their answers (what a run let through, say), so a bound on it is an invariant of
the state and the ledger together, kept by one step and therefore by every run.
-/

namespace Run

variable {S I O A : Type}

/-- The answers to the inputs, in order, and the final state. -/
def run (step : S → I → O × S) : S → List I → List O × S
  | s, [] => ([], s)
  | s, i :: is =>
    let (o, s') := step s i
    let (os, t) := run step s' is
    (o :: os, t)

/-- The fold of `f` over each input and its answer. -/
def ledger (f : A → I → O → A) : A → List I → List O → A
  | a, i :: is, o :: os => ledger f (f a i o) is os
  | a, _, _ => a

variable {step : S → I → O × S}

@[simp] theorem run_nil (s : S) : run step s [] = ([], s) := rfl

@[simp] theorem run_cons (s : S) (i : I) (is : List I) :
    run step s (i :: is) =
      ((step s i).1 :: (run step (step s i).2 is).1, (run step (step s i).2 is).2) := rfl

theorem run_append (s : S) (xs ys : List I) :
    run step s (xs ++ ys) =
      ((run step s xs).1 ++ (run step (run step s xs).2 ys).1, (run step (run step s xs).2 ys).2) := by
  induction xs generalizing s with
  | nil => rfl
  | cons i xs ih => simp [ih]

@[simp] theorem ledger_cons (f : A → I → O → A) (a : A) (i : I) (is : List I) (o : O) (os : List O) :
    ledger f a (i :: is) (o :: os) = ledger f (f a i o) is os := rfl

section Invariant

variable (Inv : S → A → Prop) (f : A → I → O → A) (P : I → Prop)

/-- The invariant rule: what holds of a state and its ledger, and one step keeps
on every admissible input, holds after every run of admissible inputs. -/
theorem ledger_run (keeps : ∀ s a i, P i → Inv s a → Inv (step s i).2 (f a i (step s i).1))
    (is : List I) (s : S) (a : A) (admissible : ∀ i ∈ is, P i) (start : Inv s a) :
    Inv (run step s is).2 (ledger f a is (run step s is).1) := by
  induction is generalizing s a with
  | nil => exact start
  | cons i is ih =>
    have first := keeps s a i (admissible i List.mem_cons_self) start
    simpa using ih _ _ (fun j member => admissible j (List.mem_cons_of_mem i member)) first

end Invariant

/-- Forward simulation: a machine whose every step, from a state where `Inv`
holds, answers as the abstract machine does from the state's image and lands on
the image of the abstract step, answers every run as the abstract machine does. -/
theorem run_simulates {T : Type} (abs : S → T) (astep : T → I → O × T) (Inv : S → Prop)
    (sim : ∀ s i, Inv s → (step s i).1 = (astep (abs s) i).1 ∧
      abs (step s i).2 = (astep (abs s) i).2 ∧ Inv (step s i).2)
    (is : List I) (s : S) (start : Inv s) :
    (run step s is).1 = (run astep (abs s) is).1 ∧
      abs (run step s is).2 = (run astep (abs s) is).2 ∧ Inv (run step s is).2 := by
  induction is generalizing s with
  | nil => exact ⟨rfl, rfl, start⟩
  | cons i is ih =>
    obtain ⟨answer, image, holds⟩ := sim s i start
    obtain ⟨answers, final, kept⟩ := ih _ holds
    simp only [run_cons, answer, answers, ← image, final]
    exact ⟨trivial, trivial, kept⟩

/-- Bisimulation: two related states that every admissible step answers alike and
keeps related answer every run of admissible inputs alike. -/
theorem run_congr (R : S → S → Prop) (P : I → Prop)
    (keeps : ∀ s t i, P i → R s t → (step s i).1 = (step t i).1 ∧ R (step s i).2 (step t i).2)
    (is : List I) (s t : S) (admissible : ∀ i ∈ is, P i) (start : R s t) :
    (run step s is).1 = (run step t is).1 ∧ R (run step s is).2 (run step t is).2 := by
  induction is generalizing s t with
  | nil => exact ⟨rfl, start⟩
  | cons i is ih =>
    obtain ⟨answer, related⟩ := keeps s t i (admissible i List.mem_cons_self) start
    obtain ⟨answers, final⟩ := ih _ _ (fun j member => admissible j (List.mem_cons_of_mem i member)) related
    simp only [run_cons, answer, answers]
    exact ⟨trivial, final⟩

theorem length_run (s : S) (is : List I) : (run step s is).1.length = is.length := by
  induction is generalizing s with
  | nil => rfl
  | cons i is ih => simp [ih]

theorem drop_run_append (s : S) (xs ys : List I) :
    (run step s (xs ++ ys)).1.drop xs.length = (run step (run step s xs).2 ys).1 := by
  rw [run_append, ← length_run s xs, List.drop_left]

theorem invariant_run (Inv : S → Prop) (P : I → Prop)
    (keeps : ∀ s i, P i → Inv s → Inv (step s i).2) (is : List I) (s : S)
    (admissible : ∀ i ∈ is, P i) (start : Inv s) : Inv (run step s is).2 :=
  ledger_run (fun s (_ : Unit) => Inv s) (fun a _ _ => a) P (fun s _ i admits holds => keeps s i admits holds)
    is s () admissible start

section Refusing

variable (next : S → I → Option S)

/-- A run of a machine that may refuse an input: `none` once it refuses one. -/
def runSome : S → List I → Option S
  | s, [] => some s
  | s, i :: is => (next s i).bind fun t => runSome t is

theorem runSome_append (s : S) (xs ys : List I) :
    runSome next s (xs ++ ys) = (runSome next s xs).bind fun t => runSome next t ys := by
  induction xs generalizing s with
  | nil => rfl
  | cons i xs ih =>
    simp only [List.cons_append, runSome]
    cases next s i with
    | none => rfl
    | some t => exact ih t

/-- The invariant rule for a machine that may refuse: what every accepted step
on an admissible input keeps holds after every accepted run of admissible inputs. -/
theorem invariant_runSome_on (Inv : S → Prop) (P : I → Prop)
    (keeps : ∀ s i t, P i → Inv s → next s i = some t → Inv t)
    (is : List I) (s t : S) (admissible : ∀ i ∈ is, P i) (start : Inv s)
    (ran : runSome next s is = some t) : Inv t := by
  induction is generalizing s with
  | nil =>
    cases ran
    exact start
  | cons i is ih =>
    simp only [runSome, Option.bind_eq_some_iff] at ran
    obtain ⟨u, stepped, rest⟩ := ran
    exact ih u (fun j member => admissible j (List.mem_cons_of_mem i member))
      (keeps s i u (admissible i List.mem_cons_self) start stepped) rest

theorem invariant_runSome (Inv : S → Prop) (keeps : ∀ s i t, Inv s → next s i = some t → Inv t)
    (is : List I) (s t : S) (start : Inv s) (ran : runSome next s is = some t) : Inv t :=
  invariant_runSome_on next Inv (fun _ => True) (fun s i t _ => keeps s i t) is s t (fun _ _ => trivial) start ran

end Refusing

section Folding

variable (f : S → I → S)

theorem invariant_foldl (Inv : List I → S → Prop)
    (keeps : ∀ done s i, Inv done s → Inv (done ++ [i]) (f s i))
    (is : List I) (done : List I) (s : S) (start : Inv done s) :
    Inv (done ++ is) (is.foldl f s) := by
  induction is generalizing done s with
  | nil => simpa using start
  | cons i is ih => simpa using ih (done ++ [i]) (f s i) (keeps done s i start)

end Folding

section Failing

variable {ε : Type} (f : S → I → Except ε S)

theorem invariant_foldlM (Inv : List I → S → Prop)
    (keeps : ∀ done s i t, Inv done s → f s i = .ok t → Inv (done ++ [i]) t)
    (is : List I) (done : List I) (s t : S) (start : Inv done s) (ran : is.foldlM f s = .ok t) :
    Inv (done ++ is) t := by
  induction is generalizing done s with
  | nil =>
    injection ran with same
    simpa [← same] using start
  | cons i is ih =>
    rw [List.foldlM_cons] at ran
    cases stepped : f s i with
    | error e =>
      rw [stepped] at ran
      cases ran
    | ok u =>
      rw [stepped] at ran
      simpa using ih (done ++ [i]) u (keeps done s i u start stepped) ran

theorem map_eq_ok {α β : Type} {g : α → β} {x : Except ε α} {y : β} (mapped : x.map g = .ok y) :
    ∃ a, x = .ok a ∧ g a = y := by
  cases x with
  | error e => cases mapped
  | ok a => exact ⟨a, rfl, Except.ok.inj mapped⟩

end Failing

end Run
