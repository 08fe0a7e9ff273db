import Gubernator.Library.Run

/-!
A one-shot ticker and a loop that batches on it. The ticker has a one-slot
request channel `in` and a goroutine that takes a request, sleeps, and sends a
tick on a one-slot channel `C`, waiting while `C` is full; `next` asks for a
tick without blocking and is dropped when `in` is full. The loop adds each
arrival to its collection, sends the collection once it is full, asks for a
tick when the collection has just become one item, and on a tick sends what it
holds. A tick is pending while `in` is full, the goroutine sleeps or sends, or
`C` holds one. Every step keeps one pending while the collection holds
anything, so the goroutine alone brings the tick that sends it.
-/

namespace OneShot

/-- Where the ticker's goroutine is: waiting on `in`, asleep, or sending on `C`. -/
inductive Phase where
  | idle
  | sleeping
  | sending
  deriving DecidableEq, Repr

structure Ticker where
  inFull : Bool
  phase : Phase
  cFull : Bool
  deriving DecidableEq, Repr

namespace Ticker

def start : Ticker := ⟨false, .idle, false⟩

/-- `Next`: a send on `in` that is dropped when `in` is full. -/
def next (t : Ticker) : Ticker := if t.inFull then t else { t with inFull := true }

inductive Move where
  | take
  | wake
  | deliver
  deriving DecidableEq, Repr

/-- The goroutine's moves: take a request from `in`, wake from the sleep, and
complete the send on `C`, which waits while `C` is full. -/
def move (t : Ticker) : Move → Option Ticker
  | .take =>
    if t.phase = .idle ∧ t.inFull = true then some { t with inFull := false, phase := .sleeping } else none
  | .wake => if t.phase = .sleeping then some { t with phase := .sending } else none
  | .deliver =>
    if t.phase = .sending ∧ t.cFull = false then some { t with phase := .idle, cFull := true } else none

def receive (t : Ticker) : Option Ticker := if t.cFull then some { t with cFull := false } else none

def Pending (t : Ticker) : Prop := t.inFull = true ∨ t.phase ≠ .idle ∨ t.cFull = true

instance (t : Ticker) : Decidable t.Pending := inferInstanceAs (Decidable (_ ∨ _ ∨ _))

theorem next_pending (t : Ticker) : t.next.Pending := by
  unfold next
  split
  · exact .inl ‹_›
  · exact .inl rfl

-- Each move leaves the goroutine asleep or sending, or `C` full.
theorem move_pending {t t' : Ticker} {m : Move} (moved : t.move m = some t') : t'.Pending := by
  cases m with
  | take =>
    simp only [move] at moved
    split at moved
    · cases moved
      exact .inr (.inl (by simp))
    · cases moved
  | wake =>
    simp only [move] at moved
    split at moved
    · cases moved
      exact .inr (.inl (by simp))
    · cases moved
  | deliver =>
    simp only [move] at moved
    split at moved
    · cases moved
      exact .inr (.inr rfl)
    · cases moved

theorem pending_fires {t : Ticker} (pending : t.Pending) :
    ∃ ms t', Run.runSome move t ms = some t' ∧ t'.cFull = true := by
  obtain ⟨inFull, phase, cFull⟩ := t
  cases cFull with
  | true => exact ⟨[], _, rfl, rfl⟩
  | false =>
    cases phase with
    | idle =>
      -- Nothing is asleep or in `C`, so the request waits in `in`.
      have waiting : inFull = true := by simpa [Pending] using pending
      subst waiting
      exact ⟨[.take, .wake, .deliver], _, rfl, rfl⟩
    | sleeping => exact ⟨[.wake, .deliver], _, rfl, rfl⟩
    | sending => exact ⟨[.deliver], _, rfl, rfl⟩

end Ticker

/-- A loop batching arrivals of `I` into a collection `C`: its size, the empty
collection, how an arrival is added, and when the collection is full. -/
structure Loop (C I : Type) where
  size : C → Nat
  empty : C
  add : C → I → C
  full : C → Bool

namespace Loop

variable {C I : Type} (L : Loop C I)

def arrive (c : C) (i : I) : Option C × C :=
  if L.full (L.add c i) then (some (L.add c i), L.empty) else (none, L.add c i)

def flush (c : C) : Option C × C := if L.size c ≠ 0 then (some c, L.empty) else (none, c)

structure State (C : Type) where
  pending : C
  ticker : Ticker

inductive Event (I : Type) where
  | arrive (i : I)
  | move (m : Ticker.Move)
  | tick

def step (s : State C) : Event I → Option (Option C × State C)
  | .arrive i =>
    -- A batch sent for its size skips `Next`; the first item kept asks for a tick.
    some ((L.arrive s.pending i).1, ⟨(L.arrive s.pending i).2,
      if (L.arrive s.pending i).1.isNone ∧ L.size (L.arrive s.pending i).2 = 1 then s.ticker.next
      else s.ticker⟩)
  | .move m => (s.ticker.move m).map fun t => (none, ⟨s.pending, t⟩)
  | .tick => s.ticker.receive.map fun t => ((L.flush s.pending).1, ⟨(L.flush s.pending).2, t⟩)

/-- The states a loop reaches from an empty collection and an idle ticker, in
any interleaving of arrivals, moves and ticks. -/
inductive Reachable : State C → Prop
  | start : Reachable ⟨L.empty, Ticker.start⟩
  | step {s s' : State C} {e : Event I} {sent : Option C} :
      Reachable s → L.step s e = some (sent, s') → Reachable s'

/-- What the invariant asks of a collection: the empty one has size zero, and an
arrival adds at most one to the size. -/
structure Lawful : Prop where
  size_empty : L.size L.empty = 0
  size_add : ∀ c i, L.size (L.add c i) ≤ L.size c + 1

/-- While the loop holds anything, a tick is pending. -/
def Covered (s : State C) : Prop := L.size s.pending ≠ 0 → s.ticker.Pending

/-- Nothing is stranded: in every reachable state that holds items a tick is
pending, and the goroutine's moves alone, with no further arrival, bring the
tick on which the loop sends everything it holds. -/
def NeverStranded : Prop :=
  ∀ s, L.Reachable s → L.size s.pending ≠ 0 →
    s.ticker.Pending ∧ ∃ ms t, Run.runSome Ticker.move s.ticker ms = some t ∧
      L.Reachable ⟨s.pending, t⟩ ∧
      L.step ⟨s.pending, t⟩ .tick = some (some s.pending, ⟨L.empty, { t with cFull := false }⟩)

variable {L}

theorem flush_size (lawful : L.Lawful) (c : C) : L.size (L.flush c).2 = 0 := by
  unfold flush
  split
  · exact lawful.size_empty
  · rename_i empty
    exact not_not.mp empty

theorem step_covered (lawful : L.Lawful) {s s' : State C} {e : Event I} {sent : Option C}
    (covered : L.Covered s) (stepped : L.step s e = some (sent, s')) : L.Covered s' := by
  cases e with
  | arrive i =>
    cases stepped
    intro holding
    by_cases full : L.full (L.add s.pending i)
    · simp only [arrive, full, if_true] at holding
      exact absurd lawful.size_empty holding
    · simp only [arrive, full, Bool.false_eq_true, if_false, Option.isNone_none, true_and] at holding ⊢
      split
      · exact s.ticker.next_pending
      · -- The collection held an item before this one, so a tick was pending already.
        have grown := lawful.size_add s.pending i
        exact covered (by omega)
  | move m =>
    obtain ⟨t, moved, same⟩ := Option.map_eq_some_iff.mp stepped
    cases same
    exact fun _ => Ticker.move_pending moved
  | tick =>
    obtain ⟨t, -, same⟩ := Option.map_eq_some_iff.mp stepped
    cases same
    exact fun holding => absurd (flush_size lawful s.pending) holding

theorem Reachable.covered (lawful : L.Lawful) {s : State C} (reached : L.Reachable s) : L.Covered s := by
  induction reached with
  | start => exact fun holding => absurd lawful.size_empty holding
  | step _ stepped covered => exact step_covered lawful covered stepped

theorem Reachable.moves {s : State C} (reached : L.Reachable s) {ms : List Ticker.Move} {t : Ticker}
    (ran : Run.runSome Ticker.move s.ticker ms = some t) : L.Reachable ⟨s.pending, t⟩ := by
  induction ms generalizing s with
  | nil =>
    cases ran
    exact reached
  | cons m ms ih =>
    simp only [Run.runSome, Option.bind_eq_some_iff] at ran
    obtain ⟨u, moved, rest⟩ := ran
    -- Inside this namespace a bare step would name the constructor.
    have stepped : L.step s (.move m) = some (none, ⟨s.pending, u⟩) := by simp [Loop.step, moved]
    exact ih (s := ⟨s.pending, u⟩) (.step reached stepped) rest

theorem neverStranded (lawful : L.Lawful) : L.NeverStranded := by
  intro s reached holding
  have pending := reached.covered lawful holding
  obtain ⟨ms, t, ran, fired⟩ := Ticker.pending_fires pending
  refine ⟨pending, ms, t, ran, reached.moves ran, ?_⟩
  simp [step, Ticker.receive, fired, flush, holding]

end Loop

end OneShot
