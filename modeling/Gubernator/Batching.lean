import Gubernator.Global
import Gubernator.Forwarding
import Gubernator.Library.OneShot

/-!
The loops that batch on a one-shot `Interval`: `runAsyncHits` and
`runBroadcasts` of global.go, and the `runBatch` of each `PeerClient`. Each adds
what it receives to its collection (the hits map, the updates map, the request
queue), sends the collection once it is full, calls `Next` when the collection
has just become one entry, and on a tick from `C` sends what it holds. They
differ in the collection, in how an arrival is added and in the limit test:
`runAsyncHits` sends at exactly GlobalBatchLimit keys, `runBroadcasts` at
GlobalBatchLimit keys or more, `runBatch` at BatchLimit requests or more. The
ends of the loops (`done`, and the closed queue of `runBatch`, which sends what
remains) stop them and are left out, as are the sends themselves.
-/

namespace Gubernator

open OneShot

theorem length_insert_le (m : HitsMap) (k : String) (r : RateLimitReq) :
    (m.insert k r).entries.length ≤ m.entries.length + 1 := by
  rw [AList.entries_insert, List.length_cons]
  have kept := (List.kerase_sublist k m.entries).length_le
  omega

theorem length_aggregateHit_le (m : HitsMap) (r : RateLimitReq) :
    (aggregateHit m r).entries.length ≤ m.entries.length + 1 := by
  unfold aggregateHit
  dsimp only
  split <;> exact length_insert_le _ _ _

/-- `runAsyncHits`: the hits map, aggregated by HashKey, sent at exactly
GlobalBatchLimit keys. -/
def asyncHitsLoop (globalBatchLimit : Int) : Loop HitsMap RateLimitReq where
  size m := m.entries.length
  empty := ∅
  add := aggregateHit
  full m := decide ((m.entries.length : Int) = globalBatchLimit)

/-- `runBroadcasts`: the last update of each HashKey, sent at GlobalBatchLimit
keys or more. -/
def broadcastsLoop (globalBatchLimit : Int) : Loop HitsMap RateLimitReq where
  size m := m.entries.length
  empty := ∅
  add updates update := updates.insert update.hashKey update
  full m := decide (globalBatchLimit ≤ m.entries.length)

/-- `runBatch`: the queue in arrival order, sent at BatchLimit requests or more. -/
def batchLoop {α : Type} (batchLimit : Int) : Loop (List α) α where
  size := List.length
  empty := []
  add queue r := queue ++ [r]
  full queue := decide (batchLimit ≤ queue.length)

theorem batchLoop_arrive {α : Type} (batchLimit : Int) (queue : List α) (r : α) :
    (batchLoop batchLimit).arrive queue r =
      if batchLimit ≤ ((queue ++ [r]).length : Int) then (some (queue ++ [r]), []) else (none, queue ++ [r]) := by
  simp [Loop.arrive, batchLoop]

/-! The loops' turns are those the models of global.go and of the forwarding
call already take. -/

theorem asyncHitsLoop_arrive (globalBatchLimit : Int) (hits : HitsMap) (r : RateLimitReq) :
    (asyncHitsLoop globalBatchLimit).arrive hits r = runAsyncHitsStep globalBatchLimit hits (.hit r) := by
  simp [Loop.arrive, asyncHitsLoop, runAsyncHitsStep]

theorem asyncHitsLoop_flush (globalBatchLimit : Int) (hits : HitsMap) :
    (asyncHitsLoop globalBatchLimit).flush hits = runAsyncHitsStep globalBatchLimit hits .tick := rfl

theorem enqueue_peer_queue (batchLimit : Nat) (s : Fanout) (q : Queued) :
    (s.enqueue batchLimit q).queue.filter (·.peer = q.peer) =
        ((batchLoop batchLimit).arrive (s.queue.filter (·.peer = q.peer)) q).2 ∧
      (s.enqueue batchLimit q).inFlight = s.inFlight ++
        (((batchLoop batchLimit).arrive (s.queue.filter (·.peer = q.peer)) q).1.map
          fun b => ⟨b, b.map fun _ => none⟩).toList := by
  have share : (s.queue ++ [q]).filter (·.peer = q.peer) = s.queue.filter (·.peer = q.peer) ++ [q] := by
    simp [List.filter_append]
  unfold Fanout.enqueue
  rw [batchLoop_arrive, share]
  by_cases full : batchLimit ≤ (s.queue.filter (·.peer = q.peer) ++ [q]).length
  · -- The share is sent whole, and nothing of that peer stays queued.
    have held : (s.queue.filter (·.peer = q.peer) ++ [q]).isEmpty = false := by simp
    rw [if_pos full, if_pos (by exact_mod_cast full)]
    simp only [Fanout.flush, share, held, Bool.false_eq_true, if_false]
    refine ⟨?_, rfl⟩
    rw [List.filter_filter]
    simp
  · rw [if_neg full, if_neg (by exact_mod_cast full)]
    exact ⟨share, by simp⟩

theorem asyncHitsLoop_lawful (globalBatchLimit : Int) : (asyncHitsLoop globalBatchLimit).Lawful :=
  ⟨rfl, length_aggregateHit_le⟩

theorem broadcastsLoop_lawful (globalBatchLimit : Int) : (broadcastsLoop globalBatchLimit).Lawful :=
  ⟨rfl, fun m update => length_insert_le m update.hashKey update⟩

theorem batchLoop_lawful {α : Type} (batchLimit : Int) : (batchLoop (α := α) batchLimit).Lawful :=
  ⟨rfl, fun queue r => by simp [batchLoop]⟩

/-- No pending batch is stranded: for any limits, in every state that
`runAsyncHits`, `runBroadcasts` or `runBatch` reaches with its Interval, under
any interleaving of arrivals, `Next` calls, ticks and flushes on the limit, a
loop that holds anything has a tick on its way, and the Interval's goroutine
alone brings the tick on which the loop sends all it holds. -/
theorem no_pending_batch_stranded (globalBatchLimit batchLimit : Int) :
    (asyncHitsLoop globalBatchLimit).NeverStranded ∧ (broadcastsLoop globalBatchLimit).NeverStranded ∧
      (batchLoop (α := Queued) batchLimit).NeverStranded :=
  ⟨Loop.neverStranded (asyncHitsLoop_lawful globalBatchLimit),
    Loop.neverStranded (broadcastsLoop_lawful globalBatchLimit), Loop.neverStranded (batchLoop_lawful batchLimit)⟩

end Gubernator
