import Gubernator.Instance
import Gubernator.Library.Run
import Gubernator.Library.Slots

/-!
One `GetRateLimits` call of gubernator.go as the concurrent system it runs
as: the loop over the requests, the `asyncRequest` goroutines that forward to
owners, each `PeerClient`'s `runBatch` queue with its flushes on `BatchLimit`
and on ticks or close, the batches `sendBatch` sends, the owner's
`GetPeerRateLimits` fan-out that fills `RateLimits` by index, and the reply
channels. Every event may happen in any order the goroutines allow, and other
callers' requests share the peers' queues. What an owner or the instance
computes is left free: each event that computes an answer takes it as a
parameter and records it, with the request it was computed from, in a ghost
log. The ghost field `origin` of a queued request is the index of the call's
request it carries; nothing but the log reads it.

Left out: retries after `attempts > 5` (a retry is always allowed), trace
metadata, and the context's own errors, which are errors like any other here.
-/

namespace Gubernator

/-- An answer computed from a request; `origin` is the ghost index of the
call's request, `none` for another caller's. -/
structure Computation where
  origin : Option Nat
  request : RateLimitReq
  answer : RateLimitResp
  deriving DecidableEq

/-- An `AsyncReq`: `Idx`, the owner's address, whether the request goes through
the peer's batch queue, and the request. -/
structure AsyncReq where
  idx : Nat
  peer : String
  batching : Bool
  request : RateLimitReq
  deriving DecidableEq

/-- A `request` of peer_client.go in a peer's queue: the peer, its reply
channel `resp`, the ghost origin and the request. -/
structure Queued where
  peer : String
  channel : Nat
  origin : Option Nat
  request : RateLimitReq
  deriving DecidableEq

/-- A batch `sendBatch` has sent: its queue, and the owner's `RateLimits`
filled by index as its fan-out goroutines finish. -/
structure Batch where
  queue : List Queued
  rateLimits : List (Option RateLimitResp)
  deriving DecidableEq

/-- The state of the call and of the peers it forwards to. `responses` is
`resp.Responses`; `ready` are the goroutines about to call the owner, and
`waiting` those blocked on a reply channel; `replies` are the messages in the
reply channels, keyed by channel; `fresh` numbers the next reply channel. -/
structure Fanout where
  next : Nat
  responses : List (Option RateLimitResp)
  ready : List AsyncReq
  waiting : List (AsyncReq × Nat)
  queue : List Queued
  inFlight : List Batch
  replies : List (Nat × Except String RateLimitResp)
  asyncCh : List (Nat × RateLimitResp)
  fresh : Nat
  returned : Bool
  log : List Computation

/-- How the loop handles a request that passed its checks: answered at the
instance (as owner, under GLOBAL, or with the error of `GetPeer`), or forwarded
to an owner. -/
inductive Route where
  | answer (a : RateLimitResp)
  | forward (peer : String) (batching : Bool)

/-- What can happen next. `retry` names the owner `GetPeer` picks again, or is
`none` when the goroutine answers its error. -/
inductive FanoutEvent where
  | visit (route : Route)
  | foreign (peer : String) (request : RateLimitReq)
  | send (j : Nat)
  | refuse (j : Nat) (e : String)
  | tick (peer : String)
  | compute (b k : Nat) (a : RateLimitResp)
  | fail (b : Nat) (e : String)
  | reply (b : Nat)
  | receive (w : Nat) (retry : Option String)
  | timeout (w : Nat) (retry : Option String) (e : String)
  | finish

def RateLimitResp.ownedBy (a : RateLimitResp) (peer : String) : RateLimitResp :=
  { a with metadata := [("owner", peer)] }

namespace Fanout

def start (n : Nat) : Fanout := ⟨0, List.replicate n none, [], [], [], [], [], [], 0, false, []⟩

/-- `runBatch` sending the queue of `peer` as one batch when it holds any. -/
def flush (s : Fanout) (peer : String) : Fanout :=
  if (s.queue.filter (·.peer = peer)).isEmpty then s
  else
    { s with queue := s.queue.filter (·.peer ≠ peer),
             inFlight := s.inFlight ++
               [⟨s.queue.filter (·.peer = peer), (s.queue.filter (·.peer = peer)).map fun _ => none⟩] }

/-- A request reaching `runBatch`: appended, and the queue sent once it holds
`batchLimit` requests. -/
def enqueue (batchLimit : Nat) (s : Fanout) (q : Queued) : Fanout :=
  if batchLimit ≤ ((s.queue ++ [q]).filter (·.peer = q.peer)).length then
    { s with queue := s.queue ++ [q] }.flush q.peer
  else { s with queue := s.queue ++ [q] }

/-- A goroutine that gave up on its reply: it asks again, or answers its error. -/
def abandon (s : Fanout) (f : AsyncReq) (retry : Option String) (e : String) : Fanout :=
  match retry with
  | some peer => { s with ready := s.ready ++ [{ f with peer := peer }] }
  | none =>
    { s with asyncCh := s.asyncCh ++ [(f.idx, { error := e })],
             log := s.log ++ [⟨some f.idx, f.request, { error := e }⟩] }

/-! Cutting and growing the queues touch nothing else. -/

@[simp] theorem flush_next (s : Fanout) (peer : String) : (s.flush peer).next = s.next := by
  unfold flush; split <;> rfl
@[simp] theorem flush_responses (s : Fanout) (peer : String) : (s.flush peer).responses = s.responses := by
  unfold flush; split <;> rfl
@[simp] theorem flush_ready (s : Fanout) (peer : String) : (s.flush peer).ready = s.ready := by
  unfold flush; split <;> rfl
@[simp] theorem flush_waiting (s : Fanout) (peer : String) : (s.flush peer).waiting = s.waiting := by
  unfold flush; split <;> rfl
@[simp] theorem flush_asyncCh (s : Fanout) (peer : String) : (s.flush peer).asyncCh = s.asyncCh := by
  unfold flush; split <;> rfl
@[simp] theorem flush_returned (s : Fanout) (peer : String) : (s.flush peer).returned = s.returned := by
  unfold flush; split <;> rfl

@[simp] theorem enqueue_next (batchLimit : Nat) (s : Fanout) (q : Queued) :
    (s.enqueue batchLimit q).next = s.next := by
  unfold enqueue; split <;> simp
@[simp] theorem enqueue_responses (batchLimit : Nat) (s : Fanout) (q : Queued) :
    (s.enqueue batchLimit q).responses = s.responses := by
  unfold enqueue; split <;> simp
@[simp] theorem enqueue_ready (batchLimit : Nat) (s : Fanout) (q : Queued) :
    (s.enqueue batchLimit q).ready = s.ready := by
  unfold enqueue; split <;> simp
@[simp] theorem enqueue_waiting (batchLimit : Nat) (s : Fanout) (q : Queued) :
    (s.enqueue batchLimit q).waiting = s.waiting := by
  unfold enqueue; split <;> simp
@[simp] theorem enqueue_asyncCh (batchLimit : Nat) (s : Fanout) (q : Queued) :
    (s.enqueue batchLimit q).asyncCh = s.asyncCh := by
  unfold enqueue; split <;> simp
@[simp] theorem enqueue_returned (batchLimit : Nat) (s : Fanout) (q : Queued) :
    (s.enqueue batchLimit q).returned = s.returned := by
  unfold enqueue; split <;> simp

/-! A goroutine that gives up leaves everything but `ready`, `asyncCh` and the
log as it was, and runs again or answers its error. -/

@[simp] theorem abandon_next (s : Fanout) (f : AsyncReq) (retry : Option String) (e : String) :
    (s.abandon f retry e).next = s.next := by
  cases retry <;> rfl

@[simp] theorem abandon_responses (s : Fanout) (f : AsyncReq) (retry : Option String) (e : String) :
    (s.abandon f retry e).responses = s.responses := by
  cases retry <;> rfl

@[simp] theorem abandon_returned (s : Fanout) (f : AsyncReq) (retry : Option String) (e : String) :
    (s.abandon f retry e).returned = s.returned := by
  cases retry <;> rfl

@[simp] theorem abandon_waiting (s : Fanout) (f : AsyncReq) (retry : Option String) (e : String) :
    (s.abandon f retry e).waiting = s.waiting := by
  cases retry <;> rfl

theorem abandon_ready_sub (s : Fanout) (f : AsyncReq) (retry : Option String) (e : String) :
    s.ready ⊆ (s.abandon f retry e).ready := by
  cases retry with
  | some peer => exact List.subset_append_left _ _
  | none => exact List.Subset.refl _

theorem abandon_asyncCh_sub (s : Fanout) (f : AsyncReq) (retry : Option String) (e : String) :
    s.asyncCh ⊆ (s.abandon f retry e).asyncCh := by
  cases retry with
  | some peer => exact List.Subset.refl _
  | none => exact List.subset_append_left _ _

theorem abandon_moves (s : Fanout) (f : AsyncReq) (retry : Option String) (e : String) :
    f.idx ∈ (s.abandon f retry e).ready.map (·.idx) ∨ f.idx ∈ (s.abandon f retry e).asyncCh.map (·.1) := by
  cases retry with
  | some peer => exact Or.inl (List.mem_map.mpr ⟨{ f with peer := peer }, by simp [abandon], rfl⟩)
  | none => exact Or.inr (List.mem_map.mpr ⟨(f.idx, { error := e }), by simp [abandon], rfl⟩)

section Step

variable (reqs : List RateLimitReq) (createdAt : Int64) (forceGlobal : Bool) (batchLimit : Nat)

def visit (s : Fanout) (route : Route) : Option Fanout :=
  match reqs[s.next]? with
  | none => none
  | some req =>
    match prepareRequest createdAt forceGlobal req, route with
    | .error e, _ =>
      some { s with next := s.next + 1, responses := s.responses.set s.next (some { error := e }),
                    log := s.log ++ [⟨some s.next, req, { error := e }⟩] }
    | .ok r, .answer a =>
      some { s with next := s.next + 1, responses := s.responses.set s.next (some a),
                    log := s.log ++ [⟨some s.next, r, a⟩] }
    | .ok r, .forward peer batching =>
      some { s with next := s.next + 1, ready := s.ready ++ [⟨s.next, peer, batching, r⟩] }

/-- `GetPeerRateLimit` from ready goroutine `j`: into the peer's queue with a
fresh reply channel, or, without batching, as a batch of its own. -/
def send (s : Fanout) (j : Nat) : Option Fanout :=
  s.ready[j]?.map fun f =>
    let q : Queued := ⟨f.peer, s.fresh, some f.idx, f.request⟩
    let s := { s with ready := s.ready.eraseIdx j, waiting := s.waiting ++ [(f, s.fresh)],
                      fresh := s.fresh + 1 }
    if f.batching then s.enqueue batchLimit q
    else { s with inFlight := s.inFlight ++ [⟨[q], [none]⟩] }

/-- The owner's fan-out goroutine `k` of batch `b` answering its request:
`RateLimits[k]` is set. -/
def compute (s : Fanout) (b k : Nat) (a : RateLimitResp) : Option Fanout :=
  match s.inFlight[b]? with
  | none => none
  | some batch =>
    match batch.queue[k]?, batch.rateLimits[k]? with
    | some q, some none =>
      some { s with inFlight := s.inFlight.set b { batch with rateLimits := batch.rateLimits.set k (some a) },
                    log := s.log ++ [⟨q.origin, q.request, a⟩] }
    | _, _ => none

/-- `sendBatch` once the owner answered: each answer to the reply channel at
its position, or an error to all when the counts differ. -/
def reply (s : Fanout) (b : Nat) : Option Fanout :=
  match s.inFlight[b]? with
  | none => none
  | some batch =>
    (batch.rateLimits.mapM id).map fun answers =>
      { s with inFlight := s.inFlight.eraseIdx b,
               replies := s.replies ++
                 if answers.length = batch.queue.length then
                   (batch.queue.zip answers).map fun (q, a) => (q.channel, .ok a)
                 else batch.queue.map fun q =>
                   (q.channel, .error "server responded with incorrect rate limit list size") }

def receive (s : Fanout) (w : Nat) (retry : Option String) : Option Fanout :=
  match s.waiting[w]? with
  | none => none
  | some (f, ch) =>
    (s.replies.find? (·.1 = ch)).map fun m =>
      let s := { s with waiting := s.waiting.eraseIdx w, replies := s.replies.erase m }
      match m.2 with
      | .ok a => { s with asyncCh := s.asyncCh ++ [(f.idx, a.ownedBy f.peer)] }
      | .error e => s.abandon f retry e

/-- `wg.Wait()` returning: the answers of `asyncCh` written at their indices. -/
def finish (s : Fanout) : Option Fanout :=
  if s.next = reqs.length ∧ s.ready = [] ∧ s.waiting = [] then
    some { s with responses := Slots.writeAll s.asyncCh s.responses, returned := true }
  else none

/-- One event; `none` when it cannot happen. Nothing happens after the call
returned. -/
def step (s : Fanout) (e : FanoutEvent) : Option Fanout :=
  if s.returned then none
  else match e with
    | .visit route => visit reqs createdAt forceGlobal s route
    | .foreign peer request =>
      some ({ s with fresh := s.fresh + 1 }.enqueue batchLimit ⟨peer, s.fresh, none, request⟩)
    | .send j => send batchLimit s j
    | .refuse j e =>
      s.ready[j]?.map fun f =>
        { s with ready := s.ready.eraseIdx j }.abandon f none e
    | .tick peer => some (s.flush peer)
    | .compute b k a => compute s b k a
    | .fail b e =>
      s.inFlight[b]?.map fun batch =>
        { s with inFlight := s.inFlight.eraseIdx b,
                 replies := s.replies ++ batch.queue.map fun q => (q.channel, .error e) }
    | .reply b => reply s b
    | .receive w retry => receive s w retry
    | .timeout w retry e =>
      s.waiting[w]?.map fun (f, _) => { s with waiting := s.waiting.eraseIdx w }.abandon f retry e
    | .finish => finish reqs s

end Step

/-! What the owner, `sendBatch`, a waiting goroutine and `wg.Wait()` can do,
stated once, so that the invariants never unfold the events. -/

variable {reqs : List RateLimitReq} {s t : Fanout}

theorem compute_cases {b k : Nat} {a : RateLimitResp} (stepped : compute s b k a = some t) :
    ∃ batch q, s.inFlight[b]? = some batch ∧ batch.queue[k]? = some q ∧
      batch.rateLimits[k]? = some none ∧
      t = { s with inFlight := s.inFlight.set b { batch with rateLimits := batch.rateLimits.set k (some a) },
                   log := s.log ++ [⟨q.origin, q.request, a⟩] } := by
  unfold compute at stepped
  cases atB : s.inFlight[b]? with
  | none => simp [atB] at stepped
  | some batch =>
    simp only [atB] at stepped
    split at stepped
    · rename_i q queuedAt emptyAt
      cases stepped
      exact ⟨batch, q, rfl, queuedAt, emptyAt, rfl⟩
    · cases stepped

theorem reply_cases {b : Nat} (stepped : reply s b = some t) :
    ∃ batch answers, s.inFlight[b]? = some batch ∧ batch.rateLimits.mapM id = some answers ∧
      t = { s with inFlight := s.inFlight.eraseIdx b,
                   replies := s.replies ++
                     if answers.length = batch.queue.length then
                       (batch.queue.zip answers).map fun (q, a) => (q.channel, .ok a)
                     else batch.queue.map fun q =>
                       (q.channel, .error "server responded with incorrect rate limit list size") } := by
  unfold reply at stepped
  cases atB : s.inFlight[b]? with
  | none => simp [atB] at stepped
  | some batch =>
    simp only [atB] at stepped
    obtain ⟨answers, filled, rfl⟩ := Option.map_eq_some_iff.mp stepped
    exact ⟨batch, answers, rfl, filled, rfl⟩

-- The goroutine takes the first message on its channel; an error makes it give up.
theorem receive_cases {w : Nat} {retry : Option String} (stepped : receive s w retry = some t) :
    ∃ f ch m, s.waiting[w]? = some (f, ch) ∧ m ∈ s.replies ∧ m.1 = ch ∧
      ((∃ a, m.2 = .ok a ∧
          t = { s with waiting := s.waiting.eraseIdx w, replies := s.replies.erase m,
                       asyncCh := s.asyncCh ++ [(f.idx, a.ownedBy f.peer)] }) ∨
        ∃ e, m.2 = .error e ∧
          t = { s with waiting := s.waiting.eraseIdx w, replies := s.replies.erase m }.abandon f retry e) := by
  unfold receive at stepped
  cases atW : s.waiting[w]? with
  | none => simp [atW] at stepped
  | some entry =>
    obtain ⟨f, ch⟩ := entry
    simp only [atW] at stepped
    obtain ⟨m, found, rfl⟩ := Option.map_eq_some_iff.mp stepped
    have onChannel : m.1 = ch := by simpa using List.find?_some found
    refine ⟨f, ch, m, rfl, List.mem_of_find?_eq_some found, onChannel, ?_⟩
    split
    · rename_i a ok
      exact Or.inl ⟨a, ok, rfl⟩
    · rename_i e failed
      exact Or.inr ⟨e, failed, rfl⟩

theorem finish_cases (stepped : finish reqs s = some t) :
    s.next = reqs.length ∧ s.ready = [] ∧ s.waiting = [] ∧
      t = { s with responses := Slots.writeAll s.asyncCh s.responses, returned := true } := by
  unfold finish at stepped
  split at stepped
  · rename_i done
    cases stepped
    exact ⟨done.1, done.2.1, done.2.2, rfl⟩
  · cases stepped

end Fanout

end Gubernator
