import Gubernator.Forwarding

/-!
Each answer of a `GetRateLimits` call goes back to the request it was computed
for. The argument follows the three places where the source pairs answers with
requests again: a reply channel belongs to one waiting goroutine and to the one
queued request that carries that goroutine's request; `sendBatch` replies by
position to the queue whose positions the owner's `RateLimits` keeps; and
`asyncCh` carries the goroutine's own `Idx`. The invariant `Routed` states
these against the ghost log, and every event keeps it.
-/

namespace Gubernator

namespace Fanout

section Routing

variable (reqs : List RateLimitReq) (createdAt : Int64) (forceGlobal : Bool)

/-- The request the call computes for at index `i`: `Requests[i]` as the loop
prepares it, or as it came when it failed its checks. -/
def preparedAt (i : Nat) : Option RateLimitReq :=
  reqs[i]?.map fun req =>
    match prepareRequest createdAt forceGlobal req with
    | .ok r => r
    | .error _ => req

def ComputedFor (log : List Computation) (i : Nat) (a : RateLimitResp) : Prop :=
  ∃ r, preparedAt reqs createdAt forceGlobal i = some r ∧ ⟨some i, r, a⟩ ∈ log

/-- `a'` is `a` as a goroutine hands it back: unchanged, or with the owner's
address attached. -/
def Reports (a' a : RateLimitResp) : Prop := a' = a ∨ ∃ peer, a' = a.ownedBy peer

/-- A queued request against the waiting goroutines: its channel was handed
out, and a goroutine waiting on it is the one whose request it carries. -/
def Addressed (waiting : List (AsyncReq × Nat)) (fresh : Nat) (q : Queued) : Prop :=
  q.channel < fresh ∧ ∀ w ∈ waiting, w.2 = q.channel → q.origin = some w.1.idx ∧ q.request = w.1.request

/-- A reply against the waiting goroutines: an answer on a goroutine's channel
was computed for that goroutine's request. -/
def Answered (waiting : List (AsyncReq × Nat)) (fresh : Nat) (log : List Computation)
    (m : Nat × Except String RateLimitResp) : Prop :=
  m.1 < fresh ∧ ∀ w ∈ waiting, w.2 = m.1 → ∀ a, m.2 = .ok a → ⟨some w.1.idx, w.1.request, a⟩ ∈ log

/-- A batch at the owner: one slot of `RateLimits` per queued request, each
request addressed, and each filled slot computed for the request at its
position. -/
def Settled (waiting : List (AsyncReq × Nat)) (fresh : Nat) (log : List Computation) (b : Batch) :
    Prop :=
  b.rateLimits.length = b.queue.length ∧ (∀ q ∈ b.queue, Addressed waiting fresh q) ∧
    ∀ (k : Nat) q a, b.queue[k]? = some q → b.rateLimits[k]? = some (some a) →
      ⟨q.origin, q.request, a⟩ ∈ log

/-- The routing invariant of a call: every answer on its way or written was
computed for the request it is on its way to. -/
structure Routed (s : Fanout) : Prop where
  length : s.responses.length = reqs.length
  bound : s.next ≤ reqs.length
  answered : ∀ i a', s.responses[i]? = some (some a') →
    ∃ a, ComputedFor reqs createdAt forceGlobal s.log i a ∧ Reports a' a
  readyFor : ∀ f ∈ s.ready, preparedAt reqs createdAt forceGlobal f.idx = some f.request
  waitingFor : ∀ w ∈ s.waiting, preparedAt reqs createdAt forceGlobal w.1.idx = some w.1.request ∧
    w.2 < s.fresh
  queued : ∀ q ∈ s.queue, Addressed s.waiting s.fresh q
  flying : ∀ b ∈ s.inFlight, Settled s.waiting s.fresh s.log b
  replied : ∀ m ∈ s.replies, Answered s.waiting s.fresh s.log m
  delivered : ∀ m ∈ s.asyncCh, ∃ a, ComputedFor reqs createdAt forceGlobal s.log m.1 a ∧ Reports m.2 a

/-- Request `i` is answered, or has a goroutine or a message in `asyncCh` that
will answer it. -/
def Pending (s : Fanout) (i : Nat) : Prop :=
  (∃ a, s.responses[i]? = some (some a)) ∨ i ∈ s.ready.map (·.idx) ∨
    i ∈ s.waiting.map (·.1.idx) ∨ i ∈ s.asyncCh.map (·.1)

/-- Every request the loop has visited is pending, and once the call returned
every request is answered. -/
structure Covered (n : Nat) (s : Fanout) : Prop where
  visited : ∀ i < s.next, Pending s i
  complete : s.returned = true → ∀ i < n, ∃ a, s.responses[i]? = some (some a)

/-! What each fact needs survives a growing log, fewer waiting goroutines, a
later `fresh`, and a new goroutine waiting on the fresh channel. -/

variable {reqs createdAt forceGlobal}
variable {waiting waiting' : List (AsyncReq × Nat)} {fresh fresh' : Nat} {log log' : List Computation}

theorem ComputedFor.mono {i : Nat} {a : RateLimitResp} (grow : log ⊆ log')
    (computed : ComputedFor reqs createdAt forceGlobal log i a) :
    ComputedFor reqs createdAt forceGlobal log' i a :=
  let ⟨r, prepared, logged⟩ := computed
  ⟨r, prepared, grow logged⟩

theorem Addressed.mono {q : Queued} (fewer : waiting' ⊆ waiting) (later : fresh ≤ fresh')
    (addressed : Addressed waiting fresh q) : Addressed waiting' fresh' q :=
  ⟨by have := addressed.1; omega, fun w member => addressed.2 w (fewer member)⟩

-- A goroutine that starts waiting on channel `fresh` waits on no channel handed out before.
theorem mem_of_wait {f : AsyncReq} {c : Nat} (before : c < fresh) {w : AsyncReq × Nat}
    (member : w ∈ waiting ++ [(f, fresh)]) (same : w.2 = c) : w ∈ waiting := by
  rcases List.mem_append.mp member with old | new
  · exact old
  · rw [List.mem_singleton.mp new] at same
    omega

theorem Addressed.extend {q : Queued} (f : AsyncReq) (addressed : Addressed waiting fresh q) :
    Addressed (waiting ++ [(f, fresh)]) (fresh + 1) q :=
  ⟨Nat.lt_succ_of_lt addressed.1, fun w member same =>
    addressed.2 w (mem_of_wait addressed.1 member same) same⟩

theorem Answered.mono {m : Nat × Except String RateLimitResp} (fewer : waiting' ⊆ waiting)
    (later : fresh ≤ fresh') (grow : log ⊆ log') (answered : Answered waiting fresh log m) :
    Answered waiting' fresh' log' m :=
  ⟨by have := answered.1; omega, fun w member same a ok => grow (answered.2 w (fewer member) same a ok)⟩

theorem Answered.extend {m : Nat × Except String RateLimitResp} (f : AsyncReq)
    (answered : Answered waiting fresh log m) : Answered (waiting ++ [(f, fresh)]) (fresh + 1) log m :=
  ⟨Nat.lt_succ_of_lt answered.1, fun w member same =>
    answered.2 w (mem_of_wait answered.1 member same) same⟩

-- An error on a channel answers nobody's request.
theorem Answered.error {q : Queued} (addressed : Addressed waiting fresh q) (e : String) :
    Answered waiting fresh log (q.channel, .error e) :=
  ⟨addressed.1, fun _ _ _ _ ok => by cases ok⟩

theorem Settled.mono {b : Batch} (fewer : waiting' ⊆ waiting) (later : fresh ≤ fresh')
    (grow : log ⊆ log') (settled : Settled waiting fresh log b) : Settled waiting' fresh' log' b :=
  ⟨settled.1, fun q member => (settled.2.1 q member).mono fewer later,
    fun k q a slot filled => grow (settled.2.2 k q a slot filled)⟩

theorem Settled.extend {b : Batch} (f : AsyncReq) (settled : Settled waiting fresh log b) :
    Settled (waiting ++ [(f, fresh)]) (fresh + 1) log b :=
  ⟨settled.1, fun q member => (settled.2.1 q member).extend f, settled.2.2⟩

-- A batch just cut from a queue: every slot still empty.
theorem settled_of_queued {qs : List Queued} (addressed : ∀ q ∈ qs, Addressed waiting fresh q) :
    Settled waiting fresh log ⟨qs, qs.map fun _ => none⟩ := by
  refine ⟨List.length_map _, addressed, fun k q a _ filled => ?_⟩
  rw [List.getElem?_map] at filled
  cases qs[k]? <;> simp at filled

variable (reqs createdAt forceGlobal) in
theorem routed_start : Routed reqs createdAt forceGlobal (start reqs.length) where
  length := List.length_replicate
  bound := Nat.zero_le _
  answered i a' filled := by
    simp only [start, List.getElem?_replicate] at filled
    split at filled <;> simp at filled
  readyFor f member := by cases member
  waitingFor w member := by cases member
  queued q member := by cases member
  flying b member := by cases member
  replied m member := by cases member
  delivered m member := by cases member

variable {s : Fanout}

-- No goroutine waits on the channel that `fresh` hands out next.
theorem Routed.fresh_free (routed : Routed reqs createdAt forceGlobal s) {w : AsyncReq × Nat}
    (member : w ∈ s.waiting) : w.2 ≠ s.fresh :=
  Nat.ne_of_lt (routed.waitingFor w member).2

theorem Routed.flush (routed : Routed reqs createdAt forceGlobal s) (peer : String) :
    Routed reqs createdAt forceGlobal (s.flush peer) := by
  unfold Fanout.flush
  split
  · exact routed
  · have cut : ∀ q ∈ s.queue.filter (·.peer = peer), Addressed s.waiting s.fresh q :=
      fun q member => routed.queued q (List.mem_of_mem_filter member)
    exact { routed with
      queued := fun q member => routed.queued q (List.mem_of_mem_filter member)
      flying := List.forall_mem_append.mpr ⟨routed.flying, List.forall_mem_singleton.mpr (settled_of_queued cut)⟩ }

theorem Routed.enqueue (routed : Routed reqs createdAt forceGlobal s) {q : Queued}
    (addressed : Addressed s.waiting s.fresh q) (batchLimit : Nat) :
    Routed reqs createdAt forceGlobal (s.enqueue batchLimit q) := by
  have appended : Routed reqs createdAt forceGlobal { s with queue := s.queue ++ [q] } :=
    { routed with queued := List.forall_mem_append.mpr ⟨routed.queued, List.forall_mem_singleton.mpr addressed⟩ }
  unfold Fanout.enqueue
  split
  · exact appended.flush q.peer
  · exact appended

theorem Routed.eraseReady (routed : Routed reqs createdAt forceGlobal s) (j : Nat) :
    Routed reqs createdAt forceGlobal { s with ready := s.ready.eraseIdx j } :=
  { routed with readyFor := fun f member => routed.readyFor f (List.mem_of_mem_eraseIdx member) }

theorem Routed.eraseWaiting (routed : Routed reqs createdAt forceGlobal s) (w : Nat) :
    Routed reqs createdAt forceGlobal { s with waiting := s.waiting.eraseIdx w } := by
  have fewer : s.waiting.eraseIdx w ⊆ s.waiting := fun _ => List.mem_of_mem_eraseIdx
  exact { routed with
    waitingFor := fun w member => routed.waitingFor w (fewer member)
    queued := fun q member => (routed.queued q member).mono fewer le_rfl
    flying := fun b member => (routed.flying b member).mono fewer le_rfl (List.Subset.refl _)
    replied := fun m member => (routed.replied m member).mono fewer le_rfl (List.Subset.refl _) }

-- Answers already accounted for stay so once the log grows.
theorem Routed.log_append (routed : Routed reqs createdAt forceGlobal s) (c : Computation) :
    Routed reqs createdAt forceGlobal { s with log := s.log ++ [c] } := by
  have grow : s.log ⊆ s.log ++ [c] := List.subset_append_left _ _
  exact { routed with
    answered := fun i a' filled =>
      let ⟨a, computed, reports⟩ := routed.answered i a' filled
      ⟨a, computed.mono grow, reports⟩
    flying := fun b member => (routed.flying b member).mono (List.Subset.refl _) le_rfl grow
    replied := fun m member => (routed.replied m member).mono (List.Subset.refl _) le_rfl grow
    delivered := fun m member =>
      let ⟨a, computed, reports⟩ := routed.delivered m member
      ⟨a, computed.mono grow, reports⟩ }

theorem Routed.abandon (routed : Routed reqs createdAt forceGlobal s) {f : AsyncReq}
    (prepared : preparedAt reqs createdAt forceGlobal f.idx = some f.request) (retry : Option String)
    (e : String) : Routed reqs createdAt forceGlobal (s.abandon f retry e) := by
  cases retry with
  | some peer =>
    exact { routed with
      readyFor := List.forall_mem_append.mpr ⟨routed.readyFor, List.forall_mem_singleton.mpr prepared⟩ }
  | none =>
    -- The error is logged as computed for the goroutine's own request.
    have logged := routed.log_append ⟨some f.idx, f.request, { error := e }⟩
    have computed : ComputedFor reqs createdAt forceGlobal (s.log ++ [⟨some f.idx, f.request, { error := e }⟩])
        f.idx { error := e } :=
      ⟨f.request, prepared, List.mem_append_right _ (List.mem_singleton_self _)⟩
    exact { logged with
      delivered := List.forall_mem_append.mpr
        ⟨logged.delivered, List.forall_mem_singleton.mpr ⟨_, computed, Or.inl rfl⟩⟩ }

theorem Routed.bump (routed : Routed reqs createdAt forceGlobal s) :
    Routed reqs createdAt forceGlobal { s with fresh := s.fresh + 1 } :=
  { routed with
    waitingFor := fun w member =>
      ⟨(routed.waitingFor w member).1, Nat.lt_succ_of_lt (routed.waitingFor w member).2⟩
    queued := fun q member => (routed.queued q member).mono (List.Subset.refl _) (Nat.le_succ _)
    flying := fun b member =>
      (routed.flying b member).mono (List.Subset.refl _) (Nat.le_succ _) (List.Subset.refl _)
    replied := fun m member =>
      (routed.replied m member).mono (List.Subset.refl _) (Nat.le_succ _) (List.Subset.refl _) }

-- A goroutine starts waiting on the fresh channel, which nothing else holds.
theorem Routed.wait (routed : Routed reqs createdAt forceGlobal s) {f : AsyncReq}
    (prepared : preparedAt reqs createdAt forceGlobal f.idx = some f.request) :
    Routed reqs createdAt forceGlobal
      { s with waiting := s.waiting ++ [(f, s.fresh)], fresh := s.fresh + 1 } :=
  { routed with
    waitingFor := List.forall_mem_append.mpr
      ⟨fun w old => ⟨(routed.waitingFor w old).1, Nat.lt_succ_of_lt (routed.waitingFor w old).2⟩,
        List.forall_mem_singleton.mpr ⟨prepared, Nat.lt_succ_self _⟩⟩
    queued := fun q member => (routed.queued q member).extend f
    flying := fun b member => (routed.flying b member).extend f
    replied := fun m member => (routed.replied m member).extend f }

variable (createdAt forceGlobal) in
theorem preparedAt_of_prepare {i : Nat} {req : RateLimitReq} (found : reqs[i]? = some req) :
    preparedAt reqs createdAt forceGlobal i =
      some (match prepareRequest createdAt forceGlobal req with
        | .ok r => r
        | .error _ => req) := by
  simp [preparedAt, found]

theorem visit_cases {route : Route} {t : Fanout} (stepped : visit reqs createdAt forceGlobal s route = some t) :
    s.next < reqs.length ∧ ∃ r, preparedAt reqs createdAt forceGlobal s.next = some r ∧
      ((∃ a, t = { s with next := s.next + 1, responses := s.responses.set s.next (some a),
                          log := s.log ++ [⟨some s.next, r, a⟩] }) ∨
        ∃ peer batching, t = { s with next := s.next + 1, ready := s.ready ++ [⟨s.next, peer, batching, r⟩] }) := by
  unfold Fanout.visit at stepped
  cases found : reqs[s.next]? with
  | none => simp [found] at stepped
  | some req =>
    have early : s.next < reqs.length := (List.getElem?_eq_some_iff.mp found).1
    have prepared := preparedAt_of_prepare createdAt forceGlobal found
    simp only [found] at stepped
    cases checked : prepareRequest createdAt forceGlobal req with
    | error e =>
      simp only [checked, Option.some.injEq] at stepped prepared
      exact ⟨early, req, prepared, Or.inl ⟨_, stepped.symm⟩⟩
    | ok r =>
      simp only [checked] at stepped prepared
      cases route with
      | answer a =>
        simp only [Option.some.injEq] at stepped
        exact ⟨early, r, prepared, Or.inl ⟨a, stepped.symm⟩⟩
      | forward peer batching =>
        simp only [Option.some.injEq] at stepped
        exact ⟨early, r, prepared, Or.inr ⟨peer, batching, stepped.symm⟩⟩

-- The loop answering request `next` itself.
theorem Routed.answerNext (routed : Routed reqs createdAt forceGlobal s) (early : s.next < reqs.length)
    {r : RateLimitReq} (prepared : preparedAt reqs createdAt forceGlobal s.next = some r)
    (a : RateLimitResp) :
    Routed reqs createdAt forceGlobal
      { s with next := s.next + 1, responses := s.responses.set s.next (some a),
               log := s.log ++ [⟨some s.next, r, a⟩] } := by
  have logged := routed.log_append ⟨some s.next, r, a⟩
  refine { logged with length := ?_, bound := early, answered := fun i a' filled => ?_ }
  · rw [List.length_set, routed.length]
  · rw [List.getElem?_set] at filled
    by_cases same : s.next = i
    · subst same
      rw [if_pos rfl, if_pos (routed.length ▸ early)] at filled
      cases filled
      exact ⟨a, ⟨r, prepared, List.mem_append_right _ (List.mem_singleton_self _)⟩, Or.inl rfl⟩
    · rw [if_neg same] at filled
      exact logged.answered i a' filled

theorem Routed.visit (routed : Routed reqs createdAt forceGlobal s) {route : Route} {t : Fanout}
    (stepped : visit reqs createdAt forceGlobal s route = some t) : Routed reqs createdAt forceGlobal t := by
  obtain ⟨early, r, prepared, ⟨a, rfl⟩ | ⟨peer, batching, rfl⟩⟩ := visit_cases stepped
  · exact routed.answerNext early prepared a
  · exact { routed with
      bound := early
      readyFor := List.forall_mem_append.mpr ⟨routed.readyFor, List.forall_mem_singleton.mpr prepared⟩ }

theorem Routed.send (routed : Routed reqs createdAt forceGlobal s) {batchLimit j : Nat} {t : Fanout}
    (stepped : send batchLimit s j = some t) : Routed reqs createdAt forceGlobal t := by
  obtain ⟨f, taken, rfl⟩ := Option.map_eq_some_iff.mp stepped
  have prepared := routed.readyFor f (List.mem_of_getElem? taken)
  have waited := (routed.eraseReady j).wait prepared
  -- The request carries the goroutine's own request, on the channel it waits on.
  have addressed : Addressed (s.waiting ++ [(f, s.fresh)]) (s.fresh + 1)
      ⟨f.peer, s.fresh, some f.idx, f.request⟩ :=
    ⟨Nat.lt_succ_self _, List.forall_mem_append.mpr
      ⟨fun w old same => absurd same (routed.fresh_free old), List.forall_mem_singleton.mpr fun _ => ⟨rfl, rfl⟩⟩⟩
  dsimp only
  split
  · exact waited.enqueue addressed batchLimit
  · exact { waited with
      flying := List.forall_mem_append.mpr ⟨waited.flying,
        List.forall_mem_singleton.mpr (settled_of_queued (List.forall_mem_singleton.mpr addressed))⟩ }

theorem Routed.compute (routed : Routed reqs createdAt forceGlobal s) {b k : Nat} {a : RateLimitResp}
    {t : Fanout} (stepped : compute s b k a = some t) : Routed reqs createdAt forceGlobal t := by
  obtain ⟨batch, q, atB, queuedAt, emptyAt, rfl⟩ := compute_cases stepped
  have logged := routed.log_append ⟨q.origin, q.request, a⟩
  have settled := logged.flying batch (List.mem_of_getElem? atB)
  refine { logged with flying := fun b' member => ?_ }
  rcases List.mem_or_eq_of_mem_set member with old | rfl
  · exact logged.flying b' old
  · -- Slot `k` now holds the answer computed for the request at position `k`.
    refine ⟨by simp [settled.1], settled.2.1, fun k' q' a' queuedAt' filled => ?_⟩
    rw [List.getElem?_set] at filled
    by_cases same : k = k'
    · subst same
      rw [queuedAt] at queuedAt'
      cases queuedAt'
      have inside : k < batch.rateLimits.length := (List.getElem?_eq_some_iff.mp emptyAt).1
      rw [if_pos rfl, if_pos inside] at filled
      cases filled
      exact List.mem_append_right _ (List.mem_singleton_self _)
    · rw [if_neg same] at filled
      exact settled.2.2 k' q' a' queuedAt' filled

-- Batch `b` leaves for good, and its replies join the channels.
theorem Routed.replyAll (routed : Routed reqs createdAt forceGlobal s) (b : Nat)
    {ms : List (Nat × Except String RateLimitResp)} (answered : ∀ m ∈ ms, Answered s.waiting s.fresh s.log m) :
    Routed reqs createdAt forceGlobal
      { s with inFlight := s.inFlight.eraseIdx b, replies := s.replies ++ ms } :=
  { routed with
    flying := fun b' member => routed.flying b' (List.mem_of_mem_eraseIdx member)
    replied := List.forall_mem_append.mpr ⟨routed.replied, answered⟩ }

theorem Routed.reply (routed : Routed reqs createdAt forceGlobal s) {b : Nat} {t : Fanout}
    (stepped : reply s b = some t) : Routed reqs createdAt forceGlobal t := by
  obtain ⟨batch, answers, atB, filled, rfl⟩ := reply_cases stepped
  have settled := routed.flying batch (List.mem_of_getElem? atB)
  obtain ⟨-, slots⟩ := Slots.mapM_id_eq_some filled
  refine routed.replyAll b fun m new => ?_
  split at new
  · -- `sendBatch` pairs the answer at position `k` with the request at position `k`.
    obtain ⟨p, paired, rfl⟩ := List.mem_map.mp new
    obtain ⟨k, queuedAt, answeredAt⟩ := Slots.exists_of_mem_zip paired
    have logged := settled.2.2 k p.1 p.2 queuedAt (slots k p.2 answeredAt)
    have addressed := settled.2.1 p.1 (List.mem_of_getElem? queuedAt)
    refine ⟨addressed.1, fun w waiting same a ok => ?_⟩
    cases ok
    obtain ⟨origin, request⟩ := addressed.2 w waiting same
    rw [origin, request] at logged
    exact logged
  · obtain ⟨q, queued, rfl⟩ := List.mem_map.mp new
    exact Answered.error (settled.2.1 q queued) _

theorem Routed.receive (routed : Routed reqs createdAt forceGlobal s) {w : Nat} {retry : Option String}
    {t : Fanout} (stepped : receive s w retry = some t) : Routed reqs createdAt forceGlobal t := by
  obtain ⟨f, ch, m, atW, received, onChannel, answered⟩ := receive_cases stepped
  have waiting : (f, ch) ∈ s.waiting := List.mem_of_getElem? atW
  have prepared := (routed.waitingFor _ waiting).1
  have taken : Routed reqs createdAt forceGlobal
      { s with waiting := s.waiting.eraseIdx w, replies := s.replies.erase m } :=
    { routed.eraseWaiting w with
      replied := fun m' member => (routed.eraseWaiting w).replied m' (List.erase_subset member) }
  rcases answered with ⟨a, ok, rfl⟩ | ⟨e, -, rfl⟩
  · -- The reply on the goroutine's channel was computed for its request.
    have logged := (routed.replied m received).2 (f, ch) waiting onChannel.symm a ok
    exact { taken with
      delivered := List.forall_mem_append.mpr ⟨taken.delivered,
        List.forall_mem_singleton.mpr ⟨a, ⟨f.request, prepared, logged⟩, Or.inr ⟨f.peer, rfl⟩⟩⟩ }
  · exact taken.abandon prepared retry e

theorem Routed.finish (routed : Routed reqs createdAt forceGlobal s) {t : Fanout}
    (stepped : finish reqs s = some t) : Routed reqs createdAt forceGlobal t := by
  obtain ⟨-, -, -, rfl⟩ := finish_cases stepped
  refine { routed with length := by simp [routed.length], answered := fun i a' filled => ?_ }
  rcases Slots.writeAll_filled filled with earlier | written
  · exact routed.answered i a' earlier
  · exact routed.delivered (i, a') written

theorem Routed.step (routed : Routed reqs createdAt forceGlobal s) {batchLimit : Nat}
    {e : FanoutEvent} {t : Fanout} (stepped : step reqs createdAt forceGlobal batchLimit s e = some t) :
    Routed reqs createdAt forceGlobal t := by
  unfold Fanout.step at stepped
  split at stepped
  · cases stepped
  · cases e with
    | visit route => exact routed.visit stepped
    | foreign peer request =>
      cases stepped
      -- Another caller's request takes the fresh channel, which no goroutine of the call waits on.
      exact routed.bump.enqueue
        ⟨Nat.lt_succ_self _, fun w member same => absurd same (routed.fresh_free member)⟩ batchLimit
    | send j => exact routed.send stepped
    | refuse j e =>
      obtain ⟨f, taken, rfl⟩ := Option.map_eq_some_iff.mp stepped
      exact (routed.eraseReady j).abandon (routed.readyFor f (List.mem_of_getElem? taken)) none e
    | tick peer =>
      cases stepped
      exact routed.flush peer
    | compute b k a => exact routed.compute stepped
    | fail b e =>
      obtain ⟨batch, atB, rfl⟩ := Option.map_eq_some_iff.mp stepped
      have settled := routed.flying batch (List.mem_of_getElem? atB)
      refine routed.replyAll b fun m new => ?_
      obtain ⟨q, queued, rfl⟩ := List.mem_map.mp new
      exact Answered.error (settled.2.1 q queued) e
    | reply b => exact routed.reply stepped
    | receive w retry => exact routed.receive stepped
    | timeout w retry e =>
      obtain ⟨⟨f, ch⟩, atW, rfl⟩ := Option.map_eq_some_iff.mp stepped
      exact (routed.eraseWaiting w).abandon (routed.waitingFor _ (List.mem_of_getElem? atW)).1 retry e
    | finish => exact routed.finish stepped

end Routing

section Coverage

variable {s t : Fanout} {n : Nat}

/-- Two states that agree on everything coverage reads. -/
def SameCall (s t : Fanout) : Prop :=
  t.next = s.next ∧ t.responses = s.responses ∧ t.ready = s.ready ∧ t.waiting = s.waiting ∧
    t.asyncCh = s.asyncCh ∧ t.returned = s.returned

theorem Covered.of_sameCall (covered : Covered n s) (same : SameCall s t) : Covered n t := by
  obtain ⟨next, responses, ready, waiting, asyncCh, returned⟩ := same
  refine ⟨fun i early => ?_, fun done => ?_⟩
  · unfold Pending
    rw [responses, ready, waiting, asyncCh]
    exact covered.visited i (next ▸ early)
  · rw [responses]
    exact covered.complete (returned ▸ done)

-- A goroutine that moves on keeps its request pending.
theorem Pending.move {i : Nat} (pending : Pending s i) (responses : t.responses = s.responses)
    (moved : i ∈ s.ready.map (·.idx) ∨ i ∈ s.waiting.map (·.1.idx) →
      i ∈ t.ready.map (·.idx) ∨ i ∈ t.waiting.map (·.1.idx) ∨ i ∈ t.asyncCh.map (·.1))
    (kept : s.asyncCh ⊆ t.asyncCh) : Pending t i := by
  rcases pending with answered | ready | waiting | delivered
  · rw [← responses] at answered
    exact Or.inl answered
  · exact Or.inr (moved (Or.inl ready))
  · exact Or.inr (moved (Or.inr waiting))
  · obtain ⟨m, member, rfl⟩ := List.mem_map.mp delivered
    exact Or.inr (Or.inr (Or.inr (List.mem_map_of_mem (kept member))))

theorem Covered.move (covered : Covered n s) (next : t.next = s.next) (responses : t.responses = s.responses)
    (returned : t.returned = false)
    (moved : ∀ i, i ∈ s.ready.map (·.idx) ∨ i ∈ s.waiting.map (·.1.idx) →
      i ∈ t.ready.map (·.idx) ∨ i ∈ t.waiting.map (·.1.idx) ∨ i ∈ t.asyncCh.map (·.1))
    (kept : s.asyncCh ⊆ t.asyncCh) : Covered n t :=
  ⟨fun i early => (covered.visited i (next ▸ early)).move responses (moved i) kept,
    fun done => by rw [returned] at done; cases done⟩

-- The loop answering request `next` itself.
theorem Covered.answerNext (covered : Covered n s) (live : s.returned = false)
    (inside : s.next < s.responses.length) (a : RateLimitResp) (log : List Computation) :
    Covered n { s with next := s.next + 1, responses := s.responses.set s.next (some a), log := log } := by
  refine ⟨fun i early => ?_, fun done => by simp [live] at done⟩
  by_cases same : i = s.next
  · subst same
    exact Or.inl ⟨a, by simp [inside]⟩
  · rcases covered.visited i (by simp only at early; omega) with ⟨a', answered⟩ | rest
    · refine Or.inl ⟨a', ?_⟩
      simp only
      rw [List.getElem?_set, if_neg (Ne.symm same)]
      exact answered
    · exact Or.inr rest

variable {reqs : List RateLimitReq} {createdAt : Int64} {forceGlobal : Bool}

theorem Covered.visit (covered : Covered reqs.length s) (routed : Routed reqs createdAt forceGlobal s)
    (live : s.returned = false) {route : Route}
    (stepped : visit reqs createdAt forceGlobal s route = some t) : Covered reqs.length t := by
  obtain ⟨early, r, -, ⟨a, rfl⟩ | ⟨peer, batching, rfl⟩⟩ := visit_cases stepped
  · exact covered.answerNext live (by rw [routed.length]; exact early) a _
  · -- Request `next` is now with a ready goroutine.
    refine ⟨fun i visited => ?_, fun done => by simp [live] at done⟩
    by_cases same : i = s.next
    · subst same
      exact Or.inr (Or.inl (List.mem_map.mpr ⟨_, List.mem_append_right _ (List.mem_singleton_self _), rfl⟩))
    · have pending := covered.visited i (by simp only at visited; omega)
      refine pending.move rfl (fun moving => ?_) (List.Subset.refl _)
      rcases moving with inReady | inWaiting
      · obtain ⟨f, member, rfl⟩ := List.mem_map.mp inReady
        exact Or.inl (List.mem_map.mpr ⟨f, List.mem_append_left _ member, rfl⟩)
      · exact Or.inr (Or.inl inWaiting)

theorem compute_sameCall {b k : Nat} {a : RateLimitResp} (stepped : compute s b k a = some t) :
    SameCall s t := by
  obtain ⟨_, _, _, _, _, rfl⟩ := compute_cases stepped
  exact ⟨rfl, rfl, rfl, rfl, rfl, rfl⟩

theorem reply_sameCall {b : Nat} (stepped : reply s b = some t) : SameCall s t := by
  obtain ⟨_, _, _, _, rfl⟩ := reply_cases stepped
  exact ⟨rfl, rfl, rfl, rfl, rfl, rfl⟩

-- Waiting goroutine `w` leaves `waiting`, for `asyncCh` or to run again.
theorem Covered.leave (covered : Covered n s) (live : s.returned = false) {w : Nat} {f : AsyncReq}
    {ch : Nat} (taken : s.waiting[w]? = some (f, ch)) {u : Fanout} (next : u.next = s.next)
    (responses : u.responses = s.responses) (returned : u.returned = s.returned)
    (ready : s.ready ⊆ u.ready) (waiting : u.waiting = s.waiting.eraseIdx w)
    (asyncCh : s.asyncCh ⊆ u.asyncCh)
    (answers : f.idx ∈ u.ready.map (·.idx) ∨ f.idx ∈ u.asyncCh.map (·.1)) : Covered n u := by
  refine covered.move next responses (returned.trans live) (fun i moving => ?_) asyncCh
  rcases moving with inReady | inWaiting
  · obtain ⟨g, member, rfl⟩ := List.mem_map.mp inReady
    exact Or.inl (List.mem_map_of_mem (ready member))
  · rcases Slots.mem_map_eraseIdx_or taken inWaiting with kept | rfl
    · rw [← waiting] at kept
      exact Or.inr (Or.inl kept)
    · rcases answers with again | answered
      · exact Or.inl again
      · exact Or.inr (Or.inr answered)

-- Waiting goroutine `w` giving up: it runs again or answers its error.
theorem Covered.abandon (covered : Covered n s) (live : s.returned = false) {w : Nat} {f : AsyncReq}
    {ch : Nat} (taken : s.waiting[w]? = some (f, ch)) (replies : List (Nat × Except String RateLimitResp))
    (retry : Option String) (e : String) :
    Covered n ({ s with waiting := s.waiting.eraseIdx w, replies := replies }.abandon f retry e) := by
  have ready := abandon_ready_sub { s with waiting := s.waiting.eraseIdx w, replies := replies } f retry e
  have asyncCh := abandon_asyncCh_sub { s with waiting := s.waiting.eraseIdx w, replies := replies } f retry e
  exact covered.leave live taken (by simp) (by simp) (by simp) ready (by simp) asyncCh (abandon_moves _ f retry e)

-- The ready goroutine `j` moves to `waiting`.
theorem Covered.send (covered : Covered n s) (live : s.returned = false) {batchLimit j : Nat}
    (stepped : send batchLimit s j = some t) : Covered n t := by
  obtain ⟨f, taken, rfl⟩ := Option.map_eq_some_iff.mp stepped
  have moved : ∀ i, i ∈ s.ready.map (·.idx) ∨ i ∈ s.waiting.map (·.1.idx) →
      i ∈ (s.ready.eraseIdx j).map (·.idx) ∨ i ∈ (s.waiting ++ [(f, s.fresh)]).map (·.1.idx) ∨
        i ∈ s.asyncCh.map (·.1) := by
    rintro i (inReady | inWaiting)
    · rcases Slots.mem_map_eraseIdx_or taken inReady with kept | rfl
      · exact Or.inl kept
      · exact Or.inr (Or.inl (List.mem_map_of_mem (List.mem_append_right _ (List.mem_singleton_self _))))
    · exact Or.inr (Or.inl (by simp only [List.map_append]; exact List.mem_append_left _ inWaiting))
  dsimp only
  split
  · exact covered.move (by simp) (by simp) (by simp [live])
      (fun i moving => by simpa only [enqueue_ready, enqueue_waiting, enqueue_asyncCh] using moved i moving)
      (by simp)
  · exact covered.move rfl rfl live moved (List.Subset.refl _)

-- The ready goroutine `j` fails to reach the owner and answers its error.
theorem Covered.refuse (covered : Covered n s) (live : s.returned = false) {j : Nat} {f : AsyncReq}
    (taken : s.ready[j]? = some f) (e : String) :
    Covered n ({ s with ready := s.ready.eraseIdx j }.abandon f none e) := by
  refine covered.move (by simp) (by simp) (by simp [live]) (fun i moving => ?_)
    (abandon_asyncCh_sub _ f none e)
  rcases moving with inReady | inWaiting
  · rcases Slots.mem_map_eraseIdx_or taken inReady with kept | rfl
    · obtain ⟨g, member, rfl⟩ := List.mem_map.mp kept
      exact Or.inl (List.mem_map_of_mem (abandon_ready_sub _ f none e member))
    · rcases abandon_moves { s with ready := s.ready.eraseIdx j } f none e with again | answered
      · exact Or.inl again
      · exact Or.inr (Or.inr answered)
  · exact Or.inr (Or.inl (by simpa only [abandon_waiting] using inWaiting))

theorem Covered.receive (covered : Covered n s) (live : s.returned = false) {w : Nat}
    {retry : Option String} (stepped : receive s w retry = some t) : Covered n t := by
  obtain ⟨f, ch, m, atW, -, -, ⟨a, -, rfl⟩ | ⟨e, -, rfl⟩⟩ := receive_cases stepped
  · exact covered.leave live atW rfl rfl rfl (List.Subset.refl _) rfl (List.subset_append_left _ _)
      (Or.inr (List.mem_map.mpr ⟨_, List.mem_append_right _ (List.mem_singleton_self _), rfl⟩))
  · exact covered.abandon live atW _ retry e

-- Every request is answered or has its answer in `asyncCh`, which `finish` writes.
theorem Covered.finish (covered : Covered reqs.length s) (routed : Routed reqs createdAt forceGlobal s)
    (stepped : finish reqs s = some t) : Covered reqs.length t := by
  obtain ⟨visitedAll, noReady, noWaiting, rfl⟩ := finish_cases stepped
  have filled : ∀ i < reqs.length, ∃ a, (Slots.writeAll s.asyncCh s.responses)[i]? = some (some a) := by
    intro i inside
    refine Slots.writeAll_fills (by rw [routed.length]; exact inside) ?_
    rcases covered.visited i (visitedAll ▸ inside) with answered | inReady | inWaiting | delivered
    · exact Or.inl answered
    · rw [noReady] at inReady
      cases inReady
    · rw [noWaiting] at inWaiting
      cases inWaiting
    · exact Or.inr delivered
  exact ⟨fun i early => Or.inl (filled i (visitedAll ▸ early)), fun _ => filled⟩

theorem Covered.step (covered : Covered reqs.length s) (routed : Routed reqs createdAt forceGlobal s)
    {batchLimit : Nat} {e : FanoutEvent} {t : Fanout}
    (stepped : step reqs createdAt forceGlobal batchLimit s e = some t) : Covered reqs.length t := by
  unfold Fanout.step at stepped
  split at stepped
  · cases stepped
  · rename_i running
    have live : s.returned = false := by simpa using running
    cases e with
    | visit route => exact covered.visit routed live stepped
    | foreign peer request =>
      cases stepped
      exact covered.of_sameCall ⟨by simp, by simp, by simp, by simp, by simp, by simp⟩
    | send j => exact covered.send live stepped
    | refuse j e =>
      obtain ⟨f, taken, rfl⟩ := Option.map_eq_some_iff.mp stepped
      exact covered.refuse live taken e
    | tick peer =>
      cases stepped
      exact covered.of_sameCall ⟨by simp, by simp, by simp, by simp, by simp, by simp⟩
    | compute b k a => exact covered.of_sameCall (compute_sameCall stepped)
    | fail b e =>
      obtain ⟨_, _, rfl⟩ := Option.map_eq_some_iff.mp stepped
      exact covered.of_sameCall ⟨rfl, rfl, rfl, rfl, rfl, rfl⟩
    | reply b => exact covered.of_sameCall (reply_sameCall stepped)
    | receive w retry => exact covered.receive live stepped
    | timeout w retry e =>
      obtain ⟨⟨f, ch⟩, atW, rfl⟩ := Option.map_eq_some_iff.mp stepped
      exact covered.abandon live atW s.replies retry e
    | finish => exact covered.finish routed stepped

theorem covered_start (n : Nat) : Covered n (start n) :=
  ⟨fun i early => absurd early (Nat.not_lt_zero i), fun returned => by cases returned⟩

end Coverage

section Closing

/-! From every state the call can still return: the loop answers what is left,
the ready goroutines give up, the waiting ones time out, and `wg.Wait()`
returns. -/

variable (reqs : List RateLimitReq) (createdAt : Int64) (forceGlobal : Bool) (batchLimit : Nat)

theorem runSome_visits (k : Nat) :
    ∀ s : Fanout, s.returned = false → s.next + k = reqs.length →
      ∃ u, Run.runSome (step reqs createdAt forceGlobal batchLimit) s
          (List.replicate k (.visit (.answer {}))) = some u ∧
        u.next = reqs.length ∧ u.ready = s.ready ∧ u.waiting = s.waiting ∧ u.returned = false := by
  induction k with
  | zero => exact fun s live visited => ⟨s, rfl, by simpa using visited, rfl, rfl, live⟩
  | succ k ih =>
    intro s live visited
    obtain ⟨req, found⟩ : ∃ req, reqs[s.next]? = some req :=
      ⟨_, List.getElem?_eq_getElem (by omega)⟩
    -- One more request answered by the loop; nothing else moves.
    obtain ⟨v, stepped, next, ready, waiting, returned⟩ : ∃ v,
        step reqs createdAt forceGlobal batchLimit s (.visit (.answer {})) = some v ∧
          v.next = s.next + 1 ∧ v.ready = s.ready ∧ v.waiting = s.waiting ∧ v.returned = false := by
      simp only [step, live, Bool.false_eq_true, if_false, visit, found]
      cases prepareRequest createdAt forceGlobal req <;> exact ⟨_, rfl, rfl, rfl, rfl, rfl⟩
    obtain ⟨u, rest, done, sameReady, sameWaiting, stillLive⟩ := ih v returned (by omega)
    refine ⟨u, ?_, done, sameReady.trans ready, sameWaiting.trans waiting, stillLive⟩
    simp only [List.replicate_succ, Run.runSome, stepped, Option.bind_some]
    exact rest

theorem runSome_refusals :
    ∀ s : Fanout, s.returned = false →
      ∃ u, Run.runSome (step reqs createdAt forceGlobal batchLimit) s
          (List.replicate s.ready.length (.refuse 0 "")) = some u ∧
        u.next = s.next ∧ u.ready = [] ∧ u.waiting = s.waiting ∧ u.returned = false := by
  intro s
  induction h : s.ready generalizing s with
  | nil => exact fun live => ⟨s, rfl, rfl, h, rfl, live⟩
  | cons f rest ih =>
    intro live
    have stepped : step reqs createdAt forceGlobal batchLimit s (.refuse 0 "") =
        some ({ s with ready := rest }.abandon f none "") := by
      simp [step, live, h]
    obtain ⟨u, more, next, ready, waiting, stillLive⟩ :=
      ih ({ s with ready := rest }.abandon f none "") rfl (by simp [abandon, live])
    refine ⟨u, ?_, next, ready, waiting, stillLive⟩
    simp only [List.length_cons, List.replicate_succ, Run.runSome, stepped, Option.bind_some]
    exact more

theorem runSome_timeouts :
    ∀ s : Fanout, s.returned = false → s.ready = [] →
      ∃ u, Run.runSome (step reqs createdAt forceGlobal batchLimit) s
          (List.replicate s.waiting.length (.timeout 0 none "")) = some u ∧
        u.next = s.next ∧ u.ready = [] ∧ u.waiting = [] ∧ u.returned = false := by
  intro s
  induction h : s.waiting generalizing s with
  | nil => exact fun live empty => ⟨s, rfl, rfl, empty, h, live⟩
  | cons w rest ih =>
    intro live empty
    have stepped : step reqs createdAt forceGlobal batchLimit s (.timeout 0 none "") =
        some ({ s with waiting := rest }.abandon w.1 none "") := by
      simp [step, live, h]
    obtain ⟨u, more, next, ready, waiting, stillLive⟩ :=
      ih ({ s with waiting := rest }.abandon w.1 none "") rfl (by simp [abandon, live])
        (by simp [abandon, empty])
    refine ⟨u, ?_, next, ready, waiting, stillLive⟩
    simp only [List.length_cons, List.replicate_succ, Run.runSome, stepped, Option.bind_some]
    exact more

theorem can_return (s : Fanout) (bound : s.next ≤ reqs.length) :
    ∃ more u, Run.runSome (step reqs createdAt forceGlobal batchLimit) s more = some u ∧
      u.returned = true := by
  cases live : s.returned
  · obtain ⟨u₁, visits, next₁, _, _, live₁⟩ :=
      runSome_visits reqs createdAt forceGlobal batchLimit (reqs.length - s.next) s live (by omega)
    obtain ⟨u₂, refusals, next₂, ready₂, _, live₂⟩ :=
      runSome_refusals reqs createdAt forceGlobal batchLimit u₁ live₁
    obtain ⟨u₃, timeouts, next₃, ready₃, waiting₃, live₃⟩ :=
      runSome_timeouts reqs createdAt forceGlobal batchLimit u₂ live₂ ready₂
    -- Nothing is left to wait for, so wg.Wait() returns.
    have finished : Run.runSome (step reqs createdAt forceGlobal batchLimit) u₃ [.finish] =
        some { u₃ with responses := Slots.writeAll u₃.asyncCh u₃.responses, returned := true } := by
      simp [Run.runSome, step, live₃, finish, next₃, next₂, next₁, ready₃, waiting₃]
    let events : List FanoutEvent :=
      List.replicate (reqs.length - s.next) (FanoutEvent.visit (Route.answer {})) ++
        (List.replicate u₁.ready.length (FanoutEvent.refuse 0 "") ++
          (List.replicate u₂.waiting.length (FanoutEvent.timeout 0 none "") ++ [FanoutEvent.finish]))
    refine ⟨events, { u₃ with responses := Slots.writeAll u₃.asyncCh u₃.responses, returned := true }, ?_, rfl⟩
    rw [Run.runSome_append, visits, Option.bind_some, Run.runSome_append, refusals, Option.bind_some,
      Run.runSome_append, timeouts, Option.bind_some, finished]
  · exact ⟨[], s, rfl, live⟩

end Closing

end Fanout

section Pairing

open Fanout

/-- Every run of a `GetRateLimits` call, whatever the order of the loop, the
goroutines, the batch flushes on `BatchLimit`, ticks or close, the owners'
fan-out and the replies, and whatever other callers queue on the same peers:
the call can still return, and once it has returned every request has exactly
its slot filled, with an answer computed for that very request (or an error
raised for it), as the goroutine that forwarded it handed it back. -/
theorem getRateLimits_responses_paired (reqs : List RateLimitReq) (createdAt : Int64) (forceGlobal : Bool)
    (batchLimit : Nat) (evs : List FanoutEvent) (t : Fanout)
    (ran : Run.runSome (step reqs createdAt forceGlobal batchLimit) (start reqs.length) evs = some t) :
    (∃ more u, Run.runSome (step reqs createdAt forceGlobal batchLimit) t more = some u ∧
        u.returned = true) ∧
      (t.returned = true → t.responses.length = reqs.length ∧
        ∀ i < reqs.length, ∃ a' a, t.responses[i]? = some (some a') ∧
          ComputedFor reqs createdAt forceGlobal t.log i a ∧ Reports a' a) := by
  obtain ⟨routed, covered⟩ := Run.invariant_runSome (step reqs createdAt forceGlobal batchLimit)
    (fun s => Routed reqs createdAt forceGlobal s ∧ Covered reqs.length s)
    (fun _ _ _ invariant stepped => ⟨invariant.1.step stepped, invariant.2.step invariant.1 stepped⟩)
    evs _ t ⟨routed_start reqs createdAt forceGlobal, covered_start reqs.length⟩ ran
  refine ⟨can_return reqs createdAt forceGlobal batchLimit t routed.bound,
    fun returned => ⟨routed.length, fun i inside => ?_⟩⟩
  obtain ⟨a', filled⟩ := covered.complete returned i inside
  obtain ⟨a, computed, reports⟩ := routed.answered i a' filled
  exact ⟨a', a, filled, computed, reports⟩

/-- Two requests: the first answered at the instance, the second forwarded to
`10.0.0.2:81` in a batch that another caller's request joined first. -/
def pairedRequests : List RateLimitReq :=
  [{ name := "requests_per_sec", uniqueKey := "account:1", hits := 1, limit := 10, duration := 1000 },
   { name := "requests_per_sec", uniqueKey := "account:2", hits := 1, limit := 10, duration := 1000 }]

/-- The owner answers the batch's second slot before its first. -/
def pairedEvents : List FanoutEvent :=
  [.visit (.answer { limit := 10, remaining := 9 }), .visit (.forward "10.0.0.2:81" true),
   .foreign "10.0.0.2:81" { name := "requests_per_sec", uniqueKey := "account:3" },
   .send 0, .tick "10.0.0.2:81", .compute 0 1 { limit := 10, remaining := 8 },
   .compute 0 0 { limit := 10, remaining := 3 }, .reply 0, .receive 0 none, .finish]

def pairedEnd : Fanout :=
  (Run.runSome (step pairedRequests 0 false 64) (start pairedRequests.length) pairedEvents).getD
    (start 0)

example : pairedEnd.responses =
    [some { limit := 10, remaining := 9 },
     some { limit := 10, remaining := 8, metadata := [("owner", "10.0.0.2:81")] }] := by
  decide

theorem getRateLimits_responses_paired_batch :
    Run.runSome (step pairedRequests 0 false 64) (start pairedRequests.length) pairedEvents =
        some pairedEnd ∧
      pairedEnd.returned = true ∧
      ((∃ more u, Run.runSome (step pairedRequests 0 false 64) pairedEnd more = some u ∧
          u.returned = true) ∧
        (pairedEnd.returned = true → pairedEnd.responses.length = pairedRequests.length ∧
          ∀ i < pairedRequests.length, ∃ a' a, pairedEnd.responses[i]? = some (some a') ∧
            ComputedFor pairedRequests 0 false pairedEnd.log i a ∧ Reports a' a)) :=
  ⟨rfl, rfl, getRateLimits_responses_paired pairedRequests 0 false 64 pairedEvents pairedEnd rfl⟩

end Pairing

end Gubernator
