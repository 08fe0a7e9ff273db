import Gubernator.Workers

/-!
`V1Instance.GetRateLimits` of gubernator.go on an instance that is the only
peer, so that `GetPeer` picks the instance itself for every key and every
request is applied locally, in the order of the batch. The checks of each
request, the `CreatedAt` default, `ForceGlobal` and the error texts follow the
source; a cancelled context is left out, and so is the queue of GLOBAL updates
that `getLocalRateLimit` feeds, which no response reads. `GetPeerRateLimits` is
the same instance answering a peer's batch as the owner.
-/

namespace Gubernator

open CivilTime

def maxBatchSize : Nat := 1000

def epochMillis (t : Time) : Int64 := t.unixNano / 1000000

/-- Lines 203-226 for one request: its error, or the request with `CreatedAt`
defaulted to the batch's time and `GLOBAL` forced when configured. -/
def prepareRequest (createdAt : Int64) (forceGlobal : Bool) (req : RateLimitReq) :
    Except String RateLimitReq :=
  if req.uniqueKey = "" then .error "field 'unique_key' cannot be empty"
  else if req.name = "" then .error "field 'namespace' cannot be empty"
  else
    let req := if req.createdAt = none ∨ req.createdAt = some 0 then
        { req with createdAt := some createdAt }
      else req
    .ok (if forceGlobal then { req with behavior := setBehavior req.behavior Behavior.GLOBAL true }
      else req)

/-- A lone instance: its worker pool and `Behaviors.ForceGlobal`. -/
structure V1Instance (σ : Type) where
  workerPool : WorkerPool σ
  forceGlobal : Bool

variable {σ : Type}

namespace V1Instance

def getLocalRateLimit (s : V1Instance σ) (st : σ) (now : Time) (req : RateLimitReq)
    (reqState : RateLimitReqState) : Option (Except String RateLimitResp × V1Instance σ × σ) :=
  (s.workerPool.getRateLimit st now req reqState).map fun (resp, p, st) =>
    (resp.mapError (wrapError "during workerPool.GetRateLimit"), { s with workerPool := p }, st)

def getRateLimitsStep (s : V1Instance σ) (st : σ) (now : Time) (createdAt : Int64)
    (req : RateLimitReq) : Option (RateLimitResp × V1Instance σ × σ) :=
  let key := req.name ++ "_" ++ req.uniqueKey
  match prepareRequest createdAt s.forceGlobal req with
  | .error e => some ({ error := e }, s, st)
  | .ok req =>
    (s.getLocalRateLimit st now req ⟨true⟩).map fun (resp, s, st) =>
      match resp with
      | .ok rl => (rl, s, st)
      | .error e => ({ error := wrapError ("Error while apply rate limit for '" ++ key ++ "'") e }, s, st)

/-- The requests of a batch answered one after another; `none` once a worker
lookup panics. -/
def answerEach (answer : V1Instance σ → σ → RateLimitReq → Option (RateLimitResp × V1Instance σ × σ)) :
    V1Instance σ → σ → List RateLimitReq → Option (List RateLimitResp × V1Instance σ × σ)
  | s, st, [] => some ([], s, st)
  | s, st, req :: reqs =>
    (answer s st req).bind fun (resp, s, st) =>
      (answerEach answer s st reqs).map fun (resps, s, st) => (resp :: resps, s, st)

/-- `GetRateLimits`: a batch over `maxBatchSize` is refused, and otherwise every
request is answered at the batch's time. -/
def getRateLimits (s : V1Instance σ) (st : σ) (now : Time) (reqs : List RateLimitReq) :
    Option (Except String (List RateLimitResp) × V1Instance σ × σ) :=
  if reqs.length > maxBatchSize then
    some (.error ("Requests.RateLimits list too large; max size is '" ++ toString maxBatchSize ++ "'"),
      s, st)
  else
    (answerEach (fun s st req => s.getRateLimitsStep st now (epochMillis now) req) s st reqs).map
      fun (resps, s, st) => (.ok resps, s, st)

/-- The fan-out body of `GetPeerRateLimits` for one request: a GLOBAL request
drains on over-limit, and a missing `CreatedAt` is the owner's time. -/
def getPeerRateLimitsStep (s : V1Instance σ) (st : σ) (now : Time) (req : RateLimitReq) :
    Option (RateLimitResp × V1Instance σ × σ) :=
  let req := if hasBehavior req.behavior Behavior.GLOBAL then
      { req with behavior := setBehavior req.behavior Behavior.DRAIN_OVER_LIMIT true }
    else req
  let req := if req.createdAt = none ∨ req.createdAt = some 0 then
      { req with createdAt := some (epochMillis now) }
    else req
  (s.getLocalRateLimit st now req ⟨true⟩).map fun (resp, s, st) =>
    match resp with
    | .ok rl => (rl, s, st)
    | .error e => ({ error := wrapError "Error in getLocalRateLimit" e }, s, st)

/-- `GetPeerRateLimits` on the owner. The source fans the requests out to
goroutines and places each answer at its request's index; the model answers
them in the batch's order. -/
def getPeerRateLimits (s : V1Instance σ) (st : σ) (now : Time) (reqs : List RateLimitReq) :
    Option (Except String (List RateLimitResp) × V1Instance σ × σ) :=
  if reqs.length > maxBatchSize then
    some (.error ("'PeerRequest.rate_limits' list too large; max size is '" ++
      toString maxBatchSize ++ "'"), s, st)
  else
    (answerEach (fun s st req => s.getPeerRateLimitsStep st now req) s st reqs).map
      fun (resps, s, st) => (.ok resps, s, st)

end V1Instance

/-- A lone instance with one worker, the default cache size and no Store. With
one worker every hash below `2^63` picks worker 0; the constant hash stands for
xxhash. -/
def loneInstance : V1Instance Unit := ⟨newWorkerPool (fun _ => 0) 1 0 none, false⟩

/-! Every cache, and the worker that holds it, is indexed by `HashKey`, which
joins Name and UniqueKey with `_`. Names such as `requests_per_sec` carry `_`
themselves, so two different pairs can share one key and with it one bucket. -/

def collidingVictim : RateLimitReq :=
  { name := "a", uniqueKey := "b_c", hits := 1, limit := 1, duration := 1000 }

def collidingIntruder : RateLimitReq :=
  { name := "a_b", uniqueKey := "c", hits := 1, limit := 1, duration := 1000 }

/-- `(a, b_c)` and `(a_b, c)` are different rate limits with one HashKey: the
victim's hit is let through alone, and refused once the intruder's request
comes first in the batch. Sharing a HashKey, the two share a worker under any
hasher. -/
theorem getRateLimits_hashKey_collision :
    (collidingVictim.name, collidingVictim.uniqueKey) ≠
        (collidingIntruder.name, collidingIntruder.uniqueKey) ∧
      collidingVictim.hashKey = collidingIntruder.hashKey ∧
      (loneInstance.getRateLimits () ⟨0⟩ [collidingVictim]).map (·.1) =
        some (.ok [{ limit := 1, remaining := 0, resetTime := 1000 }]) ∧
      (loneInstance.getRateLimits () ⟨0⟩ [collidingIntruder, collidingVictim]).map (·.1) =
        some (.ok [{ limit := 1, remaining := 0, resetTime := 1000 },
          { status := .OVER_LIMIT, limit := 1, remaining := 0, resetTime := 1000 }]) := by
  decide

end Gubernator
