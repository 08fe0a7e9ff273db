import Mathlib.Control.Monad.Basic
import Gubernator.Library.BitFlags

/-!
The wire data of gubernator.proto and peers.proto, with the helpers of
client.go and gubernator.go that read it. Every `int64` field is an `Int64`,
so sums and differences wrap as in Go. `Behavior` is the `int32` flag enum; only
bitwise operations act on it, so it is kept as a 32-bit vector. Optional
pointers (`created_at`) are `Option`. Messages keep only the fields that the
modelled functions read or write.
-/

namespace Gubernator

/-- The `Algorithm` enum. Proto3 enums are open, so a peer or client may send a
value other than the two named ones; `handleGetRateLimit` rejects those. -/
inductive Algorithm where
  | TOKEN_BUCKET
  | LEAKY_BUCKET
  | unrecognized (value : Int32) (outside : value ≠ 0 ∧ value ≠ 1)
  deriving DecidableEq, Repr

inductive Status where
  | UNDER_LIMIT
  | OVER_LIMIT
  deriving DecidableEq, Repr

instance : Inhabited Status := ⟨.UNDER_LIMIT⟩

abbrev Behavior := BitVec 32

namespace Behavior

def BATCHING : Behavior := 0
def NO_BATCHING : Behavior := 1
def GLOBAL : Behavior := 2
def DURATION_IS_GREGORIAN : Behavior := 4
def RESET_REMAINING : Behavior := 8
def MULTI_REGION : Behavior := 16
def DRAIN_OVER_LIMIT : Behavior := 32

end Behavior

def hasBehavior (b flag : Behavior) : Bool := b &&& flag != 0

def setBehavior (b flag : Behavior) (set : Bool) : Behavior :=
  if set then b ||| flag else b &&& (b ^^^ flag)

structure RateLimitReq where
  name : String := ""
  uniqueKey : String := ""
  hits : Int64 := 0
  limit : Int64 := 0
  duration : Int64 := 0
  algorithm : Algorithm := .TOKEN_BUCKET
  behavior : Behavior := 0
  burst : Int64 := 0
  metadata : List (String × String) := []
  createdAt : Option Int64 := none
  deriving DecidableEq, Repr

structure RateLimitResp where
  status : Status := .UNDER_LIMIT
  limit : Int64 := 0
  remaining : Int64 := 0
  resetTime : Int64 := 0
  error : String := ""
  metadata : List (String × String) := []
  deriving DecidableEq, Repr

def RateLimitReq.hashKey (m : RateLimitReq) : String := m.name ++ "_" ++ m.uniqueKey

/-- `*r.CreatedAt` as the algorithms read it. Every caller defaults a nil
`CreatedAt` before a request reaches them, so the model reads an unset one as 0. -/
def RateLimitReq.createdAtValue (r : RateLimitReq) : Int64 := r.createdAt.getD 0

structure RateLimitReqState where
  IsOwner : Bool
  deriving DecidableEq, Repr

structure GetPeerRateLimitsReq where
  requests : List RateLimitReq
  deriving DecidableEq, Repr

structure GetPeerRateLimitsResp where
  rateLimits : List RateLimitResp
  deriving DecidableEq, Repr

structure UpdatePeerGlobal where
  key : String
  status : RateLimitResp
  algorithm : Algorithm
  duration : Int64
  createdAt : Int64
  deriving DecidableEq, Repr

structure PeerInfo where
  dataCenter : String := ""
  httpAddress : String := ""
  grpcAddress : String
  isOwner : Bool := false
  deriving DecidableEq, Repr

/-! Each behavior constant is one bit, so the flag operations act bit by bit. -/

theorem hasBehavior_twoPow (b : Behavior) {i : Nat} (inside : i < 32) :
    hasBehavior b (BitVec.twoPow 32 i) = b.getLsbD i := by
  have bit := BitFlags.and_twoPow_ne_zero_iff inside b
  unfold hasBehavior
  cases value : b.getLsbD i <;> simp_all

theorem hasBehavior_setBehavior (b : Behavior) {i j : Nat} (insideI : i < 32) (insideJ : j < 32)
    (set : Bool) :
    hasBehavior (setBehavior b (BitVec.twoPow 32 i) set) (BitVec.twoPow 32 j) =
      if i = j then set else hasBehavior b (BitVec.twoPow 32 j) := by
  rw [hasBehavior_twoPow _ insideJ, hasBehavior_twoPow _ insideJ]
  cases set
  · simp only [setBehavior, BitFlags.getLsbD_clear_twoPow, insideI, decide_true, Bool.true_and,
      Bool.false_eq_true, ↓reduceIte]
    by_cases same : i = j <;> simp [same]
  · simp only [setBehavior, BitFlags.getLsbD_or_twoPow, insideI, decide_true, Bool.true_and,
      ↓reduceIte]
    by_cases same : i = j <;> simp [same]

namespace Behavior

theorem NO_BATCHING_eq : NO_BATCHING = BitVec.twoPow 32 0 := by decide
theorem GLOBAL_eq : GLOBAL = BitVec.twoPow 32 1 := by decide
theorem RESET_REMAINING_eq : RESET_REMAINING = BitVec.twoPow 32 3 := by decide

end Behavior

end Gubernator
