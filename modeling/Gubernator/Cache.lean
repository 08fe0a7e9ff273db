import Mathlib.Data.Rat.Defs
import Gubernator.Proto

/-!
The cached rate-limit state of cache.go and store.go. A `CacheItem.Value` is an
`interface{}` that holds a `*TokenBucketItem`, a `*LeakyBucketItem` or nil; the
two bucket records are values here, and an in-place update of the record a
cache holds is modelled by writing the updated record back into that cache.
`LeakyBucketItem.Remaining` is a `float64`, kept as an exact rational.

The `Store` interface is user code: it is a parameter with its own state,
receiving and returning items by value.
-/

namespace Gubernator

structure TokenBucketItem where
  status : Status := .UNDER_LIMIT
  limit : Int64
  duration : Int64
  remaining : Int64
  createdAt : Int64
  deriving DecidableEq, Repr

structure LeakyBucketItem where
  limit : Int64
  duration : Int64
  remaining : ℚ
  updatedAt : Int64
  burst : Int64
  deriving DecidableEq, Repr

inductive CacheValue where
  | nil
  | tokenBucket (t : TokenBucketItem)
  | leakyBucket (b : LeakyBucketItem)
  deriving DecidableEq, Repr

structure CacheItem where
  algorithm : Algorithm
  key : String
  value : CacheValue
  expireAt : Int64
  invalidAt : Int64 := 0
  deriving DecidableEq, Repr

/-- `IsExpired`, with `now` the clock's `MillisecondNow()`. -/
def CacheItem.isExpired (item : CacheItem) (now : Int64) : Bool :=
  if item.invalidAt ≠ 0 ∧ item.invalidAt < now then true
  else if item.expireAt < now then true
  else false

-- An item that was never invalidated is live up to and including its `ExpireAt`.
theorem CacheItem.isExpired_eq_false {item : CacheItem} {now : Int64} (valid : item.invalidAt = 0)
    (live : now ≤ item.expireAt) : item.isExpired now = false := by
  have notLater : ¬ item.expireAt < now := by
    rw [Int64.lt_iff_toInt_lt]
    rw [Int64.le_iff_toInt_le] at live
    omega
  simp [CacheItem.isExpired, valid, notLater]

/-- The `Store` interface: `OnChange`, `Get` and `Remove` over a state `σ`. -/
structure Store (σ : Type) where
  onChange : σ → RateLimitReq → CacheItem → σ
  get : σ → RateLimitReq → Option CacheItem × σ
  remove : σ → String → σ

namespace Store

variable {σ : Type}

def removeIf : Option (Store σ) → σ → String → σ
  | some s, st, key => s.remove st key
  | none, st, _ => st

def onChangeIf (s : Option (Store σ)) (reqState : RateLimitReqState) (st : σ)
    (r : RateLimitReq) (item : CacheItem) : σ :=
  match s with
  | some s => if reqState.IsOwner then s.onChange st r item else st
  | none => st

@[simp] theorem removeIf_none (st : σ) (key : String) : removeIf none st key = st := rfl

@[simp] theorem onChangeIf_none (reqState : RateLimitReqState) (st : σ) (r : RateLimitReq)
    (item : CacheItem) : onChangeIf none reqState st r item = st := rfl

end Store

end Gubernator
