import Mathlib.Data.Rat.Floor
import Gubernator.Library.Int64Range

/-!
`float64` quantities as exact rationals. Go converts a float to an integer by
truncating toward zero; `int64(x)` of an in-range value is that truncation, and
`float64(n)` of an integer is exact here (Go rounds beyond 2^53). An
out-of-range conversion is implementation-defined in Go; it wraps here.
-/

namespace Truncation

def truncate (q : ℚ) : Int := if 0 ≤ q then ⌊q⌋ else ⌈q⌉

def toInt64 (q : ℚ) : Int64 := Int64.ofInt (truncate q)

def ofInt64 (n : Int64) : ℚ := n.toInt

end Truncation
