import Mathlib.Data.BitVec

/-!
Flag sets packed into a fixed-width bit vector. A flag is a single bit
`twoPow w i`; testing is `x &&& flag ≠ 0`, setting is `x ||| flag` and clearing
is `x &&& (x ^^^ flag)`, the idioms of C-family flag enums. The lemmas reduce
each of them to the bit they touch.
-/

namespace BitFlags

variable {w : Nat}

theorem twoPow_ne_zero {i : Nat} (inside : i < w) : BitVec.twoPow w i ≠ 0 := by
  intro zero
  have bit := congrArg (fun x : BitVec w => x.getLsbD i) zero
  simp [inside] at bit

theorem and_twoPow_ne_zero_iff {i : Nat} (inside : i < w) (x : BitVec w) :
    x &&& BitVec.twoPow w i ≠ 0 ↔ x.getLsbD i = true := by
  rw [BitVec.and_twoPow]
  by_cases bit : x.getLsbD i = true
  · simpa [bit] using twoPow_ne_zero inside
  · simp [bit]

theorem getLsbD_or_twoPow (x : BitVec w) (i j : Nat) :
    (x ||| BitVec.twoPow w i).getLsbD j = (x.getLsbD j || (decide (i < w) && decide (i = j))) := by
  simp [BitVec.getLsbD_twoPow]

-- Clearing through `x ^^^ flag` keeps every bit of `x` except the flag's own.
theorem getLsbD_clear_twoPow (x : BitVec w) (i j : Nat) :
    (x &&& (x ^^^ BitVec.twoPow w i)).getLsbD j =
      (x.getLsbD j && !(decide (i < w) && decide (i = j))) := by
  simp only [BitVec.getLsbD_and, BitVec.getLsbD_xor, BitVec.getLsbD_twoPow]
  cases x.getLsbD j <;> simp

/-- Setting or clearing a flag, as Go's flag types do it. -/
def setFlag (x flag : BitVec w) (set : Bool) : BitVec w := if set then x ||| flag else x &&& (x ^^^ flag)

def hasFlag (x flag : BitVec w) : Bool := x &&& flag != 0

end BitFlags
