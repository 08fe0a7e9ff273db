import Mathlib.Data.Int.Init
import Mathlib.Tactic.Linarith

/-!
Go's `int64` arithmetic wraps modulo `2^64`. When the exact result is
representable, wrapping is invisible and each operation is the integer one.
These lemmas move between `Int64` and `Int` under that side condition, so that
proofs about a model written with `Int64` can be closed by `omega`.
-/

namespace Int64Range

/-- The exact result fits in a signed 64-bit word. -/
def Fits (x : Int) : Prop := -2 ^ 63 ≤ x ∧ x < 2 ^ 63

instance (x : Int) : Decidable (Fits x) := inferInstanceAs (Decidable (_ ∧ _))

theorem fits_toInt (a : Int64) : Fits a.toInt := ⟨a.le_toInt, a.toInt_lt⟩

theorem bmod_of_fits {x : Int} (fits : Fits x) : x.bmod (2 ^ 64) = x := by
  apply Int.bmod_eq_of_le <;> simp only [Fits] at fits <;> omega

theorem toInt_add_of_fits (a b : Int64) (fits : Fits (a.toInt + b.toInt)) :
    (a + b).toInt = a.toInt + b.toInt := by
  rw [Int64.toInt_add, bmod_of_fits fits]

theorem toInt_sub_of_fits (a b : Int64) (fits : Fits (a.toInt - b.toInt)) :
    (a - b).toInt = a.toInt - b.toInt := by
  rw [Int64.toInt_sub, bmod_of_fits fits]

theorem toInt_ofInt_of_fits {x : Int} (fits : Fits x) : (Int64.ofInt x).toInt = x := by
  rw [Int64.toInt_ofInt]
  exact bmod_of_fits fits

-- A sum whose operands have opposite signs, or a difference whose operands
-- share a sign, never leaves the range.
theorem toInt_sub_of_nonneg (a b : Int64) (left : 0 ≤ a.toInt) (right : 0 ≤ b.toInt) :
    (a - b).toInt = a.toInt - b.toInt := by
  have := fits_toInt a
  have := fits_toInt b
  apply toInt_sub_of_fits
  simp only [Fits] at *
  omega

theorem toInt_div_of_nonneg (a b : Int64) (nonneg : 0 ≤ a.toInt) (pos : 0 < b.toInt) :
    (a / b).toInt = a.toInt / b.toInt := by
  have notMinusOne : b ≠ -1 := by
    rintro rfl
    exact absurd pos (by decide)
  rw [Int64.toInt_div_of_ne_right _ _ notMinusOne, Int.tdiv_eq_ediv_of_nonneg nonneg]

end Int64Range
