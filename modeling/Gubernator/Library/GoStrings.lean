import Mathlib.Data.List.TakeWhile

/-!
Go's strings functions on a text read as its list of characters.
`strings.Split` on a one-character separator is `List.splitOn`;
`strings.SplitN(s, sep, 2)` cuts at the first separator, or leaves a text that
has none whole; `strings.TrimSpace` drops the white space of `unicode.IsSpace`
from both ends. A text cut at a separator it holds only after a free prefix
gives that prefix back, and a text with no white space at its ends is its own
trim.
-/

namespace GoStrings

/-- `unicode.IsSpace`: the Latin-1 spaces, and past Latin-1 the White_Space
characters. -/
def isSpace (c : Char) : Bool :=
  if c.toNat ≤ 0xFF then
    c.toNat = 0x09 || c.toNat = 0x0A || c.toNat = 0x0B || c.toNat = 0x0C || c.toNat = 0x0D ||
      c.toNat = 0x20 || c.toNat = 0x85 || c.toNat = 0xA0
  else
    c.toNat = 0x1680 || (0x2000 ≤ c.toNat && c.toNat ≤ 0x200A) || c.toNat = 0x2028 ||
      c.toNat = 0x2029 || c.toNat = 0x202F || c.toNat = 0x205F || c.toNat = 0x3000

def trimSpace (s : List Char) : List Char :=
  ((s.dropWhile isSpace).reverse.dropWhile isSpace).reverse

/-- `strings.SplitN(s, string(sep), 2)`: the text before the first separator and
the text after it, or the whole text when it has no separator. -/
def splitFirst (sep : Char) (s : List Char) : List (List Char) :=
  match s.dropWhile (· != sep) with
  | _ :: after => [s.takeWhile (· != sep), after]
  | [] => [s]

def Trimmed (s : List Char) : Prop :=
  (s.head?.all fun c => !isSpace c) = true ∧ (s.getLast?.all fun c => !isSpace c) = true

instance : DecidablePred Trimmed := fun _ => instDecidableAnd

theorem Trimmed.head {s : List Char} (trimmed : Trimmed s) : ∀ c ∈ s.head?, isSpace c = false := by
  intro c member
  have first := trimmed.1
  rw [Option.mem_def.mp member] at first
  simpa using first

theorem Trimmed.last {s : List Char} (trimmed : Trimmed s) : ∀ c ∈ s.getLast?, isSpace c = false := by
  intro c member
  have final := trimmed.2
  rw [Option.mem_def.mp member] at final
  simpa using final

theorem dropWhile_of_head {p : Char → Bool} {s : List Char} (head : ∀ c ∈ s.head?, p c = false) :
    s.dropWhile p = s := by
  cases s with
  | nil => rfl
  | cons c rest => rw [List.dropWhile_cons, if_neg (by simpa using head c rfl)]

theorem trimSpace_of_trimmed {s : List Char} (trimmed : Trimmed s) : trimSpace s = s := by
  have back : ∀ c ∈ s.reverse.head?, isSpace c = false := by
    rw [List.head?_reverse]
    exact trimmed.last
  rw [trimSpace, dropWhile_of_head trimmed.head, dropWhile_of_head back, List.reverse_reverse]

theorem splitFirst_of_not_mem {sep : Char} {s : List Char} (absent : sep ∉ s) : splitFirst sep s = [s] := by
  have kept : s.dropWhile (· != sep) = [] := by
    rw [List.dropWhile_eq_nil_iff]
    intro c member
    simpa using fun same : c = sep => absent (same ▸ member)
  rw [splitFirst, kept]

-- The first separator cuts the text: the prefix before it has none.
theorem splitFirst_append {sep : Char} {key : List Char} (absent : sep ∉ key) (value : List Char) :
    splitFirst sep (key ++ sep :: value) = [key, value] := by
  have before : ∀ c ∈ key, (c != sep) = true := fun c member => by
    simpa using fun same : c = sep => absent (same ▸ member)
  have dropped : (key ++ sep :: value).dropWhile (· != sep) = sep :: value := by
    rw [List.dropWhile_append_of_pos before, List.dropWhile_cons, if_neg (by simp)]
  rw [splitFirst, dropped, List.takeWhile_append_of_pos before, List.takeWhile_cons, if_neg (by simp),
    List.append_nil]

end GoStrings
