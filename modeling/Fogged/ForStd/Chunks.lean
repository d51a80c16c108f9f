import Mathlib.Data.List.Basic

/-!
# Cutting a list into pieces

`slice::chunks`: pieces of `n` elements, the last one perhaps shorter.
-/

namespace List

variable {α : Type}

/-- `chunksOf` with a budget for the number of pieces. -/
def chunksWithin (n : Nat) : Nat → List α → List (List α)
  | 0, _ => []
  | budget + 1, xs => if xs.isEmpty then [] else xs.take n :: chunksWithin n budget (xs.drop n)

/-- `xs.chunks(n)`. -/
def chunksOf (n : Nat) (xs : List α) : List (List α) := chunksWithin n xs.length xs

end List
