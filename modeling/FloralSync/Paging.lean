import Mathlib.Data.List.Flatten
import Mathlib.Data.List.Range

/-!
# Pages of a list

Page `n` (the first one is page 0) has the elements from `n * size` on, at most `size` of them. The first pages
together are the beginning of the list (`flatMap_page`), and all of them are the list.
-/

namespace Paging

variable {α : Type*} {size n : Nat} {xs : List α}

def page (size n : Nat) (xs : List α) : List α := (xs.drop (n * size)).take size

/-- How many pages there are. -/
def pageCount (size length : Nat) : Nat := (length + size - 1) / size

theorem le_pageCount_mul (hsize : 0 < size) (length : Nat) : length ≤ pageCount size length * size := by
  have hdiv := Nat.div_add_mod (length + size - 1) size
  have hmod := Nat.mod_lt (length + size - 1) hsize
  rw [pageCount, Nat.mul_comm]
  omega

theorem page_eq_nil (hsize : 0 < size) (h : pageCount size xs.length ≤ n) : page size n xs = [] := by
  have hle := (le_pageCount_mul hsize xs.length).trans (Nat.mul_le_mul_right size h)
  rw [page, List.drop_eq_nil_of_le hle, List.take_nil]

theorem flatMap_page (size k : Nat) (xs : List α) :
    (List.range k).flatMap (page size · xs) = xs.take (k * size) := by
  induction k with
  | zero => simp
  | succ k ih =>
    rw [List.range_succ, List.flatMap_append, ih, List.flatMap_singleton, Nat.succ_mul, List.take_add]
    rfl

theorem flatMap_pages (hsize : 0 < size) (xs : List α) :
    (List.range (pageCount size xs.length)).flatMap (page size · xs) = xs := by
  rw [flatMap_page, List.take_of_length_le (le_pageCount_mul hsize _)]

theorem page_map {β : Type*} (f : α → β) : page size n (xs.map f) = (page size n xs).map f := by
  rw [page, page, List.map_take, List.map_drop]

end Paging
