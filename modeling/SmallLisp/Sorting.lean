/-!
# Sorting with an effectful comparison

A stable merge sort whose comparison may do anything a monad allows: fail, print, change state. The
list is halved, the first half one shorter if the length is odd; the first half is sorted before the
second; and a merge asks for every pair at the front of the two halves whether the first may stay in
front.
-/

namespace SmallLisp

variable {m : Type → Type} [Monad m] {α : Type}

/-- Merges two lists, taking from the first one whenever `inOrder` says that its front may stand
before the front of the second. -/
def mergeM (inOrder : α → α → m Bool) : List α → List α → m (List α)
  | [], bs => pure bs
  | as, [] => pure as
  | a :: as, b :: bs => do
    if ← inOrder a b then
      return a :: (← mergeM inOrder as (b :: bs))
    else
      return b :: (← mergeM inOrder (a :: as) bs)
termination_by as bs => as.length + bs.length

def mergeSortM (inOrder : α → α → m Bool) (items : List α) : m (List α) := do
  if items.length ≤ 1 then
    return items
  else
    let half := items.length / 2
    let front ← mergeSortM inOrder (items.take half)
    let back ← mergeSortM inOrder (items.drop half)
    mergeM inOrder front back
termination_by items.length
decreasing_by
  · simp only [List.length_take]; omega
  · simp only [List.length_drop]; omega

end SmallLisp
