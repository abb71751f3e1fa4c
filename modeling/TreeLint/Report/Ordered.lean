/-!
# Tables in ascending order of their keys

An association list whose keys ascend.  Changing the entry of a key that is not there puts it in its
place.
-/

namespace TreeLint.Ordered

variable {κ β : Type} [LT κ] [DecidableLT κ] [DecidableEq κ]

/-- Changes the entry of a key; a key that is missing is put in order. -/
def alter (k : κ) (f : Option β → β) : List (κ × β) → List (κ × β)
  | [] => [(k, f none)]
  | (k', b) :: rest =>
    if k < k' then (k, f none) :: (k', b) :: rest
    else if k = k' then (k', f (some b)) :: rest
    else (k', b) :: alter k f rest

end TreeLint.Ordered
