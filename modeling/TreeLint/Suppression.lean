import Std.Data.HashMap
import TreeLint.Directive
import TreeLint.Tree.Identity
import TreeLint.Tree.Inspect

/-!
# Suppressed rules

A rule is suppressed on a node when the node itself, or a node above it, is a declaration whose
comment silences the rule; the innermost such declaration is the suppressor.  The comment of a
declaration is parsed at most once: a memo keeps the directives under the declaration, that is
under its tree and its index, and carries the proof that what it keeps is what parsing would give.
One memo serves all rules, nodes and trees.

A comment that cannot be read ends the search at its declaration, and leaves nothing in the memo.
-/

namespace TreeLint

open Text (Unwritable)

/-- The directives in the comment of a declaration. -/
def Tree.directives (t : Tree) (d : t.Pos) : Except Unwritable (List Directive) :=
  (t.docComment d).map Directive.parse

namespace Suppression

structure Memo where
  parsed : Std.HashMap NodeRef (List Directive)
  sound : ∀ (t : Tree) (d : t.Pos) directives,
    parsed[t.ref d]? = some directives → t.directives d = .ok directives

namespace Memo

def empty : Memo := ⟨∅, by simp⟩

/-- The memo with the directives of one more declaration. -/
def learn (memo : Memo) (t : Tree) (d : t.Pos) (directives : List Directive)
    (h : t.directives d = .ok directives) : Memo where
  parsed := memo.parsed.insert (t.ref d) directives
  sound := by
    intro u e found hfound
    rw [Std.HashMap.getElem?_insert] at hfound
    split at hfound
    · next heq =>
      -- An equal key is the same index of the same tree, and so the same declaration.
      obtain ⟨rfl, hindex⟩ := Tree.ref_eq_ref_iff.1 (eq_of_beq heq)
      cases Fin.ext hindex
      cases hfound
      exact h
    · exact memo.sound u e found hfound

/-- The directives of a declaration, from the memo if it has them. -/
def directives (memo : Memo) (t : Tree) (d : t.Pos) :
    Except Unwritable (List Directive) × Memo :=
  match memo.parsed[t.ref d]? with
  | some found => (.ok found, memo)
  | none =>
    match h : t.directives d with
    | .ok found => (.ok found, memo.learn t d found h)
    | .error fault => (.error fault, memo)

@[simp] theorem directives_fst (memo : Memo) (t : Tree) (d : t.Pos) :
    (memo.directives t d).1 = t.directives d := by
  unfold directives
  split
  · next found h => exact (memo.sound t d found h).symm
  · split <;> (next h => exact h.symm)

end Memo

/-- Whether the comment of a declaration silences a rule. -/
def silencedBy (t : Tree) (rule : String) (memo : Memo) (i : t.Pos) :
    Except Unwritable Bool × Memo :=
  if (t.kind i).isDeclaration then
    let (directives, memo) := memo.directives t i
    (directives.map fun found => found.any (·.suppresses rule), memo)
  else (.ok false, memo)

/-- The declaration at `i`, or the nearest one around it. -/
def nearest? (t : Tree) (i : t.Pos) : Option t.Pos :=
  if (t.kind i).isDeclaration then some i else t.enclosing? Kind.isDeclaration i

/-- The first declaration that silences the rule, from `d` outward. -/
def outward (t : Tree) (rule : String) (memo : Memo) (d : t.Pos) :
    Except Unwritable (Option t.Pos) × Memo :=
  match silencedBy t rule memo d with
  | (.error fault, memo) => (.error fault, memo)
  | (.ok true, memo) => (.ok (some d), memo)
  | (.ok false, memo) =>
    match _h : t.enclosing? Kind.isDeclaration d with
    | none => (.ok none, memo)
    | some around => outward t rule memo around
termination_by d.val
decreasing_by exact Tree.enclosing?_lt _h

/-- The innermost declaration, `i` included, that suppresses the rule at `i`. -/
def suppressor (t : Tree) (rule : String) (memo : Memo) (i : t.Pos) :
    Except Unwritable (Option t.Pos) × Memo :=
  match nearest? t i with
  | none => (.ok none, memo)
  | some d => outward t rule memo d

end Suppression

end TreeLint
