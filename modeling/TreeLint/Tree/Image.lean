import TreeLint.Value.Same

/-!
# Images in use

Rules take the image of a node for a name: they look for words in it, trim it, file nodes under it,
and put two of them together.  All of this works for every text, and every image of a dump is one.
A node that is added by hand may have any value for its image; then some of these uses fail, and
each fault says which.
-/

namespace TreeLint

/-- What a text is needed for. -/
inductive TextUse where
  | search
  | trim
  deriving DecidableEq, Repr

inductive ImageFault where
  | notText (use : TextUse) (typeName : String)
  | noKey (typeName : String)
  | noSum (left right : String)
  | tooLarge
  deriving DecidableEq, Repr

namespace ImageFault

/-- The words for two values that cannot be put together.  Texts and lists take only their like. -/
def noSumText (left right : String) : String :=
  if left = "str" ∨ left = "list" then
    "can only concatenate " ++ left ++ " (not \"" ++ right ++ "\") to " ++ left
  else "unsupported operand type(s) for +: '" ++ left ++ "' and '" ++ right ++ "'"

def message : ImageFault → String
  | .notText .search typeName => "expected string or bytes-like object, got '" ++ typeName ++ "'"
  | .notText .trim typeName => "'" ++ typeName ++ "' object has no attribute 'strip'"
  | .noKey typeName => Value.noKeyText typeName
  | .noSum left right => noSumText left right
  | .tooLarge => "int too large to convert to float"

/-- The name of the kind of error. -/
def kindName : ImageFault → String
  | .notText .search _ => "TypeError"
  | .notText .trim _ => "AttributeError"
  | .noKey _ => "TypeError"
  | .noSum _ _ => "TypeError"
  | .tooLarge => "OverflowError"

end ImageFault

namespace Image

/-- The text of an image that is used as one. -/
def text (use : TextUse) : Value → Except ImageFault String
  | .str s => .ok s
  | v => .error (.notText use v.typeName)

/-- An image that something is filed under. -/
def key (v : Value) : Except ImageFault Value :=
  if v.isKey then .ok v else .error (.noKey v.typeName)

/-- An integer, or a truth value as one. -/
def whole? : Value → Option Int
  | .int n => some n
  | .bool b => some (if b then 1 else 0)
  | _ => none

/-- A number as a double, in a sum in which another one is a double. -/
def double? : Value → Option (Except ImageFault Binary64)
  | .float x => some (.ok x)
  | v => (whole? v).map fun n =>
    match Binary64.ofInt? n with
    | some x => .ok x
    | none => .error .tooLarge

/-- Two images put together: texts and lists one after the other, numbers added. -/
def join : Value → Value → Except ImageFault Value
  | .str a, .str b => .ok (.str (a ++ b))
  | .list a, .list b => .ok (.list (a ++ b))
  | a, b =>
    match whole? a, whole? b with
    | some m, some n => .ok (.int (m + n))
    | _, _ =>
      match double? a, double? b with
      | some (.ok x), some (.ok y) => .ok (.float (x.add y))
      | some (.error fault), some _ => .error fault
      | some _, some (.error fault) => .error fault
      | _, _ => .error (.noSum a.typeName b.typeName)

@[simp] theorem text_str (use : TextUse) (s : String) : text use (.str s) = .ok s := rfl

@[simp] theorem key_str (s : String) : key (.str s) = .ok (.str s) := rfl

@[simp] theorem join_str (a b : String) : join (.str a) (.str b) = .ok (.str (a ++ b)) := rfl

end Image

end TreeLint
