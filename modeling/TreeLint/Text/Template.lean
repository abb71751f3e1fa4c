import TreeLint.Text.Numeral
import TreeLint.Text.Quoted

/-!
# Message templates

A template is text with fields between braces.  A field holds the position of an argument, or
nothing, in which case the arguments are taken in order; one template uses one of the two ways.  A
doubled brace stands for itself.  The template is read from left to right and the first fault found
is the one reported.  An argument is written where a field refers to it, so one that cannot be
written does no harm unless it is used.
-/

namespace TreeLint.Text.Template

def openBrace : Char := '\x7b'

def closeBrace : Char := '\x7d'

inductive Fault where
  | missingArgument (position : Nat)
  | unknownName (name : String)
  | loneClose
  | loneOpen
  | openInField
  | unclosedField
  | tooManyDigits
  | manualThenAutomatic
  | automaticThenManual
  | unwritable
  deriving DecidableEq, Repr

def Fault.message : Fault → String
  | .missingArgument n =>
    "Replacement index " ++ toString n ++ " out of range for positional args tuple"
  | .unknownName name => quoted name
  | .loneClose => "Single '\x7d' encountered in format string"
  | .loneOpen => "Single '\x7b' encountered in format string"
  | .openInField => "unexpected '\x7b' in field name"
  | .unclosedField => "expected '\x7d' before end of string"
  | .tooManyDigits => "Too many decimal digits in format string"
  | .manualThenAutomatic =>
    "cannot switch from manual field specification to automatic field numbering"
  | .automaticThenManual =>
    "cannot switch from automatic field numbering to manual field specification"
  | .unwritable => Unwritable.tooManyDigits.message

/-- How the fields met so far have named their arguments. -/
inductive Numbering where
  | open
  | automatic (next : Nat)
  | manual
  deriving DecidableEq, Repr

/-- The greatest position that a field may hold. -/
def maxPosition : Nat := 9223372036854775807

/-- The position that the rest of a field holds after `value`; nothing when it is not a number. -/
def positionFrom (value : Nat) : List Char → Except Fault (Option Nat)
  | [] => .ok (some value)
  | c :: rest =>
    match digitValue? c with
    | none => .ok none
    | some d =>
      if maxPosition < 10 * value + d then .error .tooManyDigits
      else positionFrom (10 * value + d) rest

/-- The position a field refers to, and the numbering after it. -/
def Numbering.resolve (numbering : Numbering) (name : List Char) :
    Except Fault (Nat × Numbering) :=
  if name.isEmpty then
    match numbering with
    | .open => .ok (0, .automatic 1)
    | .automatic next => .ok (next, .automatic (next + 1))
    | .manual => .error .manualThenAutomatic
  else
    match positionFrom 0 name with
    | .error fault => .error fault
    | .ok none => .error (.unknownName (String.ofList name))
    | .ok (some position) =>
      match numbering with
      | .automatic _ => .error .automaticThenManual
      | _ => .ok (position, .manual)

def argument (arguments : List (Except Unwritable String)) (position : Nat) :
    Except Fault String :=
  match arguments[position]? with
  | some (.ok text) => .ok text
  | some (.error _) => .error .unwritable
  | none => .error (.missingArgument position)

/-- Renders the rest of a template.  `field` is the name read so far, backwards, while inside a
field; `done` is the text rendered so far, backwards. -/
def renderFrom (arguments : List (Except Unwritable String)) (numbering : Numbering)
    (field : Option (List Char)) (done : List Char) : List Char → Except Fault (List Char)
  | [] => if field.isSome then .error .unclosedField else .ok done.reverse
  | c :: rest =>
    match field with
    | some name =>
      if c = closeBrace then
        match numbering.resolve name.reverse with
        | .error fault => .error fault
        | .ok (position, numbering) =>
          match argument arguments position with
          | .error fault => .error fault
          | .ok text =>
            renderFrom arguments numbering none (text.toList.reverse ++ done) rest
      else if c = openBrace then .error .openInField
      else renderFrom arguments numbering (some (c :: name)) done rest
    | none =>
      if c = openBrace then
        match rest with
        | [] => .error .loneOpen
        | d :: rest' =>
          if d = openBrace then renderFrom arguments numbering none (d :: done) rest'
          else renderFrom arguments numbering (some []) done (d :: rest')
      else if c = closeBrace then
        match rest with
        | [] => .error .loneClose
        | d :: rest' =>
          if d = closeBrace then renderFrom arguments numbering none (d :: done) rest'
          else .error .loneClose
      else renderFrom arguments numbering none (c :: done) rest

/-- The template with every field replaced by its argument. -/
def render (template : String) (arguments : List (Except Unwritable String)) :
    Except Fault String :=
  (renderFrom arguments .open none [] template.toList).map String.ofList

end TreeLint.Text.Template
