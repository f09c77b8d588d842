import SessionHost.Data.Json.Scan

/-!
# Passing over JSON

A value that nobody wants is passed over: its form is checked, however deep it is nested, and its
numbers and strings are not evaluated. The brackets that are open are kept in a list, innermost first.

* `Json.skipValue?` passes over one value.
-/
namespace SessionHost.Json

inductive Bracket where
  | list
  | table
  deriving DecidableEq, Repr

inductive SkipState where
  /-- In front of a value. -/
  | value
  /-- Behind a value. -/
  | behind
  deriving DecidableEq, Repr

def skipKey? (cs : List Char) : Option (List Char) :=
  match skipSpace cs with
  | '"' :: rest => do
    let rest ← skipString? rest
    match skipSpace rest with
    | ':' :: rest => some rest
    | _ => none
  | _ => none

/-- Passes over a value without brackets. -/
def skipScalar? : List Char → Option (List Char)
  | 'n' :: rest => expect? ['u', 'l', 'l'] rest
  | 't' :: rest => expect? ['r', 'u', 'e'] rest
  | 'f' :: rest => expect? ['a', 'l', 's', 'e'] rest
  | '"' :: rest => skipString? rest
  | cs => (number? cs).map (·.2)

/-- One step: the state behind it, the open brackets, and the rest. -/
def skipStep? (state : SkipState) (stack : List Bracket) (cs : List Char) :
    Option (SkipState × List Bracket × List Char) :=
  match state, stack, skipSpace cs with
  | .value, _, '[' :: rest =>
    match skipSpace rest with
    | ']' :: rest => some (.behind, stack, rest)
    | _ => some (.value, .list :: stack, rest)
  | .value, _, '\x7b' :: rest =>
    match skipSpace rest with
    | '\x7d' :: rest => some (.behind, stack, rest)
    | _ => (skipKey? rest).map fun rest => (.value, .table :: stack, rest)
  | .value, _, cs => (skipScalar? cs).map fun rest => (.behind, stack, rest)
  | .behind, .list :: _, ',' :: rest => some (.value, stack, rest)
  | .behind, .list :: outer, ']' :: rest => some (.behind, outer, rest)
  | .behind, .table :: _, ',' :: rest => (skipKey? rest).map fun rest => (.value, stack, rest)
  | .behind, .table :: outer, '\x7d' :: rest => some (.behind, outer, rest)
  | .behind, _, _ => none

/-- Steps until a value has been passed over with all its brackets closed. Every step takes a
character, so that the number of characters is enough for `fuel`. -/
def skipFrom? : Nat → SkipState → List Bracket → List Char → Option (List Char)
  | _, .behind, [], cs => some cs
  | 0, _, _, _ => none
  | fuel + 1, state, stack, cs =>
    match skipStep? state stack cs with
    | none => none
    | some (state, stack, rest) => skipFrom? fuel state stack rest

def skipValue? (cs : List Char) : Option (List Char) := skipFrom? (cs.length + 1) .value [] cs

end SessionHost.Json
