import SessionHost.Data.Value

/-!
# The tables of a document while it is read

A table can be written in several places, and which of them may add to it depends on how it came
into being: by a header of its own, as a step on the way to another header, or by a dotted key. A
section keeps that origin with each table.

* `Section.insert?` puts a value under a dotted key;
* `Section.open?` and `Section.push?` are the two kinds of header;
* `Section.toData` forgets the origins.
-/
namespace SessionHost.Toml

inductive Origin where
  | header
  | passage
  | dotted
  deriving DecidableEq, Repr

/-- A table, a list of tables, or a finished value, as it stands while a document is read. Fields
and tables are kept in the order in which they were written. -/
inductive Section where
  | value (v : Data)
  | table (origin : Origin) (fields : List (String × Section))
  | tables (items : List Section)
  deriving Inhabited

namespace Section

/-- Puts `s` under `key`, in the place of an earlier one if there is one. -/
def replace (key : String) (s : Section) : List (String × Section) → List (String × Section)
  | [] => [(key, s)]
  | f :: rest => if f.1 == key then (key, s) :: rest else f :: replace key s rest

def lookup? (key : String) (fields : List (String × Section)) : Option Section :=
  (fields.find? fun f => f.1 == key).map (·.2)

/-- Changes the last item of a list of tables. -/
def changeLast? (f : Section → Option Section) : List Section → Option (List Section)
  | [] => none
  | [s] => (f s).map fun s => [s]
  | s :: rest => (changeLast? f rest).map fun rest => s :: rest

/-- Changes the table at the end of `path`. Tables on the way that do not exist come into being as
`origin`; a dotted key passes only through tables that no header has opened. -/
def changeAt? (origin : Origin) (f : Section → Option Section) :
    List String → Section → Option Section
  | [], s => f s
  | key :: path, .table o fields =>
    match lookup? key fields with
    | none =>
      (changeAt? origin f path (.table origin [])).map fun s => .table o (replace key s fields)
    | some (.value _) => none
    | some (.tables items) =>
      (changeLast? (changeAt? origin f path) items).map fun items =>
        .table o (replace key (.tables items) fields)
    | some (.table o' fields') =>
      if origin = .dotted ∧ o' = .header then none
      else (changeAt? origin f path (.table o' fields')).map fun s =>
        .table o (replace key s fields)
  | _ :: _, _ => none

/-- Splits a key into the way to a table and the name in it. -/
def splitLast? : List String → Option (List String × String)
  | [] => none
  | [k] => some ([], k)
  | k :: rest => (splitLast? rest).map fun r => (k :: r.1, r.2)

/-- Adds a field to a table. A dotted key may only add to a table that dotted keys made, and a plain
key only to one that they did not. -/
def addField? (dotted : Bool) (key : String) (v : Data) : Section → Option Section
  | .table o fields =>
    if (o = .dotted) = dotted ∧ (lookup? key fields).isNone then
      some (.table o (fields ++ [(key, .value v)]))
    else none
  | _ => none

/-- Puts `v` under a dotted key, starting from the table `s`. -/
def insert? (key : List String) (v : Data) (s : Section) : Option Section := do
  let (path, name) ← splitLast? key
  changeAt? .dotted (addField? (!path.isEmpty) name v) path s

/-- Opens a table by a header: a new one, or one that was only passed through so far. -/
def openTable? (key : String) : Section → Option Section
  | .table o fields =>
    match lookup? key fields with
    | none => some (.table o (replace key (.table .header []) fields))
    | some (.table .passage inner) => some (.table o (replace key (.table .header inner) fields))
    | some _ => none
  | _ => none

/-- Opens a further table of a list by a header. -/
def pushTable? (key : String) : Section → Option Section
  | .table o fields =>
    match lookup? key fields with
    | none => some (.table o (replace key (.tables [.table .header []]) fields))
    | some (.tables items) =>
      some (.table o (replace key (.tables (items ++ [.table .header []])) fields))
    | some _ => none
  | _ => none

def open? (key : List String) (root : Section) : Option Section := do
  let (path, name) ← splitLast? key
  changeAt? .passage (openTable? name) path root

/-- The header of a table in a list of tables. -/
def push? (key : List String) (root : Section) : Option Section := do
  let (path, name) ← splitLast? key
  changeAt? .passage (pushTable? name) path root

/-- Changes the table that the header `path` has opened. -/
def changeOpen? (f : Section → Option Section) (path : List String) (root : Section) :
    Option Section :=
  changeAt? .passage (fun s => match s with
    | .tables items => (changeLast? f items).map .tables
    | s => f s) path root

mutual

def toData : Section → Data
  | .value v => v
  | .table _ fields => .table (fieldsToData fields)
  | .tables items => .list (itemsToData items)

def fieldsToData : List (String × Section) → List (String × Data)
  | [] => []
  | (key, s) :: rest => (key, toData s) :: fieldsToData rest

def itemsToData : List Section → List Data
  | [] => []
  | s :: rest => toData s :: itemsToData rest

end

end Section

end SessionHost.Toml
