/-!
# TOML values

A document is a table. A table remembers how it came about, because that decides how it may still be
extended: by a header, by being on the way to a header, by a dotted key, or written in braces. Tables
of an array written with double brackets are kept apart from arrays, since only the last of them can
be extended.
-/

namespace MakeLint.Toml

inductive Origin where
  | header
  | path
  | dotted
  | inline
  deriving DecidableEq

inductive Value where
  | string (s : String)
  | integer (n : Int)
  | boolean (b : Bool)
  | float
  | datetime
  | array (items : List Value)
  | table (origin : Origin) (entries : List (String × Value))
  /-- The last table comes first. -/
  | tables (elements : List (List (String × Value)))

abbrev Entries := List (String × Value)

namespace Entries

def get? (entries : Entries) (key : String) : Option Value :=
  entries.lookup key

def put (entries : Entries) (key : String) (v : Value) : Entries :=
  match entries with
  | [] => [(key, v)]
  | (k, old) :: rest => if k = key then (k, v) :: rest else (k, old) :: put rest key v

/-- Changes the table at a path, making the tables that are missing on the way. A dotted key may only
go through tables that no header has defined. -/
def modifyAt (dotted : Bool) (f : Origin → Entries → Option Entries) :
    List String → Origin → Entries → Option Entries
  | [], origin, entries => f origin entries
  | key :: path, _, entries =>
    match entries.get? key with
    | none =>
      let origin := if dotted then .dotted else .path
      (modifyAt dotted f path origin []).map fun t => entries.put key (.table origin t)
    | some (.table .inline _) => none
    | some (.table origin t) =>
      if dotted && origin = .header then none
      else (modifyAt dotted f path origin t).map fun t => entries.put key (.table origin t)
    | some (.tables (last :: before)) =>
      (modifyAt dotted f path .header last).map fun t => entries.put key (.tables (t :: before))
    | some _ => none

/-- Adds the value of a dotted key. -/
def addKey (path : List String) (key : String) (v : Value) (entries : Entries) : Option Entries :=
  entries.modifyAt true
    (fun origin t =>
      if (!path.isEmpty && origin ≠ .dotted) || (t.get? key).isSome then none
      else some (t.put key v))
    path .header

/-- Opens the table that a header names. -/
def addTable (path : List String) (key : String) (entries : Entries) : Option Entries :=
  entries.modifyAt false
    (fun _ t =>
      match t.get? key with
      | none => some (t.put key (.table .header []))
      | some (.table .path inner) => some (t.put key (.table .header inner))
      | some _ => none)
    path .header

/-- Opens a new table of the array of tables that a header names. -/
def addElement (path : List String) (key : String) (entries : Entries) : Option Entries :=
  entries.modifyAt false
    (fun _ t =>
      match t.get? key with
      | none => some (t.put key (.tables [[]]))
      | some (.tables elements) => some (t.put key (.tables ([] :: elements)))
      | some _ => none)
    path .header

end Entries

end MakeLint.Toml
