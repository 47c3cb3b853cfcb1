/-!
# TOML values

A TOML document is a table.  Its tables can be given in several places, and how a table came
about decides which later lines may add to it.

## Main Definitions

* `TableOrigin` — how a table came about
* `Value` — a value, with the origin of its tables
* `putPair` — add a key and its value to a table
* `openTable`, `openElement` — what a header `[a.b]` or `[[a.b]]` does to the root table
* `putAt` — add a key and its value to the table of the last header

## Design Notes

`implied` tables stand above the table of a header, and a header of their own may follow.
`dotted` tables come from the dots in keys: only such keys add pairs to them.  `inline` tables are
complete.  All functions refuse a document by `none`.
-/

namespace CharacterArt.Toml

/-- How a table came about. -/
inductive TableOrigin where
  | header
  | implied
  | dotted
  | inline
  deriving DecidableEq, Repr

/-- A value of a document.  `tables` is the list that headers with two brackets fill. -/
inductive Value where
  | bool (b : Bool)
  | integer (i : Int)
  | real
  | date
  | string (s : String)
  | array (items : List Value)
  | tables (items : List Value)
  | table (origin : TableOrigin) (members : List (String × Value))

/-- The members of a table. -/
abbrev Members := List (String × Value)

/-- Put a value in the place of an old one. -/
def replace (members : Members) (key : String) (v : Value) : Members :=
  members.map fun (k, old) => if k = key then (k, v) else (k, old)

/-- Add a pair to a table, below the tables that `path` names.  `top` tells whether the key had no
dots. -/
def putPair (origin : TableOrigin) (members : Members) (top : Bool) (key : String) (v : Value) :
    (path : List String) → Option Members
  | [] =>
    if (origin == .dotted) == top then none
    else if (members.lookup key).isSome then none
    else some (members ++ [(key, v)])
  | step :: path =>
    match members.lookup step with
    | none =>
      (putPair .dotted [] false key v path).map fun inner =>
        members ++ [(step, .table .dotted inner)]
    | some (.table o inner) =>
      if o = .implied ∨ o = .dotted then
        (putPair o inner false key v path).map fun inner => replace members step (.table o inner)
      else none
    | some (.tables items) =>
      match items.getLast? with
      | some (.table o inner) =>
        (putPair o inner false key v path).map fun inner =>
          replace members step (.tables (items.dropLast ++ [.table o inner]))
      | _ => none
    | some _ => none

/-- Change the table that `path` leads to, where `last` decides about the last step.  Tables that
are missing on the way are implied. -/
def descend (last : Members → String → Option Members) : Members → List String → Option Members
  | _, [] => none
  | members, [key] => last members key
  | members, step :: path =>
    match members.lookup step with
    | none =>
      (descend last [] path).map fun inner => members ++ [(step, .table .implied inner)]
    | some (.table o inner) =>
      if o = .inline then none
      else (descend last inner path).map fun inner => replace members step (.table o inner)
    | some (.tables items) =>
      match items.getLast? with
      | some (.table o inner) =>
        (descend last inner path).map fun inner =>
          replace members step (.tables (items.dropLast ++ [.table o inner]))
      | _ => none
    | some _ => none

/-- What a header with one bracket does to the root table. -/
def openTable (members : Members) (path : List String) : Option Members :=
  descend (fun members key =>
    match members.lookup key with
    | none => some (members ++ [(key, .table .header [])])
    | some (.table .implied inner) => some (replace members key (.table .header inner))
    | some _ => none) members path

/-- What a header with two brackets does to the root table. -/
def openElement (members : Members) (path : List String) : Option Members :=
  descend (fun members key =>
    match members.lookup key with
    | none => some (members ++ [(key, .tables [.table .header []])])
    | some (.tables items) => some (replace members key (.tables (items ++ [.table .header []])))
    | some _ => none) members path

/-- Add a pair to the table of the last header, which `header` names. -/
def putAt (members : Members) (header path : List String) (key : String) (v : Value) :
    Option Members :=
  if header.isEmpty then putPair .header members path.isEmpty key v path
  else
    descend (fun members step =>
      match members.lookup step with
      | some (.table o inner) =>
        (putPair o inner path.isEmpty key v path).map fun inner =>
          replace members step (.table o inner)
      | some (.tables items) =>
        match items.getLast? with
        | some (.table o inner) =>
          (putPair o inner path.isEmpty key v path).map fun inner =>
            replace members step (.tables (items.dropLast ++ [.table o inner]))
        | _ => none
      | _ => none) members header

end CharacterArt.Toml
