import UniversalRemote.Toml.Moment
import UniversalRemote.Toml.Number
import UniversalRemote.Toml.Text
/-!
# Values of TOML documents

What a key of a document can hold, and how tables are built up key by key. A table remembers how it
came about, because that decides what may still be added to it.
-/

namespace UniversalRemote.Toml

inductive Origin where
  /-- It has a header of its own, or is an element of an array of tables. -/
  | header
  /-- A header names a table within it. -/
  | implied
  /-- A dotted key names an entry within it. -/
  | dotted
  /-- It is written between braces. -/
  | inline
  deriving DecidableEq, Repr

inductive Value where
  | string (text : String)
  | integer (n : Int)
  | real (x : Real)
  | boolean (b : Bool)
  | moment (m : Moment)
  | array (elements : List Value)
  | table (origin : Origin) (entries : List (String × Value))
  /-- An array of tables, each with a header of its own. -/
  | tables (earlier : List (List (String × Value))) (last : List (String × Value))
  deriving Repr

/-- The entries of a table, in the order in which they were added. -/
abbrev Entries := List (String × Value)

namespace Entries

/-- Changes what a key holds, or adds the key; fails where the change does. -/
def alter (key : String) (change : Option Value → Option Value) : Entries → Option Entries
  | [] => (change none).map fun value => [(key, value)]
  | (k, value) :: rest =>
    if k = key then (change (some value)).map fun value => (k, value) :: rest
    else (alter key change rest).map ((k, value) :: ·)

def add (key : String) (value : Value) : Entries → Option Entries :=
  alter key fun
    | none => some value
    | some _ => none

/-- Changes the table that a path leads to. Tables that are missing on the way are added with an
origin; an array of tables stands for its last element. No path leads into a table between braces,
which is complete as it stands, and dotted keys do not lead into tables with headers either. -/
def within (missing : Origin) (change : Origin → Entries → Option Entries) :
    List String → Origin → Entries → Option Entries
  | [], origin, entries => change origin entries
  | key :: path, _, entries => entries.alter key fun
    | none => (within missing change path missing []).map (.table missing)
    | some (.table origin inner) =>
      if origin = .inline ∨ (missing = .dotted ∧ origin = .header) then none
      else (within missing change path origin inner).map (.table origin)
    | some (.tables earlier last) =>
      (within missing change path .header last).map (.tables earlier)
    | some _ => none

/-- Adds the entry that a dotted key names. The table that it goes into is either the one at hand or
one that dotted keys have made. -/
def assign (path : List String) (key : String) (value : Value) (origin : Origin)
    (entries : Entries) : Option Entries :=
  within .dotted
    (fun origin inner => if path ≠ [] ∧ origin ≠ .dotted then none else inner.add key value)
    path origin entries

/-- Opens the table that a header names, unless it is there already. -/
def openTable (path : List String) (key : String) (entries : Entries) : Option Entries :=
  within .implied
    (fun _ inner => inner.alter key fun
      | none => some (.table .header [])
      | some (.table .implied entries) => some (.table .header entries)
      | some _ => none)
    path .header entries

def openElement (path : List String) (key : String) (entries : Entries) : Option Entries :=
  within .implied
    (fun _ inner => inner.alter key fun
      | none => some (.tables [] [])
      | some (.tables earlier last) => some (.tables (earlier ++ [last]) [])
      | some _ => none)
    path .header entries

end Entries

open Scan

def isBareChar (c : Char) : Bool :=
  c.isAlphanum || c = '_' || c = '-'

def isBare (key : String) : Bool :=
  !key.toList.isEmpty && key.toList.all isBareChar

def simpleKey : Scan String := do
  return String.ofList (← Quoted.basic <|> Quoted.literal <|> takeWhile1 isBareChar)

/-- The number of parts of a key, and of values within each other, at which a document is
refused. -/
def depthLimit : Nat := 80

/-- The parts of a key that stand in front of its last part, and that one. -/
def key : Scan (List String × String) := do
  let parts ← separatedBy (char '.') (blanks *> simpleKey <* blanks)
  match parts.getLast? with
  | some last => if parts.length < depthLimit then return (parts.dropLast, last) else failure
  | none => failure

namespace Value

def truth : Scan Bool :=
  word "true".toList *> pure true <|> word "false".toList *> pure false

def simple : Scan Value :=
  (string <$> String.ofList <$> Quoted.scan) <|> (boolean <$> truth) <|> (moment <$> Moment.scan)
    <|> (real <$> Number.real) <|> (integer <$> Number.integer)

/-- White space, line ends and comments, as they may stand between the elements of an array. -/
def filler : Scan Unit :=
  discard (many (discard (takeWhile1 isBlank) <|> optional comment *> newline))

/-- An array of such elements, with or without a comma behind the last one. -/
def arrayOf (element : Scan Value) : Scan Value := do
  char '['
  let elements ← optional (separatedBy (char ',') (filler *> element <* filler))
  if elements.isSome then discard (optional (char ','))
  filler
  char ']'
  return array (elements.getD [])

def tableOf (element : Scan Value) : Scan Value := do
  let assignment := do
    let (path, last) ← key
    char '='
    return (path, last, ← blanks *> element <* blanks)
  char '{'
  let assignments ← optional (separatedBy (char ',') assignment)
  blanks
  char '}'
  let entries ← (assignments.getD []).foldlM
    (fun entries (path, last, value) => Entries.assign path last value .inline entries) []
  return table .inline entries

/-- A value that holds others at most so deep. -/
def scan : Nat → Scan Value
  | 0 => simple
  | depth + 1 => simple <|> arrayOf (scan depth) <|> tableOf (scan depth)

/-- How a text, an integer or a truth value is written; others are not written here. -/
def print? : Value → Option (List Char)
  | string text => some (Quoted.print text.toList)
  | integer n =>
    if n < 0 then some ('-' :: Decimal.digits n.natAbs) else some (Decimal.digits n.natAbs)
  | boolean b => some (if b then "true".toList else "false".toList)
  | _ => none

end Value

end UniversalRemote.Toml
