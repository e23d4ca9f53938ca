import UniversalRemote.Toml.Value
/-!
# TOML documents

A document is a sequence of lines, each of which says at most one thing. The lines are read first;
then what they say is carried out in order on an empty table. Only tables of plain values under bare
keys are written.
-/

namespace UniversalRemote.Toml

open Scan

inductive Statement where
  /-- An entry of the table at hand. -/
  | assign (path : List String) (key : String) (value : Value)
  /-- A header, which opens a table. -/
  | table (path : List String) (key : String)
  /-- A header, which opens one more element of an array of tables. -/
  | element (path : List String) (key : String)
  deriving Repr

namespace Statement

def assignment : Scan Statement := do
  let (path, last) ← key
  char '='
  blanks
  return assign path last (← Value.scan (depthLimit - 1))

def elementHeader : Scan Statement := do
  word ['[', '[']
  let (path, last) ← key
  word [']', ']']
  return element path last

def tableHeader : Scan Statement := do
  char '['
  let (path, last) ← key
  char ']'
  return table path last

def scan : Scan Statement :=
  elementHeader <|> tableHeader <|> assignment

def line : Scan (Option Statement) := do
  blanks
  let statement ← optional scan
  blanks
  discard (optional comment)
  return statement

def scanAll : Scan (List Statement) := do
  let lines ← separatedBy newline line
  return lines.filterMap id

end Statement

/-- A document being built: its entries, and the path to the table at hand. -/
structure Document where
  entries : Entries := []
  current : List String := []
  deriving Repr

namespace Document

def apply (d : Document) : Statement → Option Document
  | .assign path key value => do
    let assign := Entries.assign path key value
    let entries ← Entries.within .implied assign d.current .header d.entries
    return { d with entries }
  | .table path key => do
    return { entries := ← d.entries.openTable path key, current := path ++ [key] }
  | .element path key => do
    return { entries := ← d.entries.openElement path key, current := path ++ [key] }

/-- The entries of a document. A byte order mark at its start is skipped. -/
def ofText? (text : List Char) : Option Entries := do
  let text := if text.head? = some '\ufeff' then text.drop 1 else text
  let statements ← Statement.scanAll.whole? text
  let document ← statements.foldlM apply {}
  return document.entries

/-- The document that gives each key its value on a line of its own. -/
def print? : Entries → Option (List Char)
  | [] => some []
  | (key, value) :: rest => do
    if !isBare key then failure
    let written ← value.print?
    return key.toList ++ " = ".toList ++ written ++ '\n' :: (← print? rest)

end Document

/-- A way to write tables as texts and to read them. -/
structure Format where
  /-- The text of a table, if the table can be written. -/
  print? : Entries → Option String
  /-- The table that a text gives, if it gives one. -/
  read? : String → Option Entries

/-- Documents as they are read and written here. -/
def format : Format where
  print? entries := String.ofList <$> Document.print? entries
  read? text := Document.ofText? text.toList

end UniversalRemote.Toml
