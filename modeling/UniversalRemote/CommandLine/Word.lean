/-!
# Words of a command line

The words of a command line are options and operands. An option has a long name and may have a
letter; letters without values can share a word. Behind two lone hyphens every word is an operand.
-/

namespace UniversalRemote.CommandLine

structure Switch where
  name : String
  letter : Option Char := none
  takesValue : Bool := false
  deriving DecidableEq, Repr

/-- One word by its shape. -/
inductive Word where
  /-- Two lone hyphens. -/
  | stop
  /-- Two hyphens, a name and what may stand behind an equals sign. -/
  | long (name : String) (value : Option String)
  /-- A hyphen and letters. -/
  | letters (letters : List Char)
  /-- Anything else, a lone hyphen included. -/
  | operand (text : String)
  deriving DecidableEq, Repr

def Word.ofText (text : String) : Word :=
  match text.toList with
  | ['-', '-'] => stop
  | '-' :: '-' :: rest =>
    match rest.span (· ≠ '=') with
    | (name, _ :: value) => long (String.ofList name) (some (String.ofList value))
    | (name, []) => long (String.ofList name) none
  | '-' :: first :: rest => letters (first :: rest)
  | _ => operand text

structure Given where
  name : String
  value : String := ""
  deriving DecidableEq, Repr

/-- The options of one word, and the one whose value is the next word. -/
structure Options where
  given : List Given := []
  pending : Option String := none
  deriving DecidableEq, Repr

/-- The options of a word of letters. The letters behind one that takes a value are its value, with
or without an equals sign. -/
def Options.ofLetters? (known : List Switch) : List Char → Option Options
  | [] => some {}
  | c :: rest =>
    match known.find? (·.letter == some c) with
    | none => none
    | some switch =>
      if switch.takesValue then
        match rest with
        | [] => some { pending := some switch.name }
        | '=' :: value => some { given := [⟨switch.name, String.ofList value⟩] }
        | value => some { given := [⟨switch.name, String.ofList value⟩] }
      else (ofLetters? known rest).map fun o => { o with given := ⟨switch.name, ""⟩ :: o.given }

def Options.ofLong? (known : List Switch) (name : String) (value : Option String) :
    Option Options :=
  match known.find? (·.name == name), value with
  | some ⟨_, _, true⟩, some value => some { given := [⟨name, value⟩] }
  | some ⟨_, _, true⟩, none => some { pending := some name }
  | some ⟨_, _, false⟩, none => some { given := [⟨name, ""⟩] }
  | _, _ => none

/-- A command line taken apart: the options given, the operands, and the words that were left. -/
structure Parts where
  given : List Given := []
  operands : List String := []
  deriving DecidableEq, Repr

namespace Parts

/-- The parts of some words. The value of an option that awaits one is the next word, which must
look like an operand. With `first` the words end at the first operand, and what stands behind it is
left. -/
def ofWords? (known : List Switch) (first : Bool) : List String → Option (Parts × List String)
  | [] => some ({}, [])
  | word :: rest =>
    let proceed (options : Option Options) : Option (Parts × List String) :=
      match options with
      | none => none
      | some ⟨given, none⟩ =>
        (ofWords? known first rest).map fun (p, left) =>
          ({ p with given := given ++ p.given }, left)
      | some ⟨given, some name⟩ =>
        match rest with
        | [] => none
        | value :: rest =>
          match Word.ofText value with
          | .operand value =>
            (ofWords? known first rest).map fun (p, left) =>
              ({ p with given := given ++ ⟨name, value⟩ :: p.given }, left)
          | _ => none
    match Word.ofText word with
    | .stop => if first then none else some ({ operands := rest }, [])
    | .operand text =>
      if first then some ({ operands := [text] }, rest)
      else (ofWords? known first rest).map fun (p, left) =>
        ({ p with operands := text :: p.operands }, left)
    | .long name value => proceed (Options.ofLong? known name value)
    | .letters letters => proceed (Options.ofLetters? known letters)

def repeats (p : Parts) : Bool :=
  !decide (p.given.map (·.name)).Nodup

def value? (p : Parts) (name : String) : Option String :=
  (p.given.find? (·.name == name)).map (·.value)

def has (p : Parts) (name : String) : Bool :=
  (p.value? name).isSome

end Parts

end UniversalRemote.CommandLine
