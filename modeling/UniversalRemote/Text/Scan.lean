/-!
# Scans

A scan takes something off the front of a text, or fails. Scans are put together with `do`, and
`<|>` tries its second scan where its first one failed, on the same text.
-/

namespace UniversalRemote

/-- What takes an `α` off the front of a text. -/
abbrev Scan := StateT (List Char) Option

namespace Scan

/-- The next character, if a test holds of it. -/
def satisfy (p : Char → Bool) : Scan Char
  | c :: rest => if p c then some (c, rest) else none
  | [] => none

def char (c : Char) : Scan Unit := do
  discard (satisfy (· == c))

def word : List Char → Scan Unit
  | [] => pure ()
  | c :: rest => do
    char c
    word rest

def takeWhile (p : Char → Bool) : Scan (List Char) := fun text =>
  some (text.takeWhile p, text.dropWhile p)

def takeWhile1 (p : Char → Bool) : Scan (List Char) := do
  match ← takeWhile p with
  | [] => failure
  | taken => pure taken

def exactly (p : Char → Bool) : Nat → Scan (List Char)
  | 0 => pure []
  | n + 1 => do
    let c ← satisfy p
    return c :: (← exactly p n)

/-- As many repetitions as succeed, up to a number of them. -/
def repeated (s : Scan α) : Nat → List Char → List α × List Char
  | 0, text => ([], text)
  | n + 1, text =>
    match s text with
    | none => ([], text)
    | some (a, rest) =>
      let (more, rest) := repeated s n rest
      (a :: more, rest)

/-- As many repetitions as succeed. Each is to take a character at least, so that there are no more
of them than characters. -/
def many (s : Scan α) : Scan (List α) := fun text =>
  some (repeated s text.length text)

def separatedBy (separator : Scan Unit) (s : Scan α) : Scan (List α) := do
  let first ← s
  return first :: (← many (separator *> s))

/-- What a scan finds if it takes a whole text. -/
def whole? (s : Scan α) (text : List Char) : Option α :=
  match s text with
  | some (a, []) => some a
  | _ => none

end Scan

end UniversalRemote
