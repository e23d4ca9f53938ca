import UniversalRemote.Text.Numeral
import UniversalRemote.Text.Scan
/-!
# Quoted texts of TOML documents

The four ways to quote a text. `Quoted.scan` reads each of them; `Quoted.print` picks the plainest
one that a text admits.
-/

namespace UniversalRemote.Toml

open Scan

/-- Whether a character may stand in a comment. -/
def isPlain (c : Char) : Bool :=
  c = '\t' || (0x20 ≤ c.toNat && c.toNat ≠ 0x7F)

def isBlank (c : Char) : Bool :=
  c = ' ' || c = '\t'

def newline : Scan Unit :=
  char '\n' <|> word ['\r', '\n']

def blanks : Scan Unit :=
  discard (takeWhile isBlank)

/-- A comment, which reaches up to the end of its line. -/
def comment : Scan Unit := do
  char '#'
  discard (takeWhile isPlain)

namespace Quoted

/-- Whether a character stands for itself between quotes. -/
def isBasic (c : Char) : Bool :=
  isPlain c && c ≠ '"' && c ≠ '\\'

/-- Whether a character may stand between apostrophes. -/
def isLiteral (c : Char) : Bool :=
  isPlain c && c ≠ '\''

/-- A character given by so many hexadecimal digits. -/
def scalar (width : Nat) : Scan Char := do
  let digits ← exactly (fun c => (Hex.value? c).isSome) width
  let n := Numeral.ofDigits 16 digits
  if n.isValidChar then return Char.ofNat n else failure

def named? : Char → Option Char
  | 'b' => some '\x08'
  | 't' => some '\t'
  | 'n' => some '\n'
  | 'f' => some '\x0c'
  | 'r' => some '\r'
  | '"' => some '"'
  | '\\' => some '\\'
  | _ => none

def escape : Scan Char := do
  char '\\'
  match ← satisfy fun _ => true with
  | 'u' => scalar 4
  | 'U' => scalar 8
  | c => named? c

/-- A text between quotes. -/
def basic : Scan (List Char) := do
  char '"'
  let text ← many (satisfy isBasic <|> escape)
  char '"'
  return text

/-- A text between apostrophes, in which every character stands for itself. -/
def literal : Scan (List Char) := do
  char '\''
  let text ← takeWhile isLiteral
  char '\''
  return text

def lineEnd : Scan (List Char) := do
  newline
  return ['\n']

/-- A backslash at the end of a line, which takes away all white space behind it. -/
def joint : Scan (List Char) := do
  char '\\'
  blanks
  newline
  discard (many (newline <|> discard (takeWhile1 isBlank)))
  return []

/-- One or two quotes, which end no text of several lines. -/
def looseQuotes (quote : Char) : Scan (List Char) := do
  let quotes ← takeWhile1 (· == quote)
  if quotes.length ≤ 2 then return quotes else failure

/-- The three quotes that end a text of several lines, behind at most two that belong to it. -/
def closing (quote : Char) : Scan (List Char) := do
  let quotes ← takeWhile (· == quote)
  if 3 ≤ quotes.length && quotes.length ≤ 5 then return quotes.drop 3 else failure

/-- A text of several lines between runs of three quotes, with the parts that it may consist of. A
line end right behind the first run does not belong to it. -/
def multiline (quote : Char) (part : Scan (List Char)) : Scan (List Char) := do
  word [quote, quote, quote]
  discard (optional newline)
  let parts ← many (part <|> lineEnd <|> looseQuotes quote)
  return parts.flatten ++ (← closing quote)

def multilineBasic : Scan (List Char) :=
  multiline '"' ((fun c => [c]) <$> satisfy isBasic <|> joint <|> (fun c => [c]) <$> escape)

def multilineLiteral : Scan (List Char) :=
  multiline '\'' ((fun c => [c]) <$> satisfy isLiteral)

def scan : Scan (List Char) :=
  multilineBasic <|> basic <|> multilineLiteral <|> literal

/-! ## Writing -/

/-- Whether a character cannot stand for itself in any quoted text. -/
def needsEscape (c : Char) : Bool :=
  !isPlain c && c ≠ '\n'

/-- The length of the longest run of a character, behind a run of so many. -/
def longestRun (quote : Char) (run : Nat) : List Char → Nat
  | [] => run
  | c :: rest =>
    if c = quote then longestRun quote (run + 1) rest else max run (longestRun quote 0 rest)

def escaped? (multiline : Bool) (c : Char) : Option (List Char) :=
  if c = '\x08' then some ['\\', 'b']
  else if c = '\t' then some ['\\', 't']
  else if c = '\n' then if multiline then none else some ['\\', 'n']
  else if c = '\x0c' then some ['\\', 'f']
  else if c = '\r' then some ['\\', 'r']
  else if c = '\\' then some ['\\', '\\']
  else if needsEscape c then some ('\\' :: 'u' :: Hex.padded 4 c.toNat)
  else none

/-- A text as it is written between quotes, behind a run of so many of its own. Texts of several
lines may hold two quotes in a row, others none. -/
def escapeAll (multiline : Bool) (run : Nat) : List Char → List Char
  | [] => []
  | c :: rest =>
    if c = '"' then
      if run < (if multiline then 2 else 0) then c :: escapeAll multiline (run + 1) rest
      else '\\' :: c :: escapeAll multiline 0 rest
    else
      match escaped? multiline c with
      | some code => code ++ escapeAll multiline 0 rest
      | none => c :: escapeAll multiline 0 rest

/-- A text between delimiters; where it has several lines, it begins on a line of its own. -/
def enclose (delimiter : List Char) (multiline : Bool) (text body : List Char) : List Char :=
  delimiter ++ (if multiline && text.contains '\n' then ['\n'] else []) ++ body ++ delimiter

/-- The plainest quoted form of a text: between quotes if nothing has to be escaped, then between
apostrophes, then in the forms for several lines, and with escapes where nothing else will do. -/
def print (text : List Char) : List Char :=
  let coded := text.any needsEscape
  let backslash := text.contains '\\'
  let quotes := longestRun '"' 0 text
  let apostrophes := longestRun '\'' 0 text
  let lines := text.contains '\n'
  if !coded && !backslash && quotes = 0 && !lines then
    enclose ['"'] false text (escapeAll false 0 text)
  else if !coded && apostrophes = 0 && !lines then enclose ['\''] false text text
  else if !coded && !backslash && quotes ≤ 2 then
    enclose ['"', '"', '"'] true text (escapeAll true 0 text)
  else if !coded && apostrophes ≤ 2 then enclose ['\'', '\'', '\''] true text text
  else if lines then enclose ['"', '"', '"'] true text (escapeAll true 0 text)
  else enclose ['"'] false text (escapeAll false 0 text)

end Quoted

end UniversalRemote.Toml
