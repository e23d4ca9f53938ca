import UniversalRemote.Toml.Document
/-!
# The grammar of plain documents

TOML 1.0 as far as documents go that give bare keys texts, natural numbers and truth values, a line
each. The grammar says what such a document means, and neither how it is read nor which of the ways to
write a text is chosen. A format is standard (`Format.Standard`) if it writes tables as documents that
mean them and reads such documents as what they mean.
-/

namespace UniversalRemote.Toml

namespace Quoted

/-! ## Texts -/

def letters : List (Char × Char) :=
  [('b', '\x08'), ('t', '\t'), ('n', '\n'), ('f', '\x0c'), ('r', '\r'), ('"', '"'), ('\\', '\\')]

/-- What may stand behind a backslash, and the character that it means. -/
inductive Escape : List Char → Char → Prop
  | letter {letter c : Char} (h : (letter, c) ∈ letters) : Escape [letter] c
  /-- The number of a character in four hexadecimal digits, or in eight. -/
  | number {mark : Char} {width : Nat} (hmark : (mark, width) ∈ [('u', 4), ('U', 8)])
    {digits : List Char} (hwidth : digits.length = width)
    (hdigits : ∀ d ∈ digits, (Hex.value? d).isSome = true) {c : Char}
    (hvalue : Numeral.ofDigits 16 digits = c.toNat) : Escape (mark :: digits) c

/-- What means one character of a text between quotes. A line ends only within texts of several. -/
inductive BasicPart (several : Bool) : List Char → Char → Prop
  | self {c : Char} (h : isBasic c = true) : BasicPart several [c] c
  | line (h : several = true) : BasicPart several ['\n'] '\n'
  | escape {code : List Char} {c : Char} (h : Escape code c) : BasicPart several ('\\' :: code) c

/-- What means one character of a text between apostrophes. -/
inductive LiteralPart (several : Bool) : List Char → Char → Prop
  | self {c : Char} (h : isLiteral c = true) : LiteralPart several [c] c
  | line (h : several = true) : LiteralPart several ['\n'] '\n'

/-- What stands between the delimiters of a text, behind a run of so many quotes. Quotes mean
themselves, but there are at most so many in a row. -/
inductive Body (quote : Char) (limit : Nat) (Part : List Char → Char → Prop) :
    Nat → List Char → List Char → Prop
  | nil (run : Nat) : Body quote limit Part run [] []
  | quote {run : Nat} {body text : List Char} (hrun : run < limit)
    (more : Body quote limit Part (run + 1) body text) :
    Body quote limit Part run (quote :: body) (quote :: text)
  | part {run : Nat} {front body text : List Char} {c : Char} (hpart : Part front c)
    (more : Body quote limit Part 0 body text) :
    Body quote limit Part run (front ++ body) (c :: text)

/-- What goes between the delimiter of a text of several lines and its body: the end of a line, which
does not belong to the text, or nothing where the body does not begin with one. -/
def Start (body start : List Char) : Prop :=
  start = ['\n'] ∨ start = [] ∧ body.head? ≠ some '\n'

/-- The ways to write a text. -/
inductive Spelling (text : List Char) : List Char → Prop
  | basic {body : List Char} (h : Body '"' 0 (BasicPart false) 0 body text) :
    Spelling text ('"' :: (body ++ ['"']))
  | literal {body : List Char} (h : Body '\'' 0 (LiteralPart false) 0 body text) :
    Spelling text ('\'' :: (body ++ ['\'']))
  | severalBasic {start body : List Char} (hstart : Start body start)
    (h : Body '"' 2 (BasicPart true) 0 body text) :
    Spelling text (['"', '"', '"'] ++ start ++ body ++ ['"', '"', '"'])
  | severalLiteral {start body : List Char} (hstart : Start body start)
    (h : Body '\'' 2 (LiteralPart true) 0 body text) :
    Spelling text (['\'', '\'', '\''] ++ start ++ body ++ ['\'', '\'', '\''])

end Quoted

/-! ## Documents -/

inductive Value.Spelling : Value → List Char → Prop
  | string {text : String} {spelled : List Char} (h : Quoted.Spelling text.toList spelled) :
    Spelling (.string text) spelled
  | integer {n : Nat} (h : n < 0x8000000000000000) : Spelling (.integer n) (Decimal.digits n)
  | boolean (b : Bool) : Spelling (.boolean b) (if b then "true".toList else "false".toList)

/-- A document whose lines each give one bare key a value. -/
inductive Lines : Entries → List Char → Prop
  | nil : Lines [] []
  | cons {key : String} {value : Value} {spelled text : List Char} {entries : Entries}
    (hkey : isBare key = true) (hvalue : value.Spelling spelled) (more : Lines entries text) :
    Lines ((key, value) :: entries) (key.toList ++ " = ".toList ++ spelled ++ '\n' :: text)

/-- A value that stands for itself on a line. -/
def Value.IsPlain : Value → Prop
  | string _ => True
  | integer n => 0 ≤ n ∧ n < 0x8000000000000000
  | boolean _ => True
  | _ => False

/-- A table of plain values under bare keys, all of them different. -/
structure Entries.Flat (entries : Entries) : Prop where
  bare : ∀ entry ∈ entries, isBare entry.1 = true
  plain : ∀ entry ∈ entries, entry.2.IsPlain
  nodup : (entries.map Prod.fst).Nodup

/-- Flat tables are written as documents that mean them, and documents of flat tables are read as what
they mean. In which order the entries of a table come is left open. -/
structure Format.Standard (format : Format) : Prop where
  writes : ∀ entries : Entries, entries.Flat →
    ∃ text lines, format.print? entries = some text ∧ Lines lines text.toList ∧ lines.Perm entries
  reads : ∀ text (lines : Entries), Lines lines text.toList → lines.Flat →
    ∃ found, format.read? text = some found ∧ found.Perm lines

end UniversalRemote.Toml
