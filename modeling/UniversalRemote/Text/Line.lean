/-!
# Lines of text

Texts cut into lines, at their first blank, and free of blanks at both ends.
-/

namespace UniversalRemote.Text

def isBlank (c : Char) : Bool :=
  let n := c.toNat
  (0x09 ≤ n && n ≤ 0x0D) || n == 0x20 || n == 0x85 || n == 0xA0 || n == 0x1680
    || (0x2000 ≤ n && n ≤ 0x200A) || n == 0x2028 || n == 0x2029 || n == 0x202F || n == 0x205F
    || n == 0x3000

/-- The lines of a text; the end of its last line is optional. -/
def lines : List Char → List (List Char)
  | [] => []
  | c :: rest =>
    if c = '\n' then [] :: lines rest
    else
      match lines rest with
      | [] => [[c]]
      | line :: later => (c :: line) :: later

/-- A text without the elements at its end that a test holds of. -/
def dropEndWhile (p : α → Bool) (l : List α) : List α :=
  (l.reverse.dropWhile p).reverse

def trim (text : List Char) : List Char :=
  dropEndWhile isBlank (text.dropWhile isBlank)

/-- What stands before and behind the first space of a text. -/
def splitAtSpace (text : List Char) : Option (List Char × List Char) :=
  match text.span (· ≠ ' ') with
  | (key, _ :: value) => some (key, value)
  | (_, []) => none

end UniversalRemote.Text
