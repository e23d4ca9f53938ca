import UniversalRemote.Text.Numeral
import UniversalRemote.Text.Scan
/-!
# Numbers of TOML documents

Integers of 64 bits in four bases, and real numbers. A real number is kept as it is spelled; the
only question asked of its size is whether it is too large for a double.
-/

namespace UniversalRemote.Toml

open Scan

/-- A real number as it is spelled. -/
inductive Real where
  /-- A decimal fraction: its digits, and the power of ten that they count. -/
  | decimal (negative : Bool) (digits : Nat) (exponent : Int)
  | infinite (negative : Bool)
  | notANumber
  deriving DecidableEq, Repr

namespace Number

/-- Digits of a base. Underscores may stand between them. -/
def digitRun (base : Nat) : Scan (List Char) := do
  let isDigit := fun c => (Hex.value? c).any (· < base)
  let first ← satisfy isDigit
  return first :: (← many (satisfy isDigit <|> char '_' *> satisfy isDigit))

def sign : Scan Bool :=
  char '-' *> pure true <|> char '+' *> pure false <|> pure false

/-- The digits in front of a decimal point; only zero itself begins with one. -/
def wholeDigits : Scan (List Char) :=
  char '0' *> pure ['0'] <|> digitRun 10

/-- An integer that takes at most 64 bits. -/
def within64 (n : Int) : Scan Int :=
  if -0x8000000000000000 ≤ n ∧ n < 0x8000000000000000 then pure n else failure

/-- An integer of a base other than ten, which its second character names. -/
def based (letter : Char) (base : Nat) : Scan Int := do
  word ['0', letter]
  within64 (Numeral.ofDigits base (← digitRun base))

def decimal : Scan Int := do
  let negative ← sign
  let n := Numeral.ofDigits 10 (← wholeDigits)
  within64 (if negative then -n else n)

def integer : Scan Int :=
  based 'x' 16 <|> based 'o' 8 <|> based 'b' 2 <|> decimal

def fraction : Scan (List Char) :=
  char '.' *> digitRun 10

def exponent : Scan Int := do
  discard (satisfy fun c => c == 'e' || c == 'E')
  let negative ← sign
  let n := Numeral.ofDigits 10 (← digitRun 10)
  return if negative then -n else n

/-- The digits and the power of ten that stand behind a whole number: a fraction, an exponent or
both. -/
def tail : Scan (List Char × Int) := do
  match ← optional fraction with
  | some digits => return (digits, (← optional exponent).getD 0)
  | none => return ([], ← exponent)

/-- Whether a decimal number is nearer to the next power of two above the doubles than to the
largest double. -/
def isTooLarge (digits : Nat) (exponent : Int) : Bool :=
  let limit := (1 <<< 1024) - (1 <<< 970)
  let order := (Decimal.digits digits).length + exponent
  if digits = 0 || order ≤ 308 then false
  else if 309 < order then true
  else if 0 ≤ exponent then limit ≤ digits * Nat.pow 10 exponent.toNat
  else limit * Nat.pow 10 (-exponent).toNat ≤ digits

def decimalReal : Scan Real := do
  let negative ← sign
  let whole ← wholeDigits
  let (digits, power) ← tail
  let n := Numeral.ofDigits 10 (whole ++ digits)
  let power := power - digits.length
  if !negative && isTooLarge n power then failure
  return .decimal negative n power

def specialReal : Scan Real := do
  let negative ← sign
  word ['i', 'n', 'f'] *> pure (.infinite negative) <|> word ['n', 'a', 'n'] *> pure .notANumber

def real : Scan Real :=
  decimalReal <|> specialReal

end Number

end UniversalRemote.Toml
