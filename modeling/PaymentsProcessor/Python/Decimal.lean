import Mathlib.Data.Rat.Floor
import Mathlib.Tactic.NormNum
import PaymentsProcessor.Python.Text

namespace Python

-- A finite `decimal.Decimal`. Equal numbers may differ in their exponents.
structure Decimal where
  negative : Bool
  coefficient : ℕ
  exponent : ℤ
deriving DecidableEq, Repr

def Decimal.toRat (d : Decimal) : ℚ :=
  let signed : ℤ := if d.negative then -d.coefficient else d.coefficient
  match d.exponent with
  | .ofNat n => (signed * 10 ^ n : ℤ)
  | .negSucc n => mkRat signed (10 ^ (n + 1))

-- A `decimal.Decimal`.
inductive PyDecimal where
  | finite (d : Decimal)
  | inf (negative : Bool)
  | nan (negative signaling : Bool) (payload : ℕ)
deriving DecidableEq, Repr

namespace PyDecimal

-- What `Decimal(s)` strips from a string.
def isSpace (c : CodePoint) : Bool :=
  let n := c.val
  (9 ≤ n ∧ n ≤ 13) ∨ (0x1c ≤ n ∧ n ≤ 0x20) ∨ n = 0x85 ∨ n = 0xa0 ∨ n = 0x1680 ∨
    (0x2000 ≤ n ∧ n ≤ 0x200a) ∨ n = 0x2028 ∨ n = 0x2029 ∨ n = 0x202f ∨ n = 0x205f ∨ n = 0x3000

def strip (s : Text) : Text :=
  ((s.dropWhile isSpace).reverse.dropWhile isSpace).reverse

-- A decimal digit of any script becomes the ASCII one, a space a blank. NUL and
-- every other character outside of ASCII are no part of a number.
def asciiChar (c : CodePoint) : Option Char :=
  if 0 < c.val ∧ c.val < 0x80 then some (Char.ofNat c.val)
  else if isSpace c then some ' '
  else (digitZeros.find? fun z => z ≤ c.val ∧ c.val < z + 10).map fun z =>
    Nat.digitChar (c.val - z)

-- Underscores are dropped wherever they stand.
def ascii (s : Text) : Option (List Char) :=
  ((strip s).filter fun c => c.val ≠ 0x5f).mapM asciiChar

def valueOf (digits : List Char) : ℕ := digits.foldl (fun n d => 10 * n + (d.toNat - 0x30)) 0

def scanSign : List Char → Bool × List Char
  | '-' :: rest => (true, rest)
  | '+' :: rest => (false, rest)
  | rest => (false, rest)

def scanExponent : List Char → Option ℤ
  | [] => some 0
  | c :: rest =>
      if c.toLower = 'e' then
        let (negative, digits) := scanSign rest
        if digits ≠ [] ∧ digits.all Char.isDigit then
          some (if negative then -valueOf digits else valueOf digits)
        else none
      else none

def scanFraction : List Char → List Char × List Char
  | '.' :: rest => (rest.takeWhile Char.isDigit, rest.dropWhile Char.isDigit)
  | rest => ([], rest)

def MAX_EMAX : ℤ := 999999999999999999

-- The least exponent: `MIN_ETINY`.
def MIN_ETINY : ℤ := -1999999999999999997

-- A number outside of the range of the largest context is refused.
def inRange (digits : List Char) (exponent : ℤ) : Bool :=
  let significant := (digits.dropWhile fun d => d = '0').length
  MIN_ETINY ≤ exponent ∧ exponent + (significant - 1 : ℕ) ≤ MAX_EMAX

def scanNumber (negative : Bool) (cs : List Char) : Option PyDecimal := do
  let whole := cs.takeWhile Char.isDigit
  let (fraction, rest) := scanFraction (cs.dropWhile Char.isDigit)
  let exp ← scanExponent rest
  let digits := whole ++ fraction
  let exponent := exp - fraction.length
  if digits ≠ [] ∧ inRange digits exponent then
    return .finite ⟨negative, valueOf digits, exponent⟩
  else none

-- What stands after the sign, in lower case.
def scanSpecial (negative : Bool) (cs : List Char) : Option PyDecimal :=
  if cs = "inf".toList ∨ cs = "infinity".toList then some (.inf negative)
  else if cs.take 3 = "nan".toList ∧ (cs.drop 3).all Char.isDigit then
    some (.nan negative false (valueOf (cs.drop 3)))
  else if cs.take 4 = "snan".toList ∧ (cs.drop 4).all Char.isDigit then
    some (.nan negative true (valueOf (cs.drop 4)))
  else none

-- `Decimal(s)` of a string, where `none` is `InvalidOperation`.
def ofText (s : Text) : Option PyDecimal := do
  let cs ← ascii s
  let (negative, rest) := scanSign cs
  scanSpecial negative (rest.map Char.toLower) <|> scanNumber negative rest

end PyDecimal

end Python
