import Mathlib.Data.Rat.Floor
import Mathlib.Tactic.NormNum

namespace Python

-- The built-in exceptions the modelled library functions raise.
inductive PyError where
  | ValueError
  | UnicodeError
  | TypeError
  | OverflowError
deriving DecidableEq, Repr

-- A float, up to the rounding of doubles.
inductive PyFloat where
  | finite (q : ℚ)
  | inf (negative : Bool)
  | nan
deriving DecidableEq

namespace PyFloat

-- From this magnitude on a double is infinite, and an int has no double.
def limit : ℚ := 2 ^ 1024

def ofRat (q : ℚ) : PyFloat :=
  if limit ≤ q then .inf false else if q ≤ -limit then .inf true else .finite q

def ofNat (n : ℕ) : Except PyError PyFloat :=
  if limit ≤ n then .error .OverflowError else .ok (.finite n)

def negative : PyFloat → Bool
  | .finite q => q < 0
  | .inf b => b
  | .nan => false

def isZero : PyFloat → Bool
  | .finite q => q = 0
  | _ => false

def mul : PyFloat → PyFloat → PyFloat
  | .finite p, .finite q => ofRat (p * q)
  | .nan, _ => .nan
  | _, .nan => .nan
  | x, y => if x.isZero || y.isZero then .nan else .inf (x.negative != y.negative)

def lt : PyFloat → PyFloat → Bool
  | .nan, _ => false
  | _, .nan => false
  | .finite p, .finite q => p < q
  | .inf b, .inf c => b && !c
  | .inf b, .finite _ => b
  | .finite _, .inf c => !c

-- `min(x, y)` keeps its first argument unless the second is smaller.
def min (x y : PyFloat) : PyFloat := if y.lt x then y else x

end PyFloat

-- Microseconds since the epoch, in UTC.
abbrev DateTime := ℤ

def roundHalfEven (q : ℚ) : ℤ :=
  let low := ⌊q⌋
  if q - low < 1 / 2 then low
  else if 1 / 2 < q - low then low + 1
  else if low % 2 = 0 then low else low + 1

-- `timedelta(seconds=x)`, in microseconds.
def timedelta (seconds : PyFloat) : Except PyError ℤ :=
  match seconds with
  | .nan => .error .ValueError
  | .inf _ => .error .OverflowError
  | .finite q =>
      let us := roundHalfEven (q * 1000000)
      if us < -999999999 * 86400000000 ∨ 1000000000 * 86400000000 ≤ us then .error .OverflowError
      else .ok us

def DateTime.min : DateTime := -62135596800000000

def DateTime.max : DateTime := 253402300799999999

def DateTime.add (t : DateTime) (delta : ℤ) : Except PyError DateTime :=
  if t + delta < DateTime.min ∨ DateTime.max < t + delta then .error .OverflowError
  else .ok (t + delta)

-- `int(t.timestamp())` truncates towards zero.
def DateTime.timestamp (t : DateTime) : ℤ := t.tdiv 1000000

-- The code points of the zeros of the decimal digits of Unicode 15.1.
def digitZeros : List ℕ :=
  [0x30, 0x660, 0x6f0, 0x7c0, 0x966, 0x9e6, 0xa66, 0xae6, 0xb66, 0xbe6, 0xc66, 0xce6, 0xd66,
   0xde6, 0xe50, 0xed0, 0xf20, 0x1040, 0x1090, 0x17e0, 0x1810, 0x1946, 0x19d0, 0x1a80, 0x1a90,
   0x1b50, 0x1bb0, 0x1c40, 0x1c50, 0xa620, 0xa8d0, 0xa900, 0xa9d0, 0xa9f0, 0xaa50, 0xabf0,
   0xff10, 0x104a0, 0x10d30, 0x11066, 0x110f0, 0x11136, 0x111d0, 0x112f0, 0x11450, 0x114d0,
   0x11650, 0x116c0, 0x11730, 0x118e0, 0x11950, 0x11c50, 0x11d50, 0x11da0, 0x11f50, 0x16a60,
   0x16ac0, 0x16b50, 0x1d7ce, 0x1d7d8, 0x1d7e2, 0x1d7ec, 0x1d7f6, 0x1e140, 0x1e2f0, 0x1e4f0,
   0x1e950, 0x1fbf0]

def digitValue (c : Char) : Option ℕ :=
  (digitZeros.find? fun z => z ≤ c.toNat ∧ c.toNat < z + 10).map fun z => c.toNat - z

-- What `int(s)` strips from a string.
def isSpace (c : Char) : Bool :=
  let n := c.toNat
  (9 ≤ n ∧ n ≤ 13) ∨ n = 0x20 ∨ n = 0x85 ∨ n = 0xa0 ∨ n = 0x1680 ∨
    (0x2000 ≤ n ∧ n ≤ 0x200a) ∨ n = 0x2028 ∨ n = 0x2029 ∨ n = 0x202f ∨ n = 0x205f ∨ n = 0x3000

def strip (cs : List Char) : List Char :=
  ((cs.dropWhile isSpace).reverse.dropWhile isSpace).reverse

-- Digits with single underscores between them. The flag says whether the
-- character before was a digit.
def parseDigits : List Char → Bool → ℕ → Option ℕ
  | [], afterDigit, n => if afterDigit then some n else none
  | c :: cs, afterDigit, n =>
      if c = '_' then
        if afterDigit then parseDigits cs false n else none
      else match digitValue c with
        | some d => parseDigits cs true (10 * n + d)
        | none => none

-- The interpreter's limit on the digits of a string that becomes an int.
def maxStrDigits : ℕ := 4300

def intOfChars (cs : List Char) : Except PyError ℤ :=
  let (negative, digits) := match strip cs with
    | '-' :: rest => (true, rest)
    | '+' :: rest => (false, rest)
    | rest => (false, rest)
  if maxStrDigits < (digits.filter fun c => c ≠ '_').length then .error .ValueError
  else match parseDigits digits false 0 with
    | some n => .ok (if negative then -n else n)
    | none => .error .ValueError

-- `int(s)` of a string.
def intOfStr (s : String) : Except PyError ℤ := intOfChars s.toList

-- `int(b)` of bytes reads ASCII.
def intOfBytes (b : List UInt8) : Except PyError ℤ :=
  if b.all fun x => x < 128 then intOfChars (b.map fun x => Char.ofNat x.toNat)
  else .error .ValueError

-- `int(x)` of a float truncates.
def intOfFloat : PyFloat → Except PyError ℤ
  | .nan => .error .ValueError
  | .inf _ => .error .OverflowError
  | .finite q => .ok (q.num.tdiv q.den)

-- A value that Python's json module reads or writes.
inductive JsonValue where
  | null
  | bool (b : Bool)
  | int (i : ℤ)
  | float (x : PyFloat)
  | str (s : String)
  | arr (items : List JsonValue)
  | obj (fields : List (String × JsonValue))

end Python
