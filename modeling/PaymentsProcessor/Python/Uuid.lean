import Mathlib.Data.List.Basic
import Mathlib.Data.Nat.Digits.Defs
import Mathlib.Tactic.IntervalCases

namespace Python

abbrev UUID := BitVec 128

-- Hexadecimal digits, most significant first, to a fixed width.
namespace Hex

def digit (n : ℕ) : Char :=
  if n < 10 then Char.ofNat (48 + n) else Char.ofNat (87 + n)

def value (c : Char) : Option ℕ :=
  let n := c.toNat
  if 48 ≤ n ∧ n < 58 then some (n - 48)
  else if 97 ≤ n ∧ n < 103 then some (n - 87)
  else if 65 ≤ n ∧ n < 71 then some (n - 55)
  else none

def encode : ℕ → ℕ → List Char
  | 0, _ => []
  | width + 1, n => encode width (n / 16) ++ [digit (n % 16)]

def decodeFrom : ℕ → List Char → Option ℕ
  | acc, [] => some acc
  | acc, c :: cs => (value c).bind fun d => decodeFrom (16 * acc + d) cs

def decode (cs : List Char) : Option ℕ := decodeFrom 0 cs

theorem value_digit (n : ℕ) (h : n < 16) : value (digit n) = some n := by
  interval_cases n <;> decide

theorem digit_ne_dash (n : ℕ) (h : n < 16) : digit n ≠ '-' := by
  interval_cases n <;> decide

theorem length_encode (width n : ℕ) : (encode width n).length = width := by
  induction width generalizing n with
  | zero => rfl
  | succ width ih => simp [encode, ih]

theorem dash_notMem_encode (width n : ℕ) : '-' ∉ encode width n := by
  induction width generalizing n with
  | zero => simp [encode]
  | succ width ih =>
      simp only [encode, List.mem_append, List.mem_singleton, not_or]
      exact ⟨ih _, Ne.symm (digit_ne_dash _ (Nat.mod_lt _ (by decide)))⟩

theorem decodeFrom_append (acc : ℕ) (cs ds : List Char) :
    decodeFrom acc (cs ++ ds) = (decodeFrom acc cs).bind fun n => decodeFrom n ds := by
  induction cs generalizing acc with
  | nil => rfl
  | cons c cs ih =>
      simp only [List.cons_append, decodeFrom]
      cases value c with
      | none => rfl
      | some d => exact ih _

theorem decodeFrom_encode (width n acc : ℕ) :
    decodeFrom acc (encode width n) = some (acc * 16 ^ width + n % 16 ^ width) := by
  induction width generalizing n acc with
  | zero => simp [encode, decodeFrom, Nat.mod_one]
  | succ width ih =>
      have hd := value_digit (n % 16) (Nat.mod_lt _ (by decide))
      have hm : n % 16 ^ (width + 1) = 16 * (n / 16 % 16 ^ width) + n % 16 := by
        rw [Nat.pow_succ', Nat.mod_mul]
        omega
      simp only [encode, decodeFrom_append, ih, Option.bind_some, decodeFrom, hd]
      rw [hm, Nat.pow_succ]
      congr 1
      ring

theorem decode_encode (width n : ℕ) (h : n < 16 ^ width) : decode (encode width n) = some n := by
  simp [decode, decodeFrom_encode, Nat.mod_eq_of_lt h]

end Hex

namespace UUID

def hyphenate (h : List Char) : List Char :=
  h.take 8 ++ '-' :: ((h.drop 8).take 4 ++ '-' :: ((h.drop 12).take 4 ++
    '-' :: ((h.drop 16).take 4 ++ '-' :: h.drop 20)))

-- `str(u)`
def str (u : UUID) : String := String.ofList (hyphenate (Hex.encode 32 u.toNat))

-- The hyphenated form only: it is the one that `str` writes.
def parse (s : String) : Option UUID :=
  let h := s.toList.filter (· ≠ '-')
  if h.length = 32 ∧ s.toList = hyphenate h then (Hex.decode h).map (BitVec.ofNat 128) else none

theorem filter_hyphenate (h : List Char) (hd : '-' ∉ h) :
    (hyphenate h).filter (· ≠ '-') = h := by
  have hall : ∀ l : List Char, (∀ c ∈ l, c ∈ h) → l.filter (· ≠ '-') = l := by
    intro l hl
    rw [List.filter_eq_self]
    intro c hc
    have : c ≠ '-' := fun he => hd (he ▸ hl c hc)
    simpa using this
  have hsub : ∀ m n, ∀ c ∈ (h.drop m).take n, c ∈ h :=
    fun m n c hc => List.mem_of_mem_drop (List.mem_of_mem_take hc)
  have hdash : ∀ l : List Char, ('-' :: l).filter (· ≠ '-') = l.filter (· ≠ '-') := by
    intro l
    simp
  simp only [hyphenate, List.filter_append, hdash]
  rw [hall (h.take 8) fun c hc => List.mem_of_mem_take hc, hall _ (hsub 8 4), hall _ (hsub 12 4),
    hall _ (hsub 16 4), hall (h.drop 20) fun c hc => List.mem_of_mem_drop hc]
  have h4 : ∀ m, (h.drop m).take 4 ++ h.drop (m + 4) = h.drop m := by
    intro m
    rw [← List.drop_drop]
    exact List.take_append_drop 4 _
  rw [h4 16, h4 12, h4 8]
  exact List.take_append_drop 8 h

theorem parse_str (u : UUID) : parse (str u) = some u := by
  have hlt : u.toNat < 16 ^ 32 := by
    have := u.isLt
    norm_num at this ⊢
    exact this
  have hf := filter_hyphenate _ (Hex.dash_notMem_encode 32 u.toNat)
  simp only [parse, str, String.toList_ofList, hf, Hex.length_encode, and_self, if_true,
    Hex.decode_encode 32 u.toNat hlt, Option.map_some, BitVec.ofNat_toNat]
  simp

end UUID

end Python
