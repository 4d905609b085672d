import Mathlib.Data.Rat.Floor
import Mathlib.Tactic.NormNum
import Mathlib.Tactic.FieldSimp
import Mathlib.Tactic.Linarith

namespace Storage

-- A value of a fixed-scale decimal column, counted in its last place.
structure Numeric (scale : ℕ) where
  units : ℤ
deriving DecidableEq, Repr

namespace Numeric

variable {scale : ℕ}

def toRat (x : Numeric scale) : ℚ := mkRat x.units (10 ^ scale)

def roundHalfAway (q : ℚ) : ℤ :=
  if 0 ≤ q then ⌊q + 1 / 2⌋ else ⌈q - 1 / 2⌉

-- Storing rounds to the scale and then refuses what exceeds the precision.
def store (precision : ℕ) (q : ℚ) : Option (Numeric scale) :=
  let units := roundHalfAway (q * 10 ^ scale)
  if units.natAbs < 10 ^ precision then some ⟨units⟩ else none

theorem toRat_eq (x : Numeric scale) : x.toRat = x.units / 10 ^ scale := by
  rw [toRat, Rat.mkRat_eq_div]
  norm_cast

@[simp] theorem toRat_inj {x y : Numeric scale} : x.toRat = y.toRat ↔ x = y := by
  constructor
  · intro h
    simp only [toRat_eq] at h
    have hpos : (10 : ℚ) ^ scale ≠ 0 := by positivity
    have hu : (x.units : ℚ) = y.units := by field_simp at h; exact h
    cases x; cases y
    simpa using hu
  · exact fun h => h ▸ rfl

theorem roundHalfAway_intCast (n : ℤ) : roundHalfAway n = n := by
  unfold roundHalfAway
  split
  · rw [Int.floor_eq_iff]
    constructor <;> norm_num
  · rw [Int.ceil_eq_iff]
    constructor <;> norm_num

-- What is a multiple of the last place and fits is stored unrounded.
theorem store_exact (precision : ℕ) (x : Numeric scale) (h : x.units.natAbs < 10 ^ precision) :
    store precision x.toRat = some x := by
  have hpos : (10 : ℚ) ^ scale ≠ 0 := by positivity
  have hu : x.toRat * 10 ^ scale = x.units := by
    rw [toRat_eq]
    field_simp
  simp only [store, hu, roundHalfAway_intCast, h, if_true]

end Numeric

end Storage
