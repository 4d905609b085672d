import Mathlib.Data.List.Basic
import PaymentsProcessor.Python.Basic

namespace Python

-- The characters of a Python string. Surrogates are among them.
abbrev CodePoint := Fin 0x110000

-- A string as the json module reads it, where a `String` is one without surrogates.
abbrev Text := List CodePoint

namespace CodePoint

def isHighSurrogate (c : CodePoint) : Bool := 0xd800 ≤ c.val ∧ c.val < 0xdc00

def isLowSurrogate (c : CodePoint) : Bool := 0xdc00 ≤ c.val ∧ c.val < 0xe000

def isSurrogate (c : CodePoint) : Bool := c.isHighSurrogate || c.isLowSurrogate

theorem isSurrogate_of_lt {c : CodePoint} (h : c.val < 0xd800) : c.isSurrogate = false := by
  simp only [isSurrogate, isHighSurrogate, isLowSurrogate, Bool.or_eq_false_iff,
    decide_eq_false_iff_not]
  omega

def ofChar (c : Char) : CodePoint :=
  ⟨c.toNat, by
    have h := c.valid
    simp only [Char.toNat, UInt32.isValidChar, Nat.isValidChar] at *
    omega⟩

theorem isValidChar_of_not_isSurrogate {c : CodePoint} (h : c.isSurrogate = false) :
    Nat.isValidChar c.val := by
  have hc := c.isLt
  simp only [isSurrogate, isHighSurrogate, isLowSurrogate, Bool.or_eq_false_iff,
    decide_eq_false_iff_not, not_and, not_lt] at h
  simp only [Nat.isValidChar]
  omega

def toChar? (c : CodePoint) : Option Char :=
  if h : c.isSurrogate = false then
    some (Char.ofNatAux c.val (isValidChar_of_not_isSurrogate h))
  else none

@[simp] theorem toNat_ofNatAux (n : ℕ) (h : n.isValidChar) : (Char.ofNatAux n h).toNat = n := rfl

theorem isSurrogate_ofChar (c : Char) : (ofChar c).isSurrogate = false := by
  have h := c.valid
  simp only [UInt32.isValidChar, Nat.isValidChar] at h
  have hn : c.toNat = c.val.toNat := rfl
  simp only [isSurrogate, isHighSurrogate, isLowSurrogate, ofChar, Bool.or_eq_false_iff,
    decide_eq_false_iff_not, hn]
  omega

theorem toChar?_eq_some_iff {c : CodePoint} {x : Char} : c.toChar? = some x ↔ ofChar x = c := by
  constructor
  · intro h
    unfold toChar? at h
    by_cases hc : c.isSurrogate = false
    · rw [dif_pos hc] at h
      obtain rfl := Option.some.inj h
      exact Fin.ext (toNat_ofNatAux c.val (isValidChar_of_not_isSurrogate hc))
    · rw [dif_neg hc] at h
      cases h
  · rintro rfl
    have hx := isSurrogate_ofChar x
    unfold toChar?
    rw [dif_pos hx]
    exact congrArg some
      (Char.ext (UInt32.toNat_inj.mp (toNat_ofNatAux _ (isValidChar_of_not_isSurrogate hx))))

theorem toChar?_isSome (c : CodePoint) : c.toChar?.isSome = !c.isSurrogate := by
  unfold toChar?
  by_cases h : c.isSurrogate = false
  · rw [dif_pos h, h]
    rfl
  · rw [dif_neg h, Bool.of_not_eq_false h]
    rfl

-- The UTF-8 encoding of one code point.
def utf8 (c : CodePoint) : List UInt8 :=
  let n := c.val
  if n < 0x80 then [.ofNat n]
  else if n < 0x800 then [.ofNat (0xc0 + n / 0x40), .ofNat (0x80 + n % 0x40)]
  else if n < 0x10000 then
    [.ofNat (0xe0 + n / 0x1000), .ofNat (0x80 + n / 0x40 % 0x40), .ofNat (0x80 + n % 0x40)]
  else
    [.ofNat (0xf0 + n / 0x40000), .ofNat (0x80 + n / 0x1000 % 0x40),
      .ofNat (0x80 + n / 0x40 % 0x40), .ofNat (0x80 + n % 0x40)]

end CodePoint

namespace Text

def ofString (s : String) : Text := s.toList.map CodePoint.ofChar

def encodable (s : Text) : Bool := s.all fun c => !c.isSurrogate

-- `s.encode("utf-8")`
def encode (s : Text) : Except PyError (List UInt8) :=
  if s.encodable then .ok (s.flatMap CodePoint.utf8) else .error .UnicodeError

def toString? (s : Text) : Option String := (s.mapM CodePoint.toChar?).map String.ofList

@[simp] theorem encodable_nil : encodable [] = true := rfl

@[simp] theorem encodable_cons (c : CodePoint) (s : Text) :
    encodable (c :: s) = (!c.isSurrogate && encodable s) := rfl

@[simp] theorem encodable_append (s t : Text) :
    encodable (s ++ t) = (encodable s && encodable t) := by
  simp [encodable, List.all_append]

@[simp] theorem encodable_ofString (s : String) : (ofString s).encodable = true := by
  simp [encodable, ofString, CodePoint.isSurrogate_ofChar]

theorem ofString_inj {s t : String} : ofString s = ofString t ↔ s = t := by
  refine ⟨fun h => ?_, congrArg ofString⟩
  have hinj : Function.Injective CodePoint.ofChar := by
    intro x y hxy
    exact Option.some.inj ((CodePoint.toChar?_eq_some_iff.mpr hxy).symm.trans
      (CodePoint.toChar?_eq_some_iff.mpr rfl))
  exact String.toList_inj.mp (hinj.list_map h)

@[simp] theorem ofString_beq (s t : String) : (ofString s == ofString t) = (s == t) := by
  rw [Bool.eq_iff_iff, beq_iff_eq, beq_iff_eq, ofString_inj]

theorem toString?_isSome (s : Text) : s.toString?.isSome = s.encodable := by
  have h : (s.mapM CodePoint.toChar?).isSome = s.encodable := by
    induction s with
    | nil => rfl
    | cons c s ih =>
        have hc := c.toChar?_isSome
        cases hx : c.toChar? with
        | none =>
            rw [hx] at hc
            simp [List.mapM_cons, hx, ← hc]
        | some x =>
            rw [hx] at hc
            simp only [List.mapM_cons, hx, encodable_cons, ← hc, ← ih]
            cases s.mapM CodePoint.toChar? <;> rfl
  simp [toString?, h]

-- A string of the database is the text it was made of.
theorem toString?_eq_some {s : Text} {t : String} (h : s.toString? = some t) : ofString t = s := by
  obtain ⟨cs, hcs, rfl⟩ := Option.map_eq_some_iff.mp h
  rw [ofString, String.toList_ofList]
  clear h
  induction s generalizing cs with
  | nil =>
      obtain rfl : cs = [] := by simpa using hcs.symm
      rfl
  | cons c s ih =>
      simp only [List.mapM_cons, Option.bind_eq_bind, Option.bind_eq_some_iff,
        Option.pure_def, Option.some.injEq] at hcs
      obtain ⟨x, hx, xs, hxs, rfl⟩ := hcs
      rw [List.map_cons, ih xs hxs, CodePoint.toChar?_eq_some_iff.mp hx]

end Text

end Python
