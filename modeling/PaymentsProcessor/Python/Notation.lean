import Mathlib.Data.List.Basic
import Mathlib.Data.Nat.Digits.Defs

namespace Python

section Utf8

theorem utf8_eq_flatMap (s : String) :
    s.toUTF8.data.toList = s.toList.flatMap String.utf8EncodeChar := by
  rw [String.toUTF8, ← String.utf8Encode_toList, List.utf8Encode, List.data_toByteArray]

theorem utf8_append (s t : String) :
    (s ++ t).toUTF8.data.toList = s.toUTF8.data.toList ++ t.toUTF8.data.toList := by
  simp only [utf8_eq_flatMap, String.toList_append, List.flatMap_append]

theorem utf8_inj {s t : String} (h : s.toUTF8.data.toList = t.toUTF8.data.toList) : s = t :=
  String.toByteArray_inj.mp (ByteArray.ext (Array.toList_inj.mp h))

theorem utf8EncodeChar_ascii {c : Char} (h : c.toNat < 128) :
    String.utf8EncodeChar c = [c.val.toUInt8] := by
  apply String.utf8EncodeChar_eq_singleton
  rw [Char.utf8Size_eq_one_iff, UInt32.le_iff_toNat_le]
  have hval : c.val.toNat < 128 := h
  show c.val.toNat ≤ 127
  omega

-- The byte of a character below 128 tells which one it is.
theorem ascii_byte_inj {c d : Char} (hc : c.toNat < 128) (hd : d.toNat < 128)
    (h : c.val.toUInt8 = d.val.toUInt8) : c = d := by
  have hval : c.val.toNat < 128 := hc
  have hval' : d.val.toNat < 128 := hd
  have hnat := congrArg UInt8.toNat h
  rw [UInt32.toNat_toUInt8, UInt32.toNat_toUInt8] at hnat
  have heq : c.val.toNat = d.val.toNat := by omega
  exact Char.ext (UInt32.toNat_inj.mp heq)

theorem mem_utf8_of_ascii {s : String} (hs : ∀ c ∈ s.toList, c.toNat < 128) {d : Char}
    (hd : d.toNat < 128) (h : d.val.toUInt8 ∈ s.toUTF8.data.toList) : d ∈ s.toList := by
  rw [utf8_eq_flatMap] at h
  obtain ⟨c, hc, hb⟩ := List.mem_flatMap.mp h
  rw [utf8EncodeChar_ascii (hs c hc), List.mem_singleton] at hb
  rw [ascii_byte_inj hd (hs c hc) hb]
  exact hc

end Utf8

section Decimal

-- The decimal notation of a negative number has a sign, which is no digit.
theorem toString_int_inj {a b : ℤ} (h : toString a = toString b) : a = b := by
  have digits : ∀ {m n : ℕ}, m.repr = n.repr → m = n := by
    intro m n h
    have hl : Nat.toDigits 10 m = Nat.toDigits 10 n := by
      rw [← Nat.toList_repr, ← Nat.toList_repr, h]
    rw [← @Nat.ofDigitChars_ten_toDigits m, hl, Nat.ofDigitChars_ten_toDigits]
  have sign : ∀ {m n : ℕ}, m.repr ≠ "-" ++ n.repr := by
    intro m n h
    have hmem : '-' ∈ Nat.toDigits 10 m := by
      rw [← Nat.toList_repr, h, String.toList_append]
      exact List.mem_append_left _ (by decide)
    exact absurd (Nat.isDigit_of_mem_toDigits (by decide) (by decide) hmem) (by decide)
  rw [Int.toString_eq_repr, Int.toString_eq_repr, Int.repr_eq_if, Int.repr_eq_if] at h
  by_cases ha : 0 ≤ a
  · by_cases hb : 0 ≤ b
    · rw [if_pos ha, if_pos hb] at h
      have := digits h
      omega
    · rw [if_pos ha, if_neg hb] at h
      exact absurd h sign
  · by_cases hb : 0 ≤ b
    · rw [if_neg ha, if_pos hb] at h
      exact absurd h.symm sign
    · rw [if_neg ha, if_neg hb] at h
      have := digits ((String.append_right_inj _).mp h)
      omega

theorem isDigit_or_sign {n : ℤ} {c : Char} (h : c ∈ (toString n).toList) : c.isDigit ∨ c = '-' := by
  have digits : ∀ m : ℕ, c ∈ m.repr.toList → c.isDigit := by
    intro m hm
    rw [Nat.toList_repr] at hm
    exact Nat.isDigit_of_mem_toDigits (by decide) (by decide) hm
  rw [Int.toString_eq_repr, Int.repr_eq_if] at h
  split at h
  · exact .inl (digits _ h)
  · rw [String.toList_append, List.mem_append] at h
    rcases h with h | h
    · exact .inr (List.mem_singleton.mp h)
    · exact .inl (digits _ h)

-- A decimal notation is ASCII, and has no point.
theorem ascii_of_mem_toString {n : ℤ} {c : Char} (h : c ∈ (toString n).toList) : c.toNat < 128 := by
  rcases isDigit_or_sign h with hd | rfl
  · have hle : c.toNat ≤ '9'.toNat := by
      simp only [Char.isDigit, Bool.and_eq_true, decide_eq_true_eq] at hd
      exact hd.2
    have h9 : '9'.toNat = 57 := rfl
    omega
  · decide

theorem point_notMem_toString (n : ℤ) : '.' ∉ (toString n).toList := by
  intro h
  rcases isDigit_or_sign h with hd | hs
  · cases hd
  · cases hs

end Decimal

section Separator

variable {α : Type} {sep : α} {first first' rest rest' : List α}

-- What comes before the first separator is determined by the whole.
theorem append_separator_inj (h : sep ∉ first) (h' : sep ∉ first')
    (he : first ++ sep :: rest = first' ++ sep :: rest') : first = first' ∧ rest = rest' := by
  induction first generalizing first' with
  | nil =>
      cases first' with
      | nil => exact ⟨rfl, (List.cons.inj he).2⟩
      | cons x xs => exact absurd (List.mem_cons.mpr (.inl (List.cons.inj he).1)) h'
  | cons x xs ih =>
      cases first' with
      | nil => exact absurd (List.mem_cons.mpr (.inl (List.cons.inj he).1.symm)) h
      | cons y ys =>
          obtain ⟨rfl, ht⟩ := List.cons.inj he
          obtain ⟨rfl, hr⟩ := ih (fun hm => h (List.mem_cons_of_mem _ hm))
            (fun hm => h' (List.mem_cons_of_mem _ hm)) ht
          exact ⟨rfl, hr⟩

end Separator

end Python
