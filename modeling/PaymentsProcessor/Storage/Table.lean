import Mathlib.Data.List.Basic
import Mathlib.Data.List.Nodup

namespace Storage

-- The rows of a table with a primary key, in the order they were inserted.
structure Table {R K : Type} (key : R → K) where
  rows : List R
  nodup : (rows.map key).Nodup

namespace Table

variable {R K : Type} {key : R → K} [DecidableEq K]

def empty : Table key := ⟨[], List.nodup_nil⟩

def find? (t : Table key) (k : K) : Option R := t.rows.find? fun r => key r = k

-- A row whose key is taken is not inserted.
def insert (t : Table key) (r : R) : Table key :=
  if h : key r ∈ t.rows.map key then t
  else ⟨t.rows ++ [r], by simpa using List.nodup_append.mpr ⟨t.nodup, by simp, by simpa using h⟩⟩

private theorem map_key_modify (rows : List R) (k : K) (f : R → R)
    (hf : ∀ r, key (f r) = key r) :
    (rows.map fun r => if key r = k then f r else r).map key = rows.map key := by
  rw [List.map_map]
  apply List.map_congr_left
  intro r _
  simp only [Function.comp_apply]
  split <;> simp [hf]

def modify (t : Table key) (k : K) (f : R → R) (hf : ∀ r, key (f r) = key r) : Table key :=
  ⟨t.rows.map fun r => if key r = k then f r else r, by
    rw [map_key_modify t.rows k f hf]; exact t.nodup⟩

variable {t : Table key} {k k' : K} {r r' : R} {f : R → R} (hf : ∀ r, key (f r) = key r)

omit [DecidableEq K] in
theorem eq_of_key_eq (hr : r ∈ t.rows) (hr' : r' ∈ t.rows) (h : key r = key r') : r = r' :=
  List.inj_on_of_nodup_map t.nodup hr hr' h

theorem find?_eq_none_iff : t.find? k = none ↔ ∀ r ∈ t.rows, key r ≠ k := by
  simp [find?]

theorem mem_of_find? (h : t.find? k = some r) : r ∈ t.rows := List.mem_of_find?_eq_some h

theorem key_of_find? (h : t.find? k = some r) : key r = k := by
  simpa using List.find?_some h

theorem find?_eq_some_iff : t.find? k = some r ↔ r ∈ t.rows ∧ key r = k := by
  refine ⟨fun h => ⟨mem_of_find? h, key_of_find? h⟩, fun ⟨hr, hk⟩ => ?_⟩
  cases h : t.find? k with
  | none => exact absurd hk (find?_eq_none_iff.mp h r hr)
  | some r' =>
      rw [eq_of_key_eq (mem_of_find? h) hr ((key_of_find? h).trans hk.symm)]

theorem find?_key (hr : r ∈ t.rows) : t.find? (key r) = some r :=
  find?_eq_some_iff.mpr ⟨hr, rfl⟩

theorem insert_rows (h : t.find? (key r) = none) : (t.insert r).rows = t.rows ++ [r] := by
  have hk : key r ∉ t.rows.map key := by
    rw [List.mem_map]
    rintro ⟨r', hr', he⟩
    exact find?_eq_none_iff.mp h r' hr' he
  simp [insert, hk]

theorem mem_insert (h : t.find? (key r) = none) :
    r' ∈ (t.insert r).rows ↔ r' ∈ t.rows ∨ r' = r := by
  simp [insert_rows h]

theorem of_mem_insert (h : r' ∈ (t.insert r).rows) : r' ∈ t.rows ∨ r' = r := by
  unfold insert at h
  split at h
  · exact .inl h
  · simpa using h

theorem mem_insert_of_mem (h : r' ∈ t.rows) : r' ∈ (t.insert r).rows := by
  unfold insert
  split
  · exact h
  · exact List.mem_append_left _ h

theorem find?_insert_ne (h : k ≠ key r) : (t.insert r).find? k = t.find? k := by
  unfold insert
  split
  · rfl
  · simp [find?, Ne.symm h]

theorem mem_modify :
    r' ∈ (t.modify k f hf).rows ↔ ∃ r ∈ t.rows, r' = if key r = k then f r else r := by
  simp [modify, eq_comm]

theorem any_modify {g : R → Bool} (hg : ∀ r, g (f r) = g r) :
    (t.modify k f hf).rows.any g = t.rows.any g := by
  simp only [modify, List.any_map]
  congr 1
  funext r
  simp only [Function.comp_apply]
  split <;> simp [hg]

theorem find?_modify :
    (t.modify k f hf).find? k' = (t.find? k').map fun r => if key r = k then f r else r := by
  cases h : t.find? k' with
  | none =>
      rw [Option.map_none, find?_eq_none_iff]
      intro r' hr' hk
      obtain ⟨r, hr, rfl⟩ := (mem_modify hf).mp hr'
      apply find?_eq_none_iff.mp h r hr
      rw [← hk]
      split <;> simp [hf]
  | some r =>
      obtain ⟨hr, hk⟩ := find?_eq_some_iff.mp h
      rw [Option.map_some, find?_eq_some_iff]
      refine ⟨(mem_modify hf).mpr ⟨r, hr, rfl⟩, ?_⟩
      rw [← hk]
      split <;> simp [hf]

theorem find?_modify_ne (h : k' ≠ k) : (t.modify k f hf).find? k' = t.find? k' := by
  rw [find?_modify]
  cases hr : t.find? k' with
  | none => rfl
  | some r => simp [(find?_eq_some_iff.mp hr).2, h]

end Table

end Storage
