import PaymentsProcessor.Database.Changes

namespace PaymentsProcessor

open Python Storage

-- Another pending row that is not after this one in `(next_attempt_at, created_at)`.
def Outbox.is_ahead (r row : Outbox) : Bool :=
  row.status = .PENDING ∧ row.id ≠ r.id ∧ row.before r

def Tables.ahead (c : Tables) (r : Outbox) : List Outbox := c.outbox.rows.filter r.is_ahead

section Lists

variable {α κ : Type} [DecidableEq κ] {key : α → κ} {rows chosen : List α} {p : α → Bool}

-- What is left of a filter when some of its elements are changed to leave it.
theorem filter_map_eq {f : α → α}
    (hin : ∀ a ∈ rows, key a ∈ chosen.map key → p (f a) = false)
    (hout : ∀ a ∈ rows, key a ∉ chosen.map key → f a = a) :
    (rows.map f).filter p = (rows.filter p).filter fun a => key a ∉ chosen.map key := by
  induction rows with
  | nil => rfl
  | cons a rows ih =>
      obtain ⟨ha, hrows⟩ := List.forall_mem_cons.mp hin
      obtain ⟨ha', hrows'⟩ := List.forall_mem_cons.mp hout
      have ih := ih hrows hrows'
      by_cases hmem : key a ∈ chosen.map key
      · rw [List.map_cons, List.filter_cons_of_neg (by simp [ha hmem]), ih]
        by_cases hp : p a = true
        · rw [List.filter_cons_of_pos hp, List.filter_cons_of_neg (by simpa using hmem)]
        · rw [List.filter_cons_of_neg hp]
      · rw [List.map_cons, ha' hmem]
        by_cases hp : p a = true
        · rw [List.filter_cons_of_pos hp, List.filter_cons_of_pos hp,
            List.filter_cons_of_pos (by simpa using hmem), ih]
        · rw [List.filter_cons_of_neg hp, List.filter_cons_of_neg hp, ih]

-- The elements that leave are as many as were chosen.
theorem length_filter_chosen (hrows : (rows.map key).Nodup) (hkeys : (chosen.map key).Nodup)
    (hchosen : ∀ a ∈ chosen, a ∈ rows.filter p) :
    (rows.filter p).length =
      ((rows.filter p).filter fun a => key a ∉ chosen.map key).length + chosen.length := by
  have hin : ((rows.filter p).filter fun a => key a ∈ chosen.map key).length = chosen.length := by
    have hnodup : (((rows.filter p).filter fun a => key a ∈ chosen.map key).map key).Nodup :=
      hrows.sublist ((List.filter_sublist.trans List.filter_sublist).map key)
    have hperm : (((rows.filter p).filter fun a => key a ∈ chosen.map key).map key).Perm
        (chosen.map key) := by
      refine (List.perm_ext_iff_of_nodup hnodup hkeys).mpr fun k => ⟨fun hk => ?_, fun hk => ?_⟩
      · obtain ⟨a, ha, rfl⟩ := List.mem_map.mp hk
        exact of_decide_eq_true (List.mem_filter.mp ha).2
      · obtain ⟨a, ha, rfl⟩ := List.mem_map.mp hk
        refine List.mem_map_of_mem (List.mem_filter.mpr ⟨hchosen a ha, ?_⟩)
        exact decide_eq_true (List.mem_map_of_mem ha)
    simpa using hperm.length_eq
  have hsplit := List.length_eq_countP_add_countP (l := rows.filter p)
    fun a => decide (key a ∈ chosen.map key)
  rw [List.countP_eq_length_filter, List.countP_eq_length_filter, hin] at hsplit
  have hsame : (rows.filter p).filter (fun a => decide ¬(decide (key a ∈ chosen.map key) = true)) =
      (rows.filter p).filter fun a => decide (key a ∉ chosen.map key) := by
    simp
  rw [hsame] at hsplit
  omega

omit [DecidableEq κ] in
-- A limit either reaches an element or is used up before it.
theorem take_split (ids before after : List κ) {x : κ} (h : ids = before ++ x :: after) (n : ℕ) :
    x ∈ ids.take n ∨ ids.take n = before.take n ∧ (ids.take n).length = n := by
  subst h
  by_cases hn : n ≤ before.length
  · right
    rw [List.take_append_of_le_length hn, List.length_take]
    exact ⟨rfl, by omega⟩
  · left
    rw [List.take_append, List.mem_append]
    right
    obtain ⟨m, hm⟩ : ∃ m, n - before.length = m + 1 := ⟨n - before.length - 1, by omega⟩
    rw [hm, List.take_succ_cons]
    exact List.mem_cons_self

end Lists

section Ahead

variable {c c' : Tables} {r : Outbox}

theorem mem_ahead {row : Outbox} : row ∈ c.ahead r ↔
    row ∈ c.outbox.rows ∧ row.status = .PENDING ∧ row.id ≠ r.id ∧ row.before r := by
  rw [Tables.ahead, List.mem_filter, Outbox.is_ahead, decide_eq_true_eq]

theorem not_ahead_of_later {row : Outbox} (h : r.next_attempt_at < row.next_attempt_at) :
    r.is_ahead row = false := by
  have hbefore : row.before r = false := by
    rw [Outbox.before, decide_eq_false_iff_not]
    rintro (hlt | ⟨he, _⟩)
    · exact lt_asymm h hlt
    · exact h.ne' he
  simp [Outbox.is_ahead, hbefore]

-- A batch that settles some of the rows ahead, and no other, removes just these.
theorem ahead_settled {ws : List Write} {chosen : List Outbox}
    (hws : ∀ wr ∈ ws, ∀ new, wr ≠ .insert_outbox new)
    (hkeys : (chosen.map (·.id)).Nodup) (hchosen : ∀ row ∈ chosen, row ∈ c.ahead r)
    (hin : ∀ row ∈ c.outbox.rows, row.id ∈ chosen.map (·.id) → r.is_ahead (changes ws row) = false)
    (hout : ∀ row ∈ c.outbox.rows, row.id ∉ chosen.map (·.id) → changes ws row = row) :
    (LockStore.applyAll Write.writing ws c).ahead r ⊆ c.ahead r ∧
      (c.ahead r).length =
        ((LockStore.applyAll Write.writing ws c).ahead r).length + chosen.length := by
  have hleft : (LockStore.applyAll Write.writing ws c).ahead r =
      (c.ahead r).filter fun row => row.id ∉ chosen.map (·.id) := by
    unfold Tables.ahead
    rw [applyAll_rows hws]
    exact filter_map_eq hin hout
  rw [hleft]
  exact ⟨List.filter_subset_self _, length_filter_chosen c.outbox.nodup hkeys hchosen⟩

-- The rows that a scan finds before one that is due are ahead of it.
theorem scan_before {now : DateTime} {ids : List UUID}
    (hperm : ids.Perm ((c.outbox.rows.filter fun row => row.is_due now).map (·.id)))
    (hsorted : (ids.filterMap c.outbox.find?).Pairwise fun a b => a.before b)
    (hr : r ∈ c.outbox.rows) (hdue : r.is_due now) :
    ∃ before after, ids = before ++ r.id :: after ∧
      ∀ id ∈ before, ∃ row ∈ c.ahead r, row.id = id := by
  have hmem : r.id ∈ ids := hperm.mem_iff.mpr
    (List.mem_map_of_mem (List.mem_filter.mpr ⟨hr, hdue⟩))
  have hnodup : ids.Nodup :=
    hperm.nodup_iff.mpr (c.outbox.nodup.sublist (List.filter_sublist.map _))
  obtain ⟨before, after, rfl⟩ := List.append_of_mem hmem
  refine ⟨before, after, rfl, fun id hid => ?_⟩
  obtain ⟨row, hrow, rfl⟩ := List.mem_map.mp (hperm.mem_iff.mp (List.mem_append_left _ hid))
  obtain ⟨hrow, hpending⟩ := List.mem_filter.mp hrow
  have hne : row.id ≠ r.id := by
    intro he
    rw [List.nodup_append] at hnodup
    exact hnodup.2.2 _ hid _ List.mem_cons_self he
  rw [List.filterMap_append, List.filterMap_cons_some (Table.find?_key hr),
    List.pairwise_append] at hsorted
  have hbefore := hsorted.2.2 row (List.mem_filterMap.mpr ⟨row.id, hid, Table.find?_key hrow⟩) r
    List.mem_cons_self
  exact ⟨row, mem_ahead.mpr ⟨hrow, (of_decide_eq_true hpending).1, hne, hbefore⟩, rfl⟩

end Ahead

end PaymentsProcessor
