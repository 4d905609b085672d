import PaymentsProcessor.Database.Lemmas

namespace PaymentsProcessor

open Python Storage

theorem find?_ids {R : Type} {key : R → UUID} {t : Table key} {rows : List R}
    (h : rows ⊆ t.rows) : (rows.map key).filterMap t.find? = rows := by
  induction rows with
  | nil => rfl
  | cons row rows ih =>
      rw [List.map_cons, List.filterMap_cons, Table.find?_key (h List.mem_cons_self)]
      exact congrArg _ (ih fun r hr => h (List.mem_cons_of_mem _ hr))

theorem before_trans {a b c : Outbox} (hab : a.before b) (hbc : b.before c) : a.before c := by
  simp only [Outbox.before, decide_eq_true_eq] at hab hbc ⊢
  rcases hab with hab | ⟨hab, hab'⟩ <;> rcases hbc with hbc | ⟨hbc, hbc'⟩
  · exact .inl (lt_trans hab hbc)
  · exact .inl (hbc ▸ hab)
  · exact .inl (hab ▸ hbc)
  · exact .inr ⟨hab.trans hbc, le_trans hab' hbc'⟩

theorem before_total (a b : Outbox) : (a.before b || b.before a) = true := by
  simp only [Outbox.before, Bool.or_eq_true, decide_eq_true_eq]
  rcases lt_trichotomy a.next_attempt_at b.next_attempt_at with h | h | h
  · exact .inl (.inl h)
  · exact (le_total a.created_at b.created_at).imp (fun hc => .inr ⟨h, hc⟩)
      fun hc => .inr ⟨h.symm, hc⟩
  · exact .inr (.inl h)

-- The rows that are due, in an order that a scan may answer with.
def Tables.due (c : Tables) (now : DateTime) : List Outbox :=
  (c.outbox.rows.filter fun row => row.is_due now).mergeSort Outbox.before

theorem mem_due {c : Tables} {now : DateTime} {row : Outbox} :
    row ∈ c.due now ↔ row ∈ c.outbox.rows ∧ row.is_due now := by
  unfold Tables.due
  rw [(List.mergeSort_perm ..).mem_iff, List.mem_filter]

theorem scan_answered (s : Store) (pid : Pid) {limit : ℤ} (hlimit : 0 ≤ limit)
    (now : DateTime) : scan_verdict s pid limit now (((s.visible pid).due now).map (·.id)) =
      .succeeds (((s.visible pid).due now).map (·.id)) [] [] := by
  have hperm : ((s.visible pid).due now).Perm
      ((s.visible pid).outbox.rows.filter fun row => row.is_due now) := List.mergeSort_perm ..
  have hsub : (s.visible pid).due now ⊆ (s.visible pid).outbox.rows :=
    fun row hrow => (mem_due.mp hrow).1
  have hsorted : ((s.visible pid).due now).Pairwise fun a b => a.before b :=
    @List.pairwise_mergeSort _ Outbox.before (fun _ _ _ => before_trans) before_total _
  unfold scan_verdict
  simp only
  rw [if_neg (by omega), if_pos ⟨hperm.map _, (find?_ids hsub).symm ▸ hsorted⟩]

end PaymentsProcessor
