import PaymentsProcessor.Database.Records

namespace PaymentsProcessor

open Python Storage PaymentsConstants

-- What a write makes of a row of the outbox table.
def Write.change : Write → Outbox → Outbox
  | publish_outbox id published_at time, row =>
      if row.id = id then row.set_published published_at time else row
  | bump_outbox id error next_attempt_at time, row =>
      if row.id = id then row.set_attempt error next_attempt_at time else row
  | _, row => row

def changes (ws : List Write) (row : Outbox) : Outbox := ws.foldl (fun row wr => wr.change row) row

theorem change_id (wr : Write) (row : Outbox) : (wr.change row).id = row.id := by
  cases wr with
  | publish_outbox | bump_outbox =>
      simp only [Write.change]
      split <;> rfl
  | insert_payment | insert_outbox | update_payment => rfl

theorem change_untouched {wr : Write} {row : Outbox} (h : .outbox row.id ∉ wr.touches) :
    wr.change row = row := by
  cases wr with
  | publish_outbox id | bump_outbox id =>
      have hne : row.id ≠ id := by simpa [Write.touches] using h
      exact if_neg hne
  | insert_payment | insert_outbox | update_payment => rfl

theorem changes_untouched {ws : List Write} {row : Outbox}
    (h : ∀ wr ∈ ws, .outbox row.id ∉ wr.touches) : changes ws row = row := by
  induction ws with
  | nil => rfl
  | cons wr ws ih =>
      obtain ⟨hwr, hws⟩ := List.forall_mem_cons.mp h
      rw [changes, List.foldl_cons, change_untouched hwr]
      exact ih hws

theorem change_enqueued (wr : Write) (row : Outbox) :
    (wr.change row).as_enqueued = row.as_enqueued := by
  cases wr with
  | publish_outbox | bump_outbox =>
      simp only [Write.change]
      split <;> rfl
  | insert_payment | insert_outbox | update_payment => rfl

theorem changes_enqueued (ws : List Write) (row : Outbox) :
    (changes ws row).as_enqueued = row.as_enqueued := by
  induction ws generalizing row with
  | nil => rfl
  | cons wr ws ih => exact (ih (wr.change row)).trans (change_enqueued wr row)

theorem changes_id (ws : List Write) (row : Outbox) : (changes ws row).id = row.id :=
  as_enqueued_id (changes_enqueued ws row)

theorem changes_aggregate (ws : List Write) (row : Outbox) :
    (changes ws row).aggregate_id = row.aggregate_id :=
  (congrArg Outbox.aggregate_id (changes_enqueued ws row) :)

section Rows

variable {c : Tables} {id : UUID} {row : Outbox}

theorem find?_change (h : c.outbox.find? id = some row) (wr : Write) :
    (wr.apply c).outbox.find? id = some (wr.change row) := by
  have hid : row.id = id := Table.key_of_find? h
  cases wr with
  | insert_payment | update_payment => exact h
  | insert_outbox new =>
      have hmem := Table.mem_insert_of_mem (r := new) (Table.mem_of_find? h)
      exact Table.find?_eq_some_iff.mpr ⟨hmem, hid⟩
  | publish_outbox id' published_at time =>
      refine (Table.find?_modify (Outbox.set_published_id published_at time)).trans ?_
      rw [h]
      rfl
  | bump_outbox id' error next_attempt_at time =>
      refine (Table.find?_modify (Outbox.set_attempt_id error next_attempt_at time)).trans ?_
      rw [h]
      rfl

-- A row that exists is found after any writes, with all that they make of it.
theorem find?_changes (h : c.outbox.find? id = some row) (ws : List Write) :
    (LockStore.applyAll Write.writing ws c).outbox.find? id = some (changes ws row) := by
  induction ws generalizing c row with
  | nil => exact h
  | cons wr ws ih => exact ih (find?_change h wr)

-- Writes that insert no row change the rows in place.
theorem applyAll_rows {ws : List Write} (h : ∀ wr ∈ ws, ∀ new, wr ≠ .insert_outbox new)
    (c : Tables) : (LockStore.applyAll Write.writing ws c).outbox.rows =
      c.outbox.rows.map (changes ws) := by
  induction ws generalizing c with
  | nil => exact (List.map_id _).symm
  | cons wr ws ih =>
      obtain ⟨hwr, hws⟩ := List.forall_mem_cons.mp h
      have happly : (wr.apply c).outbox.rows = c.outbox.rows.map wr.change := by
        cases wr with
        | insert_payment | update_payment => exact (List.map_id _).symm
        | insert_outbox new => exact absurd rfl (hwr new)
        | publish_outbox | bump_outbox => rfl
      refine (ih hws (wr.apply c)).trans ?_
      rw [happly, List.map_map]
      rfl

theorem change_status (wr : Write) (row : Outbox) : (wr.change row).status = .PUBLISHED ↔
    row.status = .PUBLISHED ∨ ∃ published_at time, wr = .publish_outbox row.id published_at time := by
  cases wr with
  | publish_outbox id published_at time =>
      simp only [Write.change]
      split
      · rename_i he
        simp [Outbox.set_published, he]
      · rename_i hne
        simp [Ne.symm hne]
  | bump_outbox id error next_attempt_at time =>
      simp only [Write.change]
      split <;> simp [Outbox.set_attempt]
  | insert_payment | insert_outbox | update_payment => simp [Write.change]

-- Only a mark publishes a row.
theorem changes_status (ws : List Write) (row : Outbox) : (changes ws row).status = .PUBLISHED ↔
    row.status = .PUBLISHED ∨
      ∃ published_at time, .publish_outbox row.id published_at time ∈ ws := by
  induction ws generalizing row with
  | nil => simp [changes]
  | cons wr ws ih =>
      have hcons : changes (wr :: ws) row = changes ws (wr.change row) := rfl
      rw [hcons, ih, change_status, change_id]
      constructor
      · rintro ((h | ⟨published_at, time, rfl⟩) | ⟨published_at, time, h⟩)
        · exact .inl h
        · exact .inr ⟨published_at, time, List.mem_cons_self⟩
        · exact .inr ⟨published_at, time, List.mem_cons_of_mem _ h⟩
      · rintro (h | ⟨published_at, time, h⟩)
        · exact .inl (.inl h)
        · rcases List.mem_cons.mp h with rfl | h
          · exact .inl (.inr ⟨published_at, time, rfl⟩)
          · exact .inr ⟨published_at, time, h⟩

end Rows

end PaymentsProcessor
