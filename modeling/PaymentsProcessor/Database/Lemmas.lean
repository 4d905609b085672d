import PaymentsProcessor.Database

namespace PaymentsProcessor

open Python Storage PaymentsConstants

section Frames

theorem payment_frames (id : UUID) :
    Write.writing.Frames (fun c : Tables => c.payments.find? id) (.payment id) := by
  intro wr c hk
  cases wr with
  | insert_payment p =>
      have hne : id ≠ p.id := fun h => hk (by simp [Write.writing, Write.touches, h])
      exact Table.find?_insert_ne hne
  | update_payment id' status processed_at time =>
      have hne : id ≠ id' := fun h => hk (by simp [Write.writing, Write.touches, h])
      exact Table.find?_modify_ne (Payment.set_outcome_id status processed_at time) hne
  | insert_outbox | publish_outbox | bump_outbox => rfl

theorem outbox_frames (id : UUID) :
    Write.writing.Frames (fun c : Tables => c.outbox.find? id) (.outbox id) := by
  intro wr c hk
  cases wr with
  | insert_outbox row =>
      have hne : id ≠ row.id := fun h => hk (by simp [Write.writing, Write.touches, h])
      exact Table.find?_insert_ne hne
  | publish_outbox id' published_at time =>
      have hne : id ≠ id' := fun h => hk (by simp [Write.writing, Write.touches, h])
      exact Table.find?_modify_ne (Outbox.set_published_id published_at time) hne
  | bump_outbox id' error next_attempt_at time =>
      have hne : id ≠ id' := fun h => hk (by simp [Write.writing, Write.touches, h])
      exact Table.find?_modify_ne (Outbox.set_attempt_id error next_attempt_at time) hne
  | insert_payment | update_payment => rfl

def Tables.has_key (c : Tables) (key : String) : Bool :=
  c.payments.rows.any fun p => p.idempotency_key = key

theorem has_key_iff {c : Tables} {key : String} :
    c.has_key key ↔ ∃ p ∈ c.payments.rows, p.idempotency_key = key := by
  simp [Tables.has_key]

theorem with_key_eq_nil_iff {c : Tables} {key : String} :
    c.with_key key = [] ↔ c.has_key key = false := by
  simp [Tables.with_key, Tables.has_key]

theorem key_frames (key : String) :
    Write.writing.Frames (fun c : Tables => c.has_key key) (.idempotency_key key) := by
  intro wr c hk
  cases wr with
  | insert_payment p =>
      have hne : p.idempotency_key ≠ key :=
        fun h => hk (by simp [Write.writing, Write.touches, h])
      simp only [Write.writing, Write.apply, Tables.has_key, Table.insert]
      split
      · rfl
      · simp [hne]
  | update_payment id status processed_at time =>
      exact Table.any_modify (Payment.set_outcome_id status processed_at time) fun _ => rfl
  | insert_outbox | publish_outbox | bump_outbox => rfl

end Frames

theorem visible_of_nil {s : Store} {pid : Pid} (h : s.writes pid = []) :
    s.visible pid = s.contents := by
  simp [Store.visible, LockStore.view, LockStore.applyAll, h]

section Verdicts

variable {s : Store} {pid : Pid} {time : DateTime} {ids : List UUID} {id : UUID}
variable {locks : List Resource} {writes : List Write}

theorem insert_payment_succeeds {v : PaymentValues} {p : Payment}
    (h : insert_payment_verdict s pid time v = .succeeds p locks writes) :
    ∃ amount : Amount, Numeric.store AMOUNT_MAX_DIGITS v.amount.toRat = some amount ∧
      0 < amount.units ∧ p = v.row time amount ∧
      s.isFree pid (.payment v.id) ∧ s.isFree pid (.idempotency_key v.idempotency_key) ∧
      (s.visible pid).payments.find? v.id = none ∧
      (s.visible pid).with_key v.idempotency_key = [] ∧
      locks = [.payment v.id, .idempotency_key v.idempotency_key] ∧
      writes = [.insert_payment p] := by
  unfold insert_payment_verdict at h
  split at h
  · cases h
  rename_i amount hstore
  repeat' split at h
  all_goals cases h
  refine ⟨amount, hstore, by omega, rfl, ?_⟩
  simp_all

theorem insert_payment_refuses {v : PaymentValues} {error : AsyncpgError}
    (h : insert_payment_verdict s pid time v = .refuses error) :
    (∃ amount : Amount, Numeric.store AMOUNT_MAX_DIGITS v.amount.toRat = some amount ∧
        amount.units ≤ 0) ∨
      error = ⟨.UniqueViolationError, some Payment.UQ_PAYMENT_IDEMPOTENCY_KEY⟩ ∧
        s.isFree pid (.idempotency_key v.idempotency_key) ∧
        (s.visible pid).with_key v.idempotency_key ≠ [] := by
  unfold insert_payment_verdict at h
  split at h
  · cases h
  rename_i amount hstore
  split at h
  · exact .inl ⟨amount, hstore, by assumption⟩
  right
  repeat' split at h
  all_goals cases h
  simp_all

theorem insert_outbox_succeeds {v : OutboxValues} {row : Outbox}
    (h : insert_outbox_verdict s pid time v = .succeeds row locks writes) :
    row = v.row time ∧ s.isFree pid (.outbox v.id) ∧
      (s.visible pid).outbox.find? v.id = none ∧ locks = [.outbox v.id] ∧
      writes = [.insert_outbox row] := by
  unfold insert_outbox_verdict at h
  repeat' split at h
  all_goals cases h
  simp_all

theorem update_payment_succeeds {status : PaymentStatusEnum} {processed_at : DateTime}
    {result : Option Payment}
    (h : update_payment_verdict s pid time id status processed_at =
      .succeeds result locks writes) :
    (result = none ∧ locks = [] ∧ writes = []) ∨
      ∃ p, (s.visible pid).payments.find? id = some p ∧
        result = some (p.set_outcome status processed_at time) ∧ s.isFree pid (.payment id) ∧
        locks = [.payment id] ∧ writes = [.update_payment id status processed_at time] := by
  unfold update_payment_verdict at h
  repeat' split at h
  all_goals cases h
  · exact .inl ⟨rfl, rfl, rfl⟩
  · simp_all

theorem lock_succeeds {now : DateTime} {result : Option Outbox}
    (h : lock_verdict s pid id now = .succeeds result locks writes) :
    writes = [] ∧ ((result = none ∧ ((locks = []) ∨
        locks = [.outbox id] ∧ s.isFree pid (.outbox id))) ∨
      ∃ row, (s.visible pid).outbox.find? id = some row ∧ result = some row ∧ row.is_due now ∧
        s.isFree pid (.outbox id) ∧ locks = [.outbox id]) := by
  unfold lock_verdict at h
  repeat' split at h
  all_goals cases h
  all_goals simp_all

theorem mark_succeeds {published_at : DateTime} {result : Unit}
    (h : mark_verdict s pid time id published_at = .succeeds result locks writes) :
    (locks = [] ∧ writes = [] ∧ (s.visible pid).outbox.find? id = none) ∨
      s.isFree pid (.outbox id) ∧ locks = [.outbox id] ∧
        writes = [.publish_outbox id published_at time] := by
  unfold mark_verdict at h
  repeat' split at h
  all_goals cases h
  all_goals simp_all

theorem bump_succeeds {error : String} {next_attempt_at : DateTime} {result : Unit}
    (h : bump_verdict s pid time id error next_attempt_at = .succeeds result locks writes) :
    (locks = [] ∧ writes = [] ∧ (s.visible pid).outbox.find? id = none) ∨
      s.isFree pid (.outbox id) ∧ locks = [.outbox id] ∧
        writes = [.bump_outbox id error next_attempt_at time] := by
  unfold bump_verdict at h
  repeat' split at h
  all_goals cases h
  all_goals simp_all

theorem scan_succeeds {limit : ℤ} {now : DateTime} {result : List UUID}
    (h : scan_verdict s pid limit now ids = .succeeds result locks writes) :
    locks = [] ∧ writes = [] ∧ result = ids ∧
      ids.Perm (((s.visible pid).outbox.rows.filter fun row => row.is_due now).map (·.id)) ∧
      (ids.filterMap (s.visible pid).outbox.find?).Pairwise fun a b => a.before b := by
  unfold scan_verdict at h
  simp only at h
  repeat' split at h
  all_goals cases h
  simp_all

-- What a statement locks is free, and what it writes it has locked.
structure Covers (s : Store) (pid : Pid) (locks : List Resource) (writes : List Write) : Prop where
  free : ∀ k ∈ locks, s.isFree pid k
  touched : ∀ wr ∈ writes, ∀ k ∈ Write.writing.touches wr, k ∈ locks

theorem verdict_covers {stmt : Statement} {result : stmt.Result}
    (h : stmt.verdict s pid time ids = .succeeds result locks writes) :
    Covers s pid locks writes := by
  cases stmt with
  | get_by_id | get_by_idempotency_key =>
      cases h
      constructor <;> simp
  | insert_payment v =>
      obtain ⟨amount, _, _, rfl, hid, hkey, _, _, rfl, rfl⟩ := insert_payment_succeeds h
      constructor
      · simp [hid, hkey]
      · simp [Write.writing, Write.touches, PaymentValues.row]
  | insert_outbox v =>
      obtain ⟨rfl, hid, _, rfl, rfl⟩ := insert_outbox_succeeds h
      constructor
      · simp [hid]
      · simp [Write.writing, Write.touches, OutboxValues.row]
  | update_processing_outcome id status processed_at =>
      obtain ⟨_, rfl, rfl⟩ | ⟨p, _, _, hid, rfl, rfl⟩ := update_payment_succeeds h
      · constructor <;> simp
      · constructor <;> simp [hid, Write.writing, Write.touches]
  | scan_pending limit now =>
      obtain ⟨rfl, rfl, _⟩ := scan_succeeds h
      constructor <;> simp
  | lock_pending id now =>
      obtain ⟨rfl, ⟨_, rfl | ⟨rfl, hid⟩⟩ | ⟨row, _, _, _, hid, rfl⟩⟩ := lock_succeeds h
      · constructor <;> simp
      · constructor <;> simp [hid]
      · constructor <;> simp [hid]
  | mark_published id published_at =>
      obtain ⟨rfl, rfl, _⟩ | ⟨hid, rfl, rfl⟩ := mark_succeeds h
      · constructor <;> simp
      · constructor <;> simp [hid, Write.writing, Write.touches]
  | bump_attempt id error next_attempt_at =>
      obtain ⟨rfl, rfl, _⟩ | ⟨hid, rfl, rfl⟩ := bump_succeeds h
      · constructor <;> simp
      · constructor <;> simp [hid, Write.writing, Write.touches]

end Verdicts

end PaymentsProcessor
