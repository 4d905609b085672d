import PaymentsProcessor.Database.Lemmas

namespace PaymentsProcessor

open Python Storage PaymentsConstants

-- A payment without what becomes of it.
def Payment.as_created (p : Payment) : Payment :=
  { p with status := .PENDING, processed_at := none, updated_at := none }

def Outbox.as_enqueued (row : Outbox) : Outbox :=
  { row with
    status := .PENDING
    attempts := 0
    next_attempt_at := row.created_at
    published_at := none
    last_error := none
    updated_at := none }

structure Payment.WellFormed (p : Payment) : Prop where
  processed : p.status = .PENDING ↔ p.processed_at = none
  positive : 0 < p.amount.units

def Outbox.WellFormed (row : Outbox) : Prop :=
  (row.status = .PENDING ∧ row.published_at = none) ∨
    (row.status = .PUBLISHED ∧ row.published_at.isSome)

-- The row that is enqueued together with a payment.
structure Outbox.Announces (row : Outbox) (p : Payment) : Prop where
  event_type : row.event_type = "payment.created"
  routing_key : row.routing_key = "payment.created"
  aggregate_id : row.aggregate_id = p.id
  payload : row.payload = [("payment_id", .str (UUID.str p.id))]

namespace Tables

-- Payments and outbox rows in bijection, each well formed, one payment for a key.
structure Consistent (c : Tables) : Prop where
  payments : ∀ p ∈ c.payments.rows, p.WellFormed
  outbox : ∀ row ∈ c.outbox.rows, row.WellFormed
  announced : ∀ p ∈ c.payments.rows, ∃ row ∈ c.outbox.rows, row.Announces p
  announces : ∀ row ∈ c.outbox.rows, ∃ p ∈ c.payments.rows, row.Announces p
  aggregates : ∀ row ∈ c.outbox.rows, ∀ row' ∈ c.outbox.rows,
    row.aggregate_id = row'.aggregate_id → row = row'
  keys : ∀ p ∈ c.payments.rows, ∀ p' ∈ c.payments.rows,
    p.idempotency_key = p'.idempotency_key → p = p'

-- Rows stay, as they were inserted, and what is published stays published.
structure Evolves (c c' : Tables) : Prop where
  payments : ∀ p ∈ c.payments.rows, ∃ p' ∈ c'.payments.rows, p'.as_created = p.as_created
  outbox : ∀ row ∈ c.outbox.rows, ∃ row' ∈ c'.outbox.rows,
    row'.as_enqueued = row.as_enqueued ∧ (row.status = .PUBLISHED → row'.status = .PUBLISHED)

theorem Evolves.refl (c : Tables) : c.Evolves c :=
  ⟨fun p hp => ⟨p, hp, rfl⟩, fun row hr => ⟨row, hr, rfl, id⟩⟩

theorem Evolves.trans {c c' c'' : Tables} (h : c.Evolves c') (h' : c'.Evolves c'') :
    c.Evolves c'' := by
  constructor
  · intro p hp
    obtain ⟨p', hp', he⟩ := h.payments p hp
    obtain ⟨p'', hp'', he'⟩ := h'.payments p' hp'
    exact ⟨p'', hp'', he'.trans he⟩
  · intro row hr
    obtain ⟨row', hr', he, hs⟩ := h.outbox row hr
    obtain ⟨row'', hr'', he', hs'⟩ := h'.outbox row' hr'
    exact ⟨row'', hr'', he'.trans he, fun hp => hs' (hs hp)⟩

-- One key has one payment, so that a search by key finds at most one.
theorem Consistent.with_key {c : Tables} (h : c.Consistent) (key : String) :
    c.with_key key = [] ∨ ∃ p ∈ c.payments.rows, p.idempotency_key = key ∧ c.with_key key = [p] := by
  have hmem : ∀ p ∈ c.with_key key, p ∈ c.payments.rows ∧ p.idempotency_key = key := by
    simp [Tables.with_key]
  have hnodup : (c.with_key key).Nodup := (List.Nodup.of_map _ c.payments.nodup).filter _
  cases hk : c.with_key key with
  | nil => exact .inl rfl
  | cons p rest =>
      rw [hk] at hmem hnodup
      right
      obtain ⟨hp, hpk⟩ := hmem p List.mem_cons_self
      refine ⟨p, hp, hpk, ?_⟩
      cases rest with
      | nil => rfl
      | cons q rest =>
          obtain ⟨hq, hqk⟩ := hmem q (by simp)
          have he := h.keys p hp q hq (hpk.trans hqk.symm)
          simp [he] at hnodup

theorem consistent_empty : Tables.empty.Consistent := by
  constructor <;> simp [Tables.empty, Table.empty]

end Tables

theorem as_created_id {p p' : Payment} (h : p'.as_created = p.as_created) : p'.id = p.id := by
  simpa [Payment.as_created] using congrArg Payment.id h

theorem as_enqueued_id {row row' : Outbox} (h : row'.as_enqueued = row.as_enqueued) :
    row'.id = row.id := by
  simpa [Outbox.as_enqueued] using congrArg Outbox.id h

theorem Outbox.Announces.of_same {row row' : Outbox} {p p' : Payment} (h : row.Announces p)
    (hr : row'.as_enqueued = row.as_enqueued) (hp : p'.as_created = p.as_created) :
    row'.Announces p' where
  event_type := Eq.trans (congrArg Outbox.event_type hr :) h.event_type
  routing_key := Eq.trans (congrArg Outbox.routing_key hr :) h.routing_key
  aggregate_id := Eq.trans (congrArg Outbox.aggregate_id hr :)
    (h.aggregate_id.trans (as_created_id hp).symm)
  payload := Eq.trans (congrArg Outbox.payload hr :) (as_created_id hp ▸ h.payload)

-- The consumers read the payment's id from the payload.
theorem Outbox.Announces.decode_payload {row : Outbox} {p : Payment} (h : row.Announces p) :
    PaymentCreatedEvent.decode row.payload = some ⟨p.id⟩ := by
  rw [h.payload]
  exact decode_event_payload p.id

-- What dispatchers and consumers write.
def Write.Progress : Write → Prop
  | insert_payment _ | insert_outbox _ => False
  | update_payment _ status _ _ => status ≠ .PENDING
  | publish_outbox .. | bump_outbox .. => True

-- Two states of the tables with the same rows, each row in one of its later states.
structure Tables.Corresponds (c c' : Tables) : Prop extends c.Evolves c' where
  payment_of : ∀ p' ∈ c'.payments.rows, ∃ p ∈ c.payments.rows,
    p'.as_created = p.as_created ∧ (p.WellFormed → p'.WellFormed)
  row_of : ∀ row' ∈ c'.outbox.rows, ∃ row ∈ c.outbox.rows,
    row'.as_enqueued = row.as_enqueued ∧ (row.WellFormed → row'.WellFormed)

theorem Tables.Corresponds.refl (c : Tables) : c.Corresponds c :=
  ⟨.refl _, fun p hp => ⟨p, hp, rfl, id⟩, fun row hr => ⟨row, hr, rfl, id⟩⟩

theorem Tables.Corresponds.trans {c c' c'' : Tables} (h : c.Corresponds c')
    (h' : c'.Corresponds c'') : c.Corresponds c'' where
  __ := h.toEvolves.trans h'.toEvolves
  payment_of p'' hp'' := by
    obtain ⟨p', hp', he', hw'⟩ := h'.payment_of p'' hp''
    obtain ⟨p, hp, he, hw⟩ := h.payment_of p' hp'
    exact ⟨p, hp, he'.trans he, fun h => hw' (hw h)⟩
  row_of row'' hr'' := by
    obtain ⟨row', hr', he', hw'⟩ := h'.row_of row'' hr''
    obtain ⟨row, hr, he, hw⟩ := h.row_of row' hr'
    exact ⟨row, hr, he'.trans he, fun h => hw' (hw h)⟩

section Progress

variable {c c' : Tables}

private theorem same_payments (h : c'.payments = c.payments)
    (hf : ∀ row ∈ c.outbox.rows, ∃ row' ∈ c'.outbox.rows,
      row'.as_enqueued = row.as_enqueued ∧ (row.status = .PUBLISHED → row'.status = .PUBLISHED))
    (hb : ∀ row' ∈ c'.outbox.rows, ∃ row ∈ c.outbox.rows,
      row'.as_enqueued = row.as_enqueued ∧ (row.WellFormed → row'.WellFormed)) :
    c.Corresponds c' where
  payments p hp := ⟨p, h ▸ hp, rfl⟩
  payment_of p hp := ⟨p, h ▸ hp, rfl, id⟩
  outbox := hf
  row_of := hb

theorem Write.Progress.corresponds {wr : Write} (h : wr.Progress) :
    c.Corresponds (wr.apply c) := by
  cases wr with
  | insert_payment | insert_outbox => exact h.elim
  | update_payment id status processed_at time =>
      constructor
      · constructor
        · intro p hp
          refine ⟨_, (Table.mem_modify (Payment.set_outcome_id status processed_at time)).mpr
            ⟨p, hp, rfl⟩, ?_⟩
          split <;> rfl
        · exact fun row hr => ⟨row, hr, rfl, fun h => h⟩
      · intro p' hp'
        obtain ⟨p, hp, rfl⟩ :=
          (Table.mem_modify (Payment.set_outcome_id status processed_at time)).mp hp'
        refine ⟨p, hp, by split <;> rfl, fun hw => ?_⟩
        split
        · exact ⟨by simpa [Payment.set_outcome, Write.Progress] using h, hw.positive⟩
        · exact hw
      · exact fun row hr => ⟨row, hr, rfl, fun h => h⟩
  | publish_outbox id published_at time =>
      refine same_payments rfl ?_ ?_
      · intro row hr
        refine ⟨_, (Table.mem_modify (Outbox.set_published_id published_at time)).mpr
          ⟨row, hr, rfl⟩, by split <;> rfl, fun hs => ?_⟩
        split
        · rfl
        · exact hs
      · intro row' hr'
        obtain ⟨row, hr, rfl⟩ :=
          (Table.mem_modify (Outbox.set_published_id published_at time)).mp hr'
        refine ⟨row, hr, by split <;> rfl, fun hw => ?_⟩
        split
        · exact .inr ⟨rfl, rfl⟩
        · exact hw
  | bump_outbox id error next_attempt_at time =>
      refine same_payments rfl ?_ ?_
      · intro row hr
        refine ⟨_, (Table.mem_modify (Outbox.set_attempt_id error next_attempt_at time)).mpr
          ⟨row, hr, rfl⟩, by split <;> rfl, fun hs => ?_⟩
        split <;> exact hs
      · intro row' hr'
        obtain ⟨row, hr, rfl⟩ :=
          (Table.mem_modify (Outbox.set_attempt_id error next_attempt_at time)).mp hr'
        refine ⟨row, hr, by split <;> rfl, fun hw => ?_⟩
        split <;> exact hw

theorem Tables.Consistent.corresponds (h : c.Consistent) (hc : c.Corresponds c') :
    c'.Consistent where
  payments p' hp' := by
    obtain ⟨p, hp, _, hw⟩ := hc.payment_of p' hp'
    exact hw (h.payments p hp)
  outbox row' hr' := by
    obtain ⟨row, hr, _, hw⟩ := hc.row_of row' hr'
    exact hw (h.outbox row hr)
  announced p' hp' := by
    obtain ⟨p, hp, he, _⟩ := hc.payment_of p' hp'
    obtain ⟨row, hr, ha⟩ := h.announced p hp
    obtain ⟨row', hr', he', _⟩ := hc.outbox row hr
    exact ⟨row', hr', ha.of_same he' he⟩
  announces row' hr' := by
    obtain ⟨row, hr, he, _⟩ := hc.row_of row' hr'
    obtain ⟨p, hp, ha⟩ := h.announces row hr
    obtain ⟨p', hp', he'⟩ := hc.payments p hp
    exact ⟨p', hp', ha.of_same he he'⟩
  aggregates r₁' h₁' r₂' h₂' ha := by
    obtain ⟨r₁, h₁, he₁, _⟩ := hc.row_of r₁' h₁'
    obtain ⟨r₂, h₂, he₂, _⟩ := hc.row_of r₂' h₂'
    have ha' : r₁.aggregate_id = r₂.aggregate_id :=
      ((congrArg Outbox.aggregate_id he₁ :).symm.trans ha).trans (congrArg Outbox.aggregate_id he₂ :)
    have hr := h.aggregates r₁ h₁ r₂ h₂ ha'
    subst hr
    exact Table.eq_of_key_eq h₁' h₂' ((as_enqueued_id he₁).trans (as_enqueued_id he₂).symm)
  keys p₁' h₁' p₂' h₂' hk := by
    obtain ⟨p₁, h₁, he₁, _⟩ := hc.payment_of p₁' h₁'
    obtain ⟨p₂, h₂, he₂, _⟩ := hc.payment_of p₂' h₂'
    have hk' : p₁.idempotency_key = p₂.idempotency_key :=
      ((congrArg Payment.idempotency_key he₁ :).symm.trans hk).trans
        (congrArg Payment.idempotency_key he₂ :)
    have hp := h.keys p₁ h₁ p₂ h₂ hk'
    subst hp
    exact Table.eq_of_key_eq h₁' h₂' ((as_created_id he₁).trans (as_created_id he₂).symm)

end Progress

section Insert

variable {c : Tables} {p : Payment} {row : Outbox}

-- The tables after a payment and its outbox row were inserted.
def Tables.with_payment (c : Tables) (p : Payment) (row : Outbox) : Tables :=
  Write.apply (.insert_outbox row) (Write.apply (.insert_payment p) c)

theorem mem_with_payment (hp : c.payments.find? p.id = none) {q : Payment} :
    q ∈ (c.with_payment p row).payments.rows ↔ q ∈ c.payments.rows ∨ q = p :=
  Table.mem_insert hp

theorem mem_with_payment_outbox (hr : c.outbox.find? row.id = none) {r : Outbox} :
    r ∈ (c.with_payment p row).outbox.rows ↔ r ∈ c.outbox.rows ∨ r = row :=
  Table.mem_insert hr

variable (hp : c.payments.find? p.id = none) (hr : c.outbox.find? row.id = none)
include hp hr

theorem evolves_with_payment : c.Evolves (c.with_payment p row) where
  payments q hq := ⟨q, (mem_with_payment hp).mpr (.inl hq), rfl⟩
  outbox r hr' := ⟨r, (mem_with_payment_outbox hr).mpr (.inl hr'), rfl, id⟩

theorem Tables.Consistent.with_payment (h : c.Consistent) (hk : c.has_key p.idempotency_key = false)
    (hpw : p.WellFormed) (hrw : row.WellFormed) (ha : row.Announces p) :
    (c.with_payment p row).Consistent := by
  -- no row of the table speaks of the new payment yet
  have hfresh : ∀ r ∈ c.outbox.rows, r.aggregate_id ≠ p.id := by
    intro r hr' he
    obtain ⟨q, hq, haq⟩ := h.announces r hr'
    exact Table.find?_eq_none_iff.mp hp q hq (haq.aggregate_id.symm.trans he)
  have hkey : ∀ q ∈ c.payments.rows, q.idempotency_key ≠ p.idempotency_key := by
    intro q hq he
    rw [has_key_iff.mpr ⟨q, hq, he⟩] at hk
    cases hk
  have hagg := ha.aggregate_id
  constructor
  · intro q hq
    obtain hq | rfl := (mem_with_payment hp).mp hq
    · exact h.payments q hq
    · exact hpw
  · intro r hr'
    obtain hr' | rfl := (mem_with_payment_outbox hr).mp hr'
    · exact h.outbox r hr'
    · exact hrw
  · intro q hq
    obtain hq | rfl := (mem_with_payment hp).mp hq
    · obtain ⟨r, hr', har⟩ := h.announced q hq
      exact ⟨r, (mem_with_payment_outbox hr).mpr (.inl hr'), har⟩
    · exact ⟨row, (mem_with_payment_outbox hr).mpr (.inr rfl), ha⟩
  · intro r hr'
    obtain hr' | rfl := (mem_with_payment_outbox hr).mp hr'
    · obtain ⟨q, hq, haq⟩ := h.announces r hr'
      exact ⟨q, (mem_with_payment hp).mpr (.inl hq), haq⟩
    · exact ⟨p, (mem_with_payment hp).mpr (.inr rfl), ha⟩
  · intro r₁ h₁ r₂ h₂ he
    obtain m₁ | rfl := (mem_with_payment_outbox hr).mp h₁
    · obtain m₂ | rfl := (mem_with_payment_outbox hr).mp h₂
      · exact h.aggregates r₁ m₁ r₂ m₂ he
      · exact absurd (he.trans hagg) (hfresh r₁ m₁)
    · obtain m₂ | rfl := (mem_with_payment_outbox hr).mp h₂
      · exact absurd (he.symm.trans hagg) (hfresh r₂ m₂)
      · rfl
  · intro q₁ h₁ q₂ h₂ he
    obtain m₁ | rfl := (mem_with_payment hp).mp h₁
    · obtain m₂ | rfl := (mem_with_payment hp).mp h₂
      · exact h.keys q₁ m₁ q₂ m₂ he
      · exact absurd he (hkey q₁ m₁)
    · obtain m₂ | rfl := (mem_with_payment hp).mp h₂
      · exact absurd he.symm (hkey q₂ m₂)
      · rfl

end Insert

end PaymentsProcessor
