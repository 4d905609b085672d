import PaymentsProcessor.Effects
import PaymentsProcessor.Storage.LockStore
import PaymentsProcessor.Storage.Table

namespace PaymentsProcessor

open Python Storage PaymentsConstants

abbrev Pid := ℕ

inductive Resource where
  | payment (id : UUID)
  | idempotency_key (key : String)
  | outbox (id : UUID)
deriving DecidableEq

structure Tables where
  payments : Table Payment.id
  outbox : Table Outbox.id

def Tables.empty : Tables := ⟨.empty, .empty⟩

def Payment.set_outcome (status : PaymentStatusEnum) (processed_at time : DateTime) (p : Payment) :
    Payment :=
  { p with status, processed_at := some processed_at, updated_at := some time }

def Outbox.set_published (published_at time : DateTime) (row : Outbox) : Outbox :=
  { row with
    status := .PUBLISHED
    published_at := some published_at
    last_error := none
    updated_at := some time }

def Outbox.set_attempt (error : String) (next_attempt_at time : DateTime) (row : Outbox) :
    Outbox :=
  { row with
    attempts := row.attempts + 1
    last_error := some error
    next_attempt_at
    updated_at := some time }

theorem Payment.set_outcome_id (status : PaymentStatusEnum) (processed_at time : DateTime)
    (p : Payment) : (p.set_outcome status processed_at time).id = p.id := rfl

theorem Outbox.set_published_id (published_at time : DateTime) (row : Outbox) :
    (row.set_published published_at time).id = row.id := rfl

theorem Outbox.set_attempt_id (error : String) (next_attempt_at time : DateTime) (row : Outbox) :
    (row.set_attempt error next_attempt_at time).id = row.id := rfl

inductive Write where
  | insert_payment (payment : Payment)
  | insert_outbox (row : Outbox)
  | update_payment (id : UUID) (status : PaymentStatusEnum) (processed_at time : DateTime)
  | publish_outbox (id : UUID) (published_at time : DateTime)
  | bump_outbox (id : UUID) (error : String) (next_attempt_at time : DateTime)

namespace Write

def apply : Write → Tables → Tables
  | insert_payment payment, c => { c with payments := c.payments.insert payment }
  | insert_outbox row, c => { c with outbox := c.outbox.insert row }
  | update_payment id status processed_at time, c =>
      { c with payments := c.payments.modify id _ (Payment.set_outcome_id status processed_at time) }
  | publish_outbox id published_at time, c =>
      { c with outbox := c.outbox.modify id _ (Outbox.set_published_id published_at time) }
  | bump_outbox id error next_attempt_at time, c =>
      { c with outbox := c.outbox.modify id _ (Outbox.set_attempt_id error next_attempt_at time) }

def touches : Write → List Resource
  | insert_payment payment => [.payment payment.id, .idempotency_key payment.idempotency_key]
  | insert_outbox row => [.outbox row.id]
  | update_payment id .. => [.payment id]
  | publish_outbox id .. => [.outbox id]
  | bump_outbox id .. => [.outbox id]

def writing : Writing Resource Tables Write := ⟨apply, touches⟩

end Write

abbrev Store := LockStore Pid Resource Tables Write

-- What a transaction reads: what is committed, under its own writes.
def Store.visible (s : Store) (pid : Pid) : Tables := s.view Write.writing pid

-- What becomes of a statement when the server executes it. A refused statement
-- met a constraint that the program knows of, a failed one anything else.
inductive Verdict (R : Type) where
  | waits
  | refuses (error : AsyncpgError)
  | fails (e : Exn)
  | succeeds (result : R) (locks : List Resource) (writes : List Write)

section Statements

variable (s : Store) (pid : Pid) (time : DateTime)

def PaymentValues.row (v : PaymentValues) (amount : Amount) : Payment where
  id := v.id
  amount := amount
  currency := v.currency
  description := v.description
  meta_ := v.meta_
  status := v.status
  idempotency_key := v.idempotency_key
  webhook_url := v.webhook_url
  processed_at := none
  created_at := time
  updated_at := none

def OutboxValues.row (v : OutboxValues) : Outbox where
  id := v.id
  aggregate_type := v.aggregate_type
  aggregate_id := v.aggregate_id
  event_type := v.event_type
  routing_key := v.routing_key
  payload := v.payload
  status := v.status
  attempts := v.attempts
  next_attempt_at := time
  published_at := none
  last_error := none
  created_at := time
  updated_at := none

def Tables.with_key (c : Tables) (key : String) : List Payment :=
  c.payments.rows.filter fun p => p.idempotency_key = key

-- An id that is generated twice counts as a failure, and so does an amount the
-- column cannot hold. The checks come in the server's order: the column's type,
-- the check constraint, and the two unique indexes.
def insert_payment_verdict (v : PaymentValues) : Verdict Payment :=
  match Numeric.store AMOUNT_MAX_DIGITS v.amount.toRat with
  | none => .fails (.Exception "DBAPIError" "numeric field overflow")
  | some amount =>
      if amount.units ≤ 0 then
        .refuses ⟨.CheckViolationError, some Payment.CK_PAYMENT_AMOUNT_POSITIVE⟩
      else if !s.isFree pid (.payment v.id) then .waits
      else if ((s.visible pid).payments.find? v.id).isSome then
        .fails (.IntegrityError (some ⟨.UniqueViolationError, some "payments_pkey"⟩))
      else if !s.isFree pid (.idempotency_key v.idempotency_key) then .waits
      else if (s.visible pid).with_key v.idempotency_key ≠ [] then
        .refuses ⟨.UniqueViolationError, some Payment.UQ_PAYMENT_IDEMPOTENCY_KEY⟩
      else
        let row := v.row time amount
        .succeeds row [.payment v.id, .idempotency_key v.idempotency_key] [.insert_payment row]

def insert_outbox_verdict (v : OutboxValues) : Verdict Outbox :=
  if !s.isFree pid (.outbox v.id) then .waits
  else if ((s.visible pid).outbox.find? v.id).isSome then
    .fails (.IntegrityError (some ⟨.UniqueViolationError, some "outbox_pkey"⟩))
  else .succeeds (v.row time) [.outbox v.id] [.insert_outbox (v.row time)]

def update_payment_verdict (id : UUID) (status : PaymentStatusEnum) (processed_at : DateTime) :
    Verdict (Option Payment) :=
  match (s.visible pid).payments.find? id with
  | none => .succeeds none [] []
  | some p =>
      if !s.isFree pid (.payment id) then .waits
      else .succeeds (some (p.set_outcome status processed_at time)) [.payment id]
        [.update_payment id status processed_at time]

def Outbox.is_due (now : DateTime) (row : Outbox) : Bool :=
  row.status = .PENDING ∧ row.next_attempt_at ≤ now

-- `(next_attempt_at, created_at)` in order.
def Outbox.before (a b : Outbox) : Bool :=
  a.next_attempt_at < b.next_attempt_at ∨
    (a.next_attempt_at = b.next_attempt_at ∧ a.created_at ≤ b.created_at)

-- A scan finds the rows that are due, in some order that the clause allows.
def scan_verdict (limit : ℤ) (now : DateTime) (ids : List UUID) : Verdict (List UUID) :=
  let outbox := (s.visible pid).outbox
  if limit < 0 then .fails (.Exception "DBAPIError" "LIMIT must not be negative")
  else if ids.Perm ((outbox.rows.filter fun row => row.is_due now).map (·.id)) ∧
      (ids.filterMap outbox.find?).Pairwise fun a b => a.before b then .succeeds ids [] []
  else .waits

-- A row that another transaction holds is skipped. One that is free is locked,
-- and is returned if it is still due.
def lock_verdict (id : UUID) (now : DateTime) : Verdict (Option Outbox) :=
  match (s.visible pid).outbox.find? id with
  | none => .succeeds none [] []
  | some row =>
      if !s.isFree pid (.outbox id) then .succeeds none [] []
      else if row.is_due now then .succeeds (some row) [.outbox id] []
      else .succeeds none [.outbox id] []

def mark_verdict (id : UUID) (published_at : DateTime) : Verdict Unit :=
  match (s.visible pid).outbox.find? id with
  | none => .succeeds () [] []
  | some _ =>
      if !s.isFree pid (.outbox id) then .waits
      else .succeeds () [.outbox id] [.publish_outbox id published_at time]

-- The first number that an INTEGER column cannot hold.
def INTEGER_LIMIT : ℕ := 2147483648

def bump_verdict (id : UUID) (error : String) (next_attempt_at : DateTime) : Verdict Unit :=
  match (s.visible pid).outbox.find? id with
  | none => .succeeds () [] []
  | some row =>
      if !s.isFree pid (.outbox id) then .waits
      else if INTEGER_LIMIT ≤ row.attempts + 1 then
        .fails (.Exception "DBAPIError" "integer out of range")
      else .succeeds () [.outbox id] [.bump_outbox id error next_attempt_at time]

-- `ids` is what a scan answers.
def Statement.verdict (ids : List UUID) : (stmt : Statement) → Verdict stmt.Result
  | .get_by_id id => .succeeds ((s.visible pid).payments.find? id) [] []
  | .get_by_idempotency_key key => .succeeds ((s.visible pid).with_key key) [] []
  | .insert_payment values => insert_payment_verdict s pid time values
  | .insert_outbox values => insert_outbox_verdict s pid time values
  | .update_processing_outcome id status processed_at =>
      update_payment_verdict s pid time id status processed_at
  | .scan_pending limit now => scan_verdict s pid limit now ids
  | .lock_pending id now => lock_verdict s pid id now
  | .mark_published id published_at => mark_verdict s pid time id published_at
  | .bump_attempt id error next_attempt_at => bump_verdict s pid time id error next_attempt_at

end Statements

end PaymentsProcessor
