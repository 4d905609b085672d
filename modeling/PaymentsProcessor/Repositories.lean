import PaymentsProcessor.Effects

namespace PaymentsProcessor

open Python Concurrency

namespace PaymentRepository

def create_payment (amount : Decimal) (currency : CurrencyEnum) (description : Option String)
    (meta_ : Option JsonDict) (idempotency_key webhook_url : String) : Async Payment := do
  let id ← Async.uuid7
  Async.execute (.insert_payment
    { id, amount, currency, description, meta_, status := .PENDING, idempotency_key, webhook_url })

def get_by_id (obj_id : UUID) : Async (Option Payment) := Async.execute (.get_by_id obj_id)

def get_by_idempotency_key (idempotency_key : String) : Async (Option Payment) := do
  let rows ← Async.execute (.get_by_idempotency_key idempotency_key)
  match (rows : List Payment) with
  | [] => return none
  | [payment] => return some payment
  | _ => throw (.Exception "MultipleResultsFound"
      "Multiple rows were found when one or none was required")

def update_processing_outcome (payment_id : UUID) (status : PaymentStatusEnum)
    (processed_at : DateTime) : Async (Option Payment) :=
  Async.execute (.update_processing_outcome payment_id status processed_at)

end PaymentRepository

namespace OutboxRepository

def enqueue (aggregate_type : String) (aggregate_id : UUID) (event_type routing_key : String)
    (payload : JsonDict) : Async Outbox := do
  let id ← Async.uuid7
  Async.execute (.insert_outbox
    { id, aggregate_type, aggregate_id, event_type, routing_key, payload, status := .PENDING,
      attempts := 0 })

-- The rows of the scan, each locked or skipped, until the limit is reached.
def lock_rows (now : DateTime) : List UUID → ℕ → Async (List Outbox)
  | [], _ => pure []
  | _ :: _, 0 => pure []
  | id :: ids, limit + 1 => do
      let row ← Async.execute (.lock_pending id now)
      match (row : Option Outbox) with
      | none => lock_rows now ids (limit + 1)
      | some row => do
          let rows ← lock_rows now ids limit
          return row :: rows

def fetch_pending (batch_size : ℤ) (now : DateTime) : Async (List Outbox) := do
  let ids ← Async.execute (.scan_pending batch_size now)
  lock_rows now ids batch_size.toNat

def mark_published (outbox_id : UUID) (published_at : DateTime) : Async Unit :=
  Async.execute (.mark_published outbox_id published_at)

def bump_attempt (outbox_id : UUID) (error : String) (next_attempt_at : DateTime) : Async Unit :=
  Async.execute (.bump_attempt outbox_id error next_attempt_at)

end OutboxRepository

end PaymentsProcessor
