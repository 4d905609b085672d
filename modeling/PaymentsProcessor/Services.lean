import PaymentsProcessor.Repositories
import PaymentsProcessor.Utils

namespace PaymentsProcessor

open Python Concurrency PaymentsConstants

structure ConsumerConfig where
  CONSUMER_MAX_RETRIES : ℤ
  CONSUMER_PROCESS_MIN_SECONDS : PyFloat
  CONSUMER_PROCESS_MAX_SECONDS : PyFloat
  CONSUMER_SUCCESS_PROBABILITY : PyFloat

structure OutboxDispatcherConfig where
  OUTBOX_BATCH_SIZE : ℤ
  OUTBOX_POLL_INTERVAL_SECONDS : PyFloat
  OUTBOX_BACKOFF_INITIAL_SECONDS : PyFloat
  OUTBOX_BACKOFF_MAX_SECONDS : PyFloat

structure WebhookConfig where
  WEBHOOK_SECRET : String
  WEBHOOK_TIMEOUT_SECONDS : PyFloat
  WEBHOOK_ALLOW_PRIVATE_HOSTS : Bool

-- The constraint of an integrity error, as `HandleIntegrityHelpers.get_constraint` finds it.
def get_constraint (error : AsyncpgError) : Except Exn String :=
  match error.constraint_name with
  | some name => .ok name
  | none => .error .UnhandledIntegrityError

-- What `handle_payment_integrity` raises in place of an integrity error.
def integrity_error (idempotency_key : String) (orig : Option AsyncpgError) : Exn :=
  match orig with
  | none => .UnhandledIntegrityError
  | some error =>
      match error.cls with
      | .other => .UnhandledIntegrityError
      | .UniqueViolationError | .CheckViolationError =>
          match get_constraint error with
          | .error e => e
          | .ok constraint =>
              if constraint = Payment.UQ_PAYMENT_IDEMPOTENCY_KEY then
                .IdempotencyKeyConflictError idempotency_key
              else if constraint = Payment.CK_PAYMENT_AMOUNT_POSITIVE then
                .PaymentAmountNotPositiveError
              else .UnhandledIntegrityError

def handle_payment_integrity {α : Type} (idempotency_key : String) (body : Async α) : Async α :=
  tryCatch body fun e =>
    match e with
    | .IntegrityError orig => throw (integrity_error idempotency_key orig)
    | e => throw e

structure PaymentService where
  ssrf_guard : SSRFGuard

namespace PaymentService

def conflicting (existing : Payment) (amount : Decimal) (currency : CurrencyEnum)
    (webhook_url : String) : List String :=
  (if existing.amount.toRat ≠ amount.toRat then ["amount"] else []) ++
    (if existing.currency ≠ currency then ["currency"] else []) ++
      (if existing.webhook_url ≠ webhook_url then ["webhook_url"] else [])

def _ensure_idempotent_match (existing : Payment) (amount : Decimal) (currency : CurrencyEnum)
    (webhook_url idempotency_key : String) : Except Exn Unit :=
  if conflicting existing amount currency webhook_url ≠ [] then
    .error (.IdempotencyKeyConflictError idempotency_key)
  else .ok ()

-- The statements inside `async with handle_payment_integrity`.
def insert_payment (amount : Decimal) (currency : CurrencyEnum) (description : Option String)
    (meta_ : Option JsonDict) (idempotency_key webhook_url : String) : Async Payment := do
  let new_payment ← PaymentRepository.create_payment amount currency description meta_
    idempotency_key webhook_url
  let _ ← OutboxRepository.enqueue PAYMENT_AGGREGATE_TYPE new_payment.id
    PAYMENT_CREATED_EVENT_TYPE PAYMENT_CREATED_ROUTING_KEY (event_payload new_payment.id)
  Async.flush
  return new_payment

def create_payment (self : PaymentService) (amount : Decimal) (currency : CurrencyEnum)
    (description : Option String) (meta_ : Option JsonDict)
    (idempotency_key webhook_url : String) : Async (Payment × Bool) := do
  self.ssrf_guard.validate_url webhook_url
  let existing ← PaymentRepository.get_by_idempotency_key idempotency_key
  match existing with
  | some existing => do
      Prog.ofExcept (_ensure_idempotent_match existing amount currency webhook_url idempotency_key)
      return (existing, false)
  | none => do
      let new_payment ← handle_payment_integrity idempotency_key
        (insert_payment amount currency description meta_ idempotency_key webhook_url)
      return (new_payment, true)

def get_payment (payment_id : UUID) : Async Payment := do
  let payment ← PaymentRepository.get_by_id payment_id
  match payment with
  | none => throw (.PaymentNotFoundError payment_id)
  | some payment => return payment

def outcome_status (outcome : ProcessingOutcomeEnum) : PaymentStatusEnum :=
  if outcome = .SUCCEEDED then .SUCCEEDED else .FAILED

def apply_processing_outcome (payment_id : UUID) (outcome : ProcessingOutcomeEnum) :
    Async Payment := do
  let processed_at ← Async.now
  let payment ← PaymentRepository.update_processing_outcome payment_id (outcome_status outcome)
    processed_at
  match payment with
  | none => throw (.PaymentNotFoundError payment_id)
  | some payment => return payment

end PaymentService

structure ProcessingService where
  consumer_config : ConsumerConfig

def ProcessingService.process (self : ProcessingService) : Async ProcessingOutcomeEnum := do
  let delay_seconds ← Async.uniform self.consumer_config.CONSUMER_PROCESS_MIN_SECONDS
    self.consumer_config.CONSUMER_PROCESS_MAX_SECONDS
  Async.sleep delay_seconds
  let x ← Async.random
  return if x.lt self.consumer_config.CONSUMER_SUCCESS_PROBABILITY then .SUCCEEDED else .FAILED

structure OutboxService where
  outbox_dispatcher_config : OutboxDispatcherConfig

namespace OutboxService

def fetch_pending (batch_size : ℤ) : Async (List Outbox) := do
  let now ← Async.now
  OutboxRepository.fetch_pending batch_size now

def mark_published (outbox_id : UUID) : Async Unit := do
  let published_at ← Async.now
  OutboxRepository.mark_published outbox_id published_at

def _compute_backoff_seconds (self : OutboxService) (attempts : ℕ) : Except PyError PyFloat := do
  let initial := self.outbox_dispatcher_config.OUTBOX_BACKOFF_INITIAL_SECONDS
  let cap := self.outbox_dispatcher_config.OUTBOX_BACKOFF_MAX_SECONDS
  let factor ← PyFloat.ofNat (2 ^ attempts)
  return cap.min (initial.mul factor)

def bump_attempt (self : OutboxService) (outbox_id : UUID) (attempts : ℕ) (error : String) :
    Async Unit := do
  let delay_seconds ← ofPython (self._compute_backoff_seconds attempts)
  let now ← Async.now
  let delta ← ofPython (timedelta delay_seconds)
  let next_attempt_at ← ofPython (DateTime.add now delta)
  OutboxRepository.bump_attempt outbox_id error next_attempt_at

end OutboxService

structure WebhookService where
  webhook_config : WebhookConfig
  ssrf_guard : SSRFGuard
  lib : Libraries

namespace WebhookService

def _build_body (self : WebhookService) (payment : Payment) (event_id : UUID) : Body :=
  let payload : WebhookPayload :=
    { event_id
      payment_id := payment.id
      status := payment.status
      amount := payment.amount
      currency := payment.currency
      processed_at := payment.processed_at
      metadata := payment.meta_ }
  ⟨payload, self.lib.model_dump_json payload⟩

def webhook_headers (signature : String) (ts : ℤ) (event_id : UUID) : List (String × String) :=
  [("Content-Type", "application/json"),
   ("User-Agent", WEBHOOK_USER_AGENT),
   (WEBHOOK_SIGNATURE_HEADER, WEBHOOK_SIGNATURE_PREFIX ++ signature),
   (WEBHOOK_TIMESTAMP_HEADER, toString ts),
   (WEBHOOK_ID_HEADER, UUID.str event_id),
   (WEBHOOK_EVENT_TYPE_HEADER, PAYMENT_PROCESSED_EVENT_TYPE)]

def request (self : WebhookService) (payment : Payment) (event_id : UUID) (ts : ℤ) : HttpRequest :=
  let body := self._build_body payment event_id
  let signature := sign_webhook self.lib body.bytes self.webhook_config.WEBHOOK_SECRET ts
  { url := payment.webhook_url
    content := body
    headers := webhook_headers signature ts event_id
    timeout := self.webhook_config.WEBHOOK_TIMEOUT_SECONDS }

def post (payment : Payment) (request : HttpRequest) : Async HttpResponse :=
  tryCatch (Async.post request) fun e =>
    match e with
    | .RequestError name _ => throw (.WebhookSendError payment.id name none)
    | e => throw e

def send (self : WebhookService) (payment : Payment) : Async Unit := do
  self.ssrf_guard.validate_url payment.webhook_url
  let event_id ← Async.uuid7
  let now ← Async.now
  let response ← post payment (self.request payment event_id now.timestamp)
  if 400 ≤ response.status_code then
    throw (.WebhookSendError payment.id "non_2xx_response" (some response.status_code))
  else pure ()

end WebhookService

-- The settings and libraries that the container builds the services from.
structure Container where
  consumer_config : ConsumerConfig
  outbox_dispatcher_config : OutboxDispatcherConfig
  webhook_config : WebhookConfig
  lib : Libraries

namespace Container

def ssrf_guard (c : Container) : SSRFGuard :=
  ⟨c.webhook_config.WEBHOOK_ALLOW_PRIVATE_HOSTS, c.lib.unicode⟩

def payment_service (c : Container) : PaymentService := ⟨c.ssrf_guard⟩

def processing_service (c : Container) : ProcessingService := ⟨c.consumer_config⟩

def outbox_service (c : Container) : OutboxService := ⟨c.outbox_dispatcher_config⟩

def webhook_service (c : Container) : WebhookService := ⟨c.webhook_config, c.ssrf_guard, c.lib⟩

end Container

end PaymentsProcessor
