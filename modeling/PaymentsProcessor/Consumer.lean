import PaymentsProcessor.Messaging
import PaymentsProcessor.Services

namespace PaymentsProcessor

open Python Concurrency PaymentsConstants

-- `error.reason` is all that is used of the error.
def _retry_or_dlq (msg : Message) (event : PaymentCreatedEvent) (reason : String)
    (max_retries : ℤ) : Async Unit := do
  let current_count ← ofPython (get_retry_count (some msg.headers))
  let next_count := current_count + 1
  let payload := event_payload event.payment_id
  if next_count > max_retries then
    PaymentEventPublisher.publish_to_dlx PAYMENT_FAILED_ROUTING_KEY payload
      (some (build_dlq_headers current_count reason))
  else
    PaymentEventPublisher.publish_to_queue (retry_queue_name next_count) payload
      (some (build_retry_headers next_count reason))

-- The payment to notify of: one that is still pending is processed first.
def processed_payment (c : Container) (event : PaymentCreatedEvent) : Async Payment := do
  let payment ← PaymentService.get_payment event.payment_id
  if payment.status = .PENDING then do
    let outcome ← c.processing_service.process
    let payment ← PaymentService.apply_processing_outcome event.payment_id outcome
    Async.commit
    return payment
  else return payment

def send_or_retry (c : Container) (event : PaymentCreatedEvent) (msg : Message)
    (max_retries : ℤ) (payment : Payment) : Async Unit :=
  tryCatch (c.webhook_service.send payment) fun e =>
    match e with
    | .WebhookSendError _ reason _ => _retry_or_dlq msg event reason max_retries
    | e => throw e

-- The body of `async with container()`.
def in_container (c : Container) (event : PaymentCreatedEvent) (msg : Message)
    (max_retries : ℤ) : Async Unit := do
  Async.container_get .AsyncSession
  Async.container_get .PaymentService
  Async.container_get .ProcessingService
  Async.container_get .WebhookService
  let payment ← processed_payment c event
  send_or_retry c event msg max_retries payment

def on_exception (e : Exn) : Async Unit :=
  if e.isinstance .PaymentNotFoundError then Async.reject false
  else if e.isinstance .Exception then Async.nack false
  else throw e

def _handle_payment_created (c : Container) (event : PaymentCreatedEvent) (msg : Message)
    (max_retries : ℤ) : Async Unit :=
  tryCatch (do
    (in_container c event msg max_retries).andThen Async.close
    Async.ack) on_exception

-- `_entrypoint` of the subscriber.
def _entrypoint (c : Container) (event : PaymentCreatedEvent) (msg : Message) : Async Unit :=
  _handle_payment_created c event msg c.consumer_config.CONSUMER_MAX_RETRIES

end PaymentsProcessor
