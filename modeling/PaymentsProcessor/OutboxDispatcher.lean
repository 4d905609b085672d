import PaymentsProcessor.Messaging
import PaymentsProcessor.Services

namespace PaymentsProcessor

open Python Concurrency

-- The body of the loop of `_process_batch`.
def _process_row (outbox_service : OutboxService) (row : Outbox) : Async Unit :=
  tryCatch (do
    PaymentEventPublisher.publish row.routing_key row.payload none
    OutboxService.mark_published row.id) fun e =>
      if e.isinstance .Exception then outbox_service.bump_attempt row.id row.attempts e.str
      else throw e

def _process_rows (outbox_service : OutboxService) : List Outbox → Async Unit
  | [] => pure ()
  | row :: rows => do
      _process_row outbox_service row
      _process_rows outbox_service rows

def _process_batch (c : Container) (batch_size : ℤ) : Async ℕ := do
  Async.container_get .AsyncSession
  Async.container_get .OutboxService
  let rows ← OutboxService.fetch_pending batch_size
  _process_rows c.outbox_service rows
  Async.commit
  return rows.length

-- One turn of the loop of `_run_loop`.
def _run_iteration (c : Container) (dispatcher_config : OutboxDispatcherConfig) : Async Unit := do
  let processed ← tryCatch
    ((_process_batch c dispatcher_config.OUTBOX_BATCH_SIZE).andThen Async.close) fun e =>
      if e.isinstance .Exception then pure 0 else throw e
  if (processed : ℤ) < dispatcher_config.OUTBOX_BATCH_SIZE then
    Async.sleep dispatcher_config.OUTBOX_POLL_INTERVAL_SECONDS
  else pure ()

end PaymentsProcessor
