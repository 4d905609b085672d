import PaymentsProcessor.Api
import PaymentsProcessor.Consumer
import PaymentsProcessor.OutboxDispatcher

namespace PaymentsProcessor

open Python Concurrency PaymentsConstants

-- The calls of a request.
def Effect.ofRequest : Effect → Prop
  | .execute (.get_by_idempotency_key _) => True
  | .execute (.insert_payment values) => values.status = .PENDING
  | .execute (.insert_outbox values) => values.status = .PENDING
  | .container_get _ | .flush | .commit | .close | .uuid7 | .getaddrinfo .. | .respond _ => True
  | _ => False

-- The calls of a batch up to its commit.
def Effect.ofBatch : Effect → Prop
  | .execute (.scan_pending ..) | .execute (.lock_pending ..) => True
  | .execute (.mark_published ..) | .execute (.bump_attempt ..) => True
  | .container_get _ | .now => True
  | .publish exchange _ _ _ => exchange = EXCHANGE_PAYMENTS
  | _ => False

-- The calls of a dispatcher.
def Effect.ofDispatcher : Effect → Prop
  | .execute (.scan_pending ..) | .execute (.lock_pending ..) => True
  | .execute (.mark_published ..) | .execute (.bump_attempt ..) => True
  | .container_get _ | .commit | .close | .now | .sleep _ => True
  | .publish exchange _ _ _ => exchange = EXCHANGE_PAYMENTS
  | _ => False

-- The calls of a consumer up to the webhook.
def Effect.ofProcessing : Effect → Prop
  | .execute (.get_by_id _) => True
  | .execute (.update_processing_outcome _ status _) => status ≠ .PENDING
  | .container_get _ | .commit | .now | .uniform .. | .random | .sleep _ => True
  | _ => False

def Effect.ofGuard : Effect → Prop
  | .getaddrinfo .. => True
  | _ => False

-- The calls of a consumer.
def Effect.ofConsumer : Effect → Prop
  | .execute (.get_by_id _) => True
  | .execute (.update_processing_outcome _ status _) => status ≠ .PENDING
  | .container_get _ | .commit | .close | .now | .uuid7 | .uniform .. | .random | .sleep _ => True
  | .getaddrinfo .. | .post _ | .ack => True
  | .publish exchange _ _ _ => exchange ≠ EXCHANGE_PAYMENTS
  | .nack requeue | .reject requeue => requeue = false
  | _ => False

theorem Effect.ofBatch.ofDispatcher {e : Effect} (h : e.ofBatch) : e.ofDispatcher := by
  cases e with
  | execute stmt =>
      cases stmt with
      | scan_pending | lock_pending | mark_published | bump_attempt => trivial
      | _ => exact h.elim
  | container_get | now => trivial
  | publish => exact h
  | _ => exact h.elim

theorem Effect.ofProcessing.ofConsumer {e : Effect} (h : e.ofProcessing) : e.ofConsumer := by
  cases e with
  | execute stmt =>
      cases stmt with
      | get_by_id => trivial
      | update_processing_outcome => exact h
      | _ => exact h.elim
  | container_get | commit | now | uniform | random | sleep => trivial
  | _ => exact h.elim

theorem Effect.ofGuard.ofConsumer {e : Effect} (h : e.ofGuard) : e.ofConsumer := by
  cases e with
  | getaddrinfo => trivial
  | _ => exact h.elim

theorem Effect.ofGuard.ofRequest {e : Effect} (h : e.ofGuard) : e.ofRequest := by
  cases e with
  | getaddrinfo => trivial
  | _ => exact h.elim

section Dispatcher

variable {c : Container} {config : OutboxDispatcherConfig}

theorem lock_rows_only (now : DateTime) (ids : List UUID) (limit : ℕ) :
    (OutboxRepository.lock_rows now ids limit).Only Effect.ofBatch := by
  induction ids generalizing limit with
  | nil => exact .ret _
  | cons id ids ih =>
      cases limit with
      | zero => exact .ret _
      | succ limit =>
          refine Prog.Only.bind (.perform trivial) fun row => ?_
          cases row with
          | none => exact ih _
          | some row => exact (ih _).bind fun _ => .ret _

theorem fetch_pending_only (batch_size : ℤ) :
    (OutboxService.fetch_pending batch_size).Only Effect.ofBatch := by
  refine Prog.Only.bind (.perform trivial) fun now => ?_
  exact Prog.Only.bind (.perform trivial) fun ids => lock_rows_only now ids _

theorem bump_attempt_only (outbox_service : OutboxService) (id : UUID) (attempts : ℕ)
    (error : String) : (outbox_service.bump_attempt id attempts error).Only Effect.ofBatch := by
  refine Prog.Only.bind (.ofExcept _) fun _ => Prog.Only.bind (.perform trivial) fun _ => ?_
  refine Prog.Only.bind (.ofExcept _) fun _ => Prog.Only.bind (.ofExcept _) fun _ => ?_
  exact .perform trivial

theorem process_row_only (outbox_service : OutboxService) (row : Outbox) :
    (_process_row outbox_service row).Only Effect.ofBatch := by
  refine Prog.Only.tryCatch (Prog.Only.bind (.perform rfl) fun _ => ?_) fun e => ?_
  · exact Prog.Only.bind (.perform trivial) fun _ => .perform trivial
  · exact Prog.Only.ite (bump_attempt_only ..) (.ret _)

theorem process_rows_only (outbox_service : OutboxService) (rows : List Outbox) :
    (_process_rows outbox_service rows).Only Effect.ofBatch := by
  induction rows with
  | nil => exact .ret _
  | cons row rows ih => exact (process_row_only outbox_service row).bind fun _ => ih

-- A batch up to its commit.
def dispatched_rows (c : Container) (batch_size : ℤ) : Async (List Outbox) := do
  Async.container_get .AsyncSession
  Async.container_get .OutboxService
  let rows ← OutboxService.fetch_pending batch_size
  _process_rows c.outbox_service rows
  return rows

theorem process_batch_eq (batch_size : ℤ) : _process_batch c batch_size =
    (dispatched_rows c batch_size).bind fun rows => do
      Async.commit
      return rows.length := by
  simp only [_process_batch, dispatched_rows, Prog.bind_eq, Prog.bind_assoc, Prog.pure_eq,
    Prog.ret_ok_bind]

theorem dispatched_rows_only (batch_size : ℤ) :
    (dispatched_rows c batch_size).Only Effect.ofBatch := by
  refine Prog.Only.bind (.perform trivial) fun _ => Prog.Only.bind (.perform trivial) fun _ => ?_
  refine Prog.Only.bind (fetch_pending_only batch_size) fun rows => ?_
  exact Prog.Only.bind (process_rows_only _ rows) fun _ => .ret _

theorem process_batch_only (batch_size : ℤ) :
    (_process_batch c batch_size).Only Effect.ofDispatcher := by
  rw [process_batch_eq]
  refine Prog.Only.bind ((dispatched_rows_only batch_size).mono fun _ => Effect.ofBatch.ofDispatcher)
    fun rows => ?_
  exact Prog.Only.bind (.perform trivial) fun _ => .ret _

theorem run_iteration_only : (_run_iteration c config).Only Effect.ofDispatcher := by
  refine Prog.Only.bind (Prog.Only.tryCatch ?_ fun e => ?_) fun processed => ?_
  · exact (process_batch_only _).andThen (.perform trivial)
  · exact Prog.Only.ite (.ret _) (.ret _)
  · exact Prog.Only.ite (.perform trivial) (.ret _)

end Dispatcher

section Request

variable {c : Container}

theorem validate_url_only (guard : SSRFGuard) (url : String) :
    (guard.validate_url url).Only Effect.ofGuard := by
  refine Prog.Only.bind (.ofExcept _) fun parsed => ?_
  refine Prog.Only.ite (.ret _) (Prog.Only.bind ?_ fun _ => .ofExcept _)
  refine Prog.Only.tryCatch (Prog.Only.bind (.ofExcept _) fun _ => .perform trivial) fun e => ?_
  exact Prog.Only.ite (.ret _) (.ret _)

theorem insert_payment_only (amount : Decimal) (currency : CurrencyEnum)
    (description : Option String) (meta_ : Option JsonDict) (idempotency_key webhook_url : String) :
    (PaymentService.insert_payment amount currency description meta_ idempotency_key
      webhook_url).Only Effect.ofRequest := by
  refine Prog.Only.bind ?_ fun payment => Prog.Only.bind ?_ fun row => ?_
  · exact Prog.Only.bind (.perform trivial) fun id => .perform rfl
  · exact Prog.Only.bind (.perform trivial) fun id => .perform rfl
  · exact Prog.Only.bind (.perform trivial) fun _ => .ret _

theorem payment_service_only (service : PaymentService) (amount : Decimal)
    (currency : CurrencyEnum) (description : Option String) (meta_ : Option JsonDict)
    (idempotency_key webhook_url : String) :
    (service.create_payment amount currency description meta_ idempotency_key webhook_url).Only
      Effect.ofRequest := by
  refine Prog.Only.bind ((validate_url_only ..).mono fun _ => Effect.ofGuard.ofRequest)
    fun _ => Prog.Only.bind ?_ fun existing => ?_
  · refine Prog.Only.bind (.perform trivial) fun rows => ?_
    rcases (rows : List Payment) with _ | ⟨payment, _ | ⟨other, rest⟩⟩ <;> exact .ret _
  · cases existing with
    | some existing => exact Prog.Only.bind (.ofExcept _) fun _ => .ret _
    | none =>
        refine Prog.Only.bind (Prog.Only.tryCatch (insert_payment_only ..) fun e => ?_)
          fun _ => .ret _
        cases e <;> exact .ret _

theorem create_payment_only (request : CreateRequest) :
    (create_payment c request).Only Effect.ofRequest := by
  refine Prog.Only.bind (Prog.Only.attempt ?_) fun result => ?_
  · refine Prog.Only.bind (.perform trivial) fun _ => Prog.Only.bind (payment_service_only ..)
      fun result => Prog.Only.ite ?_ (.ret _)
    exact Prog.Only.bind (.perform trivial) fun _ => .ret _
  · cases result with
    | ok payment => exact Prog.Only.andThen (.perform trivial) (.perform trivial)
    | error exc =>
        refine Prog.Only.tryCatch (Prog.Only.andThen (.ofExcept _) (.perform trivial)) fun e => ?_
        exact Prog.Only.ite (Prog.Only.bind (.perform trivial) fun _ => .ret _) (.ret _)

end Request

section Consumer

variable {c : Container}

theorem process_only (service : ProcessingService) :
    service.process.Only Effect.ofProcessing := by
  refine Prog.Only.bind (.perform trivial) fun _ => Prog.Only.bind (.perform trivial) fun _ => ?_
  exact Prog.Only.bind (.perform trivial) fun _ => .ret _

theorem outcome_status_ne_pending (outcome : ProcessingOutcomeEnum) :
    PaymentService.outcome_status outcome ≠ .PENDING := by
  cases outcome <;> decide

theorem get_payment_only (payment_id : UUID) :
    (PaymentService.get_payment payment_id).Only Effect.ofProcessing := by
  refine Prog.Only.bind (.perform trivial) fun payment => ?_
  cases payment with
  | none => exact .ret _
  | some payment => exact .ret _

theorem apply_processing_outcome_only (payment_id : UUID) (outcome : ProcessingOutcomeEnum) :
    (PaymentService.apply_processing_outcome payment_id outcome).Only Effect.ofProcessing := by
  refine Prog.Only.bind (.perform trivial) fun _ => ?_
  refine Prog.Only.bind (.perform (outcome_status_ne_pending outcome)) fun payment => ?_
  cases payment with
  | none => exact .ret _
  | some payment => exact .ret _

theorem processed_payment_only (event : PaymentCreatedEvent) :
    (processed_payment c event).Only Effect.ofProcessing := by
  refine Prog.Only.bind (get_payment_only _) fun payment => Prog.Only.ite ?_ (.ret _)
  refine Prog.Only.bind (process_only _) fun outcome => ?_
  refine Prog.Only.bind (apply_processing_outcome_only _ outcome) fun _ => ?_
  exact Prog.Only.bind (.perform trivial) fun _ => .ret _

theorem post_only (payment : Payment) (request : HttpRequest) :
    (WebhookService.post payment request).Only Effect.ofConsumer := by
  refine Prog.Only.tryCatch (.perform trivial) fun e => ?_
  cases e <;> exact .ret _

theorem send_only (service : WebhookService) (payment : Payment) :
    (service.send payment).Only Effect.ofConsumer := by
  refine Prog.Only.bind ((validate_url_only ..).mono fun _ => Effect.ofGuard.ofConsumer)
    fun _ => ?_
  refine Prog.Only.bind (.perform trivial) fun _ => Prog.Only.bind (.perform trivial) fun _ => ?_
  exact Prog.Only.bind (post_only ..) fun response => Prog.Only.ite (.ret _) (.ret _)

theorem retry_or_dlq_only (msg : Message) (event : PaymentCreatedEvent) (reason : String)
    (max_retries : ℤ) : (_retry_or_dlq msg event reason max_retries).Only Effect.ofConsumer := by
  have hdlx : EXCHANGE_PAYMENTS_DLX ≠ EXCHANGE_PAYMENTS := by decide
  have hnameless : "" ≠ EXCHANGE_PAYMENTS := by decide
  refine Prog.Only.bind (.ofExcept _) fun count => ?_
  exact Prog.Only.ite (.perform hdlx) (.perform hnameless)

theorem send_or_retry_only (event : PaymentCreatedEvent) (msg : Message) (max_retries : ℤ)
    (payment : Payment) :
    (send_or_retry c event msg max_retries payment).Only Effect.ofConsumer := by
  refine Prog.Only.tryCatch (send_only _ payment) fun e => ?_
  cases e with
  | WebhookSendError id reason status_code => exact retry_or_dlq_only ..
  | _ => exact .ret _

theorem on_exception_only (e : Exn) : (on_exception e).Only Effect.ofConsumer :=
  Prog.Only.ite (.perform rfl) (Prog.Only.ite (.perform rfl) (.ret _))

theorem in_container_only (event : PaymentCreatedEvent) (msg : Message) (max_retries : ℤ) :
    (in_container c event msg max_retries).Only Effect.ofConsumer := by
  refine Prog.Only.bind (.perform trivial) fun _ => Prog.Only.bind (.perform trivial) fun _ => ?_
  refine Prog.Only.bind (.perform trivial) fun _ => Prog.Only.bind (.perform trivial) fun _ => ?_
  refine Prog.Only.bind ((processed_payment_only event).mono fun _ => Effect.ofProcessing.ofConsumer)
    fun payment => ?_
  exact send_or_retry_only event msg max_retries payment

theorem entrypoint_only (event : PaymentCreatedEvent) (msg : Message) :
    (_entrypoint c event msg).Only Effect.ofConsumer := by
  refine Prog.Only.tryCatch (Prog.Only.bind ?_ fun _ => .perform trivial) on_exception_only
  exact (in_container_only ..).andThen (.perform trivial)

end Consumer

end PaymentsProcessor
