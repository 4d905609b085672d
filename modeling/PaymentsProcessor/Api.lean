import PaymentsProcessor.Services

namespace PaymentsProcessor

open Python Concurrency

def PaymentAction.create_payment (c : Container) (amount : Decimal) (currency : CurrencyEnum)
    (description : Option String) (meta_ : Option JsonDict)
    (idempotency_key webhook_url : String) : Async Payment := do
  let (payment, is_new) ← c.payment_service.create_payment amount currency description meta_
    idempotency_key webhook_url
  if is_new then
    Async.commit
    return payment
  else return payment

def PaymentAction.get_payment (payment_id : UUID) : Async Payment :=
  PaymentService.get_payment payment_id

-- The status of the response to an exception.
def error_status (exc : Exn) : ℕ :=
  if exc.isinstance .PaymentsNotFoundError then 404
  else if exc.isinstance .PaymentsUnauthorizedError then 401
  else if exc.isinstance .PaymentsForbiddenError then 403
  else if exc.isinstance .PaymentsConflictError then 409
  else if exc.isinstance .PaymentsValidationError ||
      exc.isinstance .PaymentsBusinessLogicError then 400
  else if exc.isinstance .PaymentsExternalServiceError then 502
  else 500

def handle_all_errors (exc : Exn) : Response :=
  match exc.content with
  | none => .error 500 Exn.unexpected
  | some content => .error (error_status exc) content

def CreateRequest.handle (c : Container) (request : CreateRequest) : Async Payment := do
  Async.container_get .PaymentAction
  PaymentAction.create_payment c request.payload.amount request.payload.currency
    request.payload.description request.payload.meta_ request.idempotency_key
    request.payload.webhook_url

-- The error handler is outside of the request's container, and the exception
-- goes on after its response.
def respond_error (exc : Exn) : Async Unit :=
  if exc.isinstance .Exception then do
    Async.respond (handle_all_errors exc)
    throw exc
  else throw exc

-- `POST /payments` with a validated body, from the request's container to the
-- response. A response that was begun is not replaced.
def create_payment (c : Container) (request : CreateRequest) : Async Unit := do
  let result ← (request.handle c).attempt
  match result with
  | .ok payment =>
      (Async.respond (.accepted payment.id payment.status payment.created_at)).andThen Async.close
  | .error exc =>
      tryCatch ((Prog.ofExcept (.error exc)).andThen Async.close) respond_error

-- `GET /payments/{payment_id}`, up to the response model.
def get_payment (payment_id : UUID) : Async Payment := do
  Async.container_get .PaymentAction
  PaymentAction.get_payment payment_id

end PaymentsProcessor
