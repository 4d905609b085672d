import PaymentsProcessor.Python.Basic
import PaymentsProcessor.Python.Uuid

namespace PaymentsProcessor

open Python

-- The classes some `except` clause or `isinstance` test of the program names.
inductive ExnClass where
  | BaseException
  | Exception
  | PaymentsError
  | PaymentsUnexpectedError
  | PaymentsConflictError
  | PaymentsNotFoundError
  | PaymentsValidationError
  | PaymentsUnauthorizedError
  | PaymentsForbiddenError
  | PaymentsBusinessLogicError
  | PaymentsExternalServiceError
  | PaymentError
  | PaymentNotFoundError
  | IdempotencyKeyConflictError
  | WebhookError
  | WebhookSendError
  | WebhookUrlNotAllowedError
  | IntegrityError
  | RequestError
  | OSError
  | ValueError
  | TypeError
deriving DecidableEq, Repr

inductive AsyncpgErrorClass where
  | UniqueViolationError
  | CheckViolationError
  | other
deriving DecidableEq, Repr

structure AsyncpgError where
  cls : AsyncpgErrorClass
  constraint_name : Option String
deriving DecidableEq, Repr

-- The exceptions the program raises or tells apart. The last two constructors
-- are every other one, within the class `Exception` or outside of it.
inductive Exn where
  | PaymentNotFoundError (payment_id : UUID)
  | IdempotencyKeyConflictError (idempotency_key : String)
  | PaymentAmountNotPositiveError
  | UnhandledIntegrityError
  | WebhookSendError (payment_id : UUID) (reason : String) (status_code : Option ℕ)
  | WebhookUrlNotAllowedError (url reason : String) (resolved_ip : Option String)
  | IntegrityError (asyncpg_error : Option AsyncpgError)
  | RequestError (name message : String)
  | OSError (message : String)
  | python (e : PyError)
  | Exception (name message : String)
  | BaseException (name : String)
deriving DecidableEq

namespace Exn

-- The class of an exception and the bases of it that the program can name.
def mro : Exn → List ExnClass
  | PaymentNotFoundError _ =>
      [.PaymentNotFoundError, .PaymentError, .PaymentsNotFoundError, .PaymentsError, .Exception,
        .BaseException]
  | IdempotencyKeyConflictError _ =>
      [.IdempotencyKeyConflictError, .PaymentError, .PaymentsConflictError, .PaymentsError,
        .Exception, .BaseException]
  | PaymentAmountNotPositiveError =>
      [.PaymentError, .PaymentsValidationError, .PaymentsError, .Exception, .BaseException]
  | UnhandledIntegrityError =>
      [.PaymentsUnexpectedError, .PaymentsError, .Exception, .BaseException]
  | WebhookSendError .. =>
      [.WebhookSendError, .WebhookError, .PaymentsExternalServiceError, .PaymentsError, .Exception,
        .BaseException]
  | WebhookUrlNotAllowedError .. =>
      [.WebhookUrlNotAllowedError, .WebhookError, .PaymentsValidationError, .PaymentsError,
        .Exception, .BaseException]
  | IntegrityError _ => [.IntegrityError, .Exception, .BaseException]
  | RequestError .. => [.RequestError, .Exception, .BaseException]
  | OSError _ => [.OSError, .Exception, .BaseException]
  | python .ValueError => [.ValueError, .Exception, .BaseException]
  | python .UnicodeError => [.ValueError, .Exception, .BaseException]
  | python .TypeError => [.TypeError, .Exception, .BaseException]
  | python .OverflowError => [.Exception, .BaseException]
  | Exception .. => [.Exception, .BaseException]
  | BaseException _ => [.BaseException]

def isinstance (e : Exn) (cls : ExnClass) : Bool := cls ∈ e.mro

-- `code`, `message` and `details` of a `PaymentsError`.
structure Content where
  code : String
  message : String
  details : Option (List (String × JsonValue))

def webhook_send_details (payment_id : UUID) (reason : String) (status_code : Option ℕ) :
    List (String × JsonValue) :=
  [("payment_id", .str (UUID.str payment_id)), ("reason", .str reason)] ++
    (status_code.map fun code => ("status_code", JsonValue.int code)).toList

def webhook_url_details (url reason : String) (resolved_ip : Option String) :
    List (String × JsonValue) :=
  [("url", .str url), ("reason", .str reason)] ++
    (resolved_ip.map fun ip => ("resolved_ip", JsonValue.str ip)).toList

-- `PaymentsUnexpectedError.code` and `PaymentsUnexpectedError.message`
def unexpected : Content := ⟨"UNEXPECTED_ERROR", "Unexpected internal error", none⟩

def content : Exn → Option Content
  | PaymentNotFoundError _ => some ⟨"PAYMENT_NOT_FOUND", "Payment not found", none⟩
  | IdempotencyKeyConflictError _ =>
      some ⟨"IDEMPOTENCY_KEY_CONFLICT",
        "Idempotency key was reused with a different request payload", none⟩
  | PaymentAmountNotPositiveError =>
      some ⟨"PAYMENT_AMOUNT_NOT_POSITIVE", "Payment amount must be positive", none⟩
  | UnhandledIntegrityError => some unexpected
  | WebhookSendError payment_id reason status_code =>
      some ⟨"WEBHOOK_SEND_FAILED", "Failed to deliver webhook",
        some (webhook_send_details payment_id reason status_code)⟩
  | WebhookUrlNotAllowedError url reason resolved_ip =>
      some ⟨"WEBHOOK_URL_NOT_ALLOWED", "Webhook URL is not allowed",
        some (webhook_url_details url reason resolved_ip)⟩
  | _ => none

-- `str(e)`. A `PaymentsError` is built from its message alone, and the texts of
-- the interpreter's own exceptions are not modelled.
def str : Exn → String
  | RequestError _ message => message
  | OSError message => message
  | Exception _ message => message
  | e => (e.content.map (·.message)).getD ""

theorem content_isSome_iff (e : Exn) : e.content.isSome ↔ e.isinstance .PaymentsError := by
  cases e with
  | python e => cases e <;> exact Iff.rfl
  | _ => exact Iff.rfl

end Exn

end PaymentsProcessor
