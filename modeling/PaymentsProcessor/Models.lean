import PaymentsProcessor.Constants
import PaymentsProcessor.Python.Basic
import PaymentsProcessor.Python.Uuid
import PaymentsProcessor.Python.Decimal
import PaymentsProcessor.Storage.Numeric

namespace PaymentsProcessor

open Python Storage PaymentsConstants

inductive CurrencyEnum where
  | RUB
  | USD
  | EUR
deriving DecidableEq, Repr

def CurrencyEnum.value : CurrencyEnum → String
  | RUB => "RUB"
  | USD => "USD"
  | EUR => "EUR"

inductive PaymentStatusEnum where
  | PENDING
  | SUCCEEDED
  | FAILED
deriving DecidableEq, Repr

inductive OutboxStatusEnum where
  | PENDING
  | PUBLISHED
  | FAILED
deriving DecidableEq, Repr

inductive ProcessingOutcomeEnum where
  | SUCCEEDED
  | FAILED
deriving DecidableEq, Repr

-- A `dict[str, JsonValue]`. The field `meta` is `meta_` here: the word is reserved.
abbrev JsonDict := List (String × JsonValue)

abbrev Amount := Numeric AMOUNT_DECIMAL_PLACES

structure Payment where
  id : UUID
  amount : Amount
  currency : CurrencyEnum
  description : Option String
  meta_ : Option JsonDict
  status : PaymentStatusEnum
  idempotency_key : String
  webhook_url : String
  processed_at : Option DateTime
  created_at : DateTime
  updated_at : Option DateTime

def Payment.UQ_PAYMENT_IDEMPOTENCY_KEY : String := "uq_payment_idempotency_key"
def Payment.CK_PAYMENT_AMOUNT_POSITIVE : String := "ck_payment_amount_positive"

structure Outbox where
  id : UUID
  aggregate_type : String
  aggregate_id : UUID
  event_type : String
  routing_key : String
  payload : JsonDict
  status : OutboxStatusEnum
  attempts : ℕ
  next_attempt_at : DateTime
  published_at : Option DateTime
  last_error : Option String
  created_at : DateTime
  updated_at : Option DateTime

-- A validated body. The amount is positive and within the declared digits.
structure PaymentCreate where
  amount : Decimal
  currency : CurrencyEnum
  description : Option String
  meta_ : Option JsonDict
  webhook_url : String
  amount_fits : ∃ units : Amount, 0 < units.units ∧
    units.units.natAbs < 10 ^ AMOUNT_MAX_DIGITS ∧ units.toRat = amount.toRat

-- A `POST /payments` request that passed validation.
structure CreateRequest where
  idempotency_key : String
  payload : PaymentCreate

structure PaymentCreatedEvent where
  payment_id : UUID
deriving DecidableEq

-- Keys the model does not name are ignored.
def PaymentCreatedEvent.decode (payload : JsonDict) : Option PaymentCreatedEvent :=
  match payload.lookup "payment_id" with
  | some (.str s) => (UUID.parse s).map fun id => ⟨id⟩
  | _ => none

structure WebhookPayload where
  event_id : UUID
  payment_id : UUID
  status : PaymentStatusEnum
  amount : Amount
  currency : CurrencyEnum
  processed_at : Option DateTime
  metadata : Option JsonDict

-- `{"payment_id": str(payment_id)}`
def event_payload (payment_id : UUID) : JsonDict := [("payment_id", .str (UUID.str payment_id))]

@[simp] theorem decode_event_payload (payment_id : UUID) :
    PaymentCreatedEvent.decode (event_payload payment_id) = some ⟨payment_id⟩ := by
  simp [PaymentCreatedEvent.decode, event_payload, UUID.parse_str]

theorem PaymentCreate.store_amount (p : PaymentCreate) :
    ∃ units : Amount, 0 < units.units ∧ units.toRat = p.amount.toRat ∧
      Numeric.store AMOUNT_MAX_DIGITS p.amount.toRat = some units := by
  obtain ⟨units, hpos, hfits, he⟩ := p.amount_fits
  exact ⟨units, hpos, he, he ▸ Numeric.store_exact _ units hfits⟩

end PaymentsProcessor
