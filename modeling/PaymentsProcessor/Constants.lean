import Mathlib.Init

namespace PaymentsProcessor.PaymentsConstants

def AMOUNT_MAX_DIGITS : Nat := 20
def AMOUNT_DECIMAL_PLACES : Nat := 4
def DESCRIPTION_MAX_LEN : Nat := 1000
def IDEMPOTENCY_KEY_MAX_LEN : Nat := 255
def WEBHOOK_URL_MAX_LEN : Nat := 2048

def IDEMPOTENCY_KEY_HEADER : String := "Idempotency-Key"

def EXCHANGE_PAYMENTS : String := "payments"
def EXCHANGE_PAYMENTS_DLX : String := "payments.dlx"
def QUEUE_PAYMENTS_NEW : String := "payments.new"
def QUEUE_PAYMENTS_DLQ : String := "payments.dlq"
def QUEUE_PAYMENTS_RETRY_PREFIX : String := "payments.retry."
def RETRY_TTL_MS_BY_ATTEMPT : List Nat := [2000, 8000, 32000]

def PAYMENT_CREATED_ROUTING_KEY : String := "payment.created"
def PAYMENT_FAILED_ROUTING_KEY : String := "payment.failed"
def PAYMENT_SAFETY_NET_ROUTING_KEY : String := "payment.safety-net"
def PAYMENT_CREATED_EVENT_TYPE : String := "payment.created"
def PAYMENT_PROCESSED_EVENT_TYPE : String := "payment.processed"

def PAYMENT_AGGREGATE_TYPE : String := "payment"

def RETRY_COUNT_HEADER : String := "x-retry-count"
def RETRY_REASON_HEADER : String := "x-retry-reason"
def DLQ_REASON_HEADER : String := "x-dlq-reason"

def WEBHOOK_SIGNATURE_HEADER : String := "X-Signature"
def WEBHOOK_TIMESTAMP_HEADER : String := "X-Timestamp"
def WEBHOOK_ID_HEADER : String := "X-Webhook-Id"
def WEBHOOK_EVENT_TYPE_HEADER : String := "X-Event-Type"
def WEBHOOK_SIGNATURE_PREFIX : String := "sha256="
def WEBHOOK_USER_AGENT : String := "LunaTestTask/1.0"

end PaymentsProcessor.PaymentsConstants
