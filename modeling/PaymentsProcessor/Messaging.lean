import PaymentsProcessor.Amqp.Topology
import PaymentsProcessor.Effects

namespace PaymentsProcessor

open Python Concurrency PaymentsConstants

-- `int(x)` of a header's value.
def HeaderValue.toInt : HeaderValue → Except PyError ℤ
  | .bool b => .ok (if b then 1 else 0)
  | .int i => .ok i
  | .float x => intOfFloat x
  | .decimal x => .ok (x.toRat.num.tdiv x.toRat.den)
  | .str s => intOfStr s
  | .bytes b => intOfBytes b
  | .none | .timestamp _ | .list _ | .table _ => .error .TypeError

def X_DEATH_HEADER : String := "x-death"

def x_death_count (headers : Headers) : ℤ :=
  match headers.lookup X_DEATH_HEADER with
  | some (.list (.table first :: _)) =>
      match first.lookup "count" with
      | some (.int count) => count
      | some (.bool b) => if b then 1 else 0
      | _ => 0
  | _ => 0

def get_retry_count (headers : Option Headers) : Except PyError ℤ :=
  match headers with
  | none => .ok 0
  | some headers =>
      match headers.lookup RETRY_COUNT_HEADER with
      | none | some .none => .ok (x_death_count headers)
      | some explicit =>
          match explicit.toInt with
          | .error .OverflowError => .error .OverflowError
          | .error _ => .ok 0
          | .ok count => .ok count

def build_retry_headers (next_count : ℤ) (reason : String) : Headers :=
  [(RETRY_COUNT_HEADER, .int next_count), (RETRY_REASON_HEADER, .str reason)]

def build_dlq_headers (retry_count : ℤ) (reason : String) : Headers :=
  [(RETRY_COUNT_HEADER, .int retry_count), (DLQ_REASON_HEADER, .str reason)]

namespace PaymentEventPublisher

def publish (routing_key : String) (payload : JsonDict) (headers : Option Headers) : Async Unit :=
  Async.publish EXCHANGE_PAYMENTS routing_key payload (headers.getD [])

def publish_to_dlx (routing_key : String) (payload : JsonDict) (headers : Option Headers) :
    Async Unit :=
  Async.publish EXCHANGE_PAYMENTS_DLX routing_key payload (headers.getD [])

-- The client library addresses a queue through the nameless exchange.
def publish_to_queue (queue : String) (payload : JsonDict) (headers : Option Headers) :
    Async Unit :=
  Async.publish "" queue payload (headers.getD [])

end PaymentEventPublisher

section Topology

open Amqp

def _make_main_queue : Queue where
  name := QUEUE_PAYMENTS_NEW
  message_ttl := none
  dead_letter := some ⟨EXCHANGE_PAYMENTS_DLX, PAYMENT_SAFETY_NET_ROUTING_KEY⟩

def retry_queue_name (attempt : ℤ) : String := QUEUE_PAYMENTS_RETRY_PREFIX ++ toString attempt

def _make_retry_queue (attempt ttl_ms : ℕ) : Queue where
  name := retry_queue_name attempt
  message_ttl := some ttl_ms
  dead_letter := some ⟨EXCHANGE_PAYMENTS, PAYMENT_CREATED_ROUTING_KEY⟩

def _make_dlq : Queue where
  name := QUEUE_PAYMENTS_DLQ
  message_ttl := none
  dead_letter := none

-- The loop over `enumerate(RETRY_TTL_MS_BY_ATTEMPT, start=1)`.
def retry_queues (ttls : List ℕ) : List Queue :=
  (ttls.zipIdx 1).map fun (ttl_ms, attempt) => _make_retry_queue attempt ttl_ms

-- The source declares the queues of the constant tuple `RETRY_TTL_MS_BY_ATTEMPT`.
def declare_topology (ttls : List ℕ) : Topology where
  exchanges := [EXCHANGE_PAYMENTS, EXCHANGE_PAYMENTS_DLX]
  queues := _make_main_queue :: (retry_queues ttls ++ [_make_dlq])
  bindings :=
    [⟨QUEUE_PAYMENTS_NEW, EXCHANGE_PAYMENTS, PAYMENT_CREATED_ROUTING_KEY⟩,
     ⟨QUEUE_PAYMENTS_DLQ, EXCHANGE_PAYMENTS_DLX, PAYMENT_SAFETY_NET_ROUTING_KEY⟩,
     ⟨QUEUE_PAYMENTS_DLQ, EXCHANGE_PAYMENTS_DLX, PAYMENT_FAILED_ROUTING_KEY⟩]

end Topology

end PaymentsProcessor
