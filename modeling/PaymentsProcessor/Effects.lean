import PaymentsProcessor.Concurrency.Prog
import PaymentsProcessor.Errors
import PaymentsProcessor.Models

namespace PaymentsProcessor

open Python Concurrency

-- A value of an AMQP header, as the client library hands it to the program.
inductive HeaderValue where
  | none
  | bool (b : Bool)
  | int (i : ℤ)
  | float (x : PyFloat)
  | decimal (x : Decimal)
  | str (s : String)
  | bytes (b : List UInt8)
  | timestamp (t : DateTime)
  | list (items : List HeaderValue)
  | table (fields : List (String × HeaderValue))

abbrev Headers := List (String × HeaderValue)

structure Message where
  payload : JsonDict
  headers : Headers

-- The columns the `insert` of `PaymentRepository.create_payment` supplies.
structure PaymentValues where
  id : UUID
  amount : Decimal
  currency : CurrencyEnum
  description : Option String
  meta_ : Option JsonDict
  status : PaymentStatusEnum
  idempotency_key : String
  webhook_url : String

-- The columns the `insert` of `OutboxRepository.enqueue` supplies.
structure OutboxValues where
  id : UUID
  aggregate_type : String
  aggregate_id : UUID
  event_type : String
  routing_key : String
  payload : JsonDict
  status : OutboxStatusEnum
  attempts : ℕ

-- The statements of the two repositories. `SELECT ... FOR UPDATE SKIP LOCKED`
-- is what the server makes of it: a scan of its snapshot, and then one row
-- after the other locked and checked again.
inductive Statement where
  | get_by_id (id : UUID)
  | get_by_idempotency_key (idempotency_key : String)
  | insert_payment (values : PaymentValues)
  | insert_outbox (values : OutboxValues)
  | update_processing_outcome (id : UUID) (status : PaymentStatusEnum) (processed_at : DateTime)
  | scan_pending (limit : ℤ) (now : DateTime)
  | lock_pending (id : UUID) (now : DateTime)
  | mark_published (id : UUID) (published_at : DateTime)
  | bump_attempt (id : UUID) (error : String) (next_attempt_at : DateTime)

abbrev Statement.Result : Statement → Type
  | .get_by_id _ => Option Payment
  | .get_by_idempotency_key _ => List Payment
  | .insert_payment _ => Payment
  | .insert_outbox _ => Outbox
  | .update_processing_outcome .. => Option Payment
  | .scan_pending .. => List UUID
  | .lock_pending .. => Option Outbox
  | .mark_published .. => Unit
  | .bump_attempt .. => Unit

inductive SockHost where
  | str (s : String)
  | other

-- One answer of `getaddrinfo`: the first component of its socket address.
structure AddrInfo where
  host : SockHost

-- The bytes of a webhook's body, with the payload they were dumped from.
structure Body where
  payload : WebhookPayload
  bytes : List UInt8

structure HttpRequest where
  url : String
  content : Body
  headers : List (String × String)
  timeout : PyFloat

structure HttpResponse where
  status_code : ℕ

inductive Response where
  | accepted (payment_id : UUID) (status : PaymentStatusEnum) (created_at : DateTime)
  | error (status_code : ℕ) (content : Exn.Content)

inductive Dependency where
  | AsyncSession
  | PaymentService
  | ProcessingService
  | WebhookService
  | OutboxService
  | PaymentAction

-- Everything a program asks of its surroundings.
inductive Effect where
  | container_get (dependency : Dependency)
  | execute (statement : Statement)
  | flush
  | commit
  | close
  | publish (exchange routing_key : String) (payload : JsonDict) (headers : Headers)
  | ack
  | nack (requeue : Bool)
  | reject (requeue : Bool)
  | now
  | uuid7
  | uniform (low high : PyFloat)
  | random
  | sleep (delay : PyFloat)
  | getaddrinfo (host : String) (port : Option ℕ)
  | post (request : HttpRequest)
  | respond (response : Response)

abbrev Effect.Result : Effect → Type
  | .execute statement => statement.Result
  | .now => DateTime
  | .uuid7 => UUID
  | .uniform .. => PyFloat
  | .random => PyFloat
  | .getaddrinfo .. => List AddrInfo
  | .post _ => HttpResponse
  | _ => Unit

abbrev Async (α : Type) := Prog Effect.Result Exn α

-- Raises what a library function of the interpreter raised.
def ofPython {α : Type} (r : Except PyError α) : Async α := Prog.ofExcept (r.mapError .python)

namespace Async

def container_get (dependency : Dependency) : Async Unit :=
  Prog.perform (Effect.container_get dependency)
def execute (statement : Statement) : Async statement.Result :=
  Prog.perform (Effect.execute statement)
def flush : Async Unit := Prog.perform Effect.flush
def commit : Async Unit := Prog.perform Effect.commit
def close : Async Unit := Prog.perform Effect.close
def ack : Async Unit := Prog.perform Effect.ack
def nack (requeue : Bool) : Async Unit := Prog.perform (Effect.nack requeue)
def reject (requeue : Bool) : Async Unit := Prog.perform (Effect.reject requeue)
def publish (exchange routing_key : String) (payload : JsonDict) (headers : Headers) : Async Unit :=
  Prog.perform (Effect.publish exchange routing_key payload headers)
def now : Async DateTime := Prog.perform Effect.now
def uuid7 : Async UUID := Prog.perform Effect.uuid7
def uniform (low high : PyFloat) : Async PyFloat := Prog.perform (Effect.uniform low high)
def random : Async PyFloat := Prog.perform Effect.random
def sleep (delay : PyFloat) : Async Unit := Prog.perform (Effect.sleep delay)
def getaddrinfo (host : String) (port : Option ℕ) : Async (List AddrInfo) :=
  Prog.perform (Effect.getaddrinfo host port)
def post (request : HttpRequest) : Async HttpResponse := Prog.perform (Effect.post request)
def respond (response : Response) : Async Unit := Prog.perform (Effect.respond response)

end Async

end PaymentsProcessor
