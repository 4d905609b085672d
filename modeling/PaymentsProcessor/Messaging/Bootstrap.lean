import PaymentsProcessor.Amqp.Definitions
import PaymentsProcessor.Concurrency.Machine
import PaymentsProcessor.Database
import PaymentsProcessor.Messaging

namespace PaymentsProcessor

open Amqp Concurrency PaymentsConstants

-- The calls by which the services set the broker up.
inductive BrokerCall where
  | connect
  | declare (declaration : Declaration)
  | stop

@[reducible] def BrokerCall.Result (_ : BrokerCall) : Type := Unit

-- A refusal closes the channel. Any other failure is one of the connection.
inductive BrokerError where
  | refused (refusal : Refusal)
  | lost
deriving DecidableEq

abbrev Bootstrap (α : Type) := Prog BrokerCall.Result BrokerError α

namespace RabbitBroker

def connect : Bootstrap Unit := Prog.perform .connect

def declare_exchange (exchange : Exchange) : Bootstrap Exchange := do
  Prog.perform (.declare (.exchange exchange))
  return exchange

def declare_queue (queue : QueueDeclaration) : Bootstrap QueueDeclaration := do
  Prog.perform (.declare (.queue queue))
  return queue

def bind (queue : QueueDeclaration) (exchange : Exchange) (routing_key : String) :
    Bootstrap Unit :=
  Prog.perform (.declare (.binding ⟨queue.name, exchange.name, routing_key⟩))

def stop : Bootstrap Unit := Prog.perform .stop

end RabbitBroker

def _make_payments_exchange : Exchange := ⟨EXCHANGE_PAYMENTS, .topic, true⟩

def _make_dlx_exchange : Exchange := ⟨EXCHANGE_PAYMENTS_DLX, .topic, true⟩

namespace Bootstrap

def declare_retry_queues : List (ℕ × ℕ) → Bootstrap Unit
  | [] => return
  | (ttl_ms, attempt) :: rest => do
      let _ ← RabbitBroker.declare_queue (_make_retry_queue attempt ttl_ms).durably
      declare_retry_queues rest

def declare_topology (ttls : List ℕ) : Bootstrap Unit := do
  let exchange ← RabbitBroker.declare_exchange _make_payments_exchange
  let dlx_exchange ← RabbitBroker.declare_exchange _make_dlx_exchange
  let main_queue ← RabbitBroker.declare_queue _make_main_queue.durably
  RabbitBroker.bind main_queue exchange PAYMENT_CREATED_ROUTING_KEY
  declare_retry_queues (ttls.zipIdx 1)
  let dlq ← RabbitBroker.declare_queue _make_dlq.durably
  RabbitBroker.bind dlq dlx_exchange PAYMENT_SAFETY_NET_ROUTING_KEY
  RabbitBroker.bind dlq dlx_exchange PAYMENT_FAILED_ROUTING_KEY

def main (ttls : List ℕ) : Bootstrap Unit := do
  RabbitBroker.connect
  (declare_topology ttls).andThen RabbitBroker.stop

-- The queue that `_register_consumer` subscribes to.
def subscriber_queue : QueueDeclaration where
  name := QUEUE_PAYMENTS_NEW
  message_ttl := none
  dead_letter := some ⟨EXCHANGE_PAYMENTS_DLX, PAYMENT_SAFETY_NET_ROUTING_KEY⟩
  durable := true

-- A consumer that starts has its broker declare the queue of its subscriber.
def start_consumer : Bootstrap Unit := do
  RabbitBroker.connect
  let _ ← RabbitBroker.declare_queue subscriber_queue
  return

end Bootstrap

-- What a process is started for. Versions of the service differ in their TTLs.
inductive BrokerJob where
  | bootstrap (ttls : List ℕ)
  | consumer
deriving DecidableEq

structure BrokerWorld where
  definitions : Definitions
  jobs : Pid → Option BrokerJob
  crashes : List Pid

-- A call that fails with the connection may have been carried out before.
inductive BrokerAnswer where
  | reply
  | lost (carried_out : Bool)

namespace BrokerWorld

def init : BrokerWorld := ⟨.empty, fun _ => none, []⟩

def carry_out (b : BrokerWorld) : BrokerCall → Except BrokerError Unit × BrokerWorld
  | .declare x =>
      match b.definitions.declare x with
      | .ok definitions => (.ok (), { b with definitions := definitions })
      | .error refusal => (.error (.refused refusal), b)
  | .connect | .stop => (.ok (), b)

def perform (_ : Pid) (e : BrokerCall) (a : BrokerAnswer) (b : BrokerWorld) :
    Option (Except BrokerError e.Result × BrokerWorld) :=
  match a with
  | .reply => some (b.carry_out e)
  | .lost carried_out => some (.error .lost, if carried_out then (b.carry_out e).2 else b)

def launch (p : Pid) (job : BrokerJob) (b : BrokerWorld) : Option (Bootstrap Unit × BrokerWorld) :=
  match b.jobs p, job with
  | some _, _ => none
  | none, .bootstrap ttls =>
      some (Bootstrap.main ttls, { b with jobs := Function.update b.jobs p (some job) })
  | none, .consumer =>
      some (Bootstrap.start_consumer, { b with jobs := Function.update b.jobs p (some job) })

end BrokerWorld

-- Services that come up, of any versions and in any order, and a broker that may be
-- restarted in between.
def bringUp :
    Machine Pid BrokerJob BrokerAnswer Unit BrokerWorld BrokerCall.Result BrokerError where
  launch := BrokerWorld.launch
  perform := BrokerWorld.perform
  crash p b := { b with crashes := p :: b.crashes }
  tick _ b := some { b with definitions := b.definitions.restart }

abbrev BrokerConfig := Config Pid BrokerWorld BrokerCall.Result BrokerError

def BrokerConfig.init : BrokerConfig := ⟨BrokerWorld.init, fun _ => none⟩

end PaymentsProcessor
