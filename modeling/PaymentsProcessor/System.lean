import PaymentsProcessor.Concurrency.Machine
import PaymentsProcessor.Api
import PaymentsProcessor.Consumer
import PaymentsProcessor.Database
import PaymentsProcessor.OutboxDispatcher
import Mathlib.Tactic.Simps.Basic

namespace PaymentsProcessor

open Python Storage Concurrency Amqp PaymentsConstants

-- One installation: what the services are configured with, and the retry
-- queues that were declared.
structure Deployment where
  container : Container
  ttls : List ℕ

def Deployment.topology (d : Deployment) : Topology := declare_topology d.ttls

-- What a process is there for. Each process does one job.
inductive Job where
  | request (request : CreateRequest)
  | batch (config : OutboxDispatcherConfig)
  | delivery (event : PaymentCreatedEvent) (msg : Message)

structure Publish where
  pid : Pid
  exchange : String
  routing_key : String
  message : Message
  returned : Bool

structure Post where
  pid : Pid
  request : HttpRequest
  peer : Option IPAddress
  status_code : Option ℕ

-- Everything that happened. Nothing is ever taken out of it.
structure Log where
  responses : List (Pid × Response)
  publishes : List Publish
  lookups : List (Pid × List AddrInfo)
  posts : List Post
  commits : List (Pid × List Write)
  rollbacks : List (Pid × List UUID)
  failures : List Pid

structure World where
  store : Store
  fetched : Pid → List UUID
  queues : String → List Message
  unacked : Pid → Option Message
  jobs : Pid → Option Job
  log : Log

-- How the surroundings answer a call that they carry out. `executed` has the
-- time at the server and what a scan finds.
inductive Reply where
  | done
  | executed (time : DateTime) (ids : List UUID)
  | broken (e : Exn)
  | time (t : DateTime)
  | uuid (id : UUID)
  | float (x : PyFloat)
  | infos (infos : List AddrInfo)
  | response (peer : IPAddress) (status_code : ℕ)
  | dropped (peer : Option IPAddress) (e : Exn)
  | dead (x_death : HeaderValue)

-- An awaited call can raise, and that before or after it was carried out.
inductive Answer where
  | reply (r : Reply)
  | raised (e : Exn) (carried_out : Option Reply)

-- The calls that are not awaited do not fail.
def Effect.awaits : Effect → Bool
  | .now | .uuid7 | .uniform .. | .random => false
  | _ => true

def Message.with_x_death (x_death : HeaderValue) (m : Message) : Message :=
  { m with
    headers := (X_DEATH_HEADER, x_death) :: m.headers.filter fun h => h.1 ≠ X_DEATH_HEADER }

def enqueue (names : List String) (m : Message) (queues : String → List Message) :
    String → List Message :=
  fun name => if name ∈ names then queues name ++ [m] else queues name

def dequeue (name : String) (index : ℕ) (queues : String → List Message) :
    String → List Message :=
  Function.update queues name ((queues name).eraseIdx index)

namespace World

@[simps] def init : World where
  store := .empty .empty
  fetched _ := []
  queues _ := []
  unacked _ := none
  jobs _ := none
  log := ⟨[], [], [], [], [], [], []⟩

@[simps] def fail (pid : Pid) (w : World) : World :=
  { w with log := { w.log with failures := w.log.failures ++ [pid] } }

@[simps] def take (pid : Pid) (locks : List Resource) (writes : List Write) (w : World) : World :=
  { w with store := w.store.take pid locks writes }

@[simps] def fetch (pid : Pid) (ids : List UUID) (w : World) : World :=
  { w with fetched := Function.update w.fetched pid (w.fetched pid ++ ids) }

@[simps] def abort (pid : Pid) (w : World) : World := { w with store := w.store.abort pid }

@[simps] def rollback (pid : Pid) (w : World) : World :=
  { w with
    store := w.store.rollback pid
    fetched := Function.update w.fetched pid []
    log := { w.log with rollbacks := w.log.rollbacks ++ [(pid, w.fetched pid)] } }

-- The server rolls an aborted transaction back when told to commit it.
def commit (pid : Pid) (w : World) : World :=
  if w.store.aborted pid then w.rollback pid
  else { w with
    store := w.store.commit Write.writing pid
    fetched := Function.update w.fetched pid []
    log := { w.log with commits := w.log.commits ++ [(pid, w.store.writes pid)] } }

def execute (pid : Pid) (stmt : Statement) (time : DateTime) (ids : List UUID) (w : World) :
    Option (Except Exn stmt.Result × World) :=
  if w.store.aborted pid then
    some (.error (.Exception "DBAPIError" "current transaction is aborted"), w.fail pid)
  else match stmt.verdict w.store pid time ids with
    | .waits => none
    | .refuses error => some (.error (.IntegrityError (some error)), w.abort pid)
    | .fails e => some (.error e, (w.abort pid).fail pid)
    | .succeeds result locks writes => some (.ok result, w.take pid locks writes)

-- The rows that the answer to a statement hands to a batch.
def fetches : (stmt : Statement) → Except Exn stmt.Result → List UUID
  | .lock_pending .., .ok (some row) => [Outbox.id row]
  | _, _ => []

-- A publish call is recorded whatever becomes of it.
@[simps] def record (p : Publish) (w : World) : World :=
  { w with log := { w.log with publishes := w.log.publishes ++ [p] } }

@[simps] def deliver (names : List String) (m : Message) (w : World) : World :=
  { w with queues := enqueue names m w.queues }

@[simps] def remove (name : String) (index : ℕ) (w : World) : World :=
  { w with queues := dequeue name index w.queues }

@[simps] def receive (pid : Pid) (msg : Message) (w : World) : World :=
  { w with unacked := Function.update w.unacked pid (some msg) }

@[simps] def settle (pid : Pid) (w : World) : World :=
  { w with unacked := Function.update w.unacked pid none }

def requeue (pid : Pid) (w : World) : World :=
  match w.unacked pid with
  | none => w
  | some m => (w.settle pid).deliver [QUEUE_PAYMENTS_NEW] m

-- A refused message goes back to its queue, or where the queue sends its dead ones.
def refuse (d : Deployment) (pid : Pid) (requeue : Bool) (x_death : HeaderValue) (w : World) :
    World :=
  if requeue then w.requeue pid
  else match w.unacked pid with
    | none => w
    | some m =>
        (w.settle pid).deliver (d.topology.deadLetterRoute QUEUE_PAYMENTS_NEW)
          (m.with_x_death x_death)

@[simps] def post (pid : Pid) (request : HttpRequest) (peer : Option IPAddress) (status_code : Option ℕ)
    (w : World) : World :=
  { w with log := { w.log with posts := w.log.posts ++ [⟨pid, request, peer, status_code⟩] } }

@[simps] def lookup (pid : Pid) (infos : List AddrInfo) (w : World) : World :=
  { w with log := { w.log with lookups := w.log.lookups ++ [(pid, infos)] } }

@[simps] def respond (pid : Pid) (response : Response) (w : World) : World :=
  { w with log := { w.log with responses := w.log.responses ++ [(pid, response)] } }

-- What a call does when it is carried out, and how it then returns.
def carry_out (d : Deployment) (pid : Pid) :
    (e : Effect) → Reply → World → Option (Except Exn e.Result × World)
  | .container_get _, r, w | .flush, r, w | .sleep _, r, w =>
      match r with
      | .done => some (.ok (), w)
      | _ => none
  | .execute stmt, r, w =>
      match r with
      | .executed time ids => w.execute pid stmt time ids
      | .broken e => some (.error e, (w.abort pid).fail pid)
      | _ => none
  | .commit, r, w =>
      match r with
      | .done => some (.ok (), w.commit pid)
      | _ => none
  | .close, r, w =>
      match r with
      | .done => some (.ok (), w.rollback pid)
      | _ => none
  | .publish exchange routing_key payload headers, r, w =>
      match r with
      | .done => some (.ok (), w.deliver (d.topology.route exchange routing_key) ⟨payload, headers⟩)
      | _ => none
  | .ack, r, w =>
      match r with
      | .done => (w.unacked pid).map fun _ => (.ok (), w.settle pid)
      | _ => none
  | .nack requeue, r, w | .reject requeue, r, w =>
      match r with
      | .dead x_death => (w.unacked pid).map fun _ => (.ok (), w.refuse d pid requeue x_death)
      | _ => none
  | .now, r, w =>
      match r with
      | .time t => some (.ok t, w)
      | _ => none
  | .uuid7, r, w =>
      match r with
      | .uuid id => some (.ok id, w)
      | _ => none
  | .uniform .., r, w | .random, r, w =>
      match r with
      | .float x => some (.ok x, w)
      | _ => none
  | .getaddrinfo .., r, w =>
      match r with
      | .infos infos => some (.ok infos, w.lookup pid infos)
      | _ => none
  | .post request, r, w =>
      match r with
      | .response peer status_code =>
          some (.ok ⟨status_code⟩, w.post pid request (some peer) (some status_code))
      | .dropped peer e => some (.error e, w.post pid request peer none)
      | _ => none
  | .respond response, r, w =>
      match r with
      | .done => some (.ok (), w.respond pid response)
      | _ => none

-- What is recorded of a call that has been answered.
def answered (pid : Pid) (returned : Bool) : Effect → World → World
  | .publish exchange routing_key payload headers, w =>
      w.record ⟨pid, exchange, routing_key, ⟨payload, headers⟩, returned⟩
  | _, w => w

def handed (pid : Pid) : (e : Effect) → Except Exn e.Result → World → World
  | .execute stmt, r, w => w.fetch pid (fetches stmt r)
  | _, _, w => w

def perform (d : Deployment) (pid : Pid) (e : Effect) (a : Answer) (w : World) :
    Option (Except Exn e.Result × World) :=
  match a with
  | .reply r => (w.carry_out d pid e r).map fun (result, w) =>
      (result, (w.handed pid e result).answered pid result.isOk e)
  | .raised x carried_out =>
      if e.awaits then
        match carried_out with
        | none => some (.error x, (w.fail pid).answered pid false e)
        | some r => (w.carry_out d pid e r).map fun (_, w) =>
            (.error x, (w.fail pid).answered pid false e)
      else none

-- A dead process loses its connections.
def crash (pid : Pid) (w : World) : World := ((w.rollback pid).requeue pid).fail pid

inductive Launch where
  | request (request : CreateRequest)
  | batch (config : OutboxDispatcherConfig)
  | deliver (index : ℕ)

@[simps] def start (pid : Pid) (job : Job) (w : World) : World :=
  { w with jobs := Function.update w.jobs pid (some job) }

def launch (d : Deployment) (pid : Pid) (l : Launch) (w : World) : Option (Async Unit × World) :=
  match w.jobs pid, l with
  | some _, _ => none
  | none, .request request =>
      some (create_payment d.container request, w.start pid (.request request))
  | none, .batch config =>
      some (_run_iteration { d.container with outbox_dispatcher_config := config } config,
        w.start pid (.batch config))
  | none, .deliver index => do
      let msg ← (w.queues QUEUE_PAYMENTS_NEW)[index]?
      let event ← PaymentCreatedEvent.decode msg.payload
      return (_entrypoint d.container event msg,
        ((w.start pid (.delivery event msg)).remove QUEUE_PAYMENTS_NEW index).receive pid msg)

-- What the broker does on its own: it expires messages of the queues that have
-- a time to live, and takes deliveries back when it loses a channel.
inductive Tick where
  | expire (queue : String) (index : ℕ) (x_death : HeaderValue)
  | channel_lost (pid : Pid)

def tick (d : Deployment) : Tick → World → Option World
  | .expire name index x_death, w => do
      let queue ← d.topology.queue? name
      let _ ← queue.message_ttl
      let msg ← (w.queues name)[index]?
      return (w.remove name index).deliver (d.topology.deadLetterRoute name)
        (msg.with_x_death x_death)
  | .channel_lost pid, w => some (w.requeue pid)

end World

def machine (d : Deployment) :
    Machine Pid World.Launch Answer World.Tick World Effect.Result Exn where
  launch := World.launch d
  perform := World.perform d
  crash := World.crash
  tick := World.tick d

abbrev SystemConfig := Config Pid World Effect.Result Exn

def SystemConfig.init : SystemConfig := ⟨World.init, fun _ => none⟩

-- Everything the system can come to, under a restriction on the answers.
def Reachable (d : Deployment) (A : Assumption Pid World Effect Answer) (c : SystemConfig) : Prop :=
  Run (machine d) A SystemConfig.init c

end PaymentsProcessor
