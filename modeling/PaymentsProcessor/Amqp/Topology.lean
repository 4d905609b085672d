import Mathlib.Data.List.Basic

namespace Amqp

structure DeadLetter where
  exchange : String
  routing_key : String
deriving DecidableEq, Repr

structure Queue where
  name : String
  message_ttl : Option ℕ
  dead_letter : Option DeadLetter
deriving DecidableEq, Repr

structure Binding where
  queue : String
  exchange : String
  routing_key : String
deriving DecidableEq, Repr

-- What a broker was told to declare. Every named exchange is a topic exchange.
structure Topology where
  exchanges : List String
  queues : List Queue
  bindings : List Binding

def words (key : String) : List (List Char) := key.toList.splitOn '.'

-- `*` stands for one word of the routing key and `#` for any number of them.
def topicMatches : List (List Char) → List (List Char) → Bool
  | [], ws => ws.isEmpty
  | p :: ps, ws =>
      if p = ['#'] then ws.tails.any (topicMatches ps)
      else match ws with
        | [] => false
        | w :: ws => (p = ['*'] || p = w) && topicMatches ps ws

namespace Topology

def queue? (t : Topology) (name : String) : Option Queue := t.queues.find? fun q => q.name = name

-- The queues a message is put in, each once. The nameless exchange hands it to
-- the queue that its routing key names.
def route (t : Topology) (exchange routing_key : String) : List String :=
  if exchange = "" then (t.queue? routing_key).toList.map (·.name)
  else ((t.bindings.filter fun b =>
    b.exchange = exchange && topicMatches (words b.routing_key) (words routing_key)).map
      (·.queue)).eraseDups

-- Where a message goes that expires in a queue or is refused there.
def deadLetterRoute (t : Topology) (name : String) : List String :=
  match (t.queue? name).bind (·.dead_letter) with
  | none => []
  | some d => t.route d.exchange d.routing_key

variable {t : Topology} {name : String} {q : Queue}

theorem route_nameless (h : t.queue? name = some q) : t.route "" name = [name] := by
  have hq : q.name = name := by simpa [queue?] using List.find?_some h
  simp [route, h, hq]

theorem route_named {exchange routing_key : String} (h : exchange ≠ "") :
    t.route exchange routing_key = ((t.bindings.filter fun b =>
      b.exchange = exchange && topicMatches (words b.routing_key) (words routing_key)).map
        (·.queue)).eraseDups := by
  simp [route, h]

theorem deadLetterRoute_eq (h : t.queue? name = some q) {d : DeadLetter}
    (hd : q.dead_letter = some d) : t.deadLetterRoute name = t.route d.exchange d.routing_key := by
  simp [deadLetterRoute, h, hd]

end Topology

end Amqp
