import PaymentsProcessor.Amqp.Topology

namespace Amqp

inductive ExchangeType where
  | direct
  | fanout
  | topic
  | headers
deriving DecidableEq

structure Exchange where
  name : String
  type : ExchangeType
  durable : Bool
deriving DecidableEq

structure QueueDeclaration extends Queue where
  durable : Bool
deriving DecidableEq

def Queue.durably (queue : Queue) : QueueDeclaration := { queue with durable := true }

-- What a client asks a broker for.
inductive Declaration where
  | exchange (exchange : Exchange)
  | queue (queue : QueueDeclaration)
  | binding (binding : Binding)

-- Two declarations of one name that differ.
def Declaration.Conflicts : Declaration → Declaration → Prop
  | .exchange e, .exchange e' => e.name = e'.name ∧ e ≠ e'
  | .queue q, .queue q' => q.name = q'.name ∧ q ≠ q'
  | _, _ => False

inductive Refusal where
  | PRECONDITION_FAILED
  | NOT_FOUND
deriving DecidableEq

-- What a broker was told, in the order in which it first was.
structure Definitions where
  exchanges : List Exchange
  queues : List QueueDeclaration
  bindings : List Binding

namespace Definitions

def empty : Definitions := ⟨[], [], []⟩

def exchange? (d : Definitions) (name : String) : Option Exchange :=
  d.exchanges.find? fun e => e.name = name

def queue? (d : Definitions) (name : String) : Option QueueDeclaration :=
  d.queues.find? fun q => q.name = name

-- What is declared again has to be declared in the same way, and a binding needs
-- both of its ends.
def declare (d : Definitions) : Declaration → Except Refusal Definitions
  | .exchange e =>
      match d.exchange? e.name with
      | none => .ok { d with exchanges := d.exchanges ++ [e] }
      | some e' => if e' = e then .ok d else .error .PRECONDITION_FAILED
  | .queue q =>
      match d.queue? q.name with
      | none => .ok { d with queues := d.queues ++ [q] }
      | some q' => if q' = q then .ok d else .error .PRECONDITION_FAILED
  | .binding b =>
      if (d.exchange? b.exchange).isSome && (d.queue? b.queue).isSome then
        if b ∈ d.bindings then .ok d else .ok { d with bindings := d.bindings ++ [b] }
      else .error .NOT_FOUND

-- A broker that is restarted keeps what is durable.
def restart (d : Definitions) : Definitions where
  exchanges := d.exchanges.filter (·.durable)
  queues := d.queues.filter (·.durable)
  bindings := d.bindings.filter fun b =>
    (d.exchange? b.exchange).any (·.durable) && (d.queue? b.queue).any (·.durable)

def topology (d : Definitions) : Topology where
  exchanges := d.exchanges.map (·.name)
  queues := d.queues.map (·.toQueue)
  bindings := d.bindings

def Has (d : Definitions) : Declaration → Prop
  | .exchange e => e ∈ d.exchanges
  | .queue q => q ∈ d.queues
  | .binding b => b ∈ d.bindings

-- What is in force, and is still in force when the broker was restarted.
def Keeps (d : Definitions) : Declaration → Prop
  | .exchange e => d.exchange? e.name = some e ∧ e.durable
  | .queue q => d.queue? q.name = some q ∧ q.durable
  | .binding b => b ∈ d.bindings ∧ (d.exchange? b.exchange).any (·.durable) ∧
      (d.queue? b.queue).any (·.durable)

variable {d d' : Definitions} {x y : Declaration}

theorem name_of_exchange? {name : String} {e : Exchange} (h : d.exchange? name = some e) :
    e.name = name := by
  simpa [exchange?] using List.find?_some h

theorem name_of_queue? {name : String} {q : QueueDeclaration} (h : d.queue? name = some q) :
    q.name = name := by
  simpa [queue?] using List.find?_some h

-- What is kept with the ends of its bindings is kept.
theorem Keeps.mono (h : d.Keeps x)
    (he : ∀ e, d.Keeps (.exchange e) → d'.exchange? e.name = some e)
    (hq : ∀ q, d.Keeps (.queue q) → d'.queue? q.name = some q)
    (hb : ∀ b, d.Keeps (.binding b) → b ∈ d'.bindings) : d'.Keeps x := by
  cases x with
  | exchange e => exact ⟨he e h, h.2⟩
  | queue q => exact ⟨hq q h, h.2⟩
  | binding b =>
      obtain ⟨_, hexchange, hqueue⟩ := id h
      obtain ⟨e, hsome, hdurable⟩ := (Option.any_eq_true _ _).mp hexchange
      obtain ⟨q, hsome', hdurable'⟩ := (Option.any_eq_true _ _).mp hqueue
      have hename := name_of_exchange? hsome
      have hqname := name_of_queue? hsome'
      have hexchange' := he e ⟨hename.symm ▸ hsome, hdurable⟩
      have hqueue' := hq q ⟨hqname.symm ▸ hsome', hdurable'⟩
      rw [hename] at hexchange'
      rw [hqname] at hqueue'
      refine ⟨hb b h, ?_, ?_⟩
      · rw [hexchange']
        exact hdurable
      · rw [hqueue']
        exact hdurable'

-- A declaration is new, or it changes nothing.
theorem declare_cases (h : d.declare x = .ok d') :
    (d' = d ∧ match x with
      | .exchange e => d.exchange? e.name = some e
      | .queue q => d.queue? q.name = some q
      | .binding b => b ∈ d.bindings) ∨
    (∃ e, x = .exchange e ∧ d.exchange? e.name = none ∧
      d' = ⟨d.exchanges ++ [e], d.queues, d.bindings⟩) ∨
    (∃ q, x = .queue q ∧ d.queue? q.name = none ∧
      d' = ⟨d.exchanges, d.queues ++ [q], d.bindings⟩) ∨
    ∃ b, x = .binding b ∧ d' = ⟨d.exchanges, d.queues, d.bindings ++ [b]⟩ := by
  cases x with
  | exchange e =>
      simp only [declare] at h
      split at h
      · cases h
        exact .inr (.inl ⟨e, rfl, ‹_›, rfl⟩)
      · split at h <;> cases h
        rename_i hsome he
        exact .inl ⟨rfl, he ▸ hsome⟩
  | queue q =>
      simp only [declare] at h
      split at h
      · cases h
        exact .inr (.inr (.inl ⟨q, rfl, ‹_›, rfl⟩))
      · split at h <;> cases h
        rename_i hsome hq
        exact .inl ⟨rfl, hq ▸ hsome⟩
  | binding b =>
      simp only [declare] at h
      split at h
      · split at h <;> cases h
        · exact .inl ⟨rfl, ‹_›⟩
        · exact .inr (.inr (.inr ⟨b, rfl, rfl⟩))
      · cases h

theorem exchange?_append (e : Exchange) (name : String) :
    (⟨d.exchanges ++ [e], d.queues, d.bindings⟩ : Definitions).exchange? name =
      (d.exchange? name).or (if e.name = name then some e else none) := by
  simp [exchange?, List.find?_append, List.find?_singleton]

theorem queue?_append (q : QueueDeclaration) (name : String) :
    (⟨d.exchanges, d.queues ++ [q], d.bindings⟩ : Definitions).queue? name =
      (d.queue? name).or (if q.name = name then some q else none) := by
  simp [queue?, List.find?_append, List.find?_singleton]

theorem Keeps.declare (hy : d.Keeps y) (h : d.declare x = .ok d') : d'.Keeps y := by
  obtain ⟨rfl, _⟩ | ⟨e, _, _, rfl⟩ | ⟨q, _, _, rfl⟩ | ⟨b, _, rfl⟩ := declare_cases h
  · exact hy
  · refine hy.mono (fun e' he => ?_) (fun q hq => hq.1) fun b hb => hb.1
    rw [exchange?_append, he.1, Option.some_or]
  · refine hy.mono (fun e he => he.1) (fun q' hq => ?_) fun b hb => hb.1
    rw [queue?_append, hq.1, Option.some_or]
  · exact hy.mono (fun e he => he.1) (fun q hq => hq.1) fun b' hb =>
      List.mem_append_left _ hb.1

theorem Has.of_declare (hy : d'.Has y) (h : d.declare x = .ok d') : d.Has y ∨ y = x := by
  obtain ⟨rfl, _⟩ | ⟨e, rfl, _, rfl⟩ | ⟨q, rfl, _, rfl⟩ | ⟨b, rfl, rfl⟩ := declare_cases h
  · exact .inl hy
  · cases y with
    | exchange e' =>
        exact (List.mem_append.mp hy).imp_right fun he =>
          congrArg Declaration.exchange (List.mem_singleton.mp he)
    | queue | binding => exact .inl hy
  · cases y with
    | queue q' =>
        exact (List.mem_append.mp hy).imp_right fun hq =>
          congrArg Declaration.queue (List.mem_singleton.mp hq)
    | exchange | binding => exact .inl hy
  · cases y with
    | binding b' =>
        exact (List.mem_append.mp hy).imp_right fun hb =>
          congrArg Declaration.binding (List.mem_singleton.mp hb)
    | exchange | queue => exact .inl hy

theorem find?_filter_of_find? {α : Type} {p q : α → Bool} {l : List α} {a : α}
    (h : l.find? p = some a) (ha : q a) : (l.filter q).find? p = some a := by
  obtain ⟨hp, before, after, rfl, hbefore⟩ := List.find?_eq_some_iff_append.mp h
  rw [List.filter_append, List.filter_cons_of_pos ha]
  refine List.find?_eq_some_iff_append.mpr ⟨hp, before.filter q, after.filter q, rfl, ?_⟩
  exact fun b hb => hbefore b (List.mem_of_mem_filter hb)

-- A broker that is restarted forgets only what does not last.
theorem Keeps.restart (hx : d.Keeps x) : d.restart.Keeps x := by
  refine hx.mono (fun e he => ?_) (fun q hq => ?_) fun b hb => ?_
  · exact find?_filter_of_find? he.1 he.2
  · exact find?_filter_of_find? hq.1 hq.2
  · exact List.mem_filter.mpr ⟨hb.1, Bool.and_eq_true_iff.mpr hb.2⟩

theorem Has.of_restart (hx : d.restart.Has x) : d.Has x := by
  cases x with
  | exchange | queue | binding => exact List.mem_of_mem_filter hx

-- A declaration is refused for one that it conflicts with, or for want of an end.
theorem declare_refused {refusal : Refusal} (h : d.declare x = .error refusal) :
    (refusal = .PRECONDITION_FAILED ∧ ∃ y, x.Conflicts y ∧ d.Has y) ∨
      ∃ b, x = .binding b ∧ ¬((d.exchange? b.exchange).isSome ∧ (d.queue? b.queue).isSome) := by
  cases x with
  | exchange e =>
      simp only [declare] at h
      split at h
      · cases h
      · rename_i e' hsome
        split at h <;> cases h
        exact .inl ⟨rfl, .exchange e', ⟨(name_of_exchange? hsome).symm, Ne.symm ‹_›⟩,
          List.mem_of_find?_eq_some hsome⟩
  | queue q =>
      simp only [declare] at h
      split at h
      · cases h
      · rename_i q' hsome
        split at h <;> cases h
        exact .inl ⟨rfl, .queue q', ⟨(name_of_queue? hsome).symm, Ne.symm ‹_›⟩,
          List.mem_of_find?_eq_some hsome⟩
  | binding b =>
      simp only [declare] at h
      split at h
      · split at h <;> cases h
      · rename_i hends
        exact .inr ⟨b, rfl, by simpa using hends⟩

theorem topology_queue? (name : String) :
    d.topology.queue? name = (d.queue? name).map (·.toQueue) := by
  unfold Topology.queue? topology queue?
  rw [List.find?_map]
  rfl

theorem mem_route {t : Topology} {exchange routing_key name : String} (h : exchange ≠ "") :
    name ∈ t.route exchange routing_key ↔ ∃ b ∈ t.bindings, b.exchange = exchange ∧
      topicMatches (words b.routing_key) (words routing_key) ∧ b.queue = name := by
  simp [Topology.route_named h, List.mem_eraseDups, and_assoc]

end Definitions

-- A list of lasting declarations in which every binding comes after both of its ends.
def Prepared (before : List Declaration) : List Declaration → Prop
  | [] => True
  | .exchange e :: rest => e.durable ∧ Prepared (before ++ [.exchange e]) rest
  | .queue q :: rest => q.durable ∧ Prepared (before ++ [.queue q]) rest
  | .binding b :: rest =>
      ((∃ e, .exchange e ∈ before ∧ e.name = b.exchange) ∧
        ∃ q, .queue q ∈ before ∧ q.name = b.queue) ∧ Prepared (before ++ [.binding b]) rest

namespace Prepared

open Definitions

variable {before rest : List Declaration} {x : Declaration} {d d' : Definitions}

theorem tail (h : Prepared before (x :: rest)) : Prepared (before ++ [x]) rest := by
  cases x with
  | exchange | queue | binding => exact h.2

theorem queues {qs : List QueueDeclaration} (hqs : ∀ q ∈ qs, q.durable)
    (h : Prepared (before ++ qs.map .queue) rest) : Prepared before (qs.map .queue ++ rest) := by
  induction qs generalizing before with
  | nil => simpa using h
  | cons q qs ih =>
      refine ⟨hqs q List.mem_cons_self, ih (fun q' hq => hqs q' (List.mem_cons_of_mem _ hq)) ?_⟩
      simpa using h

theorem ends {b : Binding} (h : Prepared before (.binding b :: rest))
    (hd : ∀ x ∈ before, d.Keeps x) :
    (d.exchange? b.exchange).any (·.durable) ∧ (d.queue? b.queue).any (·.durable) := by
  obtain ⟨⟨⟨e, he, hename⟩, q, hq, hqname⟩, _⟩ := h
  obtain ⟨hexchange, hdurable⟩ : d.Keeps (.exchange e) := hd _ he
  obtain ⟨hqueue, hdurable'⟩ : d.Keeps (.queue q) := hd _ hq
  rw [hename] at hexchange
  rw [hqname] at hqueue
  simp [hexchange, hqueue, hdurable, hdurable']

-- What is prepared lasts once it is declared.
theorem declared (h : Prepared before (x :: rest)) (hbefore : ∀ y ∈ before, d.Keeps y)
    (hx : d.declare x = .ok d') : ∀ y ∈ before ++ [x], d'.Keeps y := by
  intro y hy
  rcases List.mem_append.mp hy with hy | hy
  · exact (hbefore y hy).declare hx
  · obtain rfl := List.mem_singleton.mp hy
    have hends := fun b (hb : y = .binding b) => ends (hb ▸ h) hbefore
    obtain ⟨rfl, hsame⟩ | ⟨e, rfl, hnone, rfl⟩ | ⟨q, rfl, hnone, rfl⟩ | ⟨b, rfl, rfl⟩ :=
      declare_cases hx
    · cases y with
      | exchange | queue => exact ⟨hsame, h.1⟩
      | binding b => exact ⟨hsame, hends b rfl⟩
    · exact ⟨by simp [exchange?_append, hnone], h.1⟩
    · exact ⟨by simp [queue?_append, hnone], h.1⟩
    · exact ⟨List.mem_append_right _ (List.mem_singleton_self b), hends b rfl⟩

-- What is prepared can only be refused for another declaration of the same name.
theorem refused {refusal : Refusal} (h : Prepared before (x :: rest))
    (hbefore : ∀ y ∈ before, d.Keeps y) (hx : d.declare x = .error refusal) :
    refusal = .PRECONDITION_FAILED ∧ ∃ y, x.Conflicts y ∧ d.Has y := by
  obtain hconflict | ⟨b, rfl, hends⟩ := declare_refused hx
  · exact hconflict
  · obtain ⟨he, hq⟩ := h.ends hbefore
    exact absurd ⟨Option.isSome_of_any he, Option.isSome_of_any hq⟩ hends

end Prepared

end Amqp
