import PaymentsProcessor.Consumer.Handling
import PaymentsProcessor.Messaging.Topology
import PaymentsProcessor.System.Custody

namespace PaymentsProcessor

open Python Concurrency PaymentsConstants

-- The attempt to send the webhook is over, and this is how it went.
def Sends (c : Container) (event : PaymentCreatedEvent) (calls : List Call)
    (result : Except Exn Unit) : Prop :=
  ∃ pre payment sent, pre ++ sent <+: calls ∧ Exec (loaded_payment c event) pre (.ok payment) ∧
    Exec (c.webhook_service.send payment) sent result

-- A handling in which the webhook is sent, or fails to be with a `WebhookSendError`.
-- Whatever else it needs for its end succeeds.
structure Handled (c : Container) (event : PaymentCreatedEvent) (msg : Message)
    (trace : List Call) : Prop where
  run : ∃ result, Exec (_entrypoint c event msg) trace result
  sends : Sends c event trace (.ok ()) ∨
    ∃ id reason code, Sends c event trace (.error (.WebhookSendError id reason code))
  settles : ∀ call ∈ trace, call.1.settles → call.2.isOk
  closes : ∀ answer, ⟨.close, answer⟩ ∈ trace → answer.isOk

-- A delivery of the message, and the calls that its handling has made so far.
structure Delivery where
  event : PaymentCreatedEvent
  msg : Message
  calls : List Call

def Delivery.Fails (c : Container) (h : Delivery) (reason : String) : Prop :=
  ∃ id code, Sends c h.event h.calls (.error (.WebhookSendError id reason code))

def Delivery.Succeeds (c : Container) (h : Delivery) : Prop := Sends c h.event h.calls (.ok ())

-- Where a message and its copies go: the queues that they are in, and their
-- deliveries in the order in which they were made.
structure Chain where
  queues : String → List Message
  deliveries : List Delivery

-- What a call does to the queues. No handling of a chain refuses its message.
def moves (d : Deployment) : Call → (String → List Message) → String → List Message
  | ⟨.publish exchange routing_key payload headers, .ok _⟩, queues =>
      enqueue (d.topology.route exchange routing_key) ⟨payload, headers⟩ queues
  | _, queues => queues

namespace Chain

def start (m : Message) : Chain := ⟨enqueue [QUEUE_PAYMENTS_NEW] m fun _ => [], []⟩

-- A message is delivered, a handling makes its next call, or a message expires.
inductive Step (d : Deployment) : Chain → Chain → Prop where
  | deliver {s : Chain} {index : ℕ} {msg : Message} {event : PaymentCreatedEvent}
      (hm : (s.queues QUEUE_PAYMENTS_NEW)[index]? = some msg)
      (hd : PaymentCreatedEvent.decode msg.payload = some event) :
      Step d s ⟨dequeue QUEUE_PAYMENTS_NEW index s.queues, s.deliveries ++ [⟨event, msg, []⟩]⟩
  | call {s : Chain} {index : ℕ} {h : Delivery} {call : Call} {rest : List Call}
      (hh : s.deliveries[index]? = some h)
      (hc : Handled d.container h.event h.msg (h.calls ++ call :: rest)) :
      Step d s ⟨moves d call s.queues,
        s.deliveries.set index { h with calls := h.calls ++ [call] }⟩
  | expire {s : Chain} {name : String} {index : ℕ} {msg : Message} {queue : Amqp.Queue}
      (x_death : HeaderValue) (hq : d.topology.queue? name = some queue)
      (ht : queue.message_ttl.isSome) (hm : (s.queues name)[index]? = some msg) :
      Step d s ⟨enqueue (d.topology.deadLetterRoute name) (msg.with_x_death x_death)
        (dequeue name index s.queues), s.deliveries⟩

-- Where a copy can be that is still to be dealt with: in a queue other than that of
-- the dead letters, or with a consumer that has neither passed it on nor settled it.
inductive Place where
  | queue (name : String) (index : ℕ)
  | delivery (index : ℕ)

def Live (s : Chain) : Place → Prop
  | .queue name index => name ≠ QUEUE_PAYMENTS_DLQ ∧ index < (s.queues name).length
  | .delivery index => ∃ h, s.deliveries[index]? = some h ∧ dealings h.calls = []

-- A message has been acknowledged without a copy, or is a dead letter.
def Ended (s : Chain) : Prop :=
  (∃ h ∈ s.deliveries, dealings h.calls = [⟨.ack, .ok ()⟩]) ∨ s.queues QUEUE_PAYMENTS_DLQ ≠ []

end Chain

-- What the deliveries of a message are meant to be: it is in one place at a time,
-- and each of its failures but the last one brings it to the next retry queue.
inductive Phase where
  | queued (failures : ℕ)
  | held (failures : ℕ)
  | waiting (failures : ℕ)
  | delivered (failures : ℕ)
  | dead

namespace Phase

inductive Step (max_retries : ℤ) : Phase → Phase → Prop where
  | deliver (k : ℕ) : Step max_retries (.queued k) (.held k)
  | succeed (k : ℕ) : Step max_retries (.held k) (.delivered k)
  | retry {k : ℕ} (h : (k : ℤ) + 1 ≤ max_retries) : Step max_retries (.held k) (.waiting (k + 1))
  | give_up {k : ℕ} (h : max_retries < k + 1) : Step max_retries (.held k) .dead
  | expire (k : ℕ) : Step max_retries (.waiting k) (.queued k)

variable {max_retries : ℤ}

-- The deliveries that have failed and been passed on, and all of them.
def failures (max_retries : ℤ) : Phase → ℕ
  | .queued k | .held k | .waiting k | .delivered k => k
  | .dead => (max_retries + 1).toNat

def attempts (max_retries : ℤ) : Phase → ℕ
  | .queued k | .waiting k => k
  | .held k | .delivered k => k + 1
  | .dead => (max_retries + 1).toNat

def Within (max_retries : ℤ) : Phase → Prop
  | .queued k | .held k | .delivered k => (k : ℤ) ≤ max_retries
  | .waiting k => 1 ≤ k ∧ (k : ℤ) ≤ max_retries
  | .dead => True

theorem Within.step {phase phase' : Phase} (h : phase.Within max_retries)
    (hs : Step max_retries phase phase') : phase'.Within max_retries := by
  cases hs with
  | deliver | succeed => exact h
  | retry hk => exact ⟨by omega, by push_cast; exact hk⟩
  | give_up => trivial
  | expire => exact h.2

-- The phase that a failure brings a message to.
def failed (max_retries : ℤ) (k : ℕ) : Phase :=
  if (k : ℤ) + 1 ≤ max_retries then .waiting (k + 1) else .dead

theorem Step.fail (k : ℕ) : Step max_retries (.held k) (.failed max_retries k) := by
  unfold failed
  split
  · exact .retry ‹_›
  · exact .give_up (by omega)

theorem failed_failures {k : ℕ} (h : (k : ℤ) ≤ max_retries) :
    (failed max_retries k).failures max_retries = k + 1 := by
  unfold failed
  by_cases hk : (k : ℤ) + 1 ≤ max_retries
  · rw [if_pos hk]
    rfl
  · rw [if_neg hk]
    show (max_retries + 1).toNat = k + 1
    omega

theorem failed_attempts {k : ℕ} (h : (k : ℤ) ≤ max_retries) :
    (failed max_retries k).attempts max_retries = k + 1 := by
  unfold failed
  by_cases hk : (k : ℤ) + 1 ≤ max_retries
  · rw [if_pos hk]
    rfl
  · rw [if_neg hk]
    show (max_retries + 1).toNat = k + 1
    omega

theorem Within.attempts_le {phase : Phase} (h : phase.Within max_retries)
    (h0 : 0 ≤ max_retries) : (phase.attempts max_retries : ℤ) ≤ max_retries + 1 := by
  unfold attempts
  unfold Within at h
  cases phase <;> simp only at h ⊢ <;> omega

end Phase

section Handling

variable {c : Container} {event : PaymentCreatedEvent} {msg : Message} {count : ℤ}
variable {calls rest trace : List Call} {result result' : Except Exn Unit}

theorem Sends.intro {pre sent : List Call} {payment : Payment}
    (hpre : Exec (loaded_payment c event) pre (.ok payment))
    (hsent : Exec (c.webhook_service.send payment) sent result) :
    Sends c event (pre ++ sent ++ rest) result :=
  ⟨pre, payment, sent, List.prefix_append _ _, hpre, hsent⟩

theorem Sends.unique (h : Sends c event calls result) (h' : Sends c event calls result') :
    result = result' := by
  obtain ⟨pre, payment, sent, ⟨rest, rfl⟩, hpre, hsent⟩ := h
  obtain ⟨pre', payment', sent', ⟨rest', he⟩, hpre', hsent'⟩ := h'
  exact (same_attempt hpre hpre' hsent hsent' he.symm).1

theorem Sends.extend (h : Sends c event calls result) : Sends c event (calls ++ rest) result := by
  obtain ⟨pre, payment, sent, hstarts, hpre, hsent⟩ := h
  exact ⟨pre, payment, sent, hstarts.trans (List.prefix_append _ _), hpre, hsent⟩

theorem posts_pre_sent {pre sent : List Call} {payment : Payment}
    (hpre : Exec (loaded_payment c event) pre (.ok payment))
    (hsent : Exec (c.webhook_service.send payment) sent result) :
    (posts (pre ++ sent)).length ≤ 1 := by
  rw [posts_append, (loaded_inward hpre).2, List.nil_append]
  obtain ⟨_, ⟨hp, _⟩ | ⟨_, _, _, hp, _⟩⟩ := sent_outward hsent
  · simp [hp]
  · simp [hp]

-- Which calls a handling passes its message on by, and settles it.
theorem Handled.settled (h : Handled c event msg trace)
    (hcount : get_retry_count (some msg.headers) = .ok count) :
    (posts trace).length ≤ 1 ∧
      (Sends c event trace (.ok ()) ∧ dealings trace = [⟨.ack, .ok ()⟩] ∨
        ∃ id reason code, Sends c event trace (.error (.WebhookSendError id reason code)) ∧
          dealings trace = [⟨retry_copy event count c.consumer_config.CONSUMER_MAX_RETRIES reason,
            .ok ()⟩, ⟨.ack, .ok ()⟩]) := by
  obtain ⟨result, hrun⟩ := h.run
  obtain ⟨inner, done, closed, rest, rfl, hinner, hrest⟩ := exec_handle_payment_created hrun
  have hclosed : closed.isOk := h.closes closed (by simp)
  have hinside := exec_inside hinner
  rcases hrest with ⟨rfl, rfl, acked, last, rfl, hlast⟩ | ⟨x, rfl | ⟨rfl, rfl⟩, _⟩
  · have hacked : acked.isOk := h.settles ⟨.ack, acked⟩ (by simp) rfl
    obtain ⟨rfl, rfl, _⟩ | ⟨x, rfl, _⟩ := hlast
    · have hposts : posts (inner ++ [⟨.close, .ok ()⟩, ⟨.ack, .ok ()⟩]) = posts inner := by
        rw [posts_append]
        exact List.append_nil _
      have hdealings : dealings (inner ++ [⟨.close, .ok ()⟩, ⟨.ack, .ok ()⟩]) =
          dealings inner ++ [⟨.ack, .ok ()⟩] := dealings_append _ _
      rw [hposts, hdealings]
      cases hinside with
      | sent hpre hsent hne =>
          rw [dealings_pre_sent hpre hsent]
          exact ⟨posts_pre_sent hpre hsent, .inl ⟨.intro hpre hsent, rfl⟩⟩
      | copied hpre hsent hcount' answer =>
          cases hcount.symm.trans hcount'
          rw [dealings_append, dealings_pre_sent hpre hsent, posts_append]
          exact ⟨(List.append_nil _).symm ▸ posts_pre_sent hpre hsent,
            .inr ⟨_, _, _, (Sends.intro hpre hsent).extend, rfl⟩⟩
    · cases hacked
  · cases hclosed
  · exfalso
    cases hinside with
    | unloaded x hpre =>
        rcases h.sends with hs | ⟨_, _, _, hs⟩
        all_goals
          obtain ⟨pre', payment', sent', ⟨tail, he⟩, hpre', _⟩ := hs
          rw [List.append_assoc] at he
          cases (Exec.prefix_unique hpre' hpre he).2
    | sent hpre hsent hne =>
        rcases h.sends with hok | ⟨id, reason, code, herror⟩
        · cases hok.unique (.intro hpre hsent)
        · exact hne id reason code (Sends.unique (.intro hpre hsent) herror)
    | uncounted _ _ hcount' => cases hcount.symm.trans hcount'
    | copied hpre hsent hcount' answer =>
        have hcopied := h.settles _
          (List.mem_append_left _ (List.mem_append_right _ (List.mem_singleton_self _))) rfl
        cases hcopied

-- A call that a handling makes when it has made these calls: it leaves the message
-- where it is, passes it on, or acknowledges it, and the last at most once.
theorem Handled.next {call : Call} (h : Handled c event msg (calls ++ call :: rest))
    (hcount : get_retry_count (some msg.headers) = .ok count) :
    call.1.settles = false ∨
      (∃ reason, call =
          ⟨retry_copy event count c.consumer_config.CONSUMER_MAX_RETRIES reason, .ok ()⟩) ∧
        dealings calls = [] ∨
      call = ⟨.ack, .ok ()⟩ ∧ (dealings calls = [] ∨ ∃ reason, dealings calls =
        [⟨retry_copy event count c.consumer_config.CONSUMER_MAX_RETRIES reason, .ok ()⟩]) := by
  by_cases hs : call.1.settles = true
  · have hsplit : dealings (calls ++ call :: rest) = dealings calls ++ call :: dealings rest := by
      rw [dealings_append]
      exact congrArg _ (List.filter_cons_of_pos hs)
    right
    obtain ⟨_, ⟨_, hd⟩ | ⟨_, reason, _, _, hd⟩⟩ := h.settled hcount
    · rw [hsplit, List.append_eq_cons_iff] at hd
      rcases hd with ⟨hnil, hcall⟩ | ⟨more, _, hmore⟩
      · exact .inr ⟨(List.cons.inj hcall).1, .inl hnil⟩
      · cases more <;> cases hmore
    · rw [hsplit, List.append_eq_cons_iff] at hd
      rcases hd with ⟨hnil, hcall⟩ | ⟨more, hcopy, hmore⟩
      · exact .inl ⟨⟨reason, (List.cons.inj hcall).1⟩, hnil⟩
      · rcases List.append_eq_cons_iff.mp hmore.symm with ⟨rfl, hcall⟩ | ⟨more', rfl, hmore'⟩
        · exact .inr ⟨(List.cons.inj hcall).1, .inr ⟨reason, hcopy⟩⟩
        · cases more' <;> cases hmore'
  · exact .inl (by simpa using hs)

end Handling

section Invariant

variable {d : Deployment} {id : UUID}

def Deployment.max_retries (d : Deployment) : ℤ := d.container.consumer_config.CONSUMER_MAX_RETRIES

-- A delivery of the message that so many failures came before.
structure Delivery.Belongs (c : Container) (id : UUID) (k : ℕ) (h : Delivery) : Prop where
  event : h.event.payment_id = id
  count : get_retry_count (some h.msg.headers) = .ok (k : ℤ)
  handled : h.calls = [] ∨ ∃ rest, Handled c h.event h.msg (h.calls ++ rest)

def Delivery.PassedOn (d : Deployment) (k : ℕ) (h : Delivery) : Prop :=
  ∃ reason rest, dealings h.calls = ⟨retry_copy h.event k d.max_retries reason, .ok ()⟩ :: rest

-- All of the queues but one are empty, and this one holds one message.
def alone (name : String) (m : Message) : String → List Message := enqueue [name] m fun _ => []

namespace Phase

-- How far the handling has come that is not over.
def Last : Phase → List Call → Prop
  | .held _, calls => dealings calls = []
  | .delivered _, calls => dealings calls = [⟨.ack, .ok ()⟩]
  | _, _ => True

def Stage (d : Deployment) (phase : Phase) (k : ℕ) (h : Delivery) : Prop :=
  if k < phase.failures d.max_retries then h.PassedOn d k else phase.Last h.calls

variable {d : Deployment} {phase : Phase} {k : ℕ} {h : Delivery}

theorem stage_of_passed (hk : k < phase.failures d.max_retries) (hp : h.PassedOn d k) :
    phase.Stage d k h := (if_pos hk).mpr hp

theorem stage_of_last (hk : ¬k < phase.failures d.max_retries) (hl : phase.Last h.calls) :
    phase.Stage d k h := (if_neg hk).mpr hl

theorem Stage.passed (hs : phase.Stage d k h) (hk : k < phase.failures d.max_retries) :
    h.PassedOn d k := (if_pos hk).mp hs

theorem Stage.last (hs : phase.Stage d k h) (hk : ¬k < phase.failures d.max_retries) :
    phase.Last h.calls := (if_neg hk).mp hs

-- Only what has become of the message matters.
theorem Stage.congr {h' : Delivery} (hs : phase.Stage d k h) (he : h'.event = h.event)
    (hd : dealings h'.calls = dealings h.calls) : phase.Stage d k h' := by
  unfold Stage Delivery.PassedOn at hs ⊢
  rw [he, hd]
  split
  · rwa [if_pos ‹_›] at hs
  · rw [if_neg ‹_›] at hs
    cases phase with
    | held => exact hd.trans hs
    | delivered => exact hd.trans hs
    | queued | waiting | dead => trivial

def Queues (id : UUID) : Phase → (String → List Message) → Prop
  | .queued k, queues => ∃ m, queues = alone QUEUE_PAYMENTS_NEW m ∧ m.tells id ∧
      get_retry_count (some m.headers) = .ok (k : ℤ)
  | .waiting k, queues => ∃ m, queues = alone (retry_queue_name k) m ∧ m.tells id ∧
      m.headers.lookup RETRY_COUNT_HEADER = some (.int k)
  | .dead, queues => ∃ m, queues = alone QUEUE_PAYMENTS_DLQ m ∧ m.tells id
  | .held _, queues | .delivered _, queues => queues = fun _ => []

end Phase

-- The chain has come as far as this phase of the protocol.
structure Chain.Matches (d : Deployment) (id : UUID) (s : Chain) (phase : Phase) : Prop where
  attempts : s.deliveries.length = phase.attempts d.max_retries
  deliveries : ∀ k h, s.deliveries[k]? = some h →
    h.Belongs d.container id k ∧ phase.Stage d k h
  queues : phase.Queues id s.queues

theorem alone_getElem? {name name' : String} {m x : Message} {index : ℕ}
    (h : (alone name m name')[index]? = some x) :
    name' = name ∧ x = m ∧ dequeue name' index (alone name m) = fun _ => [] := by
  unfold alone enqueue at h
  by_cases hn : name' = name
  · subst hn
    rw [if_pos (List.mem_singleton_self _), List.nil_append, List.getElem?_singleton] at h
    by_cases hi : index = 0
    · subst hi
      cases h
      refine ⟨rfl, rfl, ?_⟩
      funext other
      unfold dequeue alone enqueue
      by_cases ho : other = name'
      · subst ho
        simp
      · simp [ho]
    · rw [if_neg hi] at h
      cases h
  · rw [if_neg (by simpa using hn)] at h
    cases h

theorem moves_inward {call : Call} (h : call.1.settles = false) (queues : String → List Message) :
    moves d call queues = queues := by
  obtain ⟨e, answer⟩ := call
  cases e with
  | publish => cases h
  | _ => rfl

theorem dealings_inward {calls : List Call} {call : Call} (h : call.1.settles = false) :
    dealings (calls ++ [call]) = dealings calls := by
  have hnone : dealings [call] = [] := List.filter_cons_of_neg (by simp [h])
  rw [dealings_append, hnone, List.append_nil]

-- The copy goes to one queue.
theorem copy_queues {event : PaymentCreatedEvent} {k : ℕ} (hN : d.max_retries ≤ d.ttls.length)
    (hevent : event.payment_id = id) (reason : String) :
    (Phase.failed d.max_retries k).Queues id
      (moves d ⟨retry_copy event k d.max_retries reason, .ok ()⟩ fun _ => []) := by
  have hmoves : moves d ⟨retry_copy event k d.max_retries reason, .ok ()⟩ (fun _ => []) =
      enqueue (d.topology.route (retry_exchange k d.max_retries)
        (retry_routing_key k d.max_retries)) ⟨event_payload event.payment_id,
          retry_headers k d.max_retries reason⟩ fun _ => [] := rfl
  have htells : Message.tells ⟨event_payload event.payment_id,
      retry_headers k d.max_retries reason⟩ id := by
    rw [← hevent]
    exact decode_event_payload event.payment_id
  unfold Phase.failed
  rw [hmoves]
  unfold retry_exchange retry_routing_key Deployment.topology
  by_cases hk : (k : ℤ) + 1 ≤ d.max_retries
  · rw [if_pos hk, if_neg (by omega), if_neg (by omega), route_retry (by omega) (by omega)]
    refine ⟨_, by push_cast; rfl, htells, ?_⟩
    unfold retry_headers
    rw [if_neg (by omega)]
    push_cast
    rfl
  · rw [if_neg hk, if_pos (by omega), if_pos (by omega), route_failed]
    exact ⟨_, rfl, htells⟩

theorem Delivery.Belongs.call {c : Container} {k : ℕ} {h : Delivery} {call : Call}
    {rest : List Call} (hb : h.Belongs c id k)
    (hc : Handled c h.event h.msg (h.calls ++ call :: rest)) :
    Delivery.Belongs c id k { h with calls := h.calls ++ [call] } :=
  ⟨hb.event, hb.count, .inr ⟨rest, by simpa using hc⟩⟩

-- What was passed on is not touched any more.
theorem Delivery.PassedOn.call {k : ℕ} {h : Delivery} {call : Call} {rest : List Call}
    (hp : h.PassedOn d k) (hb : h.Belongs d.container id k)
    (hc : Handled d.container h.event h.msg (h.calls ++ call :: rest))
    (queues : String → List Message) :
    moves d call queues = queues ∧
      Delivery.PassedOn d k { h with calls := h.calls ++ [call] } := by
  obtain ⟨reason, more, hp⟩ := hp
  rcases hc.next hb.count with hs | ⟨_, hnil⟩ | ⟨rfl, _⟩
  · exact ⟨moves_inward hs queues, reason, more, by rw [← hp]; exact dealings_inward hs⟩
  · rw [hp] at hnil
    cases hnil
  · exact ⟨rfl, reason, more ++ [⟨.ack, .ok ()⟩], by
      show dealings (h.calls ++ _) = _
      rw [dealings_append, hp]
      rfl⟩

variable {s : Chain} {phase phase' : Phase} {queues : String → List Message}

theorem Chain.Matches.set {i : ℕ} {h' : Delivery} (hm : s.Matches d id phase)
    (hattempts : phase'.attempts d.max_retries = phase.attempts d.max_retries)
    (hb : h'.Belongs d.container id i) (hstage : phase'.Stage d i h')
    (hothers : ∀ k h, k ≠ i → k < phase.attempts d.max_retries → phase.Stage d k h →
      phase'.Stage d k h)
    (hq : phase'.Queues id queues) : Chain.Matches d id ⟨queues, s.deliveries.set i h'⟩ phase' where
  attempts := by rw [List.length_set, hm.attempts, hattempts]
  deliveries k h hk := by
    rw [List.getElem?_set] at hk
    by_cases hi : i = k
    · subst hi
      rw [if_pos rfl] at hk
      split at hk
      · cases hk
        exact ⟨hb, hstage⟩
      · cases hk
    · rw [if_neg hi] at hk
      obtain ⟨hb', hs⟩ := hm.deliveries k h hk
      obtain ⟨hlt, _⟩ := List.getElem?_eq_some_iff.mp hk
      exact ⟨hb', hothers k h (Ne.symm hi) (hm.attempts ▸ hlt) hs⟩
  queues := hq

-- Of the deliveries only the last one can be underway.
theorem Chain.Matches.latest {index : ℕ} {h : Delivery} (hm : s.Matches d id phase)
    (hh : s.deliveries[index]? = some h) :
    index < phase.failures d.max_retries ∧ h.PassedOn d index ∨
      phase = .held index ∧ dealings h.calls = [] ∨
      phase = .delivered index ∧ dealings h.calls = [⟨.ack, .ok ()⟩] := by
  obtain ⟨_, hstage⟩ := hm.deliveries index h hh
  have hlt : index < phase.attempts d.max_retries := by
    rw [← hm.attempts]
    exact (List.getElem?_eq_some_iff.mp hh).1
  by_cases hfailed : index < phase.failures d.max_retries
  · exact .inl ⟨hfailed, hstage.passed hfailed⟩
  · have hlast := hstage.last hfailed
    cases phase with
    | queued | waiting | dead => exact absurd hlt hfailed
    | held k =>
        obtain rfl : index = k := Nat.le_antisymm (Nat.lt_succ_iff.mp hlt) (Nat.le_of_not_lt hfailed)
        exact .inr (.inl ⟨rfl, hlast⟩)
    | delivered k =>
        obtain rfl : index = k := Nat.le_antisymm (Nat.lt_succ_iff.mp hlt) (Nat.le_of_not_lt hfailed)
        exact .inr (.inr ⟨rfl, hlast⟩)

-- A message is taken out of the queue that it is in.
theorem Chain.Matches.taken {name : String} {index : ℕ} {msg : Message}
    (hm : s.Matches d id phase) (h : (s.queues name)[index]? = some msg) :
    msg.tells id ∧ (dequeue name index s.queues = fun _ => []) ∧
      ((∃ k : ℕ, phase = .queued k ∧ name = QUEUE_PAYMENTS_NEW ∧
          get_retry_count (some msg.headers) = .ok (k : ℤ)) ∨
        (∃ k : ℕ, phase = .waiting k ∧ name = retry_queue_name k ∧
          msg.headers.lookup RETRY_COUNT_HEADER = some (.int k)) ∨
        phase = .dead ∧ name = QUEUE_PAYMENTS_DLQ) := by
  have hq := hm.queues
  cases phase with
  | queued k =>
      obtain ⟨m, hq, ht, hcount⟩ := hq
      rw [hq] at h ⊢
      obtain ⟨rfl, rfl, hnone⟩ := alone_getElem? h
      exact ⟨ht, hnone, .inl ⟨k, rfl, rfl, hcount⟩⟩
  | waiting k =>
      obtain ⟨m, hq, ht, hcount⟩ := hq
      rw [hq] at h ⊢
      obtain ⟨rfl, rfl, hnone⟩ := alone_getElem? h
      exact ⟨ht, hnone, .inr (.inl ⟨k, rfl, rfl, hcount⟩)⟩
  | dead =>
      obtain ⟨m, hq, ht⟩ := hq
      rw [hq] at h ⊢
      obtain ⟨rfl, rfl, hnone⟩ := alone_getElem? h
      exact ⟨ht, hnone, .inr (.inr ⟨rfl, rfl⟩)⟩
  | held | delivered =>
      rw [show s.queues = fun _ => [] from hq] at h
      cases h

theorem Chain.Matches.deliver {index : ℕ} {msg : Message} {event : PaymentCreatedEvent}
    (hm : s.Matches d id phase) (h : (s.queues QUEUE_PAYMENTS_NEW)[index]? = some msg)
    (hd : PaymentCreatedEvent.decode msg.payload = some event) :
    ∃ phase', Phase.Step d.max_retries phase phase' ∧ Chain.Matches d id
      ⟨dequeue QUEUE_PAYMENTS_NEW index s.queues, s.deliveries ++ [⟨event, msg, []⟩]⟩ phase' := by
  obtain ⟨ht, hnone, ⟨k, rfl, _, hcount⟩ | ⟨k, _, hname, _⟩ | ⟨_, hname⟩⟩ := hm.taken h
  · have hlength : s.deliveries.length = k := hm.attempts
    have hevent : event.payment_id = id := by
      cases hd.symm.trans ht
      rfl
    refine ⟨.held k, .deliver k, ?_, fun k' h' hk => ?_, hnone⟩
    · rw [List.length_append, hlength]
      rfl
    · by_cases hlt : k' < k
      · rw [List.getElem?_append_left (hlength ▸ hlt)] at hk
        obtain ⟨hb, hs⟩ := hm.deliveries k' h' hk
        exact ⟨hb, Phase.stage_of_passed hlt (hs.passed hlt)⟩
      · rw [List.getElem?_append_right (by omega), List.getElem?_singleton] at hk
        split at hk
        · cases hk
          obtain rfl : k' = k := by omega
          exact ⟨⟨hevent, hcount, .inl rfl⟩, Phase.stage_of_last hlt rfl⟩
        · cases hk
  · exact absurd hname.symm retry_queue_name_ne.1
  · exact absurd hname (by decide)

-- The broker adds to the headers of what expires, and takes no count from them.
theorem Chain.Matches.expire {name : String} {index : ℕ} {msg : Message} {queue : Amqp.Queue}
    (hm : s.Matches d id phase) (hq : d.topology.queue? name = some queue)
    (ht : queue.message_ttl.isSome) (h : (s.queues name)[index]? = some msg)
    (x_death : HeaderValue) :
    ∃ phase', Phase.Step d.max_retries phase phase' ∧ Chain.Matches d id
      ⟨enqueue (d.topology.deadLetterRoute name) (msg.with_x_death x_death)
        (dequeue name index s.queues), s.deliveries⟩ phase' := by
  obtain ⟨⟨attempt, rfl⟩, hroute⟩ := expiring_is_retry hq ht
  obtain ⟨htells, hnone, ⟨k, _, hname, _⟩ | ⟨k, rfl, hname, hcount⟩ | ⟨_, hname⟩⟩ := hm.taken h
  · exact absurd hname retry_queue_name_ne.1
  · refine ⟨.queued k, .expire k, hm.attempts, hm.deliveries, msg.with_x_death x_death, ?_, htells, ?_⟩
    · rw [Deployment.topology, hroute, hnone]
      rfl
    · have hl := (lookup_with_x_death x_death).trans hcount
      simp [get_retry_count, hl, HeaderValue.toInt]
  · exact absurd hname retry_queue_name_ne.2

-- A call that has nothing to do with the message changes nothing.
theorem Chain.Matches.inward {index : ℕ} {h : Delivery} {call : Call}
    (hm : s.Matches d id phase) (hh : s.deliveries[index]? = some h)
    (hb : Delivery.Belongs d.container id index { h with calls := h.calls ++ [call] })
    (hs : call.1.settles = false) : Chain.Matches d id
      ⟨moves d call s.queues, s.deliveries.set index { h with calls := h.calls ++ [call] }⟩
        phase := by
  refine hm.set rfl hb ?_ (fun _ _ _ _ h => h) ?_
  · exact (hm.deliveries index h hh).2.congr rfl (dealings_inward hs)
  · rw [moves_inward hs]
    exact hm.queues

section Held

variable {k : ℕ} {h : Delivery}

-- The message is passed on, to the next retry queue or to the dead letters.
theorem Chain.Matches.copy {reason : String} (hm : s.Matches d id (.held k))
    (hle : (k : ℤ) ≤ d.max_retries) (hN : d.max_retries ≤ d.ttls.length)
    (hd : dealings h.calls = []) (hevent : h.event.payment_id = id)
    (hb : Delivery.Belongs d.container id k
      { h with calls := h.calls ++ [⟨retry_copy h.event k d.max_retries reason, .ok ()⟩] }) :
    Chain.Matches d id ⟨moves d ⟨retry_copy h.event k d.max_retries reason, .ok ()⟩ s.queues,
      s.deliveries.set k
        { h with calls := h.calls ++ [⟨retry_copy h.event k d.max_retries reason, .ok ()⟩] }⟩
      (.failed d.max_retries k) := by
  have hempty : s.queues = fun _ => [] := hm.queues
  have hfailures := Phase.failed_failures hle
  refine hm.set (Phase.failed_attempts hle) hb ?_ ?_ ?_
  · refine Phase.stage_of_passed (hfailures ▸ Nat.lt_succ_self k) ⟨reason, [], ?_⟩
    rw [dealings_append, hd]
    rfl
  · intro other g hne hlt hs
    have hbefore : other < k := Nat.lt_of_le_of_ne (Nat.lt_succ_iff.mp hlt) hne
    exact Phase.stage_of_passed (hfailures ▸ hlt) (hs.passed hbefore)
  · rw [hempty]
    exact copy_queues hN hevent reason

theorem Chain.Matches.ack (hm : s.Matches d id (.held k)) (hd : dealings h.calls = [])
    (hb : Delivery.Belongs d.container id k { h with calls := h.calls ++ [⟨.ack, .ok ()⟩] }) :
    Chain.Matches d id ⟨moves d ⟨.ack, .ok ()⟩ s.queues,
      s.deliveries.set k { h with calls := h.calls ++ [⟨.ack, .ok ()⟩] }⟩ (.delivered k) := by
  refine hm.set rfl hb ?_ ?_ hm.queues
  · refine Phase.stage_of_last (Nat.lt_irrefl k) ?_
    show dealings (h.calls ++ _) = _
    rw [dealings_append, hd]
    rfl
  · intro other g hne hlt hs
    have hbefore : other < k := Nat.lt_of_le_of_ne (Nat.lt_succ_iff.mp hlt) hne
    exact Phase.stage_of_passed hbefore (hs.passed hbefore)

end Held

-- A handling makes a call.
theorem Chain.Matches.call {index : ℕ} {h : Delivery} {call : Call} {rest : List Call}
    (hm : s.Matches d id phase) (hw : phase.Within d.max_retries)
    (hN : d.max_retries ≤ d.ttls.length) (hh : s.deliveries[index]? = some h)
    (hc : Handled d.container h.event h.msg (h.calls ++ call :: rest)) :
    ∃ phase', (phase' = phase ∨ Phase.Step d.max_retries phase phase') ∧ Chain.Matches d id
      ⟨moves d call s.queues, s.deliveries.set index { h with calls := h.calls ++ [call] }⟩
        phase' := by
  have hb := (hm.deliveries index h hh).1
  have hb' := hb.call hc
  rcases hm.latest hh with ⟨hfailed, hp⟩ | ⟨rfl, hd⟩ | ⟨rfl, hd⟩
  · obtain ⟨hmoves, hp'⟩ := hp.call hb hc s.queues
    refine ⟨phase, .inl rfl, hm.set rfl hb' (Phase.stage_of_passed hfailed hp')
      (fun _ _ _ _ hs => hs) ?_⟩
    rw [hmoves]
    exact hm.queues
  · rcases hc.next hb.count with hs | ⟨⟨reason, rfl⟩, _⟩ | ⟨rfl, _⟩
    · exact ⟨.held index, .inl rfl, hm.inward hh hb' hs⟩
    · exact ⟨_, .inr (.fail index), hm.copy hw hN hd hb.event hb'⟩
    · exact ⟨.delivered index, .inr (.succeed index), hm.ack hd hb'⟩
  · rcases hc.next hb.count with hs | ⟨_, hnil⟩ | ⟨_, hnil | ⟨_, hcopy⟩⟩
    · exact ⟨.delivered index, .inl rfl, hm.inward hh hb' hs⟩
    · cases hd.symm.trans hnil
    · cases hd.symm.trans hnil
    · cases hd.symm.trans hcopy

-- Every step of a chain is one that its message is meant to take, or none.
theorem Chain.Matches.step {s' : Chain} (hm : s.Matches d id phase)
    (hw : phase.Within d.max_retries) (hN : d.max_retries ≤ d.ttls.length)
    (h : Chain.Step d s s') : ∃ phase', (phase' = phase ∨ Phase.Step d.max_retries phase phase') ∧
      s'.Matches d id phase' := by
  cases h with
  | deliver hmsg hd =>
      obtain ⟨phase', hs, hm'⟩ := hm.deliver hmsg hd
      exact ⟨phase', .inr hs, hm'⟩
  | call hh hc => exact hm.call hw hN hh hc
  | expire x_death hq ht hmsg =>
      obtain ⟨phase', hs, hm'⟩ := hm.expire hq ht hmsg x_death
      exact ⟨phase', .inr hs, hm'⟩

theorem Chain.start_matches {m : Message} (ht : m.tells id)
    (hcount : m.headers.lookup RETRY_COUNT_HEADER = none)
    (hdeath : m.headers.lookup X_DEATH_HEADER = none) :
    (Chain.start m).Matches d id (.queued 0) where
  attempts := rfl
  deliveries k h hk := by cases hk
  queues := ⟨m, rfl, ht, by simp [get_retry_count, hcount, x_death_count, hdeath]⟩

-- A chain goes through the phases that its message is meant to go through.
theorem Chain.run_matches {s' : Chain} (hm : s.Matches d id phase)
    (hw : phase.Within d.max_retries) (hN : d.max_retries ≤ d.ttls.length)
    (h : Relation.ReflTransGen (Chain.Step d) s s') : ∃ phase',
      Relation.ReflTransGen (Phase.Step d.max_retries) phase phase' ∧
        phase'.Within d.max_retries ∧ s'.Matches d id phase' := by
  induction h with
  | refl => exact ⟨phase, .refl, hw, hm⟩
  | tail _ hstep ih =>
      obtain ⟨phase₁, hrun, hw₁, hm₁⟩ := ih
      obtain ⟨phase₂, rfl | hs, hm₂⟩ := hm₁.step hw₁ hN hstep
      · exact ⟨phase₂, hrun, hw₁, hm₂⟩
      · exact ⟨phase₂, hrun.tail hs, hw₁.step hs, hm₂⟩

end Invariant

section Results

variable {d : Deployment} {id : UUID} {s : Chain} {phase : Phase}

theorem alone_length (name other : String) (m : Message) :
    (alone name m other).length = if other = name then 1 else 0 := by
  unfold alone enqueue
  by_cases h : other = name <;> simp [h]

def Phase.place : Phase → Option Chain.Place
  | .queued _ => some (.queue QUEUE_PAYMENTS_NEW 0)
  | .held k => some (.delivery k)
  | .waiting k => some (.queue (retry_queue_name k) 0)
  | .delivered _ | .dead => none

-- What is in a queue of its own.
theorem live_alone {name other : String} {m : Message} {index : ℕ}
    (hname : name ≠ QUEUE_PAYMENTS_DLQ) :
    other ≠ QUEUE_PAYMENTS_DLQ ∧ index < (alone name m other).length ↔
      other = name ∧ index = 0 := by
  rw [alone_length]
  by_cases h : other = name
  · subst h
    simp [hname]
  · simp [h]

theorem Chain.Matches.underway (hm : s.Matches d id phase) (index : ℕ) :
    (∃ h, s.deliveries[index]? = some h ∧ dealings h.calls = []) ↔ phase = .held index := by
  constructor
  · rintro ⟨h, hh, hd⟩
    rcases hm.latest hh with ⟨_, reason, rest, hp⟩ | ⟨hphase, _⟩ | ⟨_, hacked⟩
    · cases hd.symm.trans hp
    · exact hphase
    · cases hd.symm.trans hacked
  · rintro rfl
    have hlength : s.deliveries.length = index + 1 := hm.attempts
    have hh : s.deliveries[index]? = some s.deliveries[index] := List.getElem?_eq_getElem (by omega)
    exact ⟨_, hh, (hm.deliveries index _ hh).2.last (Nat.lt_irrefl index)⟩

theorem Chain.Matches.acknowledged (hm : s.Matches d id phase) :
    (∃ h ∈ s.deliveries, dealings h.calls = [⟨.ack, .ok ()⟩]) ↔ ∃ k, phase = .delivered k := by
  constructor
  · rintro ⟨h, hmem, hd⟩
    obtain ⟨index, hh⟩ := List.getElem?_of_mem hmem
    rcases hm.latest hh with ⟨_, reason, rest, hp⟩ | ⟨_, hnil⟩ | ⟨hphase, _⟩
    · cases hd.symm.trans hp
    · cases hd.symm.trans hnil
    · exact ⟨index, hphase⟩
  · rintro ⟨k, rfl⟩
    have hlength : s.deliveries.length = k + 1 := hm.attempts
    have hh : s.deliveries[k]? = some s.deliveries[k] := List.getElem?_eq_getElem (by omega)
    exact ⟨_, List.getElem_mem _, (hm.deliveries k _ hh).2.last (Nat.lt_irrefl k)⟩

theorem Chain.live_queue (name : String) (index : ℕ) :
    s.Live (.queue name index) ↔ name ≠ QUEUE_PAYMENTS_DLQ ∧ index < (s.queues name).length :=
  Iff.rfl

theorem Chain.Matches.live_iff (hm : s.Matches d id phase) (place : Chain.Place) :
    s.Live place ↔ phase.place = some place := by
  cases place with
  | delivery index =>
      refine (hm.underway index).trans ?_
      cases phase <;> simp [Phase.place]
  | queue name index =>
      have hq := hm.queues
      rw [Chain.live_queue]
      cases phase with
      | queued k =>
          obtain ⟨m, hq, _⟩ := hq
          rw [hq, live_alone (by decide)]
          simp [Phase.place, eq_comm]
      | waiting k =>
          obtain ⟨m, hq, _⟩ := hq
          rw [hq, live_alone retry_queue_name_ne.2]
          simp [Phase.place, eq_comm]
      | dead =>
          obtain ⟨m, hq, _⟩ := hq
          rw [hq, alone_length]
          constructor
          · rintro ⟨hn, hlt⟩
            rw [if_neg hn] at hlt
            omega
          · intro h
            cases h
      | held | delivered =>
          have hempty : s.queues = fun _ => [] := hq
          rw [hempty]
          simp [Phase.place]

theorem Chain.Matches.ended_iff (hm : s.Matches d id phase) :
    s.Ended ↔ phase.place = none := by
  have hq := hm.queues
  unfold Chain.Ended
  rw [hm.acknowledged]
  cases phase with
  | delivered k => simp [Phase.place]
  | dead =>
      obtain ⟨m, hq, _⟩ := hq
      simp [hq, Phase.place, alone, enqueue]
  | queued k =>
      obtain ⟨m, hq, _⟩ := hq
      have hne : QUEUE_PAYMENTS_DLQ ≠ QUEUE_PAYMENTS_NEW := by decide
      simp [hq, Phase.place, alone, enqueue, hne]
  | waiting k =>
      obtain ⟨m, hq, _⟩ := hq
      have hne : QUEUE_PAYMENTS_DLQ ≠ retry_queue_name k := Ne.symm retry_queue_name_ne.2
      simp [hq, Phase.place, alone, enqueue, hne]
  | held k =>
      have hempty : s.queues = fun _ => [] := hq
      simp [hempty, Phase.place]

end Results

section Bridge

variable {d : Deployment} {w w' : World} {p : Pid}

-- The steps of a chain are those of the broker and of the consumers.
theorem tick_expires {name : String} {index : ℕ} {x_death : HeaderValue}
    (h : World.tick d (.expire name index x_death) w = some w') (deliveries : List Delivery) :
    Chain.Step d ⟨w.queues, deliveries⟩ ⟨w'.queues, deliveries⟩ := by
  obtain ⟨queue, hq, h⟩ := Option.bind_eq_some_iff.mp h
  obtain ⟨ttl, ht, h⟩ := Option.bind_eq_some_iff.mp h
  obtain ⟨msg, hm, h⟩ := Option.bind_eq_some_iff.mp h
  cases h
  exact .expire x_death hq (by simp [ht]) hm

theorem launch_delivers {index : ℕ} {prog : Async Unit}
    (h : World.launch d p (.deliver index) w = some (prog, w')) (deliveries : List Delivery) :
    ∃ event msg, prog = _entrypoint d.container event msg ∧
      Chain.Step d ⟨w.queues, deliveries⟩ ⟨w'.queues, deliveries ++ [⟨event, msg, []⟩]⟩ := by
  cases hj : w.jobs p with
  | some job =>
      simp only [World.launch, hj] at h
      cases h
  | none =>
      simp only [World.launch, hj] at h
      obtain ⟨msg, hm, h⟩ := Option.bind_eq_some_iff.mp h
      obtain ⟨event, hd, h⟩ := Option.bind_eq_some_iff.mp h
      cases h
      exact ⟨event, msg, rfl, .deliver hm hd⟩

theorem perform_moves {e : Effect} {r : Reply} {result : Except Exn e.Result}
    (hp : World.perform d p e (.reply r) w = some (result, w'))
    (hnack : ∀ requeue, e ≠ .nack requeue) (hreject : ∀ requeue, e ≠ .reject requeue) :
    w'.queues = moves d ⟨e, result⟩ w.queues := by
  cases e with
  | publish =>
      cases r with
      | done =>
          cases hp
          rfl
      | _ => cases hp
  | ack =>
      obtain ⟨rfl, rfl⟩ | ⟨_, rfl, rfl | rfl⟩ := perform_ack hp <;> rfl
  | nack requeue => exact absurd rfl (hnack requeue)
  | reject requeue => exact absurd rfl (hreject requeue)
  | _ => exact (scope_perform hp).queues (fun h => by cases h) fun h => by cases h

end Bridge

end PaymentsProcessor
