import PaymentsProcessor.Concurrency.Trace
import PaymentsProcessor.System.Alphabets

namespace PaymentsProcessor

open Python Concurrency PaymentsConstants

abbrev Call := Event Effect.Result Exn

-- The calls by which a delivery is passed on or settled.
def Effect.settles : Effect → Bool
  | .publish .. | .ack | .nack _ | .reject _ => true
  | _ => false

def Effect.posts : Effect → Bool
  | .post _ => true
  | _ => false

def dealings (trace : List Call) : List Call := trace.filter fun call => call.1.settles

def posts (trace : List Call) : List Call := trace.filter fun call => call.1.posts

@[simp] theorem dealings_append (trace rest : List Call) :
    dealings (trace ++ rest) = dealings trace ++ dealings rest := List.filter_append ..

@[simp] theorem posts_append (trace rest : List Call) :
    posts (trace ++ rest) = posts trace ++ posts rest := List.filter_append ..

-- A handling up to the webhook: the request's container, and the payment.
def loaded_payment (c : Container) (event : PaymentCreatedEvent) : Async Payment := do
  Async.container_get .AsyncSession
  Async.container_get .PaymentService
  Async.container_get .ProcessingService
  Async.container_get .WebhookService
  processed_payment c event

-- Where `_retry_or_dlq` publishes the copy of a message, and with which headers.
def retry_exchange (count max_retries : ℤ) : String :=
  if count + 1 > max_retries then EXCHANGE_PAYMENTS_DLX else ""

def retry_routing_key (count max_retries : ℤ) : String :=
  if count + 1 > max_retries then PAYMENT_FAILED_ROUTING_KEY else retry_queue_name (count + 1)

def retry_headers (count max_retries : ℤ) (reason : String) : Headers :=
  if count + 1 > max_retries then build_dlq_headers count reason
  else build_retry_headers (count + 1) reason

def retry_copy (event : PaymentCreatedEvent) (count max_retries : ℤ) (reason : String) : Effect :=
  .publish (retry_exchange count max_retries) (retry_routing_key count max_retries)
    (event_payload event.payment_id) (retry_headers count max_retries reason)

-- How `send` ends when its request has been answered.
def post_outcome (payment : Payment) : Except Exn HttpResponse → Except Exn Unit
  | .ok response =>
      if 400 ≤ response.status_code then
        .error (.WebhookSendError payment.id "non_2xx_response" (some response.status_code))
      else .ok ()
  | .error (.RequestError name _) => .error (.WebhookSendError payment.id name none)
  | .error e => .error e

section Alphabet

variable {c : Container} {event : PaymentCreatedEvent}

theorem loaded_payment_only : (loaded_payment c event).Only Effect.ofProcessing := by
  refine Prog.Only.bind (.perform trivial) fun _ => Prog.Only.bind (.perform trivial) fun _ => ?_
  refine Prog.Only.bind (.perform trivial) fun _ => Prog.Only.bind (.perform trivial) fun _ => ?_
  exact processed_payment_only event

private theorem filter_eq_nil {trace : List Call} {S : Effect → Prop} {f : Effect → Bool}
    (h : ∀ call ∈ trace, S call.1) (hf : ∀ e, S e → f e = false) :
    trace.filter (fun call => f call.1) = [] := by
  rw [List.filter_eq_nil_iff]
  intro call hc
  simp [hf _ (h call hc)]

theorem Effect.ofProcessing.inward {e : Effect} (h : e.ofProcessing) :
    e.settles = false ∧ e.posts = false := by
  cases e <;> first | exact ⟨rfl, rfl⟩ | exact h.elim

theorem Effect.ofGuard.inward {e : Effect} (h : e.ofGuard) :
    e.settles = false ∧ e.posts = false := by
  cases e <;> first | exact ⟨rfl, rfl⟩ | exact h.elim

variable {trace : List Call}

theorem loaded_inward {result : Except Exn Payment} (h : Exec (loaded_payment c event) trace result) :
    dealings trace = [] ∧ posts trace = [] := by
  have hall := Exec.of_only loaded_payment_only h
  exact ⟨filter_eq_nil hall fun _ he => he.inward.1, filter_eq_nil hall fun _ he => he.inward.2⟩

theorem validated_inward {guard : SSRFGuard} {url : String} {result : Except Exn Unit}
    (h : Exec (guard.validate_url url) trace result) :
    dealings trace = [] ∧ posts trace = [] := by
  have hall := Exec.of_only (validate_url_only guard url) h
  exact ⟨filter_eq_nil hall fun _ he => he.inward.1, filter_eq_nil hall fun _ he => he.inward.2⟩

end Alphabet

section Parts

variable {c : Container} {event : PaymentCreatedEvent} {msg : Message} {max_retries : ℤ}
variable {payment : Payment} {trace : List Call} {result : Except Exn Unit}

theorem in_container_eq : in_container c event msg max_retries =
    (loaded_payment c event).bind (send_or_retry c event msg max_retries) := by
  simp only [in_container, loaded_payment, Prog.bind_eq, Prog.bind_assoc]

theorem exec_in_container (h : Exec (in_container c event msg max_retries) trace result) :
    ∃ first loaded rest, trace = first ++ rest ∧ Exec (loaded_payment c event) first loaded ∧
      ((∃ payment, loaded = .ok payment ∧
          Exec (send_or_retry c event msg max_retries payment) rest result) ∨
        ∃ x, loaded = .error x ∧ rest = [] ∧ result = .error x) := by
  rw [in_container_eq, Exec.bind_iff] at h
  obtain ⟨first, loaded, rest, rfl, hl, hr⟩ := h
  refine ⟨first, loaded, rest, rfl, hl, ?_⟩
  cases loaded with
  | ok payment => exact .inl ⟨payment, rfl, hr⟩
  | error x => exact .inr ⟨x, rfl, hr⟩

theorem exec_post {request : HttpRequest} {result : Except Exn HttpResponse}
    (h : Exec (WebhookService.post payment request) trace result) :
    ∃ answer, trace = [⟨.post request, answer⟩] ∧
      result.bind (fun response => post_outcome payment (.ok response)) =
        post_outcome payment answer := by
  unfold WebhookService.post at h
  obtain ⟨first, answer, rest, rfl, hp, hr⟩ := Exec.tryCatch_iff.mp h
  obtain rfl := Exec.perform_iff.mp hp
  cases answer with
  | ok response =>
      obtain ⟨rfl, rfl⟩ := hr
      exact ⟨_, rfl, rfl⟩
  | error x =>
      refine ⟨.error x, ?_⟩
      cases x with
      | _ =>
          obtain ⟨rfl, rfl⟩ := Exec.ret_iff.mp hr
          exact ⟨rfl, rfl⟩

-- A delivery attempt: the guard, the id and the time of the webhook, one request.
theorem exec_send {service : WebhookService} (h : Exec (service.send payment) trace result) :
    ∃ first guarded rest, trace = first ++ rest ∧
      Exec (service.ssrf_guard.validate_url payment.webhook_url) first guarded ∧
      ((∃ x, guarded = .error x ∧ rest = [] ∧ result = .error x) ∨
        guarded = .ok () ∧ ((∃ x, result = .error x ∧ (rest = [⟨.uuid7, .error x⟩] ∨
            ∃ id, rest = [⟨.uuid7, .ok id⟩, ⟨.now, .error x⟩])) ∨
          ∃ id now answer, result = post_outcome payment answer ∧
            rest = [⟨.uuid7, .ok id⟩, ⟨.now, .ok now⟩,
              ⟨.post (service.request payment id (DateTime.timestamp now)), answer⟩])) := by
  unfold WebhookService.send at h
  simp only [Prog.bind_eq] at h
  obtain ⟨first, guarded, rest, rfl, hg, h₁⟩ := Exec.bind_iff.mp h
  refine ⟨first, guarded, rest, rfl, hg, ?_⟩
  cases guarded with
  | error x => exact .inl ⟨x, rfl, h₁⟩
  | ok _ =>
      obtain ⟨_, uuid, rest₁, rfl, hu, h₂⟩ := Exec.bind_iff.mp h₁
      obtain rfl := Exec.perform_iff.mp hu
      refine .inr ⟨rfl, ?_⟩
      cases uuid with
      | error x =>
          obtain ⟨rfl, rfl⟩ := h₂
          exact .inl ⟨x, rfl, .inl rfl⟩
      | ok id =>
          obtain ⟨_, time, rest₂, rfl, ht, h₃⟩ := Exec.bind_iff.mp h₂
          obtain rfl := Exec.perform_iff.mp ht
          cases time with
          | error x =>
              obtain ⟨rfl, rfl⟩ := h₃
              exact .inl ⟨x, rfl, .inr ⟨id, rfl⟩⟩
          | ok now =>
              obtain ⟨_, posted, rest₃, rfl, hp, h₄⟩ := Exec.bind_iff.mp h₃
              obtain ⟨answer, rfl, ho⟩ := exec_post hp
              refine .inr ⟨id, now, answer, ?_⟩
              cases posted with
              | error x =>
                  obtain ⟨rfl, rfl⟩ := h₄
                  exact ⟨ho, rfl⟩
              | ok response =>
                  rw [← ho]
                  simp only [Except.bind, post_outcome]
                  by_cases hcode : 400 ≤ response.status_code
                  all_goals
                    simp only [hcode, if_true, if_false] at h₄ ⊢
                    obtain ⟨rfl, rfl⟩ := Exec.ret_iff.mp h₄
                    exact ⟨rfl, rfl⟩

theorem exec_retry_or_dlq {reason : String}
    (h : Exec (_retry_or_dlq msg event reason max_retries) trace result) :
    (∃ x, get_retry_count (some msg.headers) = .error x ∧ trace = [] ∧
        result = .error (.python x)) ∨
      ∃ count, get_retry_count (some msg.headers) = .ok count ∧
        trace = [⟨retry_copy event count max_retries reason, result⟩] := by
  unfold _retry_or_dlq at h
  simp only [Prog.bind_eq, ofPython] at h
  obtain ⟨first, counted, rest, rfl, hc, h₁⟩ := Exec.bind_iff.mp h
  obtain ⟨rfl, rfl⟩ := Exec.ofExcept_iff.mp hc
  cases hcount : get_retry_count (some msg.headers) with
  | error x =>
      rw [hcount] at h₁
      obtain ⟨rfl, rfl⟩ := h₁
      exact .inl ⟨x, rfl, rfl, rfl⟩
  | ok count =>
      rw [hcount] at h₁
      refine .inr ⟨count, rfl, ?_⟩
      unfold retry_copy retry_exchange retry_routing_key retry_headers
      simp only [Except.mapError] at h₁
      split at h₁
      all_goals
        obtain rfl := Exec.perform_iff.mp h₁
        simp [*]

theorem exec_copy {count : ℤ} {reason : String}
    (hcount : get_retry_count (some msg.headers) = .ok count) :
    Exec (_retry_or_dlq msg event reason max_retries)
      [⟨retry_copy event count max_retries reason, .ok ()⟩] (.ok ()) := by
  refine Exec.bind_iff.mpr ⟨[], .ok count, _, rfl, ?_, ?_⟩
  · rw [hcount]
    exact .ret _
  · unfold retry_copy retry_exchange retry_routing_key retry_headers
    show Exec (ite _ _ _) _ _
    by_cases h : count + 1 > max_retries
    · rw [if_pos h]
      exact Exec.perform_iff.mpr (by simp [h])
    · rw [if_neg h]
      exact Exec.perform_iff.mpr (by simp [h])

theorem exec_send_or_retry
    (h : Exec (send_or_retry c event msg max_retries payment) trace result) :
    ∃ first sent rest, trace = first ++ rest ∧ Exec (c.webhook_service.send payment) first sent ∧
      ((∃ id reason code, sent = .error (.WebhookSendError id reason code) ∧
          Exec (_retry_or_dlq msg event reason max_retries) rest result) ∨
        (∀ id reason code, sent ≠ .error (.WebhookSendError id reason code)) ∧
          rest = [] ∧ result = sent) := by
  unfold send_or_retry at h
  obtain ⟨first, sent, rest, rfl, hs, hr⟩ := Exec.tryCatch_iff.mp h
  refine ⟨first, sent, rest, rfl, hs, ?_⟩
  cases sent with
  | ok _ => exact .inr ⟨by simp, hr⟩
  | error x =>
      cases x with
      | WebhookSendError id reason code => exact .inl ⟨id, reason, code, rfl, hr⟩
      | _ => exact .inr ⟨by simp, Exec.ret_iff.mp hr⟩

theorem exec_on_exception {x : Exn} (h : Exec (on_exception x) trace result) :
    trace = [] ∨ (∃ answer, trace = [⟨.reject false, answer⟩]) ∨
      ∃ answer, trace = [⟨.nack false, answer⟩] := by
  unfold on_exception at h
  split at h
  · exact .inr (.inl ⟨_, Exec.perform_iff.mp h⟩)
  · split at h
    · exact .inr (.inr ⟨_, Exec.perform_iff.mp h⟩)
    · exact .inl (Exec.ret_iff.mp h).1

-- A handling: what is done inside of the container, its closing, and either the
-- acknowledgement or what becomes of an exception.
theorem exec_handle_payment_created
    (h : Exec (_handle_payment_created c event msg max_retries) trace result) :
    ∃ inner done closed rest, trace = inner ++ ⟨.close, closed⟩ :: rest ∧
      Exec (in_container c event msg max_retries) inner done ∧
      ((closed = .ok () ∧ done = .ok () ∧ ∃ acked rest', rest = ⟨.ack, acked⟩ :: rest' ∧
          ((acked = .ok () ∧ rest' = [] ∧ result = .ok ()) ∨
            ∃ x, acked = .error x ∧ Exec (on_exception x) rest' result)) ∨
        ∃ x, (closed = .error x ∨ closed = .ok () ∧ done = .error x) ∧
          Exec (on_exception x) rest result) := by
  unfold _handle_payment_created at h
  simp only [Prog.bind_eq] at h
  obtain ⟨body, r, handler, rfl, hb, hr⟩ := Exec.tryCatch_iff.mp h
  obtain ⟨first, r₁, acked, rfl, hf, ha⟩ := Exec.bind_iff.mp hb
  obtain ⟨inner, done, last, closed, rfl, hi, hc, rfl⟩ := Exec.andThen_iff.mp hf
  obtain rfl := Exec.perform_iff.mp hc
  refine ⟨inner, done, closed, acked ++ handler, by simp, hi, ?_⟩
  cases closed with
  | error x =>
      obtain ⟨rfl, rfl⟩ := ha
      exact .inr ⟨x, .inl rfl, hr⟩
  | ok _ =>
      cases done with
      | error x =>
          obtain ⟨rfl, rfl⟩ := ha
          exact .inr ⟨x, .inr ⟨rfl, rfl⟩, hr⟩
      | ok _ =>
          obtain rfl := Exec.perform_iff.mp ha
          refine .inl ⟨rfl, rfl, r, handler, rfl, ?_⟩
          cases r with
          | ok _ => exact .inl ⟨rfl, hr⟩
          | error x => exact .inr ⟨x, rfl, hr⟩

end Parts

section Attempts

variable {c : Container} {event : PaymentCreatedEvent} {msg : Message} {max_retries : ℤ}
variable {payment : Payment} {trace : List Call}

-- A request is the only call of an attempt that leaves the consumer.
theorem sent_outward {service : WebhookService} {result : Except Exn Unit}
    (h : Exec (service.send payment) trace result) : dealings trace = [] ∧
      (posts trace = [] ∧ (∃ x, result = .error x) ∨ ∃ id now answer,
        posts trace = [⟨.post (service.request payment id now), answer⟩] ∧
          result = post_outcome payment answer) := by
  obtain ⟨first, guarded, rest, rfl, hg, hrest⟩ := exec_send h
  obtain ⟨hd, hp⟩ := validated_inward hg
  rw [dealings_append, posts_append, hd, hp]
  obtain ⟨x, rfl, rfl, rfl⟩ | ⟨rfl, ⟨x, rfl, rfl | ⟨id, rfl⟩⟩ | ⟨id, now, answer, rfl, rfl⟩⟩ :=
    hrest
  · exact ⟨rfl, .inl ⟨rfl, x, rfl⟩⟩
  · exact ⟨rfl, .inl ⟨rfl, x, rfl⟩⟩
  · exact ⟨rfl, .inl ⟨rfl, x, rfl⟩⟩
  · exact ⟨rfl, .inr ⟨id, DateTime.timestamp now, answer, rfl, rfl⟩⟩

-- What is done inside of the container: nothing is passed on, or one copy is.
inductive Inside (c : Container) (event : PaymentCreatedEvent) (msg : Message) (max_retries : ℤ) :
    List Call → Except Exn Unit → Prop where
  | unloaded {pre : List Call} (x : Exn) (hpre : Exec (loaded_payment c event) pre (.error x)) :
      Inside c event msg max_retries pre (.error x)
  | sent {pre sent : List Call} {payment : Payment} {result : Except Exn Unit}
      (hpre : Exec (loaded_payment c event) pre (.ok payment))
      (hsent : Exec (c.webhook_service.send payment) sent result)
      (hresult : ∀ id reason code, result ≠ .error (.WebhookSendError id reason code)) :
      Inside c event msg max_retries (pre ++ sent) result
  | uncounted {pre sent : List Call} {payment : Payment} {id : UUID} {reason : String}
      {code : Option ℕ} {x : PyError} (hpre : Exec (loaded_payment c event) pre (.ok payment))
      (hsent : Exec (c.webhook_service.send payment) sent
        (.error (.WebhookSendError id reason code)))
      (hcount : get_retry_count (some msg.headers) = .error x) :
      Inside c event msg max_retries (pre ++ sent) (.error (.python x))
  | copied {pre sent : List Call} {payment : Payment} {id : UUID} {reason : String}
      {code : Option ℕ} {count : ℤ} (hpre : Exec (loaded_payment c event) pre (.ok payment))
      (hsent : Exec (c.webhook_service.send payment) sent
        (.error (.WebhookSendError id reason code)))
      (hcount : get_retry_count (some msg.headers) = .ok count) (answer : Except Exn Unit) :
      Inside c event msg max_retries
        (pre ++ sent ++ [⟨retry_copy event count max_retries reason, answer⟩]) answer

theorem exec_inside {result : Except Exn Unit}
    (h : Exec (in_container c event msg max_retries) trace result) :
    Inside c event msg max_retries trace result := by
  obtain ⟨pre, loaded, rest, rfl, hpre, ⟨payment, rfl, hr⟩ | ⟨x, rfl, rfl, rfl⟩⟩ :=
    exec_in_container h
  · obtain ⟨first, sent, rest, rfl, hs, ⟨id, reason, code, rfl, hretry⟩ | ⟨hne, rfl, rfl⟩⟩ :=
      exec_send_or_retry hr
    · obtain ⟨x, hcount, rfl, rfl⟩ | ⟨count, hcount, rfl⟩ := exec_retry_or_dlq hretry
      · rw [List.append_nil]
        exact .uncounted hpre hs hcount
      · rw [← List.append_assoc]
        exact .copied hpre hs hcount result
    · rw [List.append_nil]
      exact .sent hpre hs hne
  · rw [List.append_nil]
    exact .unloaded x hpre

theorem dealings_pre_sent {pre sent : List Call} {result : Except Exn Unit}
    (hpre : Exec (loaded_payment c event) pre (.ok payment))
    (hsent : Exec (c.webhook_service.send payment) sent result) : dealings (pre ++ sent) = [] := by
  rw [dealings_append, (loaded_inward hpre).1, (sent_outward hsent).1]
  rfl

-- The run of a program on the same answers is the same.
theorem same_attempt {c : Container} {pre sent pre' sent' rest rest' : List Call}
    {payment' : Payment} {result result' : Except Exn Unit}
    (hpre : Exec (loaded_payment c event) pre (.ok payment))
    (hpre' : Exec (loaded_payment c event) pre' (.ok payment'))
    (hsent : Exec (c.webhook_service.send payment) sent result)
    (hsent' : Exec (c.webhook_service.send payment') sent' result')
    (he : pre ++ sent ++ rest = pre' ++ sent' ++ rest') : result = result' ∧ rest = rest' := by
  rw [List.append_assoc, List.append_assoc] at he
  obtain ⟨rfl, hp⟩ := Exec.prefix_unique hpre hpre' he
  cases hp
  obtain ⟨rfl, hr⟩ := Exec.prefix_unique hsent hsent' (List.append_cancel_left he)
  exact ⟨hr, List.append_cancel_left (List.append_cancel_left he)⟩

-- Inside of the container no message is settled.
theorem Inside.dealings {result : Except Exn Unit} (h : Inside c event msg max_retries trace result) :
    PaymentsProcessor.dealings trace = [] ∨ ∃ count reason,
      PaymentsProcessor.dealings trace = [⟨retry_copy event count max_retries reason, result⟩] := by
  cases h with
  | unloaded x hpre => exact .inl (loaded_inward hpre).1
  | sent hpre hsent _ => exact .inl (dealings_pre_sent hpre hsent)
  | uncounted hpre hsent _ => exact .inl (dealings_pre_sent hpre hsent)
  | copied hpre hsent hcount answer =>
      rw [dealings_append, dealings_pre_sent hpre hsent]
      exact .inr ⟨_, _, rfl⟩

end Attempts

end PaymentsProcessor
