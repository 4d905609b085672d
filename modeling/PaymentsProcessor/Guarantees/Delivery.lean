import PaymentsProcessor.Consumer.Handling
import PaymentsProcessor.Guarantees.Payments
import PaymentsProcessor.Messaging.Topology

namespace PaymentsProcessor

open Python Concurrency PaymentsConstants

section Acknowledged

variable {c : Container} {event : PaymentCreatedEvent} {msg : Message} {max_retries : ℤ}
variable {trace : List Call} {result : Except Exn Unit}

-- One request was made to the payment's address, and answered with a 2xx status.
def Delivered (c : Container) (event : PaymentCreatedEvent) (trace : List Call) : Prop :=
  ∃ pre payment request status, pre <+: trace ∧
    Exec (loaded_payment c event) pre (.ok payment) ∧
    posts trace = [⟨.post request, .ok ⟨status⟩⟩] ∧ request.url = payment.webhook_url ∧
    200 ≤ status ∧ status < 300

-- A handling that acknowledges its message without a copy has made one request,
-- whose answer is no error.
theorem acknowledged_handling
    (h : Exec (_handle_payment_created c event msg max_retries) trace result)
    (hack : ∃ answer, ⟨.ack, answer⟩ ∈ trace)
    (hcopy : ∀ exchange key payload headers answer,
      ⟨.publish exchange key payload headers, answer⟩ ∉ trace) :
    ∃ pre payment id now status, pre <+: trace ∧
      Exec (loaded_payment c event) pre (.ok payment) ∧ status < 400 ∧
      posts trace = [⟨.post (c.webhook_service.request payment id now), .ok ⟨status⟩⟩] := by
  obtain ⟨inner, done, closed, rest, rfl, hi, hrest⟩ := exec_handle_payment_created h
  have hinside := exec_inside hi
  -- the acknowledgement can only be the one after the container
  obtain ⟨answer, hack⟩ := hack
  have hnot : ⟨.ack, answer⟩ ∉ inner := by
    intro hmem
    have hd : ⟨.ack, answer⟩ ∈ dealings inner := List.mem_filter.mpr ⟨hmem, rfl⟩
    obtain he | ⟨count, reason, he⟩ := hinside.dealings
    · rw [he] at hd
      cases hd
    · rw [he, List.mem_singleton] at hd
      cases hd
  have hrest_ack : ⟨.ack, answer⟩ ∈ rest := by simpa [hnot] using hack
  have hquiet : ∀ {x : Exn} {last : List Call}, Exec (on_exception x) last result →
      posts last = [] ∧ ⟨.ack, answer⟩ ∉ last := by
    intro x last hx
    obtain rfl | ⟨_, rfl⟩ | ⟨_, rfl⟩ := exec_on_exception hx
    all_goals exact ⟨rfl, by simp⟩
  obtain ⟨rfl, rfl, acked, last, rfl, hlast⟩ | ⟨x, _, hx⟩ := hrest
  · have hposts : posts (inner ++ ⟨.close, .ok ()⟩ :: ⟨.ack, acked⟩ :: last) = posts inner := by
      have hnil : posts last = [] := by
        obtain ⟨_, rfl, _⟩ | ⟨x, _, hx⟩ := hlast
        · rfl
        · exact (hquiet hx).1
      rw [posts_append]
      simpa [posts, Effect.posts] using hnil
    cases hinside with
    | @sent pre sent payment _ hpre hsent hne =>
        obtain ⟨_, ⟨_, x, he⟩ | ⟨id, now, posted, hp, ho⟩⟩ := sent_outward hsent
        · cases he
        · refine ⟨pre, payment, id, now, ?_⟩
          rw [hposts, posts_append, (loaded_inward hpre).2, hp]
          cases posted with
          | error x => cases x <;> cases ho
          | ok response =>
              refine ⟨response.status_code, by simp [List.append_assoc], hpre, ?_, rfl⟩
              by_contra hcode
              simp [post_outcome, Nat.le_of_not_lt hcode] at ho
    | copied hpre hsent hcount _ =>
        exact absurd (List.mem_append_left _ (List.mem_append_right _ (List.mem_singleton_self _)))
          (hcopy _ _ _ _ _)
  · exact absurd hrest_ack (hquiet hx).2

-- The answers that are neither an error nor a delivery are the informational
-- ones and the redirects.
theorem acknowledged_is_delivered_iff
    (h : Exec (_handle_payment_created c event msg max_retries) trace result)
    (hack : ∃ answer, ⟨.ack, answer⟩ ∈ trace)
    (hcopy : ∀ exchange key payload headers answer,
      ⟨.publish exchange key payload headers, answer⟩ ∉ trace) :
    Delivered c event trace ↔ ∀ request status, ⟨.post request, .ok ⟨status⟩⟩ ∈ trace →
      ¬(status < 200 ∨ 300 ≤ status ∧ status < 400) := by
  constructor
  · rintro ⟨_, _, posted, code, _, _, hposts, _, hlo, hhi⟩ request status hmem
    have hp : ⟨.post request, .ok ⟨status⟩⟩ ∈ posts trace := List.mem_filter.mpr ⟨hmem, rfl⟩
    rw [hposts, List.mem_singleton] at hp
    cases hp
    omega
  · intro hall
    obtain ⟨pre, payment, id, now, status, hpre, hload, hstatus, hposts⟩ :=
      acknowledged_handling h hack hcopy
    refine ⟨pre, payment, _, status, hpre, hload, hposts, rfl, ?_⟩
    have hmem : ⟨.post (c.webhook_service.request payment id now), .ok ⟨status⟩⟩ ∈ trace := by
      have hp := List.mem_singleton_self
        (⟨.post (c.webhook_service.request payment id now), .ok ⟨status⟩⟩ : Call)
      rw [← hposts] at hp
      exact (List.mem_filter.mp hp).1
    have := hall _ _ hmem
    omega

end Acknowledged

section Runs

variable {c : Container} {event : PaymentCreatedEvent} {msg : Message} {max_retries : ℤ}

-- The calls that load a payment which has its final status already.
def loading (payment_id : UUID) (payment : Payment) : List Call :=
  [⟨.container_get .AsyncSession, .ok ()⟩, ⟨.container_get .PaymentService, .ok ()⟩,
   ⟨.container_get .ProcessingService, .ok ()⟩, ⟨.container_get .WebhookService, .ok ()⟩,
   ⟨.execute (.get_by_id payment_id), .ok (some payment)⟩]

theorem exec_loading {payment : Payment} (hstatus : payment.status ≠ .PENDING) :
    Exec (loaded_payment c event) (loading event.payment_id payment) (.ok payment) := by
  iterate 5 apply Exec.call
  show Exec (if payment.status = .PENDING then _ else _) _ _
  rw [if_neg hstatus]
  exact .ret _

-- What the guard makes of the resolver's answer.
def SSRFGuard.outcome (url : String) : Except Exn (List AddrInfo) → Except Exn Unit
  | .ok infos => SSRFGuard.check_infos url infos
  | .error e =>
      if e.isinstance .OSError then
        .error (.WebhookUrlNotAllowedError url "resolution_failed" none)
      else .error e

theorem exec_looked_up {guard : SSRFGuard} {url host : String} {parsed : ParsedUrl}
    {port : Option ℕ} (hparse : guard.parse_host url = .ok (parsed, host))
    (hport : parsed.port = .ok port) (hprivate : guard.allow_private_hosts = false)
    (answer : Except Exn (List AddrInfo)) :
    Exec (guard.validate_url url) [⟨.getaddrinfo host port, answer⟩]
      (SSRFGuard.outcome url answer) := by
  unfold SSRFGuard.validate_url SSRFGuard.resolve
  simp only [hparse, hport, hprivate, Prog.ofExcept, ofPython, Except.mapError, Prog.bind_eq,
    Prog.ret_ok_bind, Bool.false_eq_true, if_false]
  apply Exec.call
  cases answer with
  | ok infos => exact .ret _
  | error x =>
      simp only [SSRFGuard.outcome]
      show Exec ((ite _ _ _ : Async _).bind _) _ _
      split <;> exact .ret _

-- An attempt whose request is answered, or fails.
theorem exec_attempt {service : WebhookService} {payment : Payment} {first : List Call}
    (hguard : Exec (service.ssrf_guard.validate_url payment.webhook_url) first (.ok ()))
    (id : UUID) (now : DateTime) (answer : Except Exn HttpResponse) :
    Exec (service.send payment) (first ++ [⟨.uuid7, .ok id⟩, ⟨.now, .ok now⟩,
      ⟨.post (service.request payment id (DateTime.timestamp now)), answer⟩])
      (post_outcome payment answer) := by
  unfold WebhookService.send
  refine Exec.bind_iff.mpr ⟨first, .ok (), _, rfl, hguard, ?_⟩
  apply Exec.call
  apply Exec.call
  unfold WebhookService.post
  apply Exec.call
  cases answer with
  | ok response =>
      show Exec (if 400 ≤ response.status_code then _ else _) [] (ite _ _ _)
      split <;> exact .ret _
  | error x => cases x <;> exact .ret _

theorem exec_delivered {payment : Payment} {pre sent : List Call}
    (hpre : Exec (loaded_payment c event) pre (.ok payment))
    (hsent : Exec (c.webhook_service.send payment) sent (.ok ())) :
    Exec (in_container c event msg max_retries) (pre ++ sent) (.ok ()) := by
  rw [in_container_eq]
  refine Exec.bind_iff.mpr ⟨pre, .ok payment, sent, rfl, hpre, ?_⟩
  exact Exec.tryCatch_iff.mpr ⟨sent, .ok (), [], by simp, hsent, rfl, rfl⟩

theorem exec_acknowledged {inner : List Call}
    (h : Exec (in_container c event msg max_retries) inner (.ok ())) :
    Exec (_handle_payment_created c event msg max_retries)
      (inner ++ [⟨.close, .ok ()⟩, ⟨.ack, .ok ()⟩]) (.ok ()) := by
  refine Exec.tryCatch_iff.mpr ⟨_, .ok (), [], (List.append_nil _).symm, ?_, rfl, rfl⟩
  refine Exec.bind_iff.mpr ⟨inner ++ [⟨.close, .ok ()⟩], .ok (), [⟨.ack, .ok ()⟩], by simp, ?_,
    Exec.perform_iff.mpr rfl⟩
  exact Exec.andThen_iff.mpr ⟨inner, .ok (), [⟨.close, .ok ()⟩], .ok (), rfl, h,
    Exec.perform_iff.mpr rfl, rfl⟩

end Runs

namespace Scenario

def event : PaymentCreatedEvent := ⟨7⟩

def message : Message := ⟨event_payload 7, []⟩

def processed : Payment where
  id := 7
  amount := ⟨100000⟩
  currency := .RUB
  description := none
  meta_ := none
  status := .SUCCEEDED
  idempotency_key := "order-1"
  webhook_url := "https://shop.example/hook"
  processed_at := some 13
  created_at := 5
  updated_at := some 13

theorem target_of {guard : SSRFGuard} {url : String}
    (h : (guard.parse_host url).toOption.any fun x => x.1.port.isOk) :
    ∃ parsed host port, guard.parse_host url = .ok (parsed, host) ∧ parsed.port = .ok port := by
  cases hparse : guard.parse_host url with
  | error x =>
      rw [hparse] at h
      cases h
  | ok x =>
      rw [hparse] at h
      cases hport : x.1.port with
      | error e => simp [Except.toOption, Except.isOk, Except.toBool, hport] at h
      | ok port => exact ⟨x.1, x.2, port, rfl, hport⟩

theorem target : ∃ parsed host port, deployment.container.ssrf_guard.parse_host
    processed.webhook_url = .ok (parsed, host) ∧ parsed.port = .ok port :=
  target_of (by decide +kernel)

-- A handling whose request is answered with this status.
theorem answered (status : ℕ) (hstatus : status < 400) : ∃ trace, Exec (_handle_payment_created
    deployment.container event message 3) trace (.ok ()) ∧ (∃ answer, ⟨.ack, answer⟩ ∈ trace) ∧
      (∀ exchange key payload headers answer,
        ⟨.publish exchange key payload headers, answer⟩ ∉ trace) ∧
      ∃ request, posts trace = [⟨.post request, .ok ⟨status⟩⟩] := by
  obtain ⟨parsed, host, port, hparse, hport⟩ := target
  have hguard := exec_looked_up hparse hport rfl (.ok public_infos)
  have hcheck : SSRFGuard.check_infos processed.webhook_url public_infos = .ok () := by
    decide +kernel
  rw [SSRFGuard.outcome, hcheck] at hguard
  have hsent := @exec_attempt deployment.container.webhook_service processed _ hguard 8 14
    (.ok ⟨status⟩)
  rw [post_outcome, if_neg (by simpa using hstatus)] at hsent
  refine ⟨_, exec_acknowledged (exec_delivered (exec_loading (by decide)) hsent), ?_, ?_, ?_⟩
  · exact ⟨.ok (), by simp⟩
  · simp [loading]
  · exact ⟨_, rfl⟩

end Scenario

theorem delivered_when_answered_200 : ∃ trace, Exec (_handle_payment_created
    Scenario.deployment.container Scenario.event Scenario.message 3) trace (.ok ()) ∧
      Delivered Scenario.deployment.container Scenario.event trace := by
  obtain ⟨trace, h, hack, hcopy, request, hposts⟩ := Scenario.answered 200 (by decide)
  refine ⟨trace, h, (acknowledged_is_delivered_iff h hack hcopy).mpr ?_⟩
  intro request' status hmem
  have hp : ⟨.post request', .ok ⟨status⟩⟩ ∈ posts trace := List.mem_filter.mpr ⟨hmem, rfl⟩
  rw [hposts, List.mem_singleton] at hp
  cases hp
  decide

theorem redirect_is_acknowledged : ∃ trace, Exec (_handle_payment_created
    Scenario.deployment.container Scenario.event Scenario.message 3) trace (.ok ()) ∧
      (∃ answer, ⟨.ack, answer⟩ ∈ trace) ∧
      (∀ exchange key payload headers answer,
        ⟨.publish exchange key payload headers, answer⟩ ∉ trace) ∧
      ¬Delivered Scenario.deployment.container Scenario.event trace := by
  obtain ⟨trace, h, hack, hcopy, request, hposts⟩ := Scenario.answered 302 (by decide)
  refine ⟨trace, h, hack, hcopy, ?_⟩
  rintro ⟨_, _, request', status, _, _, hposts', _, _, hhi⟩
  rw [hposts, List.singleton_inj] at hposts'
  cases hposts'
  omega

end PaymentsProcessor
