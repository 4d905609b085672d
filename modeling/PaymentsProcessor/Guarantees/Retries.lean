import PaymentsProcessor.Guarantees.Delivery

namespace PaymentsProcessor

open Python Concurrency PaymentsConstants

-- The ways in which a webhook fails to be sent.
inductive FailsToSend (service : WebhookService) (payment : Payment) : List Call → Prop where
  | refused {trace : List Call} (url reason : String) (resolved_ip : Option String)
      (h : Exec (service.ssrf_guard.validate_url payment.webhook_url) trace
        (.error (.WebhookUrlNotAllowedError url reason resolved_ip))) :
      FailsToSend service payment trace
  | unreachable {first : List Call} (id : UUID) (now : DateTime) (name text : String)
      (h : Exec (service.ssrf_guard.validate_url payment.webhook_url) first (.ok ())) :
      FailsToSend service payment (first ++ [⟨.uuid7, .ok id⟩, ⟨.now, .ok now⟩,
        ⟨.post (service.request payment id (DateTime.timestamp now)),
          .error (.RequestError name text)⟩])
  | rejected {first : List Call} (id : UUID) (now : DateTime) (status : ℕ)
      (h : Exec (service.ssrf_guard.validate_url payment.webhook_url) first (.ok ()))
      (hstatus : 400 ≤ status) :
      FailsToSend service payment (first ++ [⟨.uuid7, .ok id⟩, ⟨.now, .ok now⟩,
        ⟨.post (service.request payment id (DateTime.timestamp now)), .ok ⟨status⟩⟩])

-- The guard has let the address pass in this attempt.
def GuardPasses (service : WebhookService) (payment : Payment) (sent : List Call) : Prop :=
  ∃ first, first <+: sent ∧
    Exec (service.ssrf_guard.validate_url payment.webhook_url) first (.ok ())

-- One copy of the message goes to the next retry queue, or else to the dead
-- letters with a reason, and then the message is acknowledged.
def RetriedOnce (d : Deployment) (event : PaymentCreatedEvent) (count max_retries : ℤ)
    (trace : List Call) : Prop :=
  ∃ exchange routing_key headers,
    dealings trace = [⟨.publish exchange routing_key (event_payload event.payment_id) headers,
      .ok ()⟩, ⟨.ack, .ok ()⟩] ∧
    if count + 1 ≤ max_retries then
      d.topology.route exchange routing_key = ["payments.retry." ++ toString (count + 1)]
    else exchange = "payments.dlx" ∧ routing_key = "payment.failed" ∧
      (headers.lookup "x-dlq-reason").isSome

section Retries

variable {d : Deployment} {event : PaymentCreatedEvent} {msg : Message} {count max_retries : ℤ}
variable {payment : Payment}

-- A refusal is the guard's own exception, every other failure a `WebhookSendError`.
theorem FailsToSend.exec {service : WebhookService} {sent : List Call}
    (h : FailsToSend service payment sent) :
    (∃ url reason resolved_ip, Exec (service.send payment) sent
        (.error (.WebhookUrlNotAllowedError url reason resolved_ip)) ∧
        ¬GuardPasses service payment sent) ∨
      ∃ id reason code, Exec (service.send payment) sent
        (.error (.WebhookSendError id reason code)) ∧ GuardPasses service payment sent := by
  cases h with
  | refused url reason resolved_ip h =>
      refine .inl ⟨url, reason, resolved_ip, ?_, ?_⟩
      · exact Exec.bind_iff.mpr ⟨sent, _, [], (List.append_nil _).symm, h, rfl, rfl⟩
      · rintro ⟨first, ⟨rest, rfl⟩, hfirst⟩
        obtain ⟨_, he⟩ := Exec.prefix_unique hfirst h
          (by simp : first ++ rest = (first ++ rest) ++ [])
        cases he
  | unreachable id now name text h =>
      exact .inr ⟨_, _, _, exec_attempt h id now _, _, List.prefix_append _ _, h⟩
  | rejected id now status h hstatus =>
      have hsent := exec_attempt h id now (.ok ⟨status⟩)
      rw [post_outcome, if_pos hstatus] at hsent
      exact .inr ⟨_, _, _, hsent, _, List.prefix_append _ _, h⟩

theorem copy_goes_on (h0 : 0 ≤ count) (hN : max_retries ≤ d.ttls.length) (reason : String) :
    if count + 1 ≤ max_retries then
      d.topology.route (retry_exchange count max_retries) (retry_routing_key count max_retries) =
        ["payments.retry." ++ toString (count + 1)]
    else retry_exchange count max_retries = "payments.dlx" ∧
      retry_routing_key count max_retries = "payment.failed" ∧
        ((retry_headers count max_retries reason).lookup "x-dlq-reason").isSome := by
  unfold retry_exchange retry_routing_key retry_headers
  by_cases h : count + 1 ≤ max_retries
  · rw [if_pos h, if_neg (by omega), if_neg (by omega)]
    exact route_retry (by omega) (by omega)
  · rw [if_neg h, if_pos (by omega), if_pos (by omega), if_pos (by omega)]
    exact ⟨rfl, rfl, by rfl⟩

-- A failed delivery is retried if the guard was not the one to refuse it, and
-- the request's container closes.
theorem failed_delivery_is_retried_iff {pre sent rest : List Call} {result : Except Exn Unit}
    (hcount : get_retry_count (some msg.headers) = .ok count) (h0 : 0 ≤ count)
    (hN : max_retries ≤ d.ttls.length)
    (hpre : Exec (loaded_payment d.container event) pre (.ok payment))
    (hsent : FailsToSend d.container.webhook_service payment sent)
    (hrun : Exec (_handle_payment_created d.container event msg max_retries)
      (pre ++ sent ++ rest) result)
    (hpublish : ∀ exchange key payload headers answer,
      ⟨.publish exchange key payload headers, answer⟩ ∈ rest → answer = .ok ())
    (hack : ∀ answer, ⟨.ack, answer⟩ ∈ rest → answer = .ok ()) :
    RetriedOnce d event count max_retries (pre ++ sent ++ rest) ↔
      GuardPasses d.container.webhook_service payment sent ∧ ⟨.close, .ok ()⟩ ∈ rest := by
  obtain ⟨inner, done, closed, last, he, hi, hlast⟩ := exec_handle_payment_created hrun
  have hnone : ∀ {result}, Exec (d.container.webhook_service.send payment) sent result →
      dealings (pre ++ sent ++ rest) = dealings rest := by
    intro result h
    rw [dealings_append, dealings_pre_sent hpre h, List.nil_append]
  cases exec_inside hi with
  | unloaded x hpre' =>
      rw [List.append_assoc] at he
      cases (Exec.prefix_unique hpre hpre' he).2
  | uncounted _ _ hcount' => cases hcount.symm.trans hcount'
  | sent hpre' hsent' hne =>
      obtain ⟨url, reason, ip, hs, hnot⟩ | ⟨id, reason, code, hs, _⟩ := hsent.exec
      · obtain ⟨rfl, rfl⟩ := same_attempt hpre hpre' hs hsent' he
        refine ⟨fun hr => ?_, fun hg => absurd hg.1 hnot⟩
        obtain ⟨_, _, _, hd, _⟩ := hr
        rw [hnone hs] at hd
        obtain ⟨_, h, _⟩ | ⟨x, _, hx⟩ := hlast
        · cases h
        · obtain rfl | ⟨_, rfl⟩ | ⟨_, rfl⟩ := exec_on_exception hx <;> cases hd
      · exact absurd (same_attempt hpre hpre' hs hsent' he).1.symm (hne _ _ _)
  | @copied pre' sent' _ _ _ _ _ hpre' hsent' hcount' answer =>
      cases hcount.symm.trans hcount'
      obtain ⟨url, reason, ip, hs, _⟩ | ⟨id, reason, code, hs, hguard⟩ := hsent.exec
      · rw [List.append_assoc (pre' ++ sent')] at he
        cases (same_attempt hpre hpre' hs hsent' he).1
      · rw [List.append_assoc (pre' ++ sent')] at he
        obtain ⟨hr, rfl⟩ := same_attempt hpre hpre' hs hsent' he
        cases hr
        obtain rfl := hpublish _ _ _ _ _ List.mem_cons_self
        unfold RetriedOnce
        rw [hnone hs]
        obtain ⟨rfl, _, acked, tail, rfl, htail⟩ | ⟨x, rfl | ⟨_, h⟩, hx⟩ := hlast
        · obtain rfl := hack acked (by simp)
          obtain ⟨_, rfl, _⟩ | ⟨x, h, _⟩ := htail
          · exact ⟨fun _ => ⟨hguard, by simp⟩, fun _ => ⟨_, _, _, rfl, copy_goes_on h0 hN _⟩⟩
          · cases h
        · constructor
          · rintro ⟨_, _, _, hd, _⟩
            obtain rfl | ⟨_, rfl⟩ | ⟨_, rfl⟩ := exec_on_exception hx <;> cases hd
          · rintro ⟨_, hclose⟩
            obtain rfl | ⟨_, rfl⟩ | ⟨_, rfl⟩ := exec_on_exception hx <;>
              simp [retry_copy] at hclose
        · cases h

end Retries

section Runs

variable {c : Container} {event : PaymentCreatedEvent} {msg : Message} {count max_retries : ℤ}
variable {payment : Payment} {pre sent : List Call}

theorem exec_copied {id : UUID} {reason : String} {code : Option ℕ}
    (hpre : Exec (loaded_payment c event) pre (.ok payment))
    (hsent : Exec (c.webhook_service.send payment) sent (.error (.WebhookSendError id reason code)))
    (hcount : get_retry_count (some msg.headers) = .ok count) :
    Exec (in_container c event msg max_retries)
      (pre ++ (sent ++ [⟨retry_copy event count max_retries reason, .ok ()⟩])) (.ok ()) := by
  rw [in_container_eq]
  refine Exec.bind_iff.mpr ⟨pre, .ok payment, _, rfl, hpre, ?_⟩
  exact Exec.tryCatch_iff.mpr ⟨sent, _, _, rfl, hsent, exec_copy hcount⟩

-- The guard's refusal leaves the container, and the message is refused.
theorem exec_refused {url reason : String} {resolved_ip : Option String}
    (hpre : Exec (loaded_payment c event) pre (.ok payment))
    (hsent : Exec (c.webhook_service.send payment) sent
      (.error (.WebhookUrlNotAllowedError url reason resolved_ip))) :
    Exec (_handle_payment_created c event msg max_retries)
      (pre ++ sent ++ [⟨.close, .ok ()⟩, ⟨.nack false, .ok ()⟩]) (.ok ()) := by
  have hinner : Exec (in_container c event msg max_retries) (pre ++ sent)
      (.error (.WebhookUrlNotAllowedError url reason resolved_ip)) := by
    rw [in_container_eq]
    refine Exec.bind_iff.mpr ⟨pre, .ok payment, sent, rfl, hpre, ?_⟩
    exact Exec.tryCatch_iff.mpr ⟨sent, _, [], (List.append_nil _).symm, hsent, .ret _⟩
  refine Exec.tryCatch_iff.mpr ⟨pre ++ sent ++ [⟨.close, .ok ()⟩],
    .error (.WebhookUrlNotAllowedError url reason resolved_ip), [⟨.nack false, .ok ()⟩], by simp, ?_,
    Exec.perform_iff.mpr rfl⟩
  refine Exec.bind_iff.mpr ⟨_, .error _, [], (List.append_nil _).symm, ?_, rfl, rfl⟩
  exact Exec.andThen_iff.mpr ⟨_, _, [⟨.close, .ok ()⟩], .ok (), rfl, hinner,
    Exec.perform_iff.mpr rfl, rfl⟩

end Runs

theorem unreachable_host_is_retried : ∃ trace, Exec (_handle_payment_created
    Scenario.deployment.container Scenario.event Scenario.message 3) trace (.ok ()) ∧
      RetriedOnce Scenario.deployment Scenario.event 0 3 trace := by
  obtain ⟨parsed, host, port, hparse, hport⟩ := Scenario.target
  have hguard := exec_looked_up hparse hport rfl (.ok Scenario.public_infos)
  rw [SSRFGuard.outcome, show SSRFGuard.check_infos Scenario.processed.webhook_url
    Scenario.public_infos = .ok () by decide +kernel] at hguard
  have hpre : Exec (loaded_payment Scenario.deployment.container Scenario.event) _
      (.ok Scenario.processed) := exec_loading (by decide)
  have hfails : FailsToSend Scenario.deployment.container.webhook_service Scenario.processed _ :=
    .unreachable 8 14 "ConnectTimeout" "" hguard
  obtain ⟨_, _, _, _, hnot⟩ | ⟨id, reason, code, hsent, hpasses⟩ := hfails.exec
  · exact absurd ⟨_, List.prefix_append _ _, hguard⟩ hnot
  · have hrun := exec_acknowledged (@exec_copied _ _ Scenario.message 0 3 _ _ _ _ _ _ hpre hsent rfl)
    rw [List.append_assoc, List.append_assoc, ← List.append_assoc] at hrun
    refine ⟨_, hrun, (failed_delivery_is_retried_iff rfl (by decide) (by decide) hpre hfails hrun
      ?_ ?_).mpr ⟨hpasses, by simp⟩⟩
    · intro exchange key payload headers answer hmem
      simp only [List.singleton_append, List.mem_cons, List.not_mem_nil] at hmem
      obtain h | h | h | h := hmem <;> cases h
      rfl
    · intro answer hmem
      simp only [List.singleton_append, List.mem_cons, List.not_mem_nil] at hmem
      obtain h | h | h | h := hmem <;> cases h
      rfl

-- The host's name does not resolve when the webhook is sent.
theorem unresolved_host_is_not_retried : ∃ pre sent,
    Exec (loaded_payment Scenario.deployment.container Scenario.event) pre
      (.ok Scenario.processed) ∧
    FailsToSend Scenario.deployment.container.webhook_service Scenario.processed sent ∧
    Exec (_handle_payment_created Scenario.deployment.container Scenario.event Scenario.message 3)
      (pre ++ sent ++ [⟨.close, .ok ()⟩, ⟨.nack false, .ok ()⟩]) (.ok ()) ∧
    ¬RetriedOnce Scenario.deployment Scenario.event 0 3
      (pre ++ sent ++ [⟨.close, .ok ()⟩, ⟨.nack false, .ok ()⟩]) := by
  obtain ⟨parsed, host, port, hparse, hport⟩ := Scenario.target
  have hrefused := exec_looked_up hparse hport rfl (.error (.OSError "Name or service not known"))
  have hpre : Exec (loaded_payment Scenario.deployment.container Scenario.event) _
      (.ok Scenario.processed) := exec_loading (by decide)
  have hfails : FailsToSend Scenario.deployment.container.webhook_service Scenario.processed _ :=
    .refused _ _ _ hrefused
  obtain ⟨url, reason, ip, hsent, _⟩ | ⟨_, _, _, _, first, hstarts, hpass⟩ := hfails.exec
  · refine ⟨_, _, hpre, hfails, exec_refused hpre hsent, ?_⟩
    rintro ⟨exchange, key, headers, hd, _⟩
    rw [dealings_append, dealings_pre_sent hpre hsent] at hd
    cases hd
  · obtain ⟨rest, hrest⟩ := hstarts
    cases (Exec.prefix_unique hpass hrefused (by rw [hrest, List.append_nil])).2

end PaymentsProcessor
