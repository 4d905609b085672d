import Mathlib.Algebra.Order.BigOperators.Group.List
import PaymentsProcessor.Guarantees.Retries
import PaymentsProcessor.System.RetryChain

namespace PaymentsProcessor

open Python Concurrency PaymentsConstants

-- The calls by which a message is passed on and settled when it has failed for this
-- time: one copy of the event goes to the retry queue of that number, and after the
-- last of them to the dead letters with the reason of the failure.
def PassesOn (d : Deployment) (id : UUID) (failure : ℤ) (reason : String)
    (calls : List Call) : Prop :=
  ∃ exchange routing_key payload headers,
    calls = [⟨.publish exchange routing_key payload headers, .ok ()⟩, ⟨.ack, .ok ()⟩] ∧
    PaymentCreatedEvent.decode payload = some ⟨id⟩ ∧
    if failure ≤ d.max_retries then
      d.topology.route exchange routing_key = ["payments.retry." ++ toString failure] ∧
        headers.lookup "x-retry-count" = some (.int failure)
    else exchange = "payments.dlx" ∧
      d.topology.route exchange routing_key = ["payments.dlq"] ∧
        headers.lookup "x-retry-count" = some (.int d.max_retries) ∧
          headers.lookup "x-dlq-reason" = some (.str reason)

section Chains

variable {d : Deployment} {id : UUID} {k : ℕ} {h : Delivery} {reason : String}

theorem copy_passes_on {event : PaymentCreatedEvent} (hevent : event.payment_id = id)
    (hk : (k : ℤ) ≤ d.max_retries) (hN : d.max_retries ≤ d.ttls.length) :
    PassesOn d id (k + 1) reason
      [⟨retry_copy event k d.max_retries reason, .ok ()⟩, ⟨.ack, .ok ()⟩] := by
  have hdecode : PaymentCreatedEvent.decode (event_payload event.payment_id) = some ⟨id⟩ := by
    rw [← hevent]
    exact decode_event_payload event.payment_id
  refine ⟨_, _, _, _, rfl, hdecode, ?_⟩
  unfold retry_exchange retry_routing_key retry_headers Deployment.topology
  by_cases hlast : (k : ℤ) + 1 ≤ d.max_retries
  · rw [if_pos hlast, if_neg (by omega), if_neg (by omega), if_neg (by omega)]
    exact ⟨route_retry (by omega) (by omega), rfl⟩
  · have hcount : (k : ℤ) = d.max_retries := by omega
    rw [if_neg hlast, if_pos (by omega), if_pos (by omega), if_pos (by omega), ← hcount]
    exact ⟨rfl, route_failed, rfl, rfl⟩

theorem loaded_calls {c : Container} {event : PaymentCreatedEvent} {result : Except Exn Payment} :
    ¬Exec (loaded_payment c event) [] result := by
  intro h
  obtain ⟨_, _, h, _⟩ := Exec.call_iff.mp h
  cases h

-- A failed delivery passes its message on when its handling is over.
theorem Delivery.Belongs.passes_on (hb : h.Belongs d.container id k)
    (hk : (k : ℤ) ≤ d.max_retries) (hN : d.max_retries ≤ d.ttls.length)
    (hf : h.Fails d.container reason) : ∃ calls, PassesOn d id (k + 1) reason calls ∧
      dealings h.calls <+: calls ∧
        ∀ result, Exec (_entrypoint d.container h.event h.msg) h.calls result →
          dealings h.calls = calls := by
  obtain ⟨_, _, hf⟩ := hf
  rcases hb.handled with hnil | ⟨rest, hh⟩
  · obtain ⟨pre, payment, sent, hstarts, hpre, _⟩ := hf
    rw [hnil, List.prefix_nil, List.append_eq_nil_iff] at hstarts
    rw [hstarts.1] at hpre
    exact absurd hpre loaded_calls
  · obtain ⟨_, ⟨hok, _⟩ | ⟨_, _, _, herror, hd⟩⟩ := hh.settled hb.count
    · cases hok.unique hf.extend
    · cases herror.unique hf.extend
      refine ⟨_, copy_passes_on hb.event hk hN, ?_, fun result hrun => ?_⟩
      · rw [dealings_append] at hd
        exact ⟨_, hd⟩
      · obtain ⟨result', hrun'⟩ := hh.run
        obtain ⟨hcalls, _⟩ := Exec.prefix_unique hrun hrun' (List.append_nil _).symm
        rw [hcalls]
        exact hd

-- What is delivered is not copied.
theorem Delivery.Belongs.delivered (hb : h.Belongs d.container id k)
    (hs : h.Succeeds d.container) : dealings h.calls <+: [⟨.ack, .ok ()⟩] := by
  rcases hb.handled with hnil | ⟨rest, hh⟩
  · rw [hnil]
    exact List.nil_prefix
  · obtain ⟨_, ⟨_, hd⟩ | ⟨_, _, _, herror, _⟩⟩ := hh.settled hb.count
    · rw [dealings_append] at hd
      exact ⟨_, hd⟩
    · cases herror.unique hs.extend

theorem Delivery.PassedOn.fails (hp : h.PassedOn d k) (hb : h.Belongs d.container id k) :
    ∃ reason, h.Fails d.container reason := by
  obtain ⟨reason, more, hp⟩ := hp
  rcases hb.handled with hnil | ⟨rest, hh⟩
  · rw [hnil] at hp
    cases hp
  · obtain ⟨_, ⟨_, hd⟩ | ⟨id', reason', code, herror, _⟩⟩ := hh.settled hb.count
    · rw [dealings_append, hp] at hd
      cases hd
    · obtain ⟨pre, payment, sent, hstarts, hpre, hsent⟩ := herror
      rcases List.prefix_or_prefix_of_prefix hstarts (List.prefix_append _ _) with hle | hle
      · exact ⟨reason', id', code, pre, payment, sent, hle, hpre, hsent⟩
      · have hnone : dealings h.calls <+: dealings (pre ++ sent) := hle.filter _
        rw [dealings_pre_sent hpre hsent, List.prefix_nil, hp] at hnone
        cases hnone

theorem Delivery.Belongs.posts_le (hb : h.Belongs d.container id k) :
    (posts h.calls).length ≤ 1 := by
  rcases hb.handled with hnil | ⟨rest, hh⟩
  · rw [hnil]
    exact Nat.zero_le 1
  · have hstarts : posts h.calls <+: posts (h.calls ++ rest) := (List.prefix_append _ _).filter _
    exact hstarts.length_le.trans (hh.settled hb.count).1

-- A message is retried as often as it is configured, its event is in one place until
-- it is delivered or given up, and every failed delivery makes one copy of it.
theorem retries_keep_one_copy {m : Message} {s : Chain} (h0 : 0 ≤ d.max_retries)
    (hN : d.max_retries ≤ d.ttls.length) (ht : m.tells id)
    (hcount : m.headers.lookup RETRY_COUNT_HEADER = none)
    (hdeath : m.headers.lookup X_DEATH_HEADER = none)
    (hrun : Relation.ReflTransGen (Chain.Step d) (Chain.start m) s) :
    (∀ (k : ℕ) (h : Delivery), s.deliveries[k]? = some h →
      (k : ℤ) ≤ d.max_retries ∧ h.event.payment_id = id ∧
        (∀ (i : ℕ) (g : Delivery), i < k → s.deliveries[i]? = some g →
          ∃ reason, g.Fails d.container reason) ∧
        (h.Succeeds d.container → dealings h.calls <+: [⟨.ack, .ok ()⟩]) ∧
        ∀ reason, h.Fails d.container reason → ∃ calls, PassesOn d id (k + 1) reason calls ∧
          dealings h.calls <+: calls ∧
            ∀ result, Exec (_entrypoint d.container h.event h.msg) h.calls result →
              dealings h.calls = calls) ∧
      (s.Ended → ∀ place, ¬s.Live place) ∧ (¬s.Ended → ∃! place, s.Live place) ∧
      ((s.deliveries.map fun h => (posts h.calls).length).sum : ℤ) ≤ d.max_retries + 1 := by
  obtain ⟨phase, _, hw, hm⟩ := Chain.run_matches (Chain.start_matches ht hcount hdeath) h0 hN hrun
  have hattempts := hw.attempts_le h0
  refine ⟨fun k h hh => ?_, fun hended place => ?_, fun hended => ?_, ?_⟩
  · have hb := (hm.deliveries k h hh).1
    have hlt : k < phase.attempts d.max_retries := by
      rw [← hm.attempts]
      exact (List.getElem?_eq_some_iff.mp hh).1
    have hk : (k : ℤ) ≤ d.max_retries := by omega
    refine ⟨hk, hb.event, fun i g hi hg => ?_, hb.delivered, fun reason => hb.passes_on hk hN⟩
    rcases hm.latest hg with ⟨_, hp⟩ | ⟨rfl, _⟩ | ⟨rfl, _⟩
    · exact hp.fails (hm.deliveries i g hg).1
    · exact absurd hlt (Nat.not_lt.mpr hi)
    · exact absurd hlt (Nat.not_lt.mpr hi)
  · rw [hm.live_iff, hm.ended_iff.mp hended]
    exact nofun
  · obtain ⟨place, hplace⟩ := Option.ne_none_iff_exists'.mp fun hnone =>
      hended (hm.ended_iff.mpr hnone)
    refine ⟨place, (hm.live_iff place).mpr hplace, fun other hother => ?_⟩
    have hother := (hm.live_iff other).mp hother
    rw [hplace] at hother
    exact (Option.some.inj hother).symm
  · have hsum : (s.deliveries.map fun h => (posts h.calls).length).sum ≤ s.deliveries.length := by
      refine (List.sum_le_card_nsmul _ 1 ?_).trans ?_
      · intro n hn
        obtain ⟨h, hmem, rfl⟩ := List.mem_map.mp hn
        obtain ⟨k, hh⟩ := List.getElem?_of_mem hmem
        exact (hm.deliveries k h hh).1.posts_le
      · simp
    rw [hm.attempts] at hsum
    omega

end Chains

section Runs

variable {d : Deployment} {event : PaymentCreatedEvent} {msg : Message}

-- A handling makes its calls one after the other.
theorem run_handling {s : Chain} {index : ℕ} {made rest : List Call}
    (hh : s.deliveries[index]? = some ⟨event, msg, made⟩)
    (hc : Handled d.container event msg (made ++ rest)) : ∃ queues,
      Relation.ReflTransGen (Chain.Step d) s
        ⟨queues, s.deliveries.set index ⟨event, msg, made ++ rest⟩⟩ := by
  induction rest generalizing s made with
  | nil =>
      obtain ⟨hlt, he⟩ := List.getElem?_eq_some_iff.mp hh
      rw [List.append_nil, ← he, List.set_getElem_self]
      exact ⟨s.queues, .refl⟩
  | cons call rest ih =>
      have hstep := Chain.Step.call hh hc
      have hlt := (List.getElem?_eq_some_iff.mp hh).1
      obtain ⟨queues, hrun⟩ := ih (s := ⟨moves d call s.queues, s.deliveries.set index
        ⟨event, msg, made ++ [call]⟩⟩) (List.getElem?_set_self hlt) (by simpa using hc)
      refine ⟨queues, .head hstep ?_⟩
      simpa [List.set_set] using hrun

-- A failing handling of which nothing else fails.
theorem handled_copied {c : Container} {count : ℤ} {payment : Payment} {pre sent : List Call}
    {id : UUID} {reason : String} {code : Option ℕ}
    (hpre : Exec (loaded_payment c event) pre (.ok payment))
    (hsent : Exec (c.webhook_service.send payment) sent (.error (.WebhookSendError id reason code)))
    (hcount : get_retry_count (some msg.headers) = .ok count)
    (hclose : ∀ answer, ⟨.close, answer⟩ ∉ pre ++ sent) :
    Handled c event msg (pre ++ sent ++ [⟨retry_copy event count
      c.consumer_config.CONSUMER_MAX_RETRIES reason, .ok ()⟩, ⟨.close, .ok ()⟩, ⟨.ack, .ok ()⟩]) where
  run := by
    have hrun : Exec (_entrypoint c event msg) _ (.ok ()) :=
      exec_acknowledged (exec_copied hpre hsent hcount)
    exact ⟨.ok (), by simpa using hrun⟩
  sends := .inr ⟨id, reason, code, .intro hpre hsent⟩
  settles call hcall hs := by
    have hmem : call ∈ dealings (pre ++ sent ++ [⟨retry_copy event count
        c.consumer_config.CONSUMER_MAX_RETRIES reason, .ok ()⟩, ⟨.close, .ok ()⟩,
          ⟨.ack, .ok ()⟩]) := List.mem_filter.mpr ⟨hcall, hs⟩
    rw [dealings_append, dealings_pre_sent hpre hsent] at hmem
    rcases List.mem_cons.mp hmem with rfl | hmem
    · rfl
    · obtain rfl := List.mem_singleton.mp hmem
      rfl
  closes answer hmem := by
    rcases List.mem_append.mp hmem with hmem | hmem
    · exact absurd hmem (hclose answer)
    · simp only [retry_copy, List.mem_cons, List.not_mem_nil, or_false] at hmem
      obtain h | h | h := hmem <;> cases h
      rfl

end Runs

-- The shop's host does not answer.
theorem Scenario.unanswered : ∃ trace,
    Handled Scenario.deployment.container Scenario.event Scenario.message trace ∧
      Sends Scenario.deployment.container Scenario.event trace
        (.error (.WebhookSendError 7 "ConnectTimeout" none)) := by
  obtain ⟨parsed, host, port, hparse, hport⟩ := Scenario.target
  have hguard := exec_looked_up hparse hport rfl (.ok Scenario.public_infos)
  rw [SSRFGuard.outcome, show SSRFGuard.check_infos Scenario.processed.webhook_url
    Scenario.public_infos = .ok () by decide +kernel] at hguard
  have hpre : Exec (loaded_payment Scenario.deployment.container Scenario.event) _
      (.ok Scenario.processed) := exec_loading (by decide)
  have hsent := @exec_attempt Scenario.deployment.container.webhook_service Scenario.processed _
    hguard 8 14 (.error (.RequestError "ConnectTimeout" ""))
  have hcount : get_retry_count (some Scenario.message.headers) = .ok 0 := rfl
  exact ⟨_, handled_copied hpre hsent hcount (by simp [loading]), .intro hpre hsent⟩

-- The message goes to the first retry queue.
theorem first_failure_goes_to_first_queue : ∃ s h calls,
    Relation.ReflTransGen (Chain.Step Scenario.deployment) (Chain.start Scenario.message) s ∧
      s.deliveries = [h] ∧ h.Fails Scenario.deployment.container "ConnectTimeout" ∧
        PassesOn Scenario.deployment 7 1 "ConnectTimeout" calls ∧ dealings h.calls = calls := by
  obtain ⟨trace, hhandled, hsends⟩ := Scenario.unanswered
  have htells : Scenario.message.tells 7 := decode_event_payload 7
  have hmessage : ((Chain.start Scenario.message).queues QUEUE_PAYMENTS_NEW)[0]? =
    some Scenario.message := rfl
  have hdelivered := Chain.Step.deliver (d := Scenario.deployment) hmessage htells
  have hfirst : ([⟨Scenario.event, Scenario.message, []⟩] : List Delivery)[0]? =
    some ⟨Scenario.event, Scenario.message, []⟩ := rfl
  obtain ⟨queues, hrun⟩ := run_handling (s := ⟨_, [⟨Scenario.event, Scenario.message, []⟩]⟩) hfirst
    hhandled
  have hrun := Relation.ReflTransGen.head hdelivered hrun
  obtain ⟨hdeliveries, _⟩ := retries_keep_one_copy (by decide) (by decide) htells rfl rfl hrun
  obtain ⟨_, _, _, _, hfails⟩ := hdeliveries 0 ⟨Scenario.event, Scenario.message, trace⟩ rfl
  obtain ⟨calls, hpasses, _, hover⟩ := hfails "ConnectTimeout" ⟨7, none, hsends⟩
  obtain ⟨result, hexec⟩ := hhandled.run
  exact ⟨_, _, calls, hrun, rfl, ⟨7, none, hsends⟩, hpasses, hover result hexec⟩

end PaymentsProcessor
