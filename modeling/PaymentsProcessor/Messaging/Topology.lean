import PaymentsProcessor.Messaging
import PaymentsProcessor.Python.Notation

namespace PaymentsProcessor

open Amqp PaymentsConstants

variable {ttls : List ℕ}

-- The names differ after "payments.".
theorem retry_queue_name_ne {attempt : ℤ} :
    retry_queue_name attempt ≠ QUEUE_PAYMENTS_NEW ∧ retry_queue_name attempt ≠ QUEUE_PAYMENTS_DLQ := by
  have hname : (retry_queue_name attempt).toList[9]? = some 'r' := by
    rw [retry_queue_name, String.toList_append]
    rfl
  constructor <;> intro h <;> rw [h] at hname <;> exact absurd hname (by decide)

theorem retry_queue_name_inj {attempt attempt' : ℤ}
    (h : retry_queue_name attempt = retry_queue_name attempt') : attempt = attempt' :=
  Python.toString_int_inj ((String.append_right_inj _).mp h)

theorem route_created : (declare_topology ttls).route EXCHANGE_PAYMENTS PAYMENT_CREATED_ROUTING_KEY =
    [QUEUE_PAYMENTS_NEW] := by
  rw [Topology.route_named (by decide)]
  simp only [declare_topology]
  decide +kernel

theorem route_failed :
    (declare_topology ttls).route EXCHANGE_PAYMENTS_DLX PAYMENT_FAILED_ROUTING_KEY =
      [QUEUE_PAYMENTS_DLQ] := by
  rw [Topology.route_named (by decide)]
  simp only [declare_topology]
  decide +kernel

theorem route_safety_net :
    (declare_topology ttls).route EXCHANGE_PAYMENTS_DLX PAYMENT_SAFETY_NET_ROUTING_KEY =
      [QUEUE_PAYMENTS_DLQ] := by
  rw [Topology.route_named (by decide)]
  simp only [declare_topology]
  decide +kernel

theorem queue_new : (declare_topology ttls).queue? QUEUE_PAYMENTS_NEW = some _make_main_queue := rfl

theorem dead_letters_of_new :
    (declare_topology ttls).deadLetterRoute QUEUE_PAYMENTS_NEW = [QUEUE_PAYMENTS_DLQ] := by
  rw [Topology.deadLetterRoute_eq queue_new rfl]
  exact route_safety_net

theorem mem_retry_queues {q : Queue} (h : q ∈ retry_queues ttls) :
    ∃ attempt ttl_ms : ℕ, q = _make_retry_queue attempt ttl_ms := by
  obtain ⟨⟨ttl_ms, attempt⟩, _, rfl⟩ := List.mem_map.mp h
  exact ⟨attempt, ttl_ms, rfl⟩

theorem retry_queue_declared {attempt : ℤ} (hlo : 1 ≤ attempt) (hhi : attempt ≤ ttls.length) :
    ∃ q ∈ retry_queues ttls, q.name = retry_queue_name attempt := by
  obtain ⟨n, rfl⟩ : ∃ n : ℕ, attempt = n + 1 := ⟨(attempt - 1).toNat, by omega⟩
  have hn : n < ttls.length := by omega
  refine ⟨_make_retry_queue (1 + n) ttls[n], List.mem_map.mpr ⟨(ttls[n], 1 + n), ?_, rfl⟩, ?_⟩
  · rw [List.mk_mem_zipIdx_iff_le_and_getElem?_sub]
    simp
  · simp [_make_retry_queue, add_comm]

-- A declared retry queue, whichever of the name it is, returns its messages.
theorem queue_retry {attempt : ℤ} (hlo : 1 ≤ attempt) (hhi : attempt ≤ ttls.length) :
    ∃ ttl_ms, (declare_topology ttls).queue? (retry_queue_name attempt) =
      some ⟨retry_queue_name attempt, some ttl_ms,
        some ⟨EXCHANGE_PAYMENTS, PAYMENT_CREATED_ROUTING_KEY⟩⟩ := by
  obtain ⟨q, hq, hname⟩ := retry_queue_declared hlo hhi
  have hne := (@retry_queue_name_ne attempt).1
  have hsome : ((retry_queues ttls).find? fun q => q.name = retry_queue_name attempt).isSome :=
    List.find?_isSome.mpr ⟨q, hq, by simpa using hname⟩
  obtain ⟨found, hfound⟩ := Option.isSome_iff_exists.mp hsome
  obtain ⟨attempt', ttl_ms, rfl⟩ := mem_retry_queues (List.mem_of_find?_eq_some hfound)
  have hsame : retry_queue_name attempt' = retry_queue_name attempt := by
    have h := List.find?_some hfound
    exact of_decide_eq_true h
  refine ⟨ttl_ms, ?_⟩
  simp [Topology.queue?, declare_topology, _make_main_queue, Ne.symm hne, List.find?_append,
    hfound, _make_retry_queue, hsame]

theorem route_retry {attempt : ℤ} (hlo : 1 ≤ attempt) (hhi : attempt ≤ ttls.length) :
    (declare_topology ttls).route "" (retry_queue_name attempt) = [retry_queue_name attempt] := by
  obtain ⟨ttl_ms, h⟩ := queue_retry hlo hhi
  exact Topology.route_nameless h

-- Of the declared queues only the retry queues let messages expire.
theorem expiring_is_retry {name : String} {q : Queue}
    (h : (declare_topology ttls).queue? name = some q) (ht : q.message_ttl.isSome) :
    (∃ attempt : ℤ, name = retry_queue_name attempt) ∧
      (declare_topology ttls).deadLetterRoute name = [QUEUE_PAYMENTS_NEW] := by
  have hname : q.name = name := by simpa [Topology.queue?] using List.find?_some h
  have hmem : q ∈ retry_queues ttls := by
    have hall := List.mem_of_find?_eq_some h
    simp only [declare_topology, List.mem_cons, List.mem_append, List.not_mem_nil, or_false]
      at hall
    rcases hall with rfl | hall | rfl
    · cases ht
    · exact hall
    · cases ht
  obtain ⟨attempt, ttl_ms, rfl⟩ := mem_retry_queues hmem
  refine ⟨⟨attempt, hname.symm⟩, ?_⟩
  rw [Topology.deadLetterRoute_eq h rfl]
  exact route_created

end PaymentsProcessor
