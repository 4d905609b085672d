import PaymentsProcessor.Consumer.Handling
import PaymentsProcessor.Messaging.Topology

namespace PaymentsProcessor

open Python Concurrency PaymentsConstants

theorem intOfChars_overflow (cs : List Char) : intOfChars cs ≠ .error .OverflowError := by
  unfold intOfChars
  split
  split
  · simp
  · split <;> simp

theorem toInt_overflow_iff {v : HeaderValue} :
    v.toInt = .error .OverflowError ↔ ∃ negative, v = .float (.inf negative) := by
  cases v with
  | float x => cases x <;> simp [HeaderValue.toInt, intOfFloat]
  | str s =>
      simp only [HeaderValue.toInt, intOfStr, reduceCtorEq, exists_false, iff_false]
      exact intOfChars_overflow _
  | bytes b =>
      simp only [HeaderValue.toInt, intOfBytes, reduceCtorEq, exists_false, iff_false]
      split
      · exact intOfChars_overflow _
      · simp
  | _ => simp [HeaderValue.toInt]

-- Every header can be read as a count, but for an infinite float.
theorem get_retry_count_error_iff {headers : Headers} {x : PyError} :
    get_retry_count (some headers) = .error x ↔ x = .OverflowError ∧
      ∃ negative, headers.lookup RETRY_COUNT_HEADER = some (.float (.inf negative)) := by
  unfold get_retry_count
  simp only
  split
  · rename_i h
    simp [h]
  · rename_i h
    simp [h]
  · rename_i v _ h
    rw [h]
    simp only [Option.some.injEq, ← toInt_overflow_iff]
    cases v.toInt with
    | ok count => simp
    | error e => cases e <;> simp [eq_comm]

-- A destination in the declared topology: a retry queue, or what is bound to
-- the dead-letter queue.
def Placed (ttls : List ℕ) : Effect → Prop
  | .publish exchange routing_key _ _ =>
      (exchange = "" ∧ ∃ attempt : ℕ, 1 ≤ attempt ∧ attempt ≤ ttls.length ∧
        routing_key = "payments.retry." ++ toString attempt ∧
          ((declare_topology ttls).queue? routing_key).isSome) ∨
        exchange = "payments.dlx" ∧
          "payments.dlq" ∈ (declare_topology ttls).route exchange routing_key
  | _ => False

def Effect.publishes : Effect → Bool
  | .publish .. => true
  | _ => false

def publishes (trace : List Call) : List Call := trace.filter fun call => call.1.publishes

-- One publish call is made, to a declared destination. How the broker answers it
-- is left open.
def PlacedOnce (ttls : List ℕ) (trace : List Call) : Prop :=
  ∃ call, publishes trace = [call] ∧ Placed ttls call.1

section Destinations

variable {ttls : List ℕ} {event : PaymentCreatedEvent} {msg : Message} {count max_retries : ℤ}
variable {reason : String}

-- Only the number in the name tells the retry queues apart, so the number has
-- to be one that was declared.
theorem placed_retry_copy_iff : Placed ttls (retry_copy event count max_retries reason) ↔
    max_retries < count + 1 ∨ 1 ≤ count + 1 ∧ count + 1 ≤ ttls.length := by
  unfold retry_copy retry_exchange retry_routing_key
  by_cases h : count + 1 > max_retries
  · rw [if_pos h, if_pos h]
    refine iff_of_true (.inr ⟨rfl, ?_⟩) (.inl h)
    rw [route_failed]
    exact List.mem_singleton_self _
  · rw [if_neg h, if_neg h]
    constructor
    · rintro (⟨_, attempt, hlo, hhi, hname, _⟩ | ⟨hdlx, _⟩)
      · have hsame : count + 1 = attempt := retry_queue_name_inj hname
        omega
      · exact absurd hdlx (by decide)
    · intro hcases
      have hrange : 1 ≤ count + 1 ∧ count + 1 ≤ ttls.length := by omega
      obtain ⟨attempt, hattempt⟩ : ∃ attempt : ℕ, count + 1 = attempt :=
        ⟨(count + 1).toNat, by omega⟩
      obtain ⟨ttl_ms, hqueue⟩ := queue_retry hrange.1 hrange.2
      refine .inl ⟨rfl, attempt, by omega, by omega, ?_, ?_⟩
      · rw [hattempt]
        rfl
      · rw [hqueue]
        rfl

-- The count may be an infinite float, which has no int, or a count that the
-- limit lets through and the topology has no queue for. Nothing else goes wrong.
theorem copy_is_placed_iff {trace : List Call} {result : Except Exn Unit}
    (h : Exec (_retry_or_dlq msg event reason max_retries) trace result) :
    PlacedOnce ttls trace ↔
      (∀ negative, msg.headers.lookup RETRY_COUNT_HEADER ≠ some (.float (.inf negative))) ∧
        ∀ count, get_retry_count (some msg.headers) = .ok count →
          max_retries < count + 1 ∨ 1 ≤ count + 1 ∧ count + 1 ≤ ttls.length := by
  obtain ⟨x, hcount, rfl, _⟩ | ⟨count, hcount, rfl⟩ := exec_retry_or_dlq h
  · obtain ⟨_, negative, hinf⟩ := get_retry_count_error_iff.mp hcount
    constructor
    · rintro ⟨call, hcall, _⟩
      cases hcall
    · exact fun hc => absurd hinf (hc.1 negative)
  · have hone : publishes [⟨retry_copy event count max_retries reason, result⟩] =
        [⟨retry_copy event count max_retries reason, result⟩] := rfl
    constructor
    · rintro ⟨call, hcall, hplaced⟩
      rw [hone, List.singleton_inj] at hcall
      subst hcall
      refine ⟨fun negative hinf => ?_, fun count' hcount' => ?_⟩
      · have herror := get_retry_count_error_iff.mpr ⟨rfl, negative, hinf⟩
        cases hcount.symm.trans herror
      · cases hcount.symm.trans hcount'
        exact placed_retry_copy_iff.mp hplaced
    · exact fun hc => ⟨_, hone, placed_retry_copy_iff.mpr (hc.2 count hcount)⟩

end Destinations

-- With a limit of five, what is counted as the third attempt goes to a fourth
-- queue that nobody has declared.
theorem fourth_queue_is_missing : ∃ trace, Exec (_retry_or_dlq
    ⟨event_payload 7, [(RETRY_COUNT_HEADER, .int 3)]⟩ ⟨7⟩ "ConnectTimeout" 5) trace (.ok ()) ∧
      ¬PlacedOnce RETRY_TTL_MS_BY_ATTEMPT trace := by
  refine ⟨_, @exec_copy ⟨7⟩ _ 5 3 _ rfl, ?_⟩
  rintro ⟨call, hcall, hplaced⟩
  cases hcall
  have h := placed_retry_copy_iff.mp hplaced
  simp [RETRY_TTL_MS_BY_ATTEMPT] at h

theorem third_queue_is_declared : ∃ trace, Exec (_retry_or_dlq
    ⟨event_payload 7, [(RETRY_COUNT_HEADER, .int 2)]⟩ ⟨7⟩ "ConnectTimeout" 3) trace (.ok ()) ∧
      PlacedOnce RETRY_TTL_MS_BY_ATTEMPT trace := by
  have h := @exec_copy ⟨7⟩ ⟨event_payload 7, [(RETRY_COUNT_HEADER, .int 2)]⟩ 3 2 "ConnectTimeout" rfl
  refine ⟨_, h, (copy_is_placed_iff h).mpr ⟨fun _ hinf => ?_, fun count hcount => ?_⟩⟩
  · cases hinf
  · cases hcount
    exact .inr (by decide)

end PaymentsProcessor
