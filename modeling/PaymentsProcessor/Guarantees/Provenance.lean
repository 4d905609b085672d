import PaymentsProcessor.Guarantees.Custody
import PaymentsProcessor.System.Provenance

namespace PaymentsProcessor

open Python Storage Concurrency PaymentsConstants

section Messages

variable {d : Deployment} {c : SystemConfig}

-- There are no phantom events: every message, wherever it is, names a payment that
-- is committed, and names it as the program writes it.
theorem messages_name_payments {A : Assumption Pid World Effect Answer}
    (h : Reachable d A c) : (∀ name, ∀ m ∈ c.world.queues name, c.world.Names m) ∧
      ∀ p m, c.world.unacked p = some m → c.world.Names m := by
  have hg := (reachable_told (o := False) (fun hf => hf.elim) h).1
  exact ⟨hg.queues, hg.unacked⟩

-- No consumer rejects its message: a payment that a message names is found, unless
-- the surroundings say that it is not.
theorem no_message_is_rejected (h : Reachable d foreign c) (p : Pid) {requeue : Bool}
    {k : Except Exn Unit → Async Unit} : c.prog p ≠ some (.call (.reject requeue) k) := by
  intro hp
  obtain ⟨s, hs, hmay⟩ :=
    (reachable_told (o := True) (fun _ _ _ _ _ ha => ha) h).2.pending hp
  have hmissing : s.missing = true := hmay
  rw [hs.found trivial] at hmissing
  cases hmissing

end Messages

namespace Scenario

def raises_foreign : Test := fun _ _ a _ =>
  match a.exn with
  | some x => !x.isinstance .PaymentNotFoundError
  | none => true

theorem foreign_of_test (pid : Pid) (e : Effect) (a : Answer) (w : World)
    (h : raises_foreign pid e a w) : foreign pid e a w := by
  intro x hx
  simpa [raises_foreign, hx] using h

end Scenario

theorem retried_message_is_genuine : ∃ c m, Reachable Scenario.deployment unrestricted c ∧
    m ∈ c.world.queues (retry_queue_name 1) ∧
      (∀ name, ∀ m ∈ c.world.queues name, c.world.Names m) ∧
        ∀ p m, c.world.unacked p = some m → c.world.Names m := by
  obtain ⟨c, hc, hf⟩ := Scenario.reaches_any
    (Scenario.create 0 ++ Scenario.batch 1 ++ Scenario.failed_delivery 2)
    (fun c => (c.world.queues (retry_queue_name 1)).length = 1) (by decide +kernel)
  obtain ⟨m, hm⟩ := List.length_eq_one_iff.mp (of_decide_eq_true hf)
  exact ⟨c, m, hc, hm ▸ List.mem_singleton_self m, messages_name_payments hc⟩

-- The connection breaks while a consumer reads its payment.
theorem broken_read_is_not_rejected : ∃ c, Reachable Scenario.deployment foreign c ∧
    2 ∈ c.world.log.failures ∧
      ∀ requeue k, c.prog 2 ≠ some (.call (.reject requeue) k) := by
  obtain ⟨c, hc, hf⟩ := Scenario.reaches Scenario.foreign_of_test
    (Scenario.create 0 ++ Scenario.batch 1 ++ .launch 2 (.deliver 0) ::
      (Scenario.replies 2 [.done, .done, .done, .done] ++
        [.call 2 (.raised (.Exception "DBAPIError" "connection lost") none)]))
    (fun c => 2 ∈ c.world.log.failures) (by decide +kernel)
  exact ⟨c, hc, of_decide_eq_true hf, fun _ _ => no_message_is_rejected hc 2⟩

end PaymentsProcessor
