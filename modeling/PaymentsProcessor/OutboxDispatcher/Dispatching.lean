import PaymentsProcessor.Consumer.Handling

namespace PaymentsProcessor

open Python Concurrency PaymentsConstants

section Bump

variable {service : OutboxService} {id : UUID} {attempts : ℕ} {error : String}
variable {now t : DateTime}

-- The time that `bump_attempt` computes, from the time it reads.
def next_attempt (service : OutboxService) (attempts : ℕ) (now : DateTime) :
    Except PyError DateTime := do
  let delay_seconds ← service._compute_backoff_seconds attempts
  let delta ← timedelta delay_seconds
  DateTime.add now delta

theorem exec_bump_attempt {trace : List Call} {result : Except Exn Unit}
    (h : Exec (service.bump_attempt id attempts error) trace result) :
    (∃ e, (∀ now, next_attempt service attempts now = .error e) ∧ trace = [] ∧
        result = .error (.python e)) ∨
      ∃ clock rest, trace = ⟨.now, clock⟩ :: rest ∧
        ((∃ x, clock = .error x ∧ rest = [] ∧ result = .error x) ∨
          ∃ now, clock = .ok now ∧
            ((∃ e, next_attempt service attempts now = .error e ∧ rest = [] ∧
                result = .error (.python e)) ∨
              ∃ t, next_attempt service attempts now = .ok t ∧
                rest = [⟨.execute (.bump_attempt id error t), result⟩])) := by
  unfold OutboxService.bump_attempt at h
  simp only [Prog.bind_eq, ofPython] at h
  obtain ⟨first, delayed, rest, rfl, hd, h₁⟩ := Exec.bind_iff.mp h
  obtain ⟨rfl, rfl⟩ := Exec.ofExcept_iff.mp hd
  cases hdelay : service._compute_backoff_seconds attempts with
  | error e =>
      rw [hdelay] at h₁
      obtain ⟨rfl, rfl⟩ := h₁
      exact .inl ⟨e, fun now => by rw [next_attempt, hdelay]; rfl, rfl, rfl⟩
  | ok delay_seconds =>
      rw [hdelay] at h₁
      obtain ⟨second, clock, rest, rfl, hnow, h₂⟩ := Exec.bind_iff.mp h₁
      obtain rfl := Exec.perform_iff.mp hnow
      refine .inr ⟨clock, rest, rfl, ?_⟩
      cases clock with
      | error x =>
          obtain ⟨rfl, rfl⟩ := h₂
          exact .inl ⟨x, rfl, rfl, rfl⟩
      | ok now =>
          refine .inr ⟨now, rfl, ?_⟩
          have hnext : next_attempt service attempts now =
              (timedelta delay_seconds).bind fun delta => DateTime.add now delta := by
            rw [next_attempt, hdelay]
            rfl
          rw [hnext]
          obtain ⟨third, converted, rest, rfl, hc, h₃⟩ := Exec.bind_iff.mp h₂
          obtain ⟨rfl, rfl⟩ := Exec.ofExcept_iff.mp hc
          cases hdelta : timedelta delay_seconds with
          | error e =>
              rw [hdelta] at h₃
              obtain ⟨rfl, rfl⟩ := h₃
              exact .inl ⟨e, rfl, rfl, rfl⟩
          | ok delta =>
              rw [hdelta] at h₃
              obtain ⟨fourth, added, rest, rfl, ha, h₄⟩ := Exec.bind_iff.mp h₃
              obtain ⟨rfl, rfl⟩ := Exec.ofExcept_iff.mp ha
              cases hadd : DateTime.add now delta with
              | error e =>
                  rw [hadd] at h₄
                  obtain ⟨rfl, rfl⟩ := h₄
                  exact .inl ⟨e, hadd, rfl, rfl⟩
              | ok t =>
                  rw [hadd] at h₄
                  exact .inr ⟨t, hadd, Exec.perform_iff.mp h₄⟩

theorem exec_bumped (answer : Except Exn Unit)
    (hnext : next_attempt service attempts now = .ok t) :
    Exec (service.bump_attempt id attempts error)
      [⟨.now, .ok now⟩, ⟨.execute (.bump_attempt id error t), answer⟩] answer := by
  unfold next_attempt at hnext
  cases hdelay : service._compute_backoff_seconds attempts with
  | error e =>
      rw [hdelay] at hnext
      cases hnext
  | ok delay_seconds =>
      rw [hdelay] at hnext
      cases hdelta : timedelta delay_seconds with
      | error e =>
          simp only [bind, Except.bind, hdelta] at hnext
          cases hnext
      | ok delta =>
          simp only [bind, Except.bind, hdelta] at hnext
          unfold OutboxService.bump_attempt
          simp only [Prog.bind_eq, ofPython, hdelay]
          refine Exec.bind_iff.mpr ⟨[], .ok delay_seconds, _, rfl, .ret _, ?_⟩
          refine Exec.bind_iff.mpr ⟨[_], .ok now, _, rfl, Exec.perform_iff.mpr rfl, ?_⟩
          refine Exec.bind_iff.mpr ⟨[], .ok delta, _, rfl, ?_, ?_⟩
          · rw [hdelta]
            exact .ret _
          · refine Exec.bind_iff.mpr ⟨[], .ok t, _, rfl, ?_, Exec.perform_iff.mpr rfl⟩
            rw [hnext]
            exact .ret _

end Bump

section Row

variable {service : OutboxService} {row : Outbox} {trace : List Call} {result : Except Exn Unit}

-- The call that hands a row to the publisher.
def publish_row (row : Outbox) : Effect := .publish EXCHANGE_PAYMENTS row.routing_key row.payload []

-- A publish that raises leaves the row to the handler.
theorem exec_unpublished_iff {x : Exn} {rest : List Call} (hx : x.isinstance .Exception) :
    Exec (_process_row service row) (⟨publish_row row, .error x⟩ :: rest) result ↔
      Exec (service.bump_attempt row.id row.attempts x.str) rest result := by
  constructor
  · intro h
    obtain ⟨first, r, second, he, hb, hr⟩ := Exec.tryCatch_iff.mp h
    obtain ⟨published, answer, marked, rfl, hp, hm⟩ := Exec.bind_iff.mp hb
    obtain rfl := Exec.perform_iff.mp hp
    cases he
    obtain ⟨rfl, rfl⟩ := hm
    simp only [hx, if_true] at hr
    exact hr
  · intro h
    refine Exec.tryCatch_iff.mpr ⟨[⟨publish_row row, .error x⟩], .error x, rest, rfl, ?_, ?_⟩
    · exact Exec.bind_iff.mpr ⟨[_], .error x, [], rfl, Exec.perform_iff.mpr rfl, rfl, rfl⟩
    · simp only [hx, if_true]
      exact h

end Row

end PaymentsProcessor
