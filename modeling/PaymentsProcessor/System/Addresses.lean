import PaymentsProcessor.Concurrency.Discipline
import PaymentsProcessor.System.Alphabets
import PaymentsProcessor.System.Records
import PaymentsProcessor.System.Scope

namespace PaymentsProcessor

open Python Storage Concurrency PaymentsConstants

-- An address that the guard lets pass, as long as what the resolver answers is public.
def SSRFGuard.Reads (self : SSRFGuard) (url : String) : Prop :=
  ∃ parsed host, self.parse_host url = .ok (parsed, host) ∧
    (self.allow_private_hosts = true ∨ ∃ port, parsed.port = .ok port)

-- The request that a process serves, and the last answer that it got from the resolver.
structure Asked where
  request : Option CreateRequest
  answer : Option (List AddrInfo)

-- A process inserts only what it was asked for, and only after the guard has let the
-- address pass.
structure SSRFGuard.Clears (guard : SSRFGuard) (s : Asked) (url key : String) : Prop where
  reads : guard.Reads url
  request : ∃ r, s.request = some r ∧ r.payload.webhook_url = url ∧ r.idempotency_key = key
  answer : guard.allow_private_hosts = true ∨
    ∃ infos, s.answer = some infos ∧ SSRFGuard.check_infos url infos = .ok ()

def Asked.next (s : Asked) : (e : Effect) → Except Exn e.Result → Asked
  | .getaddrinfo .., .ok infos => { s with answer := some infos }
  | _, _ => s

def SSRFGuard.discipline (guard : SSRFGuard) : Discipline Effect.Result Exn Asked where
  may s e := ∀ v, e = .execute (.insert_payment v) → guard.Clears s v.webhook_url v.idempotency_key
  next := Asked.next

structure Asked.Stands (p : Pid) (s : Asked) (w : World) : Prop where
  request : ∀ r, s.request = some r → w.jobs p = some (.request r)
  answer : ∀ infos, s.answer = some infos → (p, infos) ∈ w.log.lookups

-- Some process was asked to insert this, and the guard let the address pass.
def SSRFGuard.Cleared (guard : SSRFGuard) (w : World) (url key : String) : Prop :=
  ∃ p s, guard.Clears s url key ∧ s.Stands p w

-- Everything that is committed, or written and not yet committed, was let pass.
structure Addressed (guard : SSRFGuard) (w : World) : Prop where
  committed : ∀ payment ∈ w.store.contents.payments.rows,
    guard.Cleared w payment.webhook_url payment.idempotency_key
  pending : ∀ p payment, .insert_payment payment ∈ w.store.writes p →
    guard.Cleared w payment.webhook_url payment.idempotency_key

section Programs

variable {guard : SSRFGuard} {c : Container} {url key : String} {s : Asked}

end Programs

section Worlds

variable {d : Deployment} {A : Assumption Pid World Effect Answer} {p : Pid} {w w' : World}
variable {guard : SSRFGuard}

-- A payment that a statement writes has the address and the key that it supplies.
theorem inserted_address {stmt : Statement} {s : Store} {time : DateTime} {ids : List UUID}
    {result : stmt.Result} {locks : List Resource} {writes : List Write} {payment : Payment}
    (h : stmt.verdict s p time ids = .succeeds result locks writes)
    (hmem : .insert_payment payment ∈ writes) :
    ∃ v, stmt = .insert_payment v ∧ payment.webhook_url = v.webhook_url ∧
      payment.idempotency_key = v.idempotency_key := by
  cases stmt with
  | insert_payment v =>
      obtain ⟨amount, _, _, rfl, _, _, _, _, _, rfl⟩ := insert_payment_succeeds h
      cases List.mem_singleton.mp hmem
      exact ⟨v, rfl, rfl, rfl⟩
  | insert_outbox =>
      obtain ⟨_, _, _, _, rfl⟩ := insert_outbox_succeeds h
      simp at hmem
  | get_by_id | get_by_idempotency_key =>
      cases h
      cases hmem
  | update_processing_outcome =>
      obtain ⟨_, _, rfl⟩ | ⟨_, _, _, _, _, rfl⟩ := update_payment_succeeds h
      · cases hmem
      · simp at hmem
  | scan_pending =>
      obtain ⟨_, rfl, _⟩ := scan_succeeds h
      cases hmem
  | lock_pending =>
      obtain ⟨rfl, _⟩ := lock_succeeds h
      cases hmem
  | mark_published =>
      obtain ⟨_, rfl, _⟩ | ⟨_, _, rfl⟩ := mark_succeeds h
      · cases hmem
      · simp at hmem
  | bump_attempt =>
      obtain ⟨_, rfl, _⟩ | ⟨_, _, rfl⟩ := bump_succeeds h
      · cases hmem
      · simp at hmem

theorem Asked.Stands.mono {s : Asked} (h : s.Stands p w)
    (hj : ∀ q j, w.jobs q = some j → w'.jobs q = some j)
    (hl : w.log.lookups ⊆ w'.log.lookups) : s.Stands p w' :=
  ⟨fun r hr => hj p _ (h.request r hr), fun infos hi => hl (h.answer infos hi)⟩

theorem SSRFGuard.Cleared.mono {url key : String} (h : guard.Cleared w url key)
    (hj : ∀ q j, w.jobs q = some j → w'.jobs q = some j)
    (hl : w.log.lookups ⊆ w'.log.lookups) : guard.Cleared w' url key := by
  obtain ⟨p, s, hs, hstands⟩ := h
  exact ⟨p, s, hs, hstands.mono hj hl⟩

-- What a step writes and commits was let pass before it.
theorem Addressed.step (hj : ∀ q j, w.jobs q = some j → w'.jobs q = some j)
    (hl : w.log.lookups ⊆ w'.log.lookups)
    (hc : ∀ payment ∈ w'.store.contents.payments.rows,
      guard.Cleared w payment.webhook_url payment.idempotency_key)
    (hp : ∀ q payment, .insert_payment payment ∈ w'.store.writes q →
      guard.Cleared w payment.webhook_url payment.idempotency_key) : Addressed guard w' :=
  ⟨fun payment hmem => (hc payment hmem).mono hj hl,
    fun q payment hmem => (hp q payment hmem).mono hj hl⟩

theorem Addressed.pending_of (h : Addressed guard w)
    (hw : ∀ q, w'.store.writes q = [] ∨ w'.store.writes q = w.store.writes q) (q : Pid)
    (payment : Payment) (hmem : .insert_payment payment ∈ w'.store.writes q) :
    guard.Cleared w payment.webhook_url payment.idempotency_key := by
  obtain hq | hq := hw q
  · rw [hq] at hmem
    cases hmem
  · exact h.pending q payment (hq ▸ hmem)

theorem Addressed.apply {wr : Write} {c : Tables} {P : String → String → Prop}
    (hwr : ∀ payment, wr = .insert_payment payment →
      P payment.webhook_url payment.idempotency_key)
    (h : ∀ payment ∈ c.payments.rows, P payment.webhook_url payment.idempotency_key) :
    ∀ payment ∈ (wr.apply c).payments.rows, P payment.webhook_url payment.idempotency_key := by
  cases wr with
  | insert_payment new =>
      intro payment hp
      obtain hp | rfl := Table.of_mem_insert hp
      · exact h payment hp
      · exact hwr payment rfl
  | update_payment id status processed_at time =>
      intro payment hp
      obtain ⟨old, hold, rfl⟩ :=
        (Table.mem_modify (Payment.set_outcome_id status processed_at time)).mp hp
      split
      · exact h old hold
      · exact h old hold
  | insert_outbox | publish_outbox | bump_outbox => exact h

theorem Addressed.committed_commit (h : Addressed guard w) :
    ∀ payment ∈ (w.commit p).store.contents.payments.rows,
      guard.Cleared w payment.webhook_url payment.idempotency_key := by
  have hkept := LockStore.commit_induction (W := Write.writing) w.store p
    (P := fun c => ∀ payment ∈ c.payments.rows,
      guard.Cleared w payment.webhook_url payment.idempotency_key) h.committed
    fun wr hwr c hc => Addressed.apply (fun payment he => h.pending p payment (he ▸ hwr)) hc
  unfold World.commit
  split
  · exact h.committed
  · exact hkept

theorem Addressed.perform (h : Addressed guard w) (hf : ∀ q, q ≠ p → Frame q w w')
    {s : Asked} {e : Effect} {a : Answer} {result : Except Exn e.Result}
    (hstands : s.Stands p w) (hmay : guard.discipline.may s e)
    (hp : World.perform d p e a w = some (result, w')) : Addressed guard w' := by
  have hs := scope_perform hp
  have step := @Addressed.step w w' guard (Frame.all_started hf) (Frame.all_log hf).lookups
  cases e with
  | execute stmt =>
      have hstmt : ∀ {time ids result locks writes payment},
          stmt.verdict w.store p time ids = .succeeds result locks writes →
            .insert_payment payment ∈ writes →
              guard.Cleared w payment.webhook_url payment.idempotency_key := by
        intro time ids result locks writes payment hv hmem
        obtain ⟨v, rfl, hurl, hkey⟩ := inserted_address hv hmem
        exact hurl ▸ hkey ▸ ⟨p, s, hmay v rfl, hstands⟩
      -- of the writes only those of the process itself may be new
      have hwritten : w'.store.contents = w.store.contents →
          (∀ payment, .insert_payment payment ∈ w'.store.writes p →
            .insert_payment payment ∈ w.store.writes p ∨
              guard.Cleared w payment.webhook_url payment.idempotency_key) →
            Addressed guard w' := by
        intro hc hw
        refine step (hc ▸ h.committed) fun q payment hmem => ?_
        by_cases hq : q = p
        · subst hq
          exact (hw payment hmem).elim (h.pending q payment) id
        · rw [(hf q hq).writes] at hmem
          exact h.pending q payment hmem
      obtain ⟨time, ids, res, locks, writes, ha, hv, _, rfl⟩ | ⟨_, _, _, _, _, _, _, rfl⟩ |
        ⟨x, w₁, _, ha, rfl⟩ := perform_execute hp
      · refine hwritten rfl fun payment hmem => ?_
        rw [World.fetch_store, World.take_store, LockStore.take_writes_self, List.mem_append]
          at hmem
        exact hmem.imp_right (hstmt hv)
      · exact hwritten rfl fun _ => .inl
      · obtain ⟨hc, _, _, hw⟩ := ha.facts
        refine hwritten hc fun payment hmem => (hw _ hmem).imp_right ?_
        rintro ⟨time, ids, result, locks, writes, _, hv, hwr⟩
        exact hstmt hv hwr
  | commit =>
      refine step ?_ (h.pending_of (hs.writes (by decide)))
      obtain ⟨_, rfl⟩ | ⟨_, _, rfl | rfl⟩ := perform_commit hp
      · exact h.committed_commit
      · exact h.committed
      · exact h.committed_commit
  | _ =>
      refine step ?_ (h.pending_of (hs.writes (by simp [Effect.kind])))
      rw [hs.contents (by simp [Effect.kind])]
      exact h.committed

-- Where a call leaves the process.
theorem Asked.Stands.call {s : Asked} (h : s.Stands p w) (hf : ∀ q, q ≠ p → Frame q w w')
    {e : Effect} {a : Answer} {result : Except Exn e.Result}
    (hp : World.perform d p e a w = some (result, w')) : (s.next e result).Stands p w' := by
  have hkept := h.mono (Frame.all_started hf) (Frame.all_log hf).lookups
  unfold Asked.next
  split
  · obtain ⟨_, he, rfl⟩ | ⟨_, he, _⟩ := perform_getaddrinfo hp
    · cases he
      exact ⟨hkept.request, fun infos hi => by cases hi; simp⟩
    · cases he
  · exact hkept

end Worlds

section Runs

variable {d : Deployment} {A : Assumption Pid World Effect Answer} {c : SystemConfig}

end Runs

end PaymentsProcessor
