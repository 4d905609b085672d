import PaymentsProcessor.System.Alphabets
import PaymentsProcessor.System.Requests
import PaymentsProcessor.System.Scope

namespace PaymentsProcessor

open Python Storage Concurrency PaymentsConstants

-- A committed transaction has given the payment this outcome.
def World.Wrote (w : World) (id : UUID) (status : PaymentStatusEnum) (processed_at : DateTime) :
    Prop :=
  ∃ commit ∈ w.log.commits, ∃ time, .update_payment id status processed_at time ∈ commit.2

-- The payment has an outcome, and it is a committed one.
def World.Attests (w : World) (p : Payment) : Prop :=
  p.status ≠ .PENDING ∧ ∃ processed_at, p.processed_at = some processed_at ∧
    w.Wrote p.id p.status processed_at

def Write.updates : Write → Bool
  | .update_payment .. => true
  | _ => false

-- Payments are inserted without an outcome, and updated with one.
def Write.Outcome : Write → Prop
  | .insert_payment p => p.status = .PENDING
  | .update_payment _ status _ _ => status ≠ .PENDING
  | _ => True

structure Attested (d : Deployment) (w : World) : Prop where
  rows : ∀ p ∈ w.store.contents.payments.rows, p.status = .PENDING ∨ w.Attests p
  posts : ∀ post ∈ w.log.posts, ∃ p event_id ts,
    post.request = d.container.webhook_service.request p event_id ts ∧ w.Attests p
  writes : ∀ pid, ∀ wr ∈ w.store.writes pid, wr.Outcome
  single : ∀ pid, ∀ wr ∈ w.store.writes pid, wr.updates → w.store.writes pid = [wr]

def outcomes (d : Deployment) : Logic Pid World where
  inv := Attested d
  rely _ _ _ := True
  done _ _ := True
  rely_refl _ _ := trivial
  rely_trans _ _ _ _ _ _ := trivial
  done_stable _ _ _ _ _ := trivial

section Steps

variable {d : Deployment} {p : Pid} {w w' : World}

theorem World.Attests.extends {q : Payment} (hl : w.log.Extends w'.log) (h : w.Attests q) :
    w'.Attests q := by
  obtain ⟨hs, t, ht, commit, hc, hw⟩ := h
  exact ⟨hs, t, ht, commit, hl.commits hc, hw⟩

-- A step of `p` that commits nothing and makes no request.
theorem Attested.step (h : Attested d w) (hf : ∀ pid, pid ≠ p → Frame pid w w')
    (hc : w'.store.contents = w.store.contents) (hp : w'.log.posts = w.log.posts)
    (hown : ∀ wr ∈ w'.store.writes p, wr.Outcome ∧ (wr.updates → w'.store.writes p = [wr])) :
    Attested d w' where
  rows q hq := by
    rw [hc] at hq
    exact (h.rows q hq).imp_right fun ha => ha.extends (Frame.all_log hf)
  posts post hpost := by
    rw [hp] at hpost
    obtain ⟨q, id, ts, hr, ha⟩ := h.posts post hpost
    exact ⟨q, id, ts, hr, ha.extends (Frame.all_log hf)⟩
  writes pid wr hwr := by
    by_cases hpid : pid = p
    · subst hpid
      exact (hown wr hwr).1
    · rw [(hf pid hpid).writes] at hwr
      exact h.writes pid wr hwr
  single pid wr hwr hu := by
    by_cases hpid : pid = p
    · subst hpid
      exact (hown wr hwr).2 hu
    · rw [(hf pid hpid).writes] at hwr ⊢
      exact h.single pid wr hwr hu

theorem Attested.same (h : Attested d w) (hf : ∀ pid, pid ≠ p → Frame pid w w')
    (hc : w'.store.contents = w.store.contents) (hp : w'.log.posts = w.log.posts)
    (hw : w'.store.writes p = [] ∨ w'.store.writes p = w.store.writes p) : Attested d w' := by
  refine h.step hf hc hp fun wr hwr => ?_
  rcases hw with hw | hw
  · rw [hw] at hwr
    cases hwr
  · rw [hw] at hwr ⊢
    exact ⟨h.writes p wr hwr, h.single p wr hwr⟩

-- The calls that add no write, commit nothing and make no request.
def Effect.aside (e : Effect) : Prop :=
  e.kind ≠ .execute ∧ e.kind ≠ .commit ∧ e.kind ≠ .post

theorem Attested.aside {e : Effect} (he : e.aside) (h : Attested d w)
    (hf : ∀ pid, pid ≠ p → Frame pid w w') {a : Answer} {result : Except Exn e.Result}
    (hp : World.perform d p e a w = some (result, w')) : Attested d w' := by
  have hs := scope_perform hp
  exact h.same hf (hs.contents he.2.1) (hs.posts he.2.2) (hs.writes he.1 p)

theorem Attested.execute {stmt : Statement} (h : Attested d w)
    (hf : ∀ pid, pid ≠ p → Frame pid w w') {a : Answer} {result : Except Exn stmt.Result}
    (hp : World.perform d p (.execute stmt) a w = some (result, w'))
    (hwrites : ∀ time ids result locks writes,
      stmt.verdict w.store p time ids = .succeeds result locks writes →
        ∀ wr ∈ w.store.writes p ++ writes,
          wr.Outcome ∧ (wr.updates → w.store.writes p ++ writes = [wr])) : Attested d w' := by
  have hs := scope_perform hp
  obtain hw | ⟨time, ids, res, locks, writes, hv, hw⟩ := execute_writes hp
  · exact h.same hf (hs.contents nofun) (hs.posts nofun) (.inr hw)
  · refine h.step hf (hs.contents nofun) (hs.posts nofun) ?_
    rw [hw]
    exact hwrites time ids res locks writes hv

-- The rows that a commit leaves have their outcomes from it, or had them before.
theorem Attested.commit (h : Attested d w) (ht : Tidy w) : Attested d (w.commit p) := by
  by_cases ha : w.store.aborted p
  · refine h.same (p := p) (fun pid hne => frame_commit hne ht.locked) ?_ ?_ (.inl (by simp))
    · rw [commit_contents, LockStore.commit_contents, if_pos ha]
    · rw [World.commit, if_pos ha]
      rfl
  have hlog : w.log.Extends (w.commit p).log :=
    Frame.all_log (p := p) fun pid hne => frame_commit hne ht.locked
  have hcommits : (p, w.store.writes p) ∈ (w.commit p).log.commits := by
    rw [World.commit, if_neg ha]
    simp
  have hrows : ∀ q ∈ (w.commit p).store.contents.payments.rows,
      q.status = .PENDING ∨ (w.commit p).Attests q := by
    rw [commit_contents]
    refine LockStore.commit_induction
      (P := fun c => ∀ q ∈ c.payments.rows, q.status = .PENDING ∨ (w.commit p).Attests q)
      w.store p ?_ ?_
    · exact fun q hq => (h.rows q hq).imp_right fun ha => ha.extends hlog
    · intro wr hwr c hc q hq
      cases wr with
      | insert_payment r =>
          rcases Table.of_mem_insert hq with hq | rfl
          · exact hc q hq
          · exact .inl (h.writes p _ hwr)
      | update_payment id status processed_at time =>
          obtain ⟨r, hr, rfl⟩ :=
            (Table.mem_modify (Payment.set_outcome_id status processed_at time)).mp hq
          split
          · rename_i hid
            subst hid
            exact .inr ⟨h.writes p _ hwr, processed_at, rfl, _, hcommits, time, hwr⟩
          · exact hc r hr
      | insert_outbox | publish_outbox | bump_outbox => exact hc q hq
  have hposts : (w.commit p).log.posts = w.log.posts := scope_commit.posts nofun
  have hwrites : ∀ pid, (w.commit p).store.writes pid = [] ∨
      (w.commit p).store.writes pid = w.store.writes pid := scope_commit.writes nofun
  refine ⟨hrows, ?_, ?_, ?_⟩
  · rw [hposts]
    intro post hpost
    obtain ⟨q, id, ts, hr, ha⟩ := h.posts post hpost
    exact ⟨q, id, ts, hr, ha.extends hlog⟩
  · intro pid wr hwr
    rcases hwrites pid with hw | hw
    · rw [hw] at hwr
      cases hwr
    · exact h.writes pid wr (hw ▸ hwr)
  · intro pid wr hwr hu
    rcases hwrites pid with hw | hw
    · rw [hw] at hwr
      cases hwr
    · rw [hw] at hwr ⊢
      exact h.single pid wr hwr hu

end Steps

section Calls

variable {d : Deployment} {A : Assumption Pid World Effect Answer} {p : Pid} {P : World → Prop}

-- An exception promises nothing: whatever follows it says what it needs.
def Failed (_ : Exn) (_ : World) : Prop := True

abbrev OutcomeTriple (d : Deployment) (A : Assumption Pid World Effect Answer) (p : Pid) {α : Type}
    (P : World → Prop) (prog : Async α) (R : α → World → Prop) : Prop :=
  Triple (machine d) A frameLogic (outcomes d) p P prog (Ends Failed R)

theorem OutcomeTriple.bind {α β : Type} {prog : Async α} {f : α → Async β}
    {R : α → World → Prop} {S : β → World → Prop} (hp : OutcomeTriple d A p P prog R)
    (hf : ∀ a, OutcomeTriple d A p (R a) (f a) S) : OutcomeTriple d A p P (prog.bind f) S :=
  Triple.bind hp hf fun _ _ _ h => h

theorem outcomes_guarantee {w w' : World} : (outcomes d).Guarantee p w w' := fun _ _ => trivial

theorem stable_attests (q : Payment) :
    (frameLogic.inf (outcomes d)).Stable p fun w => w.Attests q :=
  fun _ _ hr ha => ha.extends hr.1.log

theorem stable_writes (writes : List Write) :
    (frameLogic.inf (outcomes d)).Stable p fun w => w.store.writes p = writes :=
  fun _ _ hr hw => hr.1.writes.trans hw

theorem stable_true : (frameLogic.inf (outcomes d)).Stable p fun _ => True :=
  fun _ _ _ h => h

-- An idle call keeps all that was known, if it returns.
theorem idle_outcome {e : Effect} (he : e.idle) (hP : (frameLogic.inf (outcomes d)).Stable p P) :
    OutcomeTriple d A p P (Prog.perform e) fun _ => P := by
  refine Triple.perform hP fun w a result w' hi hw _ hp _ hg => ?_
  have haside : e.aside := by
    cases e with
    | container_get | flush | sleep | now | uuid7 | uniform | random =>
        exact ⟨nofun, nofun, nofun⟩
    | _ => cases he
  refine ⟨hi.2.aside haside hg hp, outcomes_guarantee, ?_⟩
  obtain ⟨⟨x, rfl⟩, rfl⟩ | ⟨⟨x, rfl⟩, rfl⟩ := perform_idle he hp
  · exact hw
  · trivial

-- Calls on the side leave committed outcomes what they are.
theorem aside_spec {e : Effect} (he : e.aside) (q : Payment) :
    CallSpec (machine d) A frameLogic (outcomes d) p (fun w => w.Attests q) e
      fun _ w => w.Attests q :=
  fun _ _ _ _ hi ha _ hp _ hg =>
    ⟨hi.2.aside he hg hp, outcomes_guarantee, ha.extends (Frame.all_log hg)⟩

theorem aside_only {α : Type} {prog : Async α} (h : prog.Only Effect.aside) :
    OutcomeTriple d A p (fun _ => True) prog fun _ _ => True := by
  refine (Triple.only h stable_true fun e he => ?_).post fun r w _ => by cases r <;> trivial
  exact fun _ _ _ _ hi _ _ hp _ hg => ⟨hi.2.aside he hg hp, outcomes_guarantee, trivial⟩

theorem Effect.ofGuard.aside {e : Effect} (h : e.ofGuard) : e.aside := by
  cases e with
  | getaddrinfo => exact ⟨nofun, nofun, nofun⟩
  | _ => exact h.elim

end Calls

section Handling

variable {d : Deployment} {A : Assumption Pid World Effect Answer} {p : Pid}
variable {event : PaymentCreatedEvent} {msg : Message} {max_retries : ℤ}

-- A consumer before it has updated the payment.
def Clean (p : Pid) (w : World) : Prop := w.store.writes p = []

def Loaded (p : Pid) (payment : Payment) (w : World) : Prop :=
  Clean p w ∧ (payment.status = .PENDING ∨ w.Attests payment)

-- The transaction has made the update that the payment was returned from.
def Updated (p : Pid) (payment : Payment) (w : World) : Prop :=
  w.store.aborted p = false ∧ payment.status ≠ .PENDING ∧ ∃ processed_at time,
    payment.processed_at = some processed_at ∧
      .update_payment payment.id payment.status processed_at time ∈ w.store.writes p

theorem stable_loaded (payment : Payment) :
    (frameLogic.inf (outcomes d)).Stable p (Loaded p payment) :=
  (stable_writes []).and ((Logic.Stable.const _ p _).or (stable_attests payment))

theorem stable_updated (payment : Payment) :
    (frameLogic.inf (outcomes d)).Stable p (Updated p payment) := by
  intro w w' hr hw
  unfold Updated
  rw [hr.1.aborted, hr.1.writes]
  exact hw

theorem get_payment_triple (id : UUID) :
    OutcomeTriple d A p (Clean p) (PaymentService.get_payment id) fun q => Loaded p q := by
  refine OutcomeTriple.bind (R := fun q w => Clean p w ∧ ∀ payment, q = some payment →
    payment.status = .PENDING ∨ w.Attests payment) ?_ fun q => ?_
  · refine Triple.perform (stable_writes []) fun w a result w' hi hw _ hp _ hg => ?_
    have hread : ∀ time ids result locks writes,
        (Statement.get_by_id id).verdict w.store p time ids = .succeeds result locks writes →
          writes = [] := by
      intro _ _ _ _ _ hv
      cases hv
      rfl
    refine ⟨hi.2.execute hg hp fun _ _ _ _ _ hv wr hwr => ?_, outcomes_guarantee, ?_⟩
    · rw [hread _ _ _ _ _ hv, hw] at hwr
      cases hwr
    obtain ⟨_, _, res, _, _, _, hv, rfl, rfl⟩ | ⟨_, _, _, _, _, _, rfl, _⟩ | ⟨_, _, rfl, _, _⟩ :=
      perform_execute hp
    · cases hv
      have hsame : w.store.take p [] [] = w.store := LockStore.take_nil ..
      refine ⟨(congrArg (LockStore.writes · p) hsame).trans hw, fun payment he => ?_⟩
      rw [visible_of_nil hw] at he
      exact hi.2.rows payment (Table.mem_of_find? he)
    · trivial
    · trivial
  · cases q with
    | none => exact Triple.ret fun _ _ _ => trivial
    | some payment => exact Triple.ret fun _ _ h => ⟨h.1, h.2 payment rfl⟩

theorem process_triple (service : ProcessingService) {P : World → Prop}
    (hP : (frameLogic.inf (outcomes d)).Stable p P) :
    OutcomeTriple d A p P service.process fun _ => P := by
  unfold ProcessingService.process
  simp only [Prog.bind_eq]
  refine OutcomeTriple.bind (idle_outcome rfl hP) fun _ => ?_
  refine OutcomeTriple.bind (idle_outcome rfl hP) fun _ => ?_
  exact OutcomeTriple.bind (idle_outcome rfl hP) fun _ => Triple.ret fun _ _ h => h

theorem update_triple (id : UUID) {status : PaymentStatusEnum} (hs : status ≠ .PENDING)
    (processed_at : DateTime) :
    OutcomeTriple d A p (Clean p)
      (PaymentRepository.update_processing_outcome id status processed_at)
      fun q w => ∀ payment, q = some payment → Updated p payment w := by
  refine Triple.perform (stable_writes []) fun w a result w' hi hw _ hp _ hg => ?_
  refine ⟨hi.2.execute hg hp fun _ _ _ _ _ hv wr hwr => ?_, outcomes_guarantee, ?_⟩
  · obtain ⟨_, _, rfl⟩ | ⟨_, _, _, _, _, rfl⟩ := update_payment_succeeds hv
    · rw [hw] at hwr
      cases hwr
    · rw [hw, List.nil_append, List.mem_singleton] at hwr
      subst hwr
      exact ⟨hs, fun _ => by rw [hw]; rfl⟩
  · obtain ⟨time, _, res, _, _, ha, hv, rfl, rfl⟩ | ⟨_, _, _, _, _, _, rfl, _⟩ |
      ⟨_, _, rfl, _, _⟩ := perform_execute hp
    · intro payment he
      obtain ⟨rfl, _, _⟩ | ⟨q, hq, rfl, _, _, rfl⟩ := update_payment_succeeds hv
      · cases he
      · cases he
        have hid : q.id = id := Table.key_of_find? hq
        refine ⟨ha, hs, processed_at, time, rfl, ?_⟩
        rw [World.fetch_store, World.take_store, LockStore.take_writes_self, List.mem_append,
          List.mem_singleton, Payment.set_outcome_id, hid]
        exact .inr rfl
    · trivial
    · trivial

theorem apply_processing_outcome_triple (id : UUID) (outcome : ProcessingOutcomeEnum) :
    OutcomeTriple d A p (Clean p) (PaymentService.apply_processing_outcome id outcome)
      fun q => Updated p q := by
  refine OutcomeTriple.bind (idle_outcome rfl (stable_writes [])) fun processed_at => ?_
  refine OutcomeTriple.bind (update_triple id (outcome_status_ne_pending outcome) processed_at)
    fun q => ?_
  cases q with
  | none => exact Triple.ret fun _ _ _ => trivial
  | some payment => exact Triple.ret fun _ _ h => h payment rfl

theorem commit_triple (payment : Payment) :
    OutcomeTriple d A p (Updated p payment) Async.commit fun _ w => w.Attests payment := by
  refine Triple.perform (stable_updated payment) fun w a result w' hi hw _ hp _ hg => ?_
  have hc := hi.2.commit (p := p) hi.1
  obtain ⟨rfl, rfl⟩ | ⟨x, rfl, rfl | rfl⟩ := perform_commit hp
  · obtain ⟨ha, hs, t, time, ht, hmem⟩ := hw
    refine ⟨hc, outcomes_guarantee, hs, t, ht, (p, w.store.writes p), ?_, time, hmem⟩
    rw [World.commit, if_neg (by simp [ha])]
    exact List.mem_append_right _ (List.mem_singleton_self _)
  · exact ⟨{ hi.2 with }, outcomes_guarantee, trivial⟩
  · exact ⟨{ hc with }, outcomes_guarantee, trivial⟩

theorem processed_payment_triple :
    OutcomeTriple d A p (Clean p) (processed_payment d.container event)
      fun payment w => w.Attests payment := by
  unfold processed_payment
  simp only [Prog.bind_eq]
  refine OutcomeTriple.bind (get_payment_triple event.payment_id) fun payment => ?_
  refine Triple.ite (fun _ => ?_) fun hs => ?_
  · refine OutcomeTriple.bind (process_triple _ (stable_loaded payment)) fun outcome => ?_
    refine OutcomeTriple.bind ((apply_processing_outcome_triple event.payment_id outcome).pre
      fun w h => h.1) fun payment => ?_
    exact OutcomeTriple.bind (commit_triple payment) fun _ => Triple.ret fun _ _ h => h
  · exact Triple.ret fun w _ h => h.2.resolve_left hs

-- The request of a webhook tells of a committed outcome.
theorem post_triple (payment : Payment) (event_id : UUID) (ts : ℤ) :
    OutcomeTriple d A p (fun w => w.Attests payment)
      (WebhookService.post payment (d.container.webhook_service.request payment event_id ts))
      fun _ _ => True := by
  refine Triple.tryCatch (R := fun _ _ => True) ?_ (fun _ _ _ _ => trivial) fun x => ?_
  · refine Triple.perform (stable_attests payment) fun w a result w' hi ha _ hp _ hg => ?_
    have posted : ∀ peer status_code, Attested d (w.post p
        (d.container.webhook_service.request payment event_id ts) peer status_code) := by
      intro peer status_code
      refine { hi.2 with posts := fun post hpost => ?_ }
      rcases List.mem_append.mp hpost with hpost | hpost
      · exact hi.2.posts post hpost
      · rw [List.mem_singleton] at hpost
        subst hpost
        exact ⟨payment, event_id, ts, rfl, ha⟩
    refine ⟨?_, outcomes_guarantee, trivial⟩
    obtain ⟨_, _, _, rfl⟩ | ⟨_, _, rfl | ⟨_, _, rfl | rfl⟩⟩ := perform_post hp
    · exact posted _ _
    · exact { hi.2 with }
    · exact posted _ _
    · exact { posted _ _ with }
  · cases x <;> exact Triple.ret fun _ _ _ => trivial

theorem send_triple (payment : Payment) :
    OutcomeTriple d A p (fun w => w.Attests payment) (d.container.webhook_service.send payment)
      fun _ _ => True := by
  unfold WebhookService.send
  simp only [Prog.bind_eq]
  refine OutcomeTriple.bind (R := fun _ w => w.Attests payment) ?_ fun _ => ?_
  · refine (Triple.only (validate_url_only _ _) (stable_attests payment)
      fun e he => aside_spec he.aside payment).post fun r w h => ?_
    cases r with
    | ok _ => exact h
    | error _ => trivial
  refine OutcomeTriple.bind (idle_outcome rfl (stable_attests payment)) fun event_id => ?_
  refine OutcomeTriple.bind (idle_outcome rfl (stable_attests payment)) fun now => ?_
  refine OutcomeTriple.bind (post_triple payment event_id _) fun response => ?_
  exact Triple.ite (fun _ => Triple.ret fun _ _ _ => trivial)
    fun _ => Triple.ret fun _ _ _ => trivial

theorem retry_aside (reason : String) :
    (_retry_or_dlq msg event reason max_retries).Only Effect.aside := by
  refine Prog.Only.bind (.ofExcept _) fun count => ?_
  exact Prog.Only.ite (.perform ⟨nofun, nofun, nofun⟩) (.perform ⟨nofun, nofun, nofun⟩)

theorem send_or_retry_triple (payment : Payment) :
    OutcomeTriple d A p (fun w => w.Attests payment)
      (send_or_retry d.container event msg max_retries payment) fun _ _ => True := by
  unfold send_or_retry
  refine Triple.tryCatch (send_triple payment) (fun _ _ _ h => h) fun x => ?_
  cases x with
  | WebhookSendError id reason code => exact aside_only (retry_aside reason)
  | _ => exact Triple.ret fun _ _ _ => trivial

theorem in_container_triple :
    OutcomeTriple d A p (Clean p) (in_container d.container event msg max_retries)
      fun _ _ => True := by
  unfold in_container
  simp only [Prog.bind_eq]
  iterate 4 refine OutcomeTriple.bind (idle_outcome rfl (stable_writes [])) fun _ => ?_
  refine OutcomeTriple.bind processed_payment_triple fun payment => ?_
  exact send_or_retry_triple payment

theorem on_exception_aside (x : Exn) : (on_exception x).Only Effect.aside :=
  Prog.Only.ite (.perform ⟨nofun, nofun, nofun⟩)
    (Prog.Only.ite (.perform ⟨nofun, nofun, nofun⟩) (.ret _))

theorem entrypoint_triple :
    OutcomeTriple d A p (Clean p) (_entrypoint d.container event msg) fun _ _ => True := by
  refine Triple.tryCatch (R := Ends Failed fun _ _ => True) ?_ (fun _ _ _ h => h)
    fun x => aside_only (on_exception_aside x)
  refine OutcomeTriple.bind (R := fun _ _ => True) ?_
    fun _ => aside_only (.perform (e := Effect.ack) ⟨nofun, nofun, nofun⟩)
  refine Triple.andThen in_container_triple fun r => ?_
  refine ((aside_only (.perform (e := Effect.close) ⟨nofun, nofun, nofun⟩)).pre
    fun _ _ => trivial).post fun s w _ => ?_
  cases s <;> cases r <;> trivial

end Handling

section Others

variable {d : Deployment} {A : Assumption Pid World Effect Answer} {p : Pid}

-- Requests and dispatchers update no payment.
def NoUpdates (p : Pid) (w : World) : Prop := ∀ wr ∈ w.store.writes p, wr.updates = false

def Effect.ofOthers (e : Effect) : Prop := e.ofRequest ∨ e.ofDispatcher

theorem stable_no_updates : (frameLogic.inf (outcomes d)).Stable p (NoUpdates p) := by
  intro w w' hr hw
  unfold NoUpdates
  rw [hr.1.writes]
  exact hw

theorem writes_of_others {stmt : Statement} (hs : (Effect.execute stmt).ofOthers) {s : Store}
    {time : DateTime} {ids : List UUID} {result : stmt.Result} {locks : List Resource}
    {writes : List Write} (h : stmt.verdict s p time ids = .succeeds result locks writes) :
    ∀ wr ∈ writes, wr.Outcome ∧ wr.updates = false := by
  cases stmt with
  | update_processing_outcome => exact (hs.elim id id).elim
  | insert_payment v =>
      obtain ⟨_, _, _, rfl, _, _, _, _, _, rfl⟩ := insert_payment_succeeds h
      simp only [List.mem_singleton, forall_eq]
      exact ⟨hs.resolve_right id, rfl⟩
  | insert_outbox v =>
      obtain ⟨_, _, _, _, rfl⟩ := insert_outbox_succeeds h
      simp [Write.Outcome, Write.updates]
  | get_by_id | get_by_idempotency_key =>
      cases h
      simp
  | scan_pending =>
      obtain ⟨_, rfl, _⟩ := scan_succeeds h
      simp
  | lock_pending =>
      obtain ⟨rfl, _⟩ := lock_succeeds h
      simp
  | mark_published =>
      obtain ⟨_, rfl, _⟩ | ⟨_, _, rfl⟩ := mark_succeeds h
      · simp
      · simp [Write.Outcome, Write.updates]
  | bump_attempt =>
      obtain ⟨_, rfl, _⟩ | ⟨_, _, rfl⟩ := bump_succeeds h
      · simp
      · simp [Write.Outcome, Write.updates]

theorem others_spec {e : Effect} (he : e.ofOthers) :
    CallSpec (machine d) A frameLogic (outcomes d) p (NoUpdates p) e fun _ => NoUpdates p := by
  intro w a result w' hi hw _ hp _ hg
  have kept : (w'.store.writes p = [] ∨ w'.store.writes p = w.store.writes p) → NoUpdates p w' := by
    intro h wr hwr
    rcases h with h | h <;> rw [h] at hwr
    · cases hwr
    · exact hw wr hwr
  have aside : e.aside → Attested d w' ∧ (outcomes d).Guarantee p w w' ∧ NoUpdates p w' :=
    fun h => ⟨hi.2.aside h hg hp, outcomes_guarantee, kept ((scope_perform hp).writes h.1 p)⟩
  cases e with
  | execute stmt =>
      have hall : ∀ time ids result locks writes,
          stmt.verdict w.store p time ids = .succeeds result locks writes →
            ∀ wr ∈ w.store.writes p ++ writes, wr.Outcome ∧ wr.updates = false := by
        intro _ _ _ _ _ hv wr hwr
        rcases List.mem_append.mp hwr with hwr | hwr
        · exact ⟨hi.2.writes p wr hwr, hw wr hwr⟩
        · exact writes_of_others he hv wr hwr
      refine ⟨hi.2.execute hg hp fun _ _ _ _ _ hv wr hwr => ?_, outcomes_guarantee, ?_⟩
      · obtain ⟨ho, hu⟩ := hall _ _ _ _ _ hv wr hwr
        exact ⟨ho, fun h => absurd h (by simp [hu])⟩
      · obtain hsame | ⟨_, _, _, _, _, hv, hsame⟩ := execute_writes hp
        · exact kept (.inr hsame)
        · intro wr hwr
          rw [hsame] at hwr
          exact (hall _ _ _ _ _ hv wr hwr).2
  | commit =>
      have hc := hi.2.commit (p := p) hi.1
      refine ⟨?_, outcomes_guarantee, kept ((scope_perform hp).writes nofun p)⟩
      obtain ⟨_, rfl⟩ | ⟨_, _, rfl | rfl⟩ := perform_commit hp
      · exact hc
      · exact { hi.2 with }
      · exact { hc with }
  | post => exact (he.elim id id).elim
  | _ => exact aside ⟨nofun, nofun, nofun⟩

theorem others_triple {prog : Async Unit} (h : prog.Only Effect.ofOthers) :
    Triple (machine d) A frameLogic (outcomes d) p (NoUpdates p) prog fun _ => NoUpdates p :=
  Triple.only h stable_no_updates fun _ he => others_spec he

end Others

section Soundness

variable (d : Deployment) (A : Assumption Pid World Effect Answer)

theorem attested_init : Attested d World.init := by
  constructor <;> simp [LockStore.empty, Tables.empty, Table.empty]

theorem outcomes_obliged : Obliged (machine d) A frameLogic (outcomes d) where
  launch pid l w prog w' hi hl ht hg := by
    obtain ⟨hj, hcases⟩ := launch_cases hl
    obtain ⟨hs, _, hlog⟩ := launch_same hl
    have hw : w'.store.writes pid = [] := by
      rw [hs]
      exact hi.1.fresh_writes pid hj
    have hn : Attested d w' := hi.2.same hg (by rw [hs]) (by rw [hlog]) (.inr (by rw [hs]))
    have hothers : ∀ {prog : Async Unit}, prog.Only Effect.ofOthers →
        wp (machine d) A frameLogic (outcomes d) pid prog (fun _ _ => True) w' := by
      intro prog ho
      exact wp_mono (others_triple ho w' ⟨ht, hn⟩ (by simp [NoUpdates, hw])) ⟨ht, hn⟩
        fun _ _ _ _ => trivial
    refine ⟨hn, outcomes_guarantee, ?_⟩
    obtain ⟨request, rfl, _⟩ | ⟨config, rfl, _⟩ | ⟨index, msg, event, _, _, rfl, _⟩ := hcases
    · exact hothers ((create_payment_only request).mono fun _ => .inl)
    · exact hothers (run_iteration_only.mono fun _ => .inr)
    · exact wp_mono (entrypoint_triple w' ⟨ht, hn⟩ hw) ⟨ht, hn⟩ fun _ _ _ _ => trivial
  crash pid w hi _ hg := by
    obtain ⟨hs, _, _, hl⟩ := @crash_same pid w
    have hn : Attested d (w.crash pid) :=
      hi.2.same hg (by rw [hs]; rfl) (by rw [hl]; rfl) (.inl (by rw [hs]; simp))
    exact ⟨hn, outcomes_guarantee, trivial⟩
  tick t w w' hi ht _ hf := by
    obtain ⟨hs, _, _, hl⟩ := tick_same ht
    exact ⟨@Attested.same _ 0 _ _ hi.2 (fun pid _ => hf pid) (by rw [hs]) (by rw [hl])
      (.inr (by rw [hs])), fun _ => trivial⟩

theorem outcomes_sound : Sound (machine d) A (frameLogic.inf (outcomes d)) SystemConfig.init :=
  (frame_sound d A).extend (outcomes_obliged d A) (attested_init d) fun _ => rfl

end Soundness

end PaymentsProcessor
