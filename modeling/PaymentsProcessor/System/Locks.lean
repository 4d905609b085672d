import PaymentsProcessor.Concurrency.Discipline
import PaymentsProcessor.System.Alphabets
import PaymentsProcessor.System.Processes
import PaymentsProcessor.System.Transactions

namespace PaymentsProcessor

open Python Storage Concurrency PaymentsConstants

-- The most that a process can hold in the tables: nothing, the payment that it
-- inserted and its key, or anything. `ended` is after a close that raised.
inductive Grip where
  | nothing
  | payment
  | anything
  | ended
deriving DecidableEq

-- Where a process stands: what it can hold, the rows of the outbox that it is
-- sure to hold, and whether it can still have a message to settle.
structure Hold where
  grip : Grip
  rows : List UUID
  message : Bool

namespace Hold

def idle : Hold := ⟨.nothing, [], false⟩

-- What a process asks for it asks for in this order: a payment, its row in the
-- outbox, and then only rows that it has locked.
def may (s : Hold) : Effect → Prop
  | .execute (.insert_payment _) | .execute (.update_processing_outcome ..) => s.grip = .nothing
  | .execute (.insert_outbox _) => s.grip = .nothing ∨ s.grip = .payment
  | .execute (.mark_published id _) | .execute (.bump_attempt id ..) => id ∈ s.rows
  | _ => True

def executed (s : Hold) : (stmt : Statement) → Except Exn stmt.Result → Hold
  | .get_by_id _, _ | .get_by_idempotency_key _, _ | .scan_pending .., _ => s
  | .insert_payment _, _ => { s with grip := .payment }
  | .lock_pending id now, r =>
      ⟨.anything, s.rows ++ World.fetches (.lock_pending id now) r, s.message⟩
  | .insert_outbox _, _ | .update_processing_outcome .., _ => { s with grip := .anything }
  | .mark_published .., _ | .bump_attempt .., _ => { s with grip := .anything }

def next (s : Hold) : (e : Effect) → Except Exn e.Result → Hold
  | .execute stmt, r => s.executed stmt r
  | .commit, .ok _ => ⟨.nothing, [], s.message⟩
  | .commit, .error _ => { s with rows := [] }
  | .close, .ok _ => ⟨.nothing, [], s.message⟩
  | .close, .error _ => ⟨.ended, [], s.message⟩
  | .ack, _ | .nack _, _ | .reject _, _ => { s with message := false }
  | _, _ => s

def discipline : Discipline Effect.Result Exn Hold := ⟨may, next⟩

-- The tables are done with.
def Closed (s : Hold) : Prop := s.grip = .nothing ∨ s.grip = .ended

-- How a process ends.
def Ends (r : Except Exn Unit) (s : Hold) : Prop :=
  s.Closed ∧ (s.message = false ∨ ∃ x, r = .error x ∧ x.isinstance .Exception = false)

-- The calls that change nothing about what is held.
def Mild : Effect → Prop
  | .execute _ | .commit | .close | .ack | .nack _ | .reject _ => False
  | _ => True

end Hold

section Programs

variable {s : Hold} {c : Container}

theorem follows_mild {α : Type} {p : Async α} (hp : p.Only Hold.Mild) :
    Hold.discipline.Follows (fun _ s' => s' = s) s p := by
  refine Discipline.Follows.only (I := fun s' => s' = s) hp (fun e he s' hs' => ?_) rfl
  cases e with
  | execute | commit | close | ack | nack | reject => exact he.elim
  | _ => exact ⟨trivial, fun r => hs'⟩

-- What changes nothing about what is held can come first.
theorem follows_after {α β : Type} {p : Async α} {f : α → Async β}
    {Q : Except Exn β → Hold → Prop} (hp : p.Only Hold.Mild)
    (hf : ∀ a, Hold.discipline.Follows Q s (f a)) (hx : ∀ x, Q (.error x) s) :
    Hold.discipline.Follows Q s (p.bind f) :=
  .bind (follows_mild hp) (fun a _ hs' => hs' ▸ hf a) fun x _ hs' => hs' ▸ hx x

theorem Effect.ofGuard.mild {e : Effect} (h : e.ofGuard) : Hold.Mild e := by
  cases e with
  | getaddrinfo => trivial
  | _ => exact h.elim

theorem follows_execute (stmt : Statement) {Q : Except Exn stmt.Result → Hold → Prop}
    (hmay : s.may (.execute stmt)) (hQ : ∀ r, Q r (s.executed stmt r)) :
    Hold.discipline.Follows Q s (Async.execute stmt) := .perform (e := Effect.execute stmt) hmay hQ

theorem follows_commit {Q : Except Exn Unit → Hold → Prop}
    (h : ∀ r s', s'.message = s.message → Q r s') :
    Hold.discipline.Follows Q s Async.commit :=
  .perform (e := Effect.commit) trivial fun r => h _ _ (by cases r <;> rfl)

-- A close ends the hold on the tables, whatever came before it.
theorem follows_close {α : Type} {p : Async α} {R Q : Except Exn α → Hold → Prop}
    (hp : Hold.discipline.Follows R s p)
    (h : ∀ r s', R r s' → ∀ s'', s''.Closed → s''.message = s'.message →
      Q r s'' ∧ ∀ x, Q (.error x) s'') :
    Hold.discipline.Follows Q s (p.andThen Async.close) := by
  refine .andThen hp fun r s' hr => .perform (e := Effect.close) trivial fun t => ?_
  cases t with
  | ok _ => exact (h r s' hr ⟨.nothing, [], s'.message⟩ (.inl rfl) rfl).1
  | error x => exact (h r s' hr ⟨.ended, [], s'.message⟩ (.inr rfl) rfl).2 x

section Requests

-- What a request is left with before its session is closed.
abbrev Unsettled (α : Type) : Except Exn α → Hold → Prop := fun _ s => s.message = false

variable (hs : s.grip = .nothing) (hm : s.message = false)
include hs hm

theorem insert_payment_follows (amount : Decimal) (currency : CurrencyEnum)
    (description : Option String) (meta_ : Option JsonDict) (idempotency_key webhook_url : String) :
    Hold.discipline.Follows (Unsettled Payment) s
      (PaymentService.insert_payment amount currency description meta_ idempotency_key
        webhook_url) := by
  refine .bind (R := fun _ s' => (s'.grip = .nothing ∨ s'.grip = .payment) ∧ s'.message = false)
    ?_ (fun payment s₁ h₁ => ?_) fun _ _ h => h.2
  · refine follows_after (.perform trivial) (fun id => ?_) fun _ => ⟨.inl hs, hm⟩
    exact follows_execute (.insert_payment _) hs fun _ => ⟨.inr rfl, hm⟩
  · refine .bind (R := Unsettled Outbox) ?_ (fun row s₂ h₂ => ?_) fun _ _ h => h
    · refine follows_after (.perform trivial) (fun id => ?_) fun _ => h₁.2
      exact follows_execute (.insert_outbox _) h₁.1 fun _ => h₁.2
    · exact follows_after (.perform trivial) (fun _ => .ret h₂) fun _ => h₂

theorem service_follows (self : PaymentService) (amount : Decimal) (currency : CurrencyEnum)
    (description : Option String) (meta_ : Option JsonDict) (idempotency_key webhook_url : String) :
    Hold.discipline.Follows (Unsettled (Payment × Bool)) s
      (self.create_payment amount currency description meta_ idempotency_key webhook_url) := by
  have hguard := (validate_url_only self.ssrf_guard webhook_url).mono fun _ h => h.mild
  refine follows_after hguard (fun _ => ?_) fun _ => hm
  refine .bind (R := fun _ s' => s'.grip = .nothing ∧ s'.message = false) ?_
    (fun existing s₁ h₁ => ?_) fun _ _ h => h.2
  · refine .bind (R := fun _ s' => s'.grip = .nothing ∧ s'.message = false)
      (follows_execute (.get_by_idempotency_key _) trivial fun _ => ⟨hs, hm⟩)
      (fun rows s' h => ?_) fun _ _ h => h
    split <;> exact .ret h
  · cases existing with
    | some existing =>
        exact .bind (R := fun _ s' => s'.message = false) (.ofExcept h₁.2)
          (fun _ _ h => .ret h) fun _ _ h => h
    | none =>
        refine .bind (R := Unsettled Payment) ?_ (fun payment s' h => .ret h) fun _ _ h => h
        refine .tryCatch (insert_payment_follows h₁.1 h₁.2 amount currency description meta_
          idempotency_key webhook_url) (fun _ _ h => h) fun x s' h => ?_
        cases x <;> exact .ret h

theorem handle_follows (request : CreateRequest) :
    Hold.discipline.Follows (Unsettled Payment) s (request.handle c) := by
  refine follows_after (.perform trivial) (fun _ => ?_) fun _ => hm
  refine .bind (service_follows hs hm _ _ _ _ _ _ _) (fun result s' h => ?_) fun _ _ h => h
  refine .ite (fun _ => ?_) fun _ => .ret h
  exact .bind (R := Unsettled Unit) (follows_commit fun _ _ he => he.trans h)
    (fun _ s' h => .ret h) fun _ _ h => h

omit hs in
theorem respond_error_follows (hc : s.Closed) (x : Exn) :
    Hold.discipline.Follows Hold.Ends s (respond_error x) := by
  refine .ite (fun _ => ?_) fun _ => .ret ⟨hc, .inl hm⟩
  refine follows_after (.perform trivial) (fun _ => ?_) fun _ => ⟨hc, .inl hm⟩
  exact .ret ⟨hc, .inl hm⟩

theorem create_payment_follows (request : CreateRequest) :
    Hold.discipline.Follows Hold.Ends s (create_payment c request) := by
  refine .bind (R := fun r s' => r.isOk ∧ s'.message = false)
    (.attempt ((handle_follows hs hm request).mono fun _ _ h => ⟨rfl, h⟩))
    (fun result s' h => ?_) fun _ _ h => absurd h.1 (by simp [Except.isOk, Except.toBool])
  have hm' : s'.message = false := h.2
  cases result with
  | ok payment =>
      refine follows_close (R := Unsettled Unit)
        (.perform (e := Effect.respond _) trivial fun _ => hm') fun _ s₁ h₁ s₂ hc he => ?_
      have hend : s₂.Closed ∧ s₂.message = false := ⟨hc, he.trans h₁⟩
      exact ⟨⟨hend.1, .inl hend.2⟩, fun _ => ⟨hend.1, .inl hend.2⟩⟩
  | error x =>
      refine .tryCatch (R := fun _ s₁ => s₁.Closed ∧ s₁.message = false) ?_
        (fun _ _ h => ⟨h.1, .inl h.2⟩) fun x s₁ h₁ => respond_error_follows h₁.2 h₁.1 x
      refine follows_close (R := Unsettled Unit) (.ofExcept hm') fun _ s₁ h₁ s₂ hc he => ?_
      exact ⟨⟨hc, he.trans h₁⟩, fun _ => ⟨hc, he.trans h₁⟩⟩

end Requests

section Batches

-- A batch keeps the rows that it has locked.
abbrev Locked (rows : List UUID) (α : Type) : Except Exn α → Hold → Prop := fun _ s =>
  rows ⊆ s.rows ∧ s.message = false

variable (hm : s.message = false)
include hm

theorem lock_rows_follows (now : DateTime) (ids : List UUID) (limit : ℕ) :
    Hold.discipline.Follows (fun r s' => s.rows ⊆ s'.rows ∧ s'.message = false ∧
        ∀ rows, r = .ok rows → ∀ row ∈ rows, row.id ∈ s'.rows) s
      (OutboxRepository.lock_rows now ids limit) := by
  induction ids generalizing s limit with
  | nil => exact .ret ⟨List.Subset.refl _, hm, fun _ hr => by cases hr; simp⟩
  | cons id ids ih =>
      cases limit with
      | zero => exact .ret ⟨List.Subset.refl _, hm, fun _ hr => by cases hr; simp⟩
      | succ limit =>
          refine .bind (R := fun r s' => s.rows ⊆ s'.rows ∧ s'.message = false ∧
              ∀ row, r = .ok (some row) → Outbox.id row ∈ s'.rows)
            (follows_execute (.lock_pending id now) trivial fun r => ?_)
            (fun row s₁ h₁ => ?_) fun x s' h => ⟨h.1, h.2.1, fun _ hr => by cases hr⟩
          · refine ⟨List.subset_append_left _ _, hm, fun row hr => ?_⟩
            subst hr
            exact List.mem_append_right _ (List.mem_singleton_self _)
          · obtain ⟨hsub, hm₁, hrow⟩ := h₁
            cases row with
            | none => exact (ih hm₁ _).mono fun r s' h => ⟨List.Subset.trans hsub h.1, h.2⟩
            | some row =>
                refine .bind (ih hm₁ limit) (fun rows s₂ h₂ => ?_)
                  fun x s' h => ⟨List.Subset.trans hsub h.1, h.2.1, fun _ hr => by cases hr⟩
                have hall : s.rows ⊆ s₂.rows := List.Subset.trans hsub h₂.1
                refine .ret ⟨hall, h₂.2.1, fun rows' hr row' hmem => ?_⟩
                cases hr
                rcases List.mem_cons.mp hmem with rfl | hmem
                · exact h₂.1 (hrow _ rfl)
                · exact h₂.2.2 rows rfl row' hmem

theorem process_row_follows (outbox_service : OutboxService) {row : Outbox}
    (hrow : row.id ∈ s.rows) :
    Hold.discipline.Follows (Locked s.rows Unit) s (_process_row outbox_service row) := by
  have hsub := List.Subset.refl s.rows
  refine .tryCatch (R := Locked s.rows Unit) ?_ (fun _ _ h => h) fun x s₁ h₁ => ?_
  · refine follows_after (.perform trivial) (fun _ => ?_) fun _ => ⟨hsub, hm⟩
    refine follows_after (.perform trivial) (fun _ => ?_) fun _ => ⟨hsub, hm⟩
    exact follows_execute (.mark_published _ _) hrow fun _ => ⟨hsub, hm⟩
  · refine .ite (fun _ => ?_) fun _ => .ret h₁
    refine follows_after (.ofExcept _) (fun _ => ?_) fun _ => h₁
    refine follows_after (.perform trivial) (fun _ => ?_) fun _ => h₁
    refine follows_after (.ofExcept _) (fun _ => ?_) fun _ => h₁
    refine follows_after (.ofExcept _) (fun _ => ?_) fun _ => h₁
    exact follows_execute (.bump_attempt _ _ _) (h₁.1 hrow) fun _ => h₁

theorem process_rows_follows (outbox_service : OutboxService) {rows : List Outbox}
    (hrows : ∀ row ∈ rows, row.id ∈ s.rows) :
    Hold.discipline.Follows (Locked s.rows Unit) s (_process_rows outbox_service rows) := by
  induction rows generalizing s with
  | nil => exact .ret ⟨List.Subset.refl _, hm⟩
  | cons row rows ih =>
      refine .bind (process_row_follows hm outbox_service (hrows row List.mem_cons_self))
        (fun _ s₁ h₁ => ?_) fun _ _ h => h
      have hrest := ih h₁.2 fun row' hrow' => h₁.1 (hrows row' (List.mem_cons_of_mem _ hrow'))
      exact hrest.mono fun _ _ h => ⟨List.Subset.trans h₁.1 h.1, h.2⟩

theorem process_batch_follows (batch_size : ℤ) :
    Hold.discipline.Follows (Unsettled ℕ) s (_process_batch c batch_size) := by
  refine follows_after (.perform trivial) (fun _ => ?_) fun _ => hm
  refine follows_after (.perform trivial) (fun _ => ?_) fun _ => hm
  refine .bind (R := fun r s' => s'.message = false ∧
      ∀ rows, r = .ok rows → ∀ row ∈ rows, row.id ∈ s'.rows) ?_
    (fun rows s₁ h₁ => ?_) fun _ _ h => h.1
  · refine follows_after (.perform trivial) (fun now => ?_)
      fun _ => ⟨hm, fun _ hr => by cases hr⟩
    refine .bind (R := Unsettled (List UUID))
      (follows_execute (.scan_pending _ _) trivial fun _ => hm) (fun ids s₁ h₁ => ?_)
      fun _ _ h => ⟨h, fun _ hr => by cases hr⟩
    exact (lock_rows_follows h₁ now ids _).mono fun _ _ h => h.2
  · have hrows := h₁.2 rows rfl
    refine .bind (process_rows_follows h₁.1 c.outbox_service hrows) (fun _ s₂ h₂ => ?_)
      fun _ _ h => h.2
    exact .bind (R := Unsettled Unit) (follows_commit fun _ _ he => he.trans h₂.2)
      (fun _ _ h => .ret h) fun _ _ h => h

theorem run_iteration_follows (config : OutboxDispatcherConfig) :
    Hold.discipline.Follows Hold.Ends s (_run_iteration c config) := by
  have hclosed : Hold.discipline.Follows (fun _ s' => s'.Closed ∧ s'.message = false) s
      ((_process_batch c config.OUTBOX_BATCH_SIZE).andThen Async.close) := by
    refine follows_close (process_batch_follows hm _) fun _ s₁ h₁ s₂ hc he => ?_
    exact ⟨⟨hc, he.trans h₁⟩, fun _ => ⟨hc, he.trans h₁⟩⟩
  refine .bind (R := fun _ s' => s'.Closed ∧ s'.message = false) ?_
    (fun processed s₁ h₁ => ?_) fun _ _ h => ⟨h.1, .inl h.2⟩
  · refine .tryCatch hclosed (fun _ _ h => h) fun x s' h => ?_
    exact .ite (fun _ => .ret h) fun _ => .ret h
  · refine .ite (fun _ => ?_) fun _ => .ret ⟨h₁.1, .inl h₁.2⟩
    have hsleep : (Async.sleep config.OUTBOX_POLL_INTERVAL_SECONDS).Only Hold.Mild :=
      .perform trivial
    exact (follows_mild hsleep).mono fun _ _ he => he ▸ ⟨h₁.1, .inl h₁.2⟩

end Batches

section Consumers

-- A consumer owes its message to the broker until the end.
abbrev Anyhow (α : Type) : Except Exn α → Hold → Prop := fun _ _ => True

theorem send_or_retry_mild (event : PaymentCreatedEvent) (msg : Message) (max_retries : ℤ)
    (payment : Payment) : (send_or_retry c event msg max_retries payment).Only Hold.Mild := by
  refine Prog.Only.tryCatch ?_ fun e => ?_
  · refine Prog.Only.bind ((validate_url_only ..).mono fun _ h => h.mild) fun _ => ?_
    refine Prog.Only.bind (.perform trivial) fun _ => Prog.Only.bind (.perform trivial) fun _ => ?_
    refine Prog.Only.bind (Prog.Only.tryCatch (.perform trivial) fun e => ?_)
      fun _ => Prog.Only.ite (.ret _) (.ret _)
    cases e <;> exact .ret _
  · cases e with
    | WebhookSendError id reason status_code =>
        refine Prog.Only.bind (.ofExcept _) fun count => ?_
        exact Prog.Only.ite (.perform trivial) (.perform trivial)
    | _ => exact .ret _

theorem process_mild (service : ProcessingService) : service.process.Only Hold.Mild := by
  refine Prog.Only.bind (.perform trivial) fun _ => Prog.Only.bind (.perform trivial) fun _ => ?_
  exact Prog.Only.bind (.perform trivial) fun _ => .ret _

variable (hs : s.grip = .nothing)
include hs

theorem processed_payment_follows (event : PaymentCreatedEvent) :
    Hold.discipline.Follows (Anyhow Payment) s (processed_payment c event) := by
  refine .bind (R := fun _ s' => s'.grip = .nothing) ?_ (fun payment s₁ h₁ => ?_)
    fun _ _ _ => trivial
  · refine .bind (R := fun _ s' => s'.grip = .nothing)
      (follows_execute (.get_by_id _) trivial fun _ => hs) (fun payment s' h => ?_) fun _ _ h => h
    cases payment <;> exact .ret h
  · refine .ite (fun _ => ?_) fun _ => .ret trivial
    refine follows_after (process_mild _) (fun outcome => ?_) fun _ => trivial
    refine .bind (R := Anyhow Payment) ?_ (fun payment s₂ _ => ?_) fun _ _ _ => trivial
    · refine follows_after (.perform trivial) (fun _ => ?_) fun _ => trivial
      refine .bind (R := Anyhow (Option Payment))
        (follows_execute (.update_processing_outcome _ _ _) h₁ fun _ => trivial)
        (fun payment _ _ => ?_) fun _ _ _ => trivial
      cases payment <;> exact .ret trivial
    · exact .bind (R := Anyhow Unit) (follows_commit fun _ _ _ => trivial)
        (fun _ _ _ => .ret trivial) fun _ _ _ => trivial

theorem in_container_follows (event : PaymentCreatedEvent) (msg : Message) (max_retries : ℤ) :
    Hold.discipline.Follows (Anyhow Unit) s (in_container c event msg max_retries) := by
  refine follows_after (.perform trivial) (fun _ => ?_) fun _ => trivial
  refine follows_after (.perform trivial) (fun _ => ?_) fun _ => trivial
  refine follows_after (.perform trivial) (fun _ => ?_) fun _ => trivial
  refine follows_after (.perform trivial) (fun _ => ?_) fun _ => trivial
  refine .bind (processed_payment_follows hs event) (fun payment s' _ => ?_) fun _ _ _ => trivial
  exact (follows_mild (send_or_retry_mild event msg max_retries payment)).mono fun _ _ _ => trivial

omit hs in
-- Only an exception outside of `Exception` leaves the message unsettled.
theorem on_exception_follows (hc : s.Closed) (x : Exn) :
    Hold.discipline.Follows Hold.Ends s (on_exception x) := by
  refine .ite (fun _ => ?_) fun _ => .ite (fun _ => ?_) fun hx => ?_
  · exact .perform (e := Effect.reject false) trivial fun _ => ⟨hc, .inl rfl⟩
  · exact .perform (e := Effect.nack false) trivial fun _ => ⟨hc, .inl rfl⟩
  · exact .ret ⟨hc, .inr ⟨x, rfl, by simpa using hx⟩⟩

theorem entrypoint_follows (event : PaymentCreatedEvent) (msg : Message) :
    Hold.discipline.Follows Hold.Ends s (_entrypoint c event msg) := by
  have hclosed : Hold.discipline.Follows (fun _ s' => s'.Closed) s
      ((in_container c event msg c.consumer_config.CONSUMER_MAX_RETRIES).andThen Async.close) :=
    follows_close (in_container_follows hs event msg _) fun _ _ _ _ hc _ => ⟨hc, fun _ => hc⟩
  refine .tryCatch (R := fun r s' => s'.Closed ∧ (r.isOk → s'.message = false)) ?_
    (fun _ _ h => ⟨h.1, .inl (h.2 rfl)⟩) fun x s' h => on_exception_follows h.1 x
  refine .bind hclosed (fun _ s' hc => ?_)
    fun _ _ hc => ⟨hc, fun h => absurd h (by simp [Except.isOk, Except.toBool])⟩
  exact .perform (e := Effect.ack) trivial fun _ => ⟨hc, fun _ => rfl⟩

end Consumers

end Programs

-- The process holds nothing in the tables.
structure Released (p : Pid) (w : World) : Prop where
  owner : ∀ k, w.store.owner k ≠ some p
  writes : w.store.writes p = []
  fetched : w.fetched p = []

-- `o` is whether closes and settlements are sure to be carried out.
def Grip.Bounds (o : Prop) (p : Pid) (w : World) : Grip → Prop
  | .nothing => Released p w
  | .payment => ∀ id, w.store.owner (.outbox id) ≠ some p
  | .anything => True
  | .ended => o → Released p w

structure Stands (o : Prop) (p : Pid) (s : Hold) (w : World) : Prop where
  started : w.jobs p ≠ none
  grip : s.grip.Bounds o p w
  rows : ∀ id ∈ s.rows, w.store.owner (.outbox id) = some p
  message : o → s.message = false → w.unacked p = none

def Answer.carried : Answer → Bool
  | .raised _ none => false
  | _ => true

-- A close is carried out, even where it raises, and so is the settlement of a
-- message that the process still has.
def orderly (p : Pid) (e : Effect) (a : Answer) (w : World) : Bool :=
  match e with
  | .close => a.carried
  | .ack | .nack _ | .reject _ => (w.unacked p).isNone || a.carried
  | _ => true

-- Who owns something in the tables was started.
def Owned (c : SystemConfig) : Prop := ∀ k p, c.world.store.owner k = some p → c.prog p ≠ none

section Worlds

variable {d : Deployment} {o : Prop} {p q : Pid} {w w' : World} {s : Hold}

theorem Grip.Bounds.mono {g : Grip} (h : g.Bounds o p w)
    (howner : ∀ k, w'.store.owner k = some p → w.store.owner k = some p)
    (hwrites : w'.store.writes p = w.store.writes p) (hfetched : w'.fetched p = w.fetched p) :
    g.Bounds o p w' := by
  have hreleased : Released p w → Released p w' := fun hr =>
    ⟨fun k hk => hr.owner k (howner k hk), hwrites.trans hr.writes, hfetched.trans hr.fetched⟩
  cases g with
  | nothing => exact hreleased h
  | payment => exact fun id hk => h id (howner _ hk)
  | anything => trivial
  | ended => exact fun ho => hreleased (h ho)

theorem Stands.frame (h : Stands o p s w) (hf : Frame p w w') : Stands o p s w' where
  started := hf.job ▸ h.started
  grip := h.grip.mono (fun k => (hf.owner k).mp) hf.writes hf.fetched
  rows id hid := (hf.owner _).mpr (h.rows id hid)
  message ho hm := by
    rcases hf.unacked with he | he
    · exact he.trans (h.message ho hm)
    · exact he

-- What does not touch the tables and takes no message leaves the hold as it is.
theorem Stands.same (h : Stands o p s w) (hj : w'.jobs = w.jobs)
    (hs : w'.store = w.store) (hf : w'.fetched = w.fetched) (hu : w'.unacked = w.unacked) :
    Stands o p s w' where
  started := hj ▸ h.started
  grip := h.grip.mono (fun k => by rw [hs]; exact id) (by rw [hs]) (by rw [hf])
  rows id hid := by
    rw [hs]
    exact h.rows id hid
  message ho hm := by
    rw [hu]
    exact h.message ho hm

theorem released_rollback : Released p (w.rollback p) where
  owner k := LockStore.rollback_owner_self w.store k
  writes := LockStore.rollback_writes_self w.store p
  fetched := Function.update_self ..

theorem released_commit : Released p (w.commit p) := by
  refine ⟨fun k => ?_, commit_writes_self, commit_fetched_self⟩
  unfold World.commit
  split
  · exact LockStore.rollback_owner_self w.store k
  · simp

theorem Released.bounds (h : Released p w) (g : Grip) : g.Bounds o p w := by
  cases g with
  | nothing => exact h
  | payment => exact fun id => h.owner _
  | anything => trivial
  | ended => exact fun _ => h

theorem Released.fail (h : Released p w) : Released p (w.fail p) := ⟨h.1, h.2, h.3⟩

-- A statement that locks nothing.
theorem execute_locks_none {stmt : Statement} {a : Answer} {result : Except Exn stmt.Result}
    (hstmt : ∀ time ids result locks writes,
      stmt.verdict w.store p time ids = .succeeds result locks writes →
        locks = [] ∧ writes = [])
    (h : World.perform d p (.execute stmt) a w = some (result, w')) :
    (∀ k, w'.store.owner k = some p → w.store.owner k = some p) ∧
      w'.store.writes p = w.store.writes p := by
  refine ⟨fun k hk => ?_, ?_⟩
  · rcases execute_owner h hk with hk | ⟨_, _, _, _, _, hv, hmem⟩
    · exact hk
    · rw [(hstmt _ _ _ _ _ hv).1] at hmem
      cases hmem
  · rcases execute_writes h with he | ⟨_, _, _, _, _, hv, he⟩
    · exact he
    · rw [he, (hstmt _ _ _ _ _ hv).2, List.append_nil]

theorem Stands.execute {stmt : Statement} {a : Answer} {result : Except Exn stmt.Result}
    (hw : Tidy w) (h : Stands o p s w) (hmay : s.may (.execute stmt))
    (hp : World.perform d p (.execute stmt) a w = some (result, w')) :
    Stands o p (s.executed stmt result) w' := by
  have hscope : Scope .execute w w' := scope_perform hp
  have hj : w'.jobs p ≠ none := hscope.jobs ▸ h.started
  have hrows : ∀ id ∈ s.rows, w'.store.owner (.outbox id) = some p :=
    fun id hid => owner_kept hp (h.rows id hid)
  have hmessage : o → s.message = false → w'.unacked p = none := fun ho hm => by
    rw [hscope.unacked (by decide)]
    exact h.message ho hm
  have hread : (∀ time ids result locks writes,
      stmt.verdict w.store p time ids = .succeeds result locks writes →
        locks = [] ∧ writes = []) → (∀ id now, stmt ≠ .lock_pending id now) →
          s.grip.Bounds o p w' := by
    intro hv hne
    obtain ⟨howner, hwrites⟩ := execute_locks_none hv hp
    exact h.grip.mono howner hwrites (by rw [execute_fetches_none hne hp])
  cases stmt with
  | get_by_id id =>
      have hv := hread (fun _ _ _ _ _ hv => by cases hv; exact ⟨rfl, rfl⟩) (by simp)
      exact ⟨hj, hv, hrows, hmessage⟩
  | get_by_idempotency_key key =>
      have hv := hread (fun _ _ _ _ _ hv => by cases hv; exact ⟨rfl, rfl⟩) (by simp)
      exact ⟨hj, hv, hrows, hmessage⟩
  | scan_pending limit now =>
      have hv := hread
        (fun _ _ _ _ _ hv => ⟨(scan_succeeds hv).1, (scan_succeeds hv).2.1⟩) (by simp)
      exact ⟨hj, hv, hrows, hmessage⟩
  | insert_payment values =>
      refine ⟨hj, fun id hk => ?_, hrows, hmessage⟩
      have hgrip : Released p w := by
        have hgrip := h.grip
        rw [show s.grip = .nothing from hmay] at hgrip
        exact hgrip
      rcases execute_owner hp hk with hk | ⟨_, _, _, _, _, hv, hmem⟩
      · exact hgrip.owner _ hk
      · obtain ⟨_, _, _, _, _, _, _, _, rfl, _⟩ := insert_payment_succeeds hv
        simp at hmem
  | lock_pending id now =>
      refine ⟨hj, trivial, fun row hrow => ?_, hmessage⟩
      rcases List.mem_append.mp hrow with hrow | hrow
      · exact hrows row hrow
      · have ht : Tidy w' := (owns_perform hw h.started hp).tidy
        apply ht.fetched p
        rw [execute_fetched hp, Function.update_self]
        exact List.mem_append_right _ hrow
  | insert_outbox | update_processing_outcome | mark_published | bump_attempt =>
      exact ⟨hj, trivial, hrows, hmessage⟩

theorem perform_close_carried {a : Answer} {result : Except Exn Unit} (ha : a.carried)
    (h : World.perform d p .close a w = some (result, w')) : Released p w' := by
  cases a with
  | reply r =>
      cases r <;> cases h
      exact released_rollback
  | raised x carried_out =>
      cases carried_out with
      | none => cases ha
      | some r =>
          cases r <;> cases h
          exact released_rollback.fail

theorem unacked_requeue : (w.requeue p).unacked p = none := by
  unfold World.requeue
  split
  · assumption
  · simp

theorem unacked_refuse (requeue : Bool) (x_death : HeaderValue) :
    (w.refuse d p requeue x_death).unacked p = none := by
  unfold World.refuse
  split
  · exact unacked_requeue
  · split
    · assumption
    · simp

theorem perform_settled {e : Effect} (he : e.kind = .settle) {a : Answer}
    {result : Except Exn e.Result} (ha : w.unacked p = none ∨ a.carried)
    (h : World.perform d p e a w = some (result, w')) : w'.unacked p = none := by
  have hcarry : ∀ r result' w₁, w.carry_out d p e r = some (result', w₁) →
      w₁.unacked p = none := by
    intro r result' w₁ hc
    cases e with
    | ack =>
        cases r with
        | done =>
            obtain ⟨_, _, he⟩ := Option.map_eq_some_iff.mp hc
            cases he
            simp
        | _ => cases hc
    | nack | reject =>
        cases r with
        | dead x_death =>
            obtain ⟨_, _, he⟩ := Option.map_eq_some_iff.mp hc
            cases he
            exact unacked_refuse _ x_death
        | _ => cases hc
    | _ => cases he
  have hsame : ∀ returned (w₁ : World), (w₁.answered p returned e).unacked = w₁.unacked ∧
      (w₁.handed p e result).unacked = w₁.unacked := by
    intro returned w₁
    cases e with
    | ack | nack | reject => exact ⟨rfl, rfl⟩
    | _ => cases he
  cases a with
  | reply r =>
      obtain ⟨⟨result', w₁⟩, hc, he⟩ := Option.map_eq_some_iff.mp h
      cases he
      rw [(hsame _ _).1, (hsame true _).2]
      exact hcarry _ _ _ hc
  | raised x carried_out =>
      simp only [World.perform] at h
      split at h
      · cases carried_out with
        | none =>
            cases h
            rw [(hsame _ _).1]
            exact ha.resolve_right (by simp [Answer.carried])
        | some r =>
            obtain ⟨⟨result', w₁⟩, hc, he⟩ := Option.map_eq_some_iff.mp h
            cases he
            rw [(hsame _ _).1]
            exact hcarry r result' w₁ hc
      · cases h

theorem Stands.perform {e : Effect} {a : Answer} {result : Except Exn e.Result} (hw : Tidy w)
    (ha : o → orderly p e a w)
    (h : Stands o p s w) (hmay : s.may e)
    (hp : World.perform d p e a w = some (result, w')) :
    Stands o p (s.next e result) w' := by
  have hs := scope_perform hp
  have hj : w'.jobs p ≠ none := hs.jobs ▸ h.started
  have hmild : e.kind ≠ .execute → e.kind ≠ .commit → e.kind ≠ .close →
      e.kind ≠ .settle → Stands o p s w' := fun h₁ h₂ h₃ h₄ =>
    h.same hs.jobs (hs.store h₁ h₂ h₃) (hs.fetched h₁ h₂ h₃) (hs.unacked h₄)
  have hmessage : e.kind ≠ .settle → o → s.message = false → w'.unacked p = none := by
    intro hk ho hm
    rw [hs.unacked hk]
    exact h.message ho hm
  have hsettle : e.kind = .settle → (o → w.unacked p = none ∨ a.carried) →
      Stands o p { s with message := false } w' := by
    intro hk hcarried
    have hstore : w'.store = w.store := hs.store (by simp [hk]) (by simp [hk]) (by simp [hk])
    have hfetched : w'.fetched = w.fetched :=
      hs.fetched (by simp [hk]) (by simp [hk]) (by simp [hk])
    have hsame : Stands o p s { w' with unacked := w.unacked } :=
      h.same hs.jobs hstore hfetched rfl
    exact ⟨hj, hsame.grip.mono (fun _ hk => hk) rfl rfl, hsame.rows,
      fun ho _ => perform_settled hk (hcarried ho) hp⟩
  cases e with
  | execute stmt => exact h.execute hw hmay hp
  | commit =>
      obtain ⟨rfl, rfl⟩ | ⟨x, rfl, hc⟩ := perform_commit hp
      · exact ⟨hj, released_commit, by simp [Hold.next], hmessage (by decide)⟩
      · refine ⟨hj, ?_, by simp [Hold.next], hmessage (by decide)⟩
        rcases hc with rfl | rfl
        · exact h.grip.mono (fun _ hk => hk) rfl rfl
        · exact (released_commit.fail).bounds s.grip
  | close =>
      obtain ⟨rfl, rfl⟩ | ⟨x, rfl, hc⟩ := perform_close hp
      · exact ⟨hj, released_rollback, by simp [Hold.next], hmessage (by decide)⟩
      · exact ⟨hj, fun ho => perform_close_carried (ha ho) hp, by simp [Hold.next],
          hmessage (by decide)⟩
  | ack => exact hsettle rfl fun ho => by simpa [orderly] using ha ho
  | nack requeue => exact hsettle rfl fun ho => by simpa [orderly] using ha ho
  | reject requeue => exact hsettle rfl fun ho => by simpa [orderly] using ha ho
  | _ =>
      exact hmild (by simp [Effect.kind]) (by simp [Effect.kind]) (by simp [Effect.kind])
        (by simp [Effect.kind])

end Worlds

section Runs

variable {d : Deployment} {A : Assumption Pid World Effect Answer} {c c' : SystemConfig}

theorem Manned.started (h : Manned c) {p : Pid} (hp : c.prog p ≠ none) :
    c.world.jobs p ≠ none := by
  obtain ⟨prog, hprog⟩ := Option.ne_none_iff_exists'.mp hp
  obtain ⟨job, hjob, _⟩ := h.programs p prog hprog
  rw [hjob]
  exact Option.some_ne_none job

theorem Owned.update (h : Owned c) {p : Pid} {prog : Async Unit} {w : World}
    (ho : ∀ q, q ≠ p → ∀ k, w.store.owner k = some q → c.world.store.owner k = some q) :
    Owned ⟨w, Function.update c.prog p (some prog)⟩ := by
  intro k q hk
  show Function.update c.prog p (some prog) q ≠ none
  by_cases hq : q = p
  · rw [hq, Function.update_self]
    exact Option.some_ne_none prog
  · rw [Function.update_of_ne hq]
    exact h k q (ho q hq k hk)

theorem Owned.step {l : Label Pid World.Launch Answer World.Tick} (hw : Tidy c.world)
    (hm : Manned c) (h : Owned c) (he : c.exec (machine d) l = some c') : Owned c' := by
  cases l with
  | launch p l =>
      simp only [Config.exec] at he
      split at he
      · cases he
      obtain ⟨⟨prog, w'⟩, hl, rfl⟩ := Option.map_eq_some_iff.mp he
      exact h.update fun q _ k hk => (launch_same hl).1 ▸ hk
  | call p a =>
      simp only [Config.exec] at he
      split at he
      · rename_i e k hp
        obtain ⟨⟨result, w'⟩, hw', rfl⟩ := Option.map_eq_some_iff.mp he
        have hj : c.world.jobs p ≠ none := hm.started (by rw [hp]; exact Option.some_ne_none _)
        exact h.update fun q hq k => (((owns_perform hw hj hw').frame q hq).owner k).mp
      · cases he
  | crash p =>
      simp only [Config.exec] at he
      split at he
      · cases he
      cases he
      exact h.update fun q hq k => (((owns_crash (p := p) hw).frame q hq).owner k).mp
  | tick t =>
      obtain ⟨w', ht, rfl⟩ := Option.map_eq_some_iff.mp he
      exact fun k q hk => h k q ((tick_same ht).1 ▸ hk)

theorem reachable_tidy (h : Reachable d A c) : Tidy c.world := (frame_sound d A).inv c h

theorem reachable_owned (h : Reachable d A c) : Owned c := by
  induction h with
  | refl => exact fun _ _ hk => by cases hk
  | tail hrun hstep ih =>
      obtain ⟨l, _, he⟩ := hstep
      exact ih.step (reachable_tidy hrun) (reachable_manned hrun) he

-- A process that was not started owns nothing.
def holdLogic : Logic Pid World where
  inv w := Tidy w ∧ ∀ k p, w.store.owner k = some p → w.jobs p ≠ none
  rely := Frame
  done _ _ := True
  rely_refl := Frame.refl
  rely_trans _ _ _ _ := Frame.trans
  done_stable _ _ _ _ _ := trivial

theorem hold_sound (d : Deployment) (A : Assumption Pid World Effect Answer) :
    Sound (machine d) A holdLogic SystemConfig.init where
  inv _ h := ⟨reachable_tidy h, fun k p hk =>
    (reachable_manned h).started (reachable_owned h k p hk)⟩
  rely := (frame_sound d A).rely
  done _ _ _ _ _ := trivial

theorem released_fresh {p : Pid} {w : World} (h : holdLogic.inv w) (hj : w.jobs p = none) :
    Released p w where
  owner k hk := h.2 k p hk hj
  writes := h.1.fresh_writes p hj
  fetched := by
    refine List.eq_nil_iff_forall_not_mem.mpr fun id hid => ?_
    exact h.2 _ p (h.1.fetched p id hid) hj

-- A world that differs in where the messages are holds the same in the tables.
theorem Released.same {p : Pid} {w w' : World} (h : Released p w) (hs : w'.store = w.store)
    (hf : w'.fetched = w.fetched) : Released p w' where
  owner k := by
    rw [hs]
    exact h.owner k
  writes := by
    rw [hs]
    exact h.writes
  fetched := by
    rw [hf]
    exact h.fetched

theorem holds_interprets {o : Prop}
    (hA : o → ∀ p e a w, A p e a w → orderly p e a w) :
    Hold.discipline.Interprets (machine d) A holdLogic (fun _ => True) Hold.Ends (Stands o) where
  launch p l w prog w' hi _ hl := by
    refine ⟨trivial, ?_⟩
    obtain ⟨hs, hf, _⟩ := launch_same hl
    obtain ⟨job, _, hjobs, _⟩ := launched_only hl
    have hj : w'.jobs p ≠ none := by
      rw [hjobs, Function.update_self]
      exact Option.some_ne_none job
    obtain ⟨hfresh, hcases⟩ := launch_cases hl
    have hr : Released p w' := (released_fresh hi hfresh).same hs hf
    have hu := hi.1.fresh_unacked p hfresh
    have hidle : w'.unacked = w.unacked → Stands o p .idle w' := fun he =>
      ⟨hj, hr, by simp [Hold.idle], fun _ _ => he ▸ hu⟩
    obtain ⟨request, rfl, rfl⟩ | ⟨config, rfl, rfl⟩ | ⟨_, msg, event, _, _, rfl, rfl⟩ :=
      hcases
    · exact ⟨.idle, hidle rfl, create_payment_follows rfl rfl request⟩
    · exact ⟨.idle, hidle rfl, run_iteration_follows rfl config⟩
    · exact ⟨⟨.nothing, [], true⟩, ⟨hj, hr, by simp, fun _ hm => by cases hm⟩,
        entrypoint_follows rfl event msg⟩
  call p e a w r w' s hi _ _ _ ha hp hs hmay :=
    ⟨trivial, hs.perform hi.1 (fun ho => hA ho p e a w ha) hmay hp⟩
  crash p w s hi _ hs := by
    refine ⟨trivial, ?_⟩
    obtain ⟨hstore, hf, hj, _⟩ := @crash_same p w
    have hr : Released p (w.crash p) := released_rollback.same hstore hf
    exact ⟨.idle, ⟨hj ▸ hs.started, hr, by simp [Hold.idle], fun _ _ => unacked_requeue⟩,
      .inl rfl, .inl rfl⟩
  tick _ _ _ _ _ _ := trivial
  rely p w w' s hr hs := hs.frame hr

-- In every run each process follows the discipline from what it holds.
theorem reachable_disciplined {o : Prop} (hA : o → ∀ p e a w, A p e a w → orderly p e a w)
    (h : Reachable d A c) : c.Disciplined Hold.discipline Hold.Ends (Stands o) :=
  ((hold_sound d A).disciplined (holds_interprets hA) trivial (fun _ => rfl) h).2

end Runs

end PaymentsProcessor
