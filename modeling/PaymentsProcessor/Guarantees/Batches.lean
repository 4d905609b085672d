import PaymentsProcessor.Guarantees.Backoff
import PaymentsProcessor.Guarantees.Payments
import PaymentsProcessor.OutboxDispatcher.Batches

namespace PaymentsProcessor

open Python Storage Concurrency PaymentsConstants

-- With positive settings, `t` is later than `now` by the exact backoff.
def BackedOff (service : OutboxService) (attempts : ℕ) (now t : DateTime) : Prop :=
  Positive service.outbox_dispatcher_config.OUTBOX_BACKOFF_INITIAL_SECONDS →
    Positive service.outbox_dispatcher_config.OUTBOX_BACKOFF_MAX_SECONDS → ∃ seconds : ℚ,
      exact_backoff service.outbox_dispatcher_config attempts = seconds ∧ t = later now seconds

-- What a batch makes of a row, by how the row's publish call has ended. The
-- times are those that the batch reads right after this call.
inductive RowSettled (service : OutboxService) (trace : List Call) (row : Outbox) :
    Except Exn Unit → Outbox → Prop where
  | published (published_at time : DateTime)
      (hclock : [⟨publish_row row, .ok ()⟩, ⟨.now, .ok published_at⟩] <:+: trace) :
      RowSettled service trace row (.ok ())
        { row with
          status := .PUBLISHED
          published_at := some published_at
          last_error := none
          updated_at := some time }
  | failed (x : Exn) (now t time : DateTime)
      (hclock : [⟨publish_row row, .error x⟩, ⟨.now, .ok now⟩] <:+: trace)
      (hnext : next_attempt service row.attempts now = .ok t)
      (hdelay : BackedOff service row.attempts now t) :
      RowSettled service trace row (.error x)
        { row with
          attempts := row.attempts + 1
          last_error := some x.str
          next_attempt_at := t
          updated_at := some time }

-- A batch that has returned: which rows it was given, how it has handed them to
-- the publisher, and how the tables differ since.
structure BatchSettled (service : OutboxService) (trace : List Call) (c c' : Tables) : Prop where
  pending : ∀ row ∈ fetched trace, row ∈ c.outbox.rows ∧ row.status = .PENDING
  distinct : ((fetched trace).map (·.id)).Nodup
  ordered : (fetched trace).Pairwise fun a b => a.before b
  payments : c'.payments = c.payments
  rows : ∃ (outcomes : List (Outbox × Except Exn Unit)) (change : Outbox → Outbox),
    outcomes.map (·.1) = fetched trace ∧
      handed trace = outcomes.map (fun outcome => ⟨publish_row outcome.1, outcome.2⟩) ∧
      c'.outbox.rows = c.outbox.rows.map change ∧
      (∀ row ∈ c.outbox.rows, row ∉ fetched trace → change row = row) ∧
      ∀ outcome ∈ outcomes, RowSettled service trace outcome.1 outcome.2 (change outcome.1)

section Batch

variable {d : Deployment} {p : Pid} {w w' : World} {trace : List Call}
variable {container : Container} {batch_size : ℤ}

theorem backed_off {service : OutboxService} {attempts : ℕ} {now t : DateTime}
    (h : next_attempt service attempts now = .ok t) : BackedOff service attempts now t := by
  intro hinitial hcap
  obtain ⟨_, seconds, hexact, _, ht⟩ := (next_attempt_eq_iff hinitial hcap).mp h
  exact ⟨seconds, hexact, ht⟩

theorem row_settled {service : OutboxService} {deal : Deal} (h : deal.Valid service)
    (hcalls : deal.calls <:+: trace) :
    RowSettled service trace deal.row deal.answer (deal.write.change deal.row) := by
  cases h with
  | published row published_at time =>
      have hclock := (List.take_prefix 2 _).isInfix.trans hcalls
      have hchange : (Write.publish_outbox row.id published_at time).change row =
          row.set_published published_at time := if_pos rfl
      exact hchange ▸ .published published_at time hclock
  | @failed row x now t time hnext =>
      have hclock := (List.take_prefix 2 _).isInfix.trans hcalls
      have hchange : (Write.bump_outbox row.id x.str t time).change row =
          row.set_attempt x.str t time := if_pos rfl
      exact hchange ▸ .failed x now t time hclock hnext (backed_off hnext)

theorem batch_settled {service : OutboxService} {c : Tables} {deals : List Deal}
    (h : Dispatched service c (fetched trace) deals)
    (hh : handed trace = deals.map (fun deal => ⟨publish_row deal.row, deal.answer⟩))
    (hcalls : ∀ deal ∈ deals, deal.calls <:+: trace) :
    BatchSettled service trace c
      (LockStore.applyAll Write.writing (deals.map (·.write)) c) := by
  obtain ⟨hpayments, hrows⟩ := applyAll_deals h.valid c
  refine ⟨h.found, h.ids, h.ordered, hpayments, ?_⟩
  refine ⟨deals.map fun deal => (deal.row, deal.answer), changes (deals.map (·.write)), ?_, ?_,
    hrows, fun row hrow hnot => ?_, ?_⟩
  · rw [← h.dealt, List.map_map]
    rfl
  · rw [hh, List.map_map]
    rfl
  · apply changes_untouched
    intro wr hwr
    obtain ⟨deal, hdeal, rfl⟩ := List.mem_map.mp hwr
    have hfetched : deal.row ∈ fetched trace := h.dealt ▸ List.mem_map_of_mem hdeal
    have hne : row.id ≠ deal.row.id := fun he =>
      hnot (Table.eq_of_key_eq hrow (h.found _ hfetched).1 he ▸ hfetched)
    simpa [(h.valid deal hdeal).touches] using hne
  · intro outcome houtcome
    obtain ⟨deal, hdeal, rfl⟩ := List.mem_map.mp houtcome
    have hids : (deals.map (·.row.id)).Nodup := by
      have := h.ids
      rwa [← h.dealt, List.map_map] at this
    rw [changes_deal h.valid hids hdeal]
    exact row_settled (h.valid deal hdeal) (hcalls deal hdeal)

-- The calls of one batch, with the answers that they get, from a transaction
-- that has done nothing yet.
theorem batch_is_all_or_nothing {result : Except Exn ℕ}
    (h : Exec (_process_batch container batch_size) trace result)
    (ht : Threads (machine d) faults_undo p w trace w') (hopen : w.store.aborted p = false)
    (hnew : w.store.writes p = []) :
    match result with
    | .ok processed => processed = (fetched trace).length ∧
        BatchSettled container.outbox_service trace w.store.contents w'.store.contents
    | .error _ => w'.store.contents = w.store.contents := by
  rw [process_batch_eq] at h
  obtain ⟨first, r, rest, rfl, hfirst, hrest⟩ := Exec.bind_iff.mp h
  obtain ⟨w₁, ht₁, ht₂⟩ := Threads.append_iff.mp ht
  replace ht₁ := ht₁.mono fun _ _ _ _ hA => hA.1
  -- nothing is committed before the rows are through
  have hsame : w₁.store.contents = w.store.contents := by
    apply alone_contents ht₁
    intro call hcall hcommit
    have hbatch := Exec.of_only (dispatched_rows_only batch_size) hfirst call hcall
    obtain ⟨e, answer⟩ := call
    cases e with
    | commit => exact hbatch
    | _ => cases hcommit
  cases r with
  | error x =>
      obtain ⟨rfl, rfl⟩ := hrest
      obtain rfl := Threads.nil_iff.mp ht₂
      exact hsame
  | ok rows =>
      obtain ⟨second, answer, third, rfl, hcommit, hlast⟩ := Exec.bind_iff.mp hrest
      obtain rfl := Exec.perform_iff.mp hcommit
      obtain ⟨_, w₂, hA, hp, ht₃⟩ := Threads.cons_iff.mp ht₂
      obtain ⟨rfl, rfl⟩ | ⟨x, rfl, rfl⟩ := undone_commit hA hp
      · obtain ⟨rfl, rfl⟩ := Exec.ret_iff.mp hlast
        obtain rfl := Threads.nil_iff.mp ht₃
        obtain ⟨deals, hdispatched, hu, hfetched, hh, hcalls⟩ :=
          alone_dispatched hfirst ht₁ ⟨rfl, hopen, hnew⟩
        have hfetched' : fetched (first ++ [⟨.commit, .ok ()⟩]) = rows := by
          rw [fetched_append, hfetched]
          exact List.append_nil _
        have hcontents : (w₁.commit p).store.contents =
            LockStore.applyAll Write.writing (deals.map (·.write)) w.store.contents := by
          simp [World.commit, hu.aborted, LockStore.commit, LockStore.view, hu.writes, hu.contents]
        refine ⟨congrArg List.length hfetched'.symm, ?_⟩
        show BatchSettled _ _ _ (w₁.commit p).store.contents
        rw [hcontents]
        refine batch_settled (hfetched' ▸ hdispatched) ?_ fun deal hdeal => ?_
        · rw [handed_append, hh]
          exact List.append_nil _
        · exact (hcalls deal hdeal).trans (List.prefix_append _ _).isInfix
      · obtain ⟨rfl, rfl⟩ := hlast
        obtain rfl := Threads.nil_iff.mp ht₃
        exact hsame

end Batch

namespace Scenario

def due_row (id : ℕ) : Outbox := { new_row with id, aggregate_id := id, payload := event_payload id }

-- Two rows are due, and nothing else has happened yet.
def two_due : World :=
  { World.init with
    store := { World.init.store with
      contents := ⟨.empty, ⟨[due_row 7, due_row 8], by decide⟩⟩ } }

def undoes : Pid → Effect → Answer → World → Bool
  | _, .execute _, .raised .., _ => false
  | _, .commit, .raised _ (some _), _ => false
  | _, _, _, _ => true

theorem undoes_sound (pid : Pid) (e : Effect) (a : Answer) (w : World) (h : undoes pid e a w) :
    faults_undo pid e a w := by
  constructor
  · cases e <;> cases a <;> trivial
  · cases e with
    | commit =>
        cases a with
        | reply => trivial
        | raised x carried_out => cases carried_out <;> trivial
    | _ => trivial

-- The broker takes the first row and fails at the second one.
def one_published : List Answer :=
  [.reply .done, .reply .done, .reply (.time 10), .reply (.executed 10 [7, 8]),
    .reply (.executed 10 []), .reply (.executed 10 []),
    .reply .done, .reply (.time 11), .reply (.executed 11 []),
    .raised broker_down none, .reply (.time 12), .reply (.executed 12 []),
    .reply .done]

end Scenario

theorem half_published_batch : ∃ trace w',
    Exec (_process_batch Scenario.deployment.container 2) trace (.ok 2) ∧
      Threads (machine Scenario.deployment) faults_undo 1 Scenario.two_due trace w' ∧
      2 = (fetched trace).length ∧ BatchSettled Scenario.deployment.container.outbox_service trace
        Scenario.two_due.store.contents w'.store.contents := by
  have hrun : ((machine Scenario.deployment).solo Scenario.undoes 1
      (_process_batch Scenario.deployment.container 2) Scenario.two_due
      Scenario.one_published).any fun run => run.2.1.toOption = some 2 := by decide +kernel
  obtain ⟨⟨trace, result, w'⟩, hsolo, hresult⟩ := (Option.any_eq_true _ _).mp hrun
  obtain ⟨hexec, hthreads⟩ := solo_sound Scenario.undoes_sound hsolo
  cases result with
  | error x => cases hresult
  | ok processed =>
      obtain rfl : processed = 2 := by simpa [Except.toOption] using hresult
      exact ⟨trace, w', hexec, hthreads, batch_is_all_or_nothing hexec hthreads rfl rfl⟩

end PaymentsProcessor
