import PaymentsProcessor.OutboxDispatcher.Dispatching
import PaymentsProcessor.Database.Changes
import PaymentsProcessor.System.Transactions

namespace PaymentsProcessor

open Python Storage Concurrency PaymentsConstants

-- The rows that the database has handed to a batch, in order.
def fetched (trace : List Call) : List Outbox := trace.filterMap fun
  | ⟨.execute (.lock_pending ..), .ok (some row)⟩ => some row
  | _ => none

-- The calls of the publisher, in order.
def handed (trace : List Call) : List Call := trace.filter fun call => call.1.kind = .publish

@[simp] theorem fetched_append (trace rest : List Call) :
    fetched (trace ++ rest) = fetched trace ++ fetched rest := List.filterMap_append

@[simp] theorem handed_append (trace rest : List Call) :
    handed (trace ++ rest) = handed trace ++ handed rest := List.filter_append ..

-- A row of a batch with its calls: how the publish call has ended, and what was
-- then written of the row.
structure Deal where
  row : Outbox
  answer : Except Exn Unit
  write : Write
  calls : List Call

-- The deals of the loop's body.
inductive Deal.Valid (service : OutboxService) : Deal → Prop where
  | published (row : Outbox) (published_at time : DateTime) :
      Valid service ⟨row, .ok (), .publish_outbox row.id published_at time,
        [⟨publish_row row, .ok ()⟩, ⟨.now, .ok published_at⟩,
          ⟨.execute (.mark_published row.id published_at), .ok ()⟩]⟩
  | failed (row : Outbox) {x : Exn} {now t : DateTime} (time : DateTime)
      (hnext : next_attempt service row.attempts now = .ok t) :
      Valid service ⟨row, .error x, .bump_outbox row.id x.str t time,
        [⟨publish_row row, .error x⟩, ⟨.now, .ok now⟩,
          ⟨.execute (.bump_attempt row.id x.str t), .ok ()⟩]⟩

namespace Deal

variable {service : OutboxService} {deal : Deal}

theorem Valid.progress (h : deal.Valid service) : deal.write.Progress := by
  cases h <;> trivial

theorem Valid.handed (h : deal.Valid service) :
    handed deal.calls = [⟨publish_row deal.row, deal.answer⟩] := by
  cases h <;> rfl

theorem Valid.fetched (h : deal.Valid service) : fetched deal.calls = [] := by
  cases h <;> rfl

theorem handed_calls {deals : List Deal} (h : ∀ deal ∈ deals, deal.Valid service) :
    PaymentsProcessor.handed (deals.flatMap (·.calls)) =
      deals.map fun deal => ⟨publish_row deal.row, deal.answer⟩ := by
  induction deals with
  | nil => rfl
  | cons deal deals ih =>
      obtain ⟨hdeal, hdeals⟩ := List.forall_mem_cons.mp h
      rw [List.flatMap_cons, handed_append, hdeal.handed, ih hdeals]
      rfl

theorem fetched_calls {deals : List Deal} (h : ∀ deal ∈ deals, deal.Valid service) :
    PaymentsProcessor.fetched (deals.flatMap (·.calls)) = [] := by
  induction deals with
  | nil => rfl
  | cons deal deals ih =>
      obtain ⟨hdeal, hdeals⟩ := List.forall_mem_cons.mp h
      rw [List.flatMap_cons, fetched_append, hdeal.fetched, ih hdeals]
      rfl

end Deal

section Inversion

variable {service : OutboxService} {row : Outbox} {trace : List Call}

-- The runs of the loop's body that return. In the last two of them an exception
-- after the publish call has been handled like one of the call.
inductive RowReturns (service : OutboxService) (row : Outbox) : List Call → Prop where
  | published (published_at : DateTime) :
      RowReturns service row [⟨publish_row row, .ok ()⟩, ⟨.now, .ok published_at⟩,
        ⟨.execute (.mark_published row.id published_at), .ok ()⟩]
  | failed {x : Exn} {now t : DateTime} (hnext : next_attempt service row.attempts now = .ok t) :
      RowReturns service row [⟨publish_row row, .error x⟩, ⟨.now, .ok now⟩,
        ⟨.execute (.bump_attempt row.id x.str t), .ok ()⟩]
  | untimed (x : Exn) (rest : List Call) :
      RowReturns service row (⟨publish_row row, .ok ()⟩ :: ⟨.now, .error x⟩ :: rest)
  | unmarked (x : Exn) (published_at now t : DateTime) :
      RowReturns service row [⟨publish_row row, .ok ()⟩, ⟨.now, .ok published_at⟩,
        ⟨.execute (.mark_published row.id published_at), .error x⟩, ⟨.now, .ok now⟩,
        ⟨.execute (.bump_attempt row.id x.str t), .ok ()⟩]

theorem exec_process_row (h : Exec (_process_row service row) trace (.ok ())) :
    RowReturns service row trace := by
  obtain ⟨body, r, handler, rfl, hb, hr⟩ := Exec.tryCatch_iff.mp h
  -- an exception of the body is handled, or is the result
  have handled : ∀ x, r = .error x → ∃ now t, next_attempt service row.attempts now = .ok t ∧
      handler = [⟨.now, .ok now⟩, ⟨.execute (.bump_attempt row.id x.str t), .ok ()⟩] := by
    rintro x rfl
    simp only at hr
    split at hr
    · obtain ⟨_, _, _, he⟩ | ⟨clock, rest, rfl, ⟨_, _, _, he⟩ | ⟨now, rfl, ⟨_, _, _, he⟩ |
        ⟨t, hnext, rfl⟩⟩⟩ := exec_bump_attempt hr
      · cases he
      · cases he
      · cases he
      · exact ⟨now, t, hnext, rfl⟩
    · cases (Exec.ret_iff.mp hr).2
  obtain ⟨first, answer, rest, rfl, hp, hrest⟩ := Exec.bind_iff.mp hb
  obtain rfl := Exec.perform_iff.mp hp
  cases answer with
  | error x =>
      obtain ⟨rfl, rfl⟩ := hrest
      obtain ⟨now, t, hnext, rfl⟩ := handled x rfl
      exact .failed hnext
  | ok _ =>
      obtain ⟨second, clock, rest, rfl, hclock, hmark⟩ := Exec.bind_iff.mp hrest
      obtain rfl := Exec.perform_iff.mp hclock
      cases clock with
      | error x => exact .untimed x _
      | ok published_at =>
          obtain rfl := Exec.perform_iff.mp hmark
          cases r with
          | ok _ =>
              obtain ⟨rfl, _⟩ := hr
              exact .published published_at
          | error x =>
              obtain ⟨now, t, _, rfl⟩ := handled x rfl
              exact .unmarked x published_at now t

end Inversion

section Changes

variable {service : OutboxService}

theorem Deal.Valid.touches {deal : Deal} (h : deal.Valid service) :
    deal.write.touches = [.outbox deal.row.id] := by
  cases h <;> rfl

-- Deals of different rows do not interfere with each other.
theorem changes_deal {deals : List Deal} (h : ∀ deal ∈ deals, deal.Valid service)
    (hids : (deals.map (·.row.id)).Nodup) {deal : Deal} (hdeal : deal ∈ deals) :
    changes (deals.map (·.write)) deal.row = deal.write.change deal.row := by
  induction deals with
  | nil => cases hdeal
  | cons first deals ih =>
      obtain ⟨hfirst, hdeals⟩ := List.forall_mem_cons.mp h
      obtain ⟨hnew, hnodup⟩ := List.nodup_cons.mp hids
      have hcons : changes ((first :: deals).map (·.write)) deal.row =
          changes (deals.map (·.write)) (first.write.change deal.row) := rfl
      rw [hcons]
      rcases List.mem_cons.mp hdeal with rfl | hmem
      · apply changes_untouched
        intro wr hwr
        obtain ⟨other, hother, rfl⟩ := List.mem_map.mp hwr
        have hne : deal.row.id ≠ other.row.id := fun he =>
          hnew (List.mem_map.mpr ⟨other, hother, he.symm⟩)
        simpa [(hdeals other hother).touches, change_id] using hne
      · have hne : first.row.id ≠ deal.row.id := fun he =>
          hnew (List.mem_map.mpr ⟨deal, hmem, he.symm⟩)
        rw [change_untouched (by simpa [hfirst.touches] using hne.symm)]
        exact ih hdeals hnodup hmem

-- The tables after the writes of some deals.
theorem applyAll_deals {deals : List Deal} (h : ∀ deal ∈ deals, deal.Valid service) (c : Tables) :
    (LockStore.applyAll Write.writing (deals.map (·.write)) c).payments = c.payments ∧
      (LockStore.applyAll Write.writing (deals.map (·.write)) c).outbox.rows =
        c.outbox.rows.map (changes (deals.map (·.write))) := by
  refine ⟨?_, applyAll_rows (fun wr hwr new => ?_) c⟩
  · induction deals generalizing c with
    | nil => rfl
    | cons deal deals ih =>
        obtain ⟨hdeal, hdeals⟩ := List.forall_mem_cons.mp h
        refine (ih hdeals (deal.write.apply c)).trans ?_
        cases hdeal <;> rfl
  · obtain ⟨deal, hdeal, rfl⟩ := List.mem_map.mp hwr
    cases h deal hdeal <;> simp

end Changes

section Phases

variable {d : Deployment} {p : Pid} {w w' : World} {trace : List Call}

-- A transaction that has not failed yet, over these tables, with these writes.
structure Underway (p : Pid) (c : Tables) (ws : List Write) (w : World) : Prop where
  contents : w.store.contents = c
  aborted : w.store.aborted p = false
  writes : w.store.writes p = ws

abbrev Alone (d : Deployment) (p : Pid) (w : World) (trace : List Call) (w' : World) : Prop :=
  Threads (machine d) failures_abort p w trace w'

-- Without a commit the tables stay as they are.
theorem alone_contents (h : Alone d p w trace w') (hc : ∀ call ∈ trace, call.1.kind ≠ .commit) :
    w'.store.contents = w.store.contents := by
  induction h with
  | nil => rfl
  | cons _ hp _ ih =>
      rw [ih fun call hcall => hc call (List.mem_cons_of_mem _ hcall)]
      exact (scope_perform hp).contents (hc _ List.mem_cons_self)

theorem Underway.same {c : Tables} {ws : List Write} (h : Underway p c ws w)
    (hs : w'.store = w.store) : Underway p c ws w' := by
  constructor
  · rw [hs]; exact h.contents
  · rw [hs]; exact h.aborted
  · rw [hs]; exact h.writes

theorem Underway.execute {c : Tables} {ws : List Write} (h : Underway p c ws w) {stmt : Statement}
    {a : Answer} {res : stmt.Result}
    (hp : World.perform d p (.execute stmt) a w = some (.ok res, w')) :
    ∃ time ids locks writes, stmt.verdict w.store p time ids = .succeeds res locks writes ∧
      Underway p c (ws ++ writes) w' := by
  obtain ⟨time, ids, locks, writes, ha, hv, rfl⟩ := execute_returns hp
  refine ⟨time, ids, locks, writes, hv, h.contents, ha, ?_⟩
  rw [World.fetch_store, World.take_store, LockStore.take_writes_self, h.writes]

theorem Underway.store {c : Tables} {ws : List Write} (h : Underway p c ws w) {e : Effect}
    {a : Answer} {result : Except Exn e.Result} (he : e.kind = .idle ∨ e.kind = .publish)
    (hp : World.perform d p e a w = some (result, w')) : Underway p c ws w' := by
  apply h.same
  rcases he with he | he
  · exact (scope_perform hp).store (by simp [he]) (by simp [he]) (by simp [he])
  · exact (scope_perform hp).store (by simp [he]) (by simp [he]) (by simp [he])

variable {service : OutboxService} {row : Outbox} {c : Tables} {ws : List Write}

-- A row that returns is dealt with: where an exception came after the publish
-- call, the transaction was aborted, and the row could not have been bumped.
theorem alone_row (h : RowReturns service row trace) (ht : Alone d p w trace w')
    (hu : Underway p c ws w) (hws : ∀ wr ∈ ws, wr.Progress) (hrow : row ∈ c.outbox.rows) :
    ∃ deal : Deal, deal.Valid service ∧ deal.row = row ∧ deal.calls = trace ∧
      Underway p c (ws ++ [deal.write]) w' := by
  -- the statement at the end finds its row
  have hvisible : ∀ {v : World}, Underway p c ws v →
      (v.store.visible p).outbox.find? row.id ≠ none := by
    intro v hv
    obtain ⟨row', hr, _⟩ := @visible_row v.store p (hv.writes ▸ hws) row (hv.contents ▸ hrow)
    simp [hr]
  cases h with
  | published published_at =>
      obtain ⟨_, w₁, _, hp₁, ht⟩ := Threads.cons_iff.mp ht
      obtain ⟨_, w₂, _, hp₂, ht⟩ := Threads.cons_iff.mp ht
      obtain ⟨_, w₃, _, hp₃, ht⟩ := Threads.cons_iff.mp ht
      obtain rfl := Threads.nil_iff.mp ht
      have hu₁ := hu.store (.inr rfl) hp₁
      have hu₂ := hu₁.store (.inl rfl) hp₂
      obtain ⟨time, _, _, _, hv, hu₃⟩ := hu₂.execute hp₃
      obtain ⟨_, _, hnone⟩ | ⟨_, _, rfl⟩ := mark_succeeds hv
      · exact absurd hnone (hvisible hu₂)
      · exact ⟨_, .published row published_at time, rfl, rfl, hu₃⟩
  | @failed x now t hnext =>
      obtain ⟨_, w₁, _, hp₁, ht⟩ := Threads.cons_iff.mp ht
      obtain ⟨_, w₂, _, hp₂, ht⟩ := Threads.cons_iff.mp ht
      obtain ⟨_, w₃, _, hp₃, ht⟩ := Threads.cons_iff.mp ht
      obtain rfl := Threads.nil_iff.mp ht
      have hu₁ := hu.store (.inr rfl) hp₁
      have hu₂ := hu₁.store (.inl rfl) hp₂
      obtain ⟨time, _, _, _, hv, hu₃⟩ := hu₂.execute hp₃
      obtain ⟨_, _, hnone⟩ | ⟨_, _, rfl⟩ := bump_succeeds hv
      · exact absurd hnone (hvisible hu₂)
      · exact ⟨_, .failed row time hnext, rfl, rfl, hu₃⟩
  | untimed x rest =>
      obtain ⟨_, w₁, _, _, ht⟩ := Threads.cons_iff.mp ht
      obtain ⟨_, w₂, _, hp₂, _⟩ := Threads.cons_iff.mp ht
      obtain ⟨_, _, he⟩ := perform_unawaited rfl hp₂
      cases he
  | unmarked x published_at now t =>
      obtain ⟨_, w₁, _, _, ht⟩ := Threads.cons_iff.mp ht
      obtain ⟨_, w₂, _, _, ht⟩ := Threads.cons_iff.mp ht
      obtain ⟨_, w₃, hA, hp₃, ht⟩ := Threads.cons_iff.mp ht
      obtain ⟨_, w₄, _, hp₄, ht⟩ := Threads.cons_iff.mp ht
      obtain ⟨_, w₅, _, hp₅, _⟩ := Threads.cons_iff.mp ht
      have hab := failed_execute hA hp₃
      rw [← (perform_unawaited rfl hp₄).1] at hab
      obtain ⟨_, he⟩ := aborted_execute hab hp₅
      cases he

theorem alone_rows {rows : List Outbox} (h : Exec (_process_rows service rows) trace (.ok ()))
    (ht : Alone d p w trace w') (hu : Underway p c ws w) (hws : ∀ wr ∈ ws, wr.Progress)
    (hrows : ∀ row ∈ rows, row ∈ c.outbox.rows) :
    ∃ deals : List Deal, (∀ deal ∈ deals, deal.Valid service) ∧ deals.map (·.row) = rows ∧
      deals.flatMap (·.calls) = trace ∧ Underway p c (ws ++ deals.map (·.write)) w' := by
  induction rows generalizing w trace ws with
  | nil =>
      obtain ⟨rfl, _⟩ := Exec.ret_iff.mp h
      obtain rfl := Threads.nil_iff.mp ht
      exact ⟨[], by simp, rfl, rfl, by simpa using hu⟩
  | cons row rows ih =>
      obtain ⟨first, answer, rest, rfl, hf, hr⟩ := Exec.bind_iff.mp h
      obtain ⟨w₁, ht₁, ht₂⟩ := Threads.append_iff.mp ht
      cases answer with
      | error x => cases hr.2
      | ok _ =>
          obtain ⟨deal, hdeal, rfl, rfl, hu₁⟩ := alone_row (exec_process_row hf) ht₁ hu hws
            (hrows row List.mem_cons_self)
          have hws₁ : ∀ wr ∈ ws ++ [deal.write], wr.Progress := by
            intro wr hwr
            rcases List.mem_append.mp hwr with hwr | hwr
            · exact hws wr hwr
            · exact List.mem_singleton.mp hwr ▸ hdeal.progress
          obtain ⟨deals, hdeals, rfl, rfl, hu₂⟩ := ih hr ht₂ hu₁ hws₁
            fun row hrow => hrows row (List.mem_cons_of_mem _ hrow)
          refine ⟨deal :: deals, List.forall_mem_cons.mpr ⟨hdeal, hdeals⟩, rfl, rfl, ?_⟩
          simpa using hu₂

-- A row that is handed over was committed and due, and is locked from then on.
theorem alone_lock_rows {now : DateTime} {ids : List UUID} {limit : ℕ} {rows : List Outbox}
    (h : Exec (OutboxRepository.lock_rows now ids limit) trace (.ok rows))
    (ht : Alone d p w trace w') (hu : Underway p c [] w) :
    Underway p c [] w' ∧ fetched trace = rows ∧ handed trace = [] ∧
      (rows.map (·.id)).Sublist ids ∧
      ∀ row ∈ rows, c.outbox.find? row.id = some row ∧ row.is_due now := by
  induction ids generalizing w trace limit rows with
  | nil =>
      obtain ⟨rfl, he⟩ := Exec.ret_iff.mp h
      obtain rfl := Threads.nil_iff.mp ht
      cases he
      exact ⟨hu, rfl, rfl, by simp, by simp⟩
  | cons id ids ih =>
      cases limit with
      | zero =>
          obtain ⟨rfl, he⟩ := Exec.ret_iff.mp h
          obtain rfl := Threads.nil_iff.mp ht
          cases he
          exact ⟨hu, rfl, rfl, by simp, by simp⟩
      | succ limit =>
          obtain ⟨first, locked, rest, rfl, hf, hr⟩ := Exec.bind_iff.mp h
          obtain rfl := Exec.perform_iff.mp hf
          obtain ⟨_, w₁, _, hp, htail⟩ := Threads.cons_iff.mp ht
          cases locked with
          | error x => cases hr.2
          | ok result =>
              obtain ⟨_, _, _, _, hv, hu₁⟩ := hu.execute hp
              obtain ⟨rfl, hlock⟩ := lock_succeeds hv
              rw [visible_of_nil hu.writes, hu.contents] at hlock
              obtain ⟨rfl, _⟩ | ⟨row, hrow, rfl, hdue, _⟩ := hlock
              · obtain ⟨hu₂, hfetch, hh, hsub, hall⟩ := ih hr htail hu₁
                exact ⟨hu₂, hfetch, hh, hsub.cons _, hall⟩
              · obtain ⟨second, r, third, rfl, hs, hret⟩ := Exec.bind_iff.mp hr
                cases r with
                | error x => cases hret.2
                | ok more =>
                    obtain ⟨rfl, he⟩ := Exec.ret_iff.mp hret
                    cases he
                    rw [List.append_nil] at htail
                    obtain ⟨hu₂, hfetch, hh, hsub, hall⟩ := ih hs htail hu₁
                    have hid : row.id = id := Table.key_of_find? hrow
                    refine ⟨hu₂, ?_, ?_, ?_, ?_⟩
                    · simpa [fetched] using hfetch
                    · simpa [handed, Effect.kind] using hh
                    · simpa [hid] using hsub.cons_cons id
                    · exact List.forall_mem_cons.mpr ⟨⟨hid ▸ hrow, hdue⟩, hall⟩

-- A batch that has come to its commit: the rows it was given, and its deals.
structure Dispatched (service : OutboxService) (c : Tables) (rows : List Outbox)
    (deals : List Deal) : Prop where
  valid : ∀ deal ∈ deals, deal.Valid service
  dealt : deals.map (·.row) = rows
  ids : (rows.map (·.id)).Nodup
  found : ∀ row ∈ rows, row ∈ c.outbox.rows ∧ row.status = .PENDING
  ordered : rows.Pairwise fun a b => a.before b

theorem alone_fetch {batch_size : ℤ} {rows : List Outbox}
    (h : Exec (OutboxService.fetch_pending batch_size) trace (.ok rows))
    (ht : Alone d p w trace w') (hu : Underway p c [] w) :
    Underway p c [] w' ∧ fetched trace = rows ∧ handed trace = [] ∧ (rows.map (·.id)).Nodup ∧
      (∀ row ∈ rows, row ∈ c.outbox.rows ∧ row.status = .PENDING) ∧
      rows.Pairwise fun a b => a.before b := by
  obtain ⟨first, clock, rest, rfl, hclock, hfetch⟩ := Exec.bind_iff.mp h
  obtain rfl := Exec.perform_iff.mp hclock
  cases clock with
  | error x => cases hfetch.2
  | ok now =>
      obtain ⟨second, scanned, rest, rfl, hscan, hlock⟩ := Exec.bind_iff.mp hfetch
      obtain rfl := Exec.perform_iff.mp hscan
      obtain ⟨_, w₁, _, hp₁, ht₁⟩ := Threads.cons_iff.mp ht
      obtain ⟨_, w₂, _, hp₂, ht₂⟩ := Threads.cons_iff.mp ht₁
      have hu₁ := hu.store (.inl rfl) hp₁
      cases scanned with
      | error x => cases hlock.2
      | ok ids =>
          obtain ⟨_, _, _, _, hv, hu₂⟩ := hu₁.execute hp₂
          obtain ⟨rfl, rfl, rfl, hperm, hordered⟩ := scan_succeeds hv
          rw [visible_of_nil hu₁.writes, hu₁.contents] at hperm hordered
          obtain ⟨hu₃, hfetched, hh, hsub, hall⟩ := alone_lock_rows hlock ht₂ hu₂
          -- the rows are those that their ids find
          have hrows : (rows.map (·.id)).filterMap c.outbox.find? = rows := by
            rw [List.filterMap_map]
            have hfind : ∀ row ∈ rows, (c.outbox.find? ∘ Outbox.id) row = some row :=
              fun row hrow => (hall row hrow).1
            rw [List.filterMap_congr hfind]
            exact List.filterMap_some
          refine ⟨hu₃, hfetched, hh, ?_, fun row hrow => ?_, ?_⟩
          · have hnodup : (c.outbox.rows.filter fun row => row.is_due now).map (·.id) |>.Nodup :=
              c.outbox.nodup.sublist (List.filter_sublist.map _)
            exact (hperm.nodup_iff.mpr hnodup).sublist hsub
          · obtain ⟨hfind, hdue⟩ := hall row hrow
            exact ⟨Table.mem_of_find? hfind, (of_decide_eq_true hdue).1⟩
          · exact hrows ▸ hordered.sublist (hsub.filterMap _)

theorem alone_dispatched {container : Container} {batch_size : ℤ} {rows : List Outbox}
    (h : Exec (dispatched_rows container batch_size) trace (.ok rows))
    (ht : Alone d p w trace w') (hu : Underway p c [] w) :
    ∃ deals, Dispatched container.outbox_service c rows deals ∧
      Underway p c (deals.map (·.write)) w' ∧ fetched trace = rows ∧
      handed trace = deals.map (fun deal => ⟨publish_row deal.row, deal.answer⟩) ∧
      ∀ deal ∈ deals, deal.calls <:+: trace := by
  obtain ⟨first, a₁, rest₁, rfl, hget, h₁⟩ := Exec.bind_iff.mp h
  obtain rfl := Exec.perform_iff.mp hget
  obtain ⟨_, w₁, _, hp₁, ht₁⟩ := Threads.cons_iff.mp ht
  have hu₁ := hu.store (.inl rfl) hp₁
  cases a₁ with
  | error x => cases h₁.2
  | ok _ =>
  obtain ⟨second, a₂, rest₂, rfl, hget, h₂⟩ := Exec.bind_iff.mp h₁
  obtain rfl := Exec.perform_iff.mp hget
  obtain ⟨_, w₂, _, hp₂, ht₂⟩ := Threads.cons_iff.mp ht₁
  have hu₂ := hu₁.store (.inl rfl) hp₂
  cases a₂ with
  | error x => cases h₂.2
  | ok _ =>
  obtain ⟨third, a₃, rest₃, rfl, hfetch, h₃⟩ := Exec.bind_iff.mp h₂
  replace ht₂ : Alone d p w₂ (third ++ rest₃) w' := ht₂
  obtain ⟨w₃, ht₃, ht₄⟩ := Threads.append_iff.mp ht₂
  cases a₃ with
  | error x => cases h₃.2
  | ok found =>
  obtain ⟨hu₃, hfetched, hh, hids, hfound, hordered⟩ := alone_fetch hfetch ht₃ hu₂
  obtain ⟨fourth, a₄, rest₄, rfl, hrows, h₄⟩ := Exec.bind_iff.mp h₃
  cases a₄ with
  | error x => cases h₄.2
  | ok _ =>
  obtain ⟨rfl, he⟩ := Exec.ret_iff.mp h₄
  cases he
  rw [List.append_nil] at ht₄ ⊢
  obtain ⟨deals, hvalid, hdeals, hcalls, hu₄⟩ := alone_rows hrows ht₄ hu₃ (by simp)
    fun row hrow => (hfound row hrow).1
  refine ⟨deals, ⟨hvalid, hdeals, hids, hfound, hordered⟩, by simpa using hu₄, ?_, ?_, ?_⟩
  · have hnone := Deal.fetched_calls hvalid
    rw [hcalls] at hnone
    have hthird : fetched (third ++ fourth) = rows := by
      rw [fetched_append, hfetched, hnone, List.append_nil]
    exact hthird
  · have hall := Deal.handed_calls hvalid
    rw [hcalls] at hall
    have hfourth : handed (third ++ fourth) =
        deals.map fun deal => ⟨publish_row deal.row, deal.answer⟩ := by
      rw [handed_append, hh, hall, List.nil_append]
    exact hfourth
  · intro deal hdeal
    obtain ⟨before, after, rfl⟩ := List.append_of_mem hdeal
    have hfourth : deal.calls <:+: fourth :=
      ⟨before.flatMap (·.calls), after.flatMap (·.calls), by simp [← hcalls]⟩
    have hsuffix : fourth <:+ ⟨.container_get .AsyncSession, .ok ()⟩ ::
        ⟨.container_get .OutboxService, .ok ()⟩ :: (third ++ fourth) :=
      ⟨⟨.container_get .AsyncSession, .ok ()⟩ :: ⟨.container_get .OutboxService, .ok ()⟩ :: third, rfl⟩
    exact hfourth.trans hsuffix.isInfix

end Phases

end PaymentsProcessor
