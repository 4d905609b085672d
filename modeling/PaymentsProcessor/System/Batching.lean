import PaymentsProcessor.System.Dispatchers
import PaymentsProcessor.System.Processes

namespace PaymentsProcessor

open Python Storage Concurrency PaymentsConstants

-- The process is a batch whose transaction has not come to its end.
structure World.Batching (w : World) (p : Pid) : Prop where
  job : ∃ config, w.jobs p = some (.batch config)
  commits : ∀ e ∈ w.log.commits, e.1 ≠ p
  rollbacks : ∀ e ∈ w.log.rollbacks, e.1 ≠ p

-- Only such a batch holds a row that is committed.
def HeldByBatches (w : World) : Prop :=
  ∀ row ∈ w.store.contents.outbox.rows, ∀ q, w.store.owner (.outbox row.id) = some q → w.Batching q

def batching : Logic Pid World where
  inv := HeldByBatches
  rely p w w' := w.Batching p → w'.Batching p
  done _ _ := True
  rely_refl _ _ h := h
  rely_trans _ _ _ _ h h' hb := h' (h hb)
  done_stable _ _ _ _ _ := trivial

abbrev handoverFresh (d : Deployment) (A : Assumption Pid World Effect Answer) : Logic Pid World :=
  ((frameLogic.inf (records d A)).inf (handover A)).inf freshLogic

theorem handoverFresh_sound (d : Deployment) (A : Assumption Pid World Effect Answer) :
    Sound (machine d) A (handoverFresh d A) SystemConfig.init :=
  (handover_sound d A).both (fresh_sound d A)

section Steps

variable {d : Deployment} {A : Assumption Pid World Effect Answer} {p q : Pid} {w w' : World}

theorem World.Batching.kept (h : w.Batching q) (he : Ending p w w') (hf : Frame q w w')
    (hq : q ≠ p) : w'.Batching q where
  job := by
    obtain ⟨config, hj⟩ := h.job
    exact ⟨config, hf.job.trans hj⟩
  commits e hmem := by
    rcases he.commits e hmem with hold | rfl
    · exact h.commits e hold
    · exact hq.symm
  rollbacks e hmem := by
    rcases he.rollbacks e hmem with hold | rfl
    · exact h.rollbacks e hold
    · exact hq.symm

theorem World.Batching.same (h : w.Batching p) (hj : w'.jobs = w.jobs)
    (hc : w'.log.commits = w.log.commits) (hr : w'.log.rollbacks = w.log.rollbacks) :
    w'.Batching p :=
  ⟨hj ▸ h.job, hc ▸ h.commits, hr ▸ h.rollbacks⟩

theorem batching_guarantee (he : Ending p w w') (hf : ∀ q, q ≠ p → Frame q w w') :
    batching.Guarantee p w w' := fun q hq hb => hb.kept he (hf q hq) hq

-- A row after a commit was there before, or belonged to the transaction.
theorem committed_owner (hl : LockStore.WellLocked Write.writing w.store) {row' : Outbox}
    (hr : row' ∈ (w.commit p).store.contents.outbox.rows) :
    (∃ row ∈ w.store.contents.outbox.rows, row.id = row'.id) ∨
      w.store.owner (.outbox row'.id) = some p := by
  rw [commit_contents] at hr
  refine LockStore.commit_induction (W := Write.writing)
    (P := fun c => ∀ row' ∈ c.outbox.rows, (∃ row ∈ w.store.contents.outbox.rows,
      row.id = row'.id) ∨ w.store.owner (.outbox row'.id) = some p)
    w.store p (fun row hrow => .inl ⟨row, hrow, rfl⟩) ?_ row' hr
  intro wr hwr c hc row hrow
  cases wr with
  | insert_payment | update_payment => exact hc row hrow
  | insert_outbox new =>
      rcases Table.of_mem_insert hrow with hrow | rfl
      · exact hc row hrow
      · exact .inr (hl p _ hwr _ List.mem_cons_self)
  | publish_outbox id published_at time =>
      obtain ⟨r, hr, rfl⟩ := (Table.mem_modify (Outbox.set_published_id published_at time)).mp hrow
      have hold := hc r hr
      split <;> exact hold
  | bump_outbox id error next_attempt_at time =>
      obtain ⟨r, hr, rfl⟩ :=
        (Table.mem_modify (Outbox.set_attempt_id error next_attempt_at time)).mp hrow
      have hold := hc r hr
      split <;> exact hold

-- A step of `p` that leaves the tables alone: it may hold rows if it is a batch.
theorem held_same (h : HeldByBatches w) (he : Ending p w w') (hf : ∀ q, q ≠ p → Frame q w w')
    (hc : w'.store.contents = w.store.contents)
    (hp : ∀ row ∈ w.store.contents.outbox.rows, w'.store.owner (.outbox row.id) = some p →
      w'.Batching p) : HeldByBatches w' := by
  intro row hrow q howner
  rw [hc] at hrow
  by_cases hq : q = p
  · subst hq
    exact hp row hrow howner
  · exact (h row hrow q (((hf q hq).owner _).mp howner)).kept he (hf q hq) hq

theorem rollback_owner_self (row : Outbox) :
    (w.rollback p).store.owner (.outbox row.id) ≠ some p := LockStore.rollback_owner_self _ _

theorem commit_owner_self (row : Outbox) :
    (w.commit p).store.owner (.outbox row.id) ≠ some p := by
  unfold World.commit
  split
  · exact rollback_owner_self row
  · show (w.store.commit Write.writing p).owner (.outbox row.id) ≠ some p
    rw [LockStore.commit_owner]
    exact LockStore.rollback_owner_self _ _

theorem held_commit (h : HeldByBatches w) (hl : LockStore.WellLocked Write.writing w.store) :
    HeldByBatches (w.commit p) := by
  intro row' hrow' q howner
  have hq : q ≠ p := by
    rintro rfl
    exact commit_owner_self row' howner
  have hf : Frame q w (w.commit p) := frame_commit hq hl
  rw [hf.owner] at howner
  obtain ⟨row, hrow, hid⟩ | hown := committed_owner hl hrow'
  · rw [← hid] at howner
    exact (h row hrow q howner).kept ending_commit hf hq
  · rw [howner] at hown
    exact absurd (Option.some.inj hown) hq

theorem held_rollback (h : HeldByBatches w) : HeldByBatches (w.rollback p) :=
  held_same h ending_rollback (fun _ hq => frame_rollback hq) rfl
    fun row _ howner => absurd howner (rollback_owner_self row)

-- A row that is committed is not locked by a statement of another process.
theorem outside_locks {stmt : Statement}
    (he : Effect.ofRequest (.execute stmt) ∨ Effect.ofConsumer (.execute stmt)) {time : DateTime}
    {ids : List UUID} {result : stmt.Result} {locks : List Resource} {writes : List Write}
    (hv : stmt.verdict w.store p time ids = .succeeds result locks writes) {row : Outbox}
    (hr : row ∈ w.store.contents.outbox.rows) : .outbox row.id ∉ locks := by
  cases stmt with
  | get_by_id | get_by_idempotency_key =>
      cases hv
      simp
  | insert_payment values =>
      obtain ⟨_, _, _, _, _, _, _, _, rfl, _⟩ := insert_payment_succeeds hv
      simp
  | insert_outbox values =>
      obtain ⟨_, _, hnone, rfl, _⟩ := insert_outbox_succeeds hv
      simp only [List.mem_singleton, Resource.outbox.injEq]
      intro he
      have hfound := find?_changes (Table.find?_key hr) (w.store.writes p)
      rw [he] at hfound
      rw [Store.visible, LockStore.view, hfound] at hnone
      cases hnone
  | update_processing_outcome id status processed_at =>
      obtain ⟨_, rfl, _⟩ | ⟨_, _, _, _, rfl, _⟩ := update_payment_succeeds hv
      · simp
      · simp
  | scan_pending | lock_pending | mark_published | bump_attempt => exact (he.elim id id).elim

-- What a call of `p` does to the locks, if it is a batch or does not lock rows.
theorem held_perform (h : HeldByBatches w) (ht : Tidy w) (hf : ∀ q, q ≠ p → Frame q w w')
    {e : Effect} {a : Answer} {result : Except Exn e.Result}
    (hp : World.perform d p e a w = some (result, w'))
    (he : w.Batching p ∨ (e.ofRequest ∨ e.ofConsumer) ∨ e.kind ≠ .execute) :
    HeldByBatches w' := by
  have hs := scope_perform hp
  have hends := ending_perform hp
  have same : e.kind ≠ .execute → e.kind ≠ .commit → e.kind ≠ .close → HeldByBatches w' := by
    intro h₁ h₂ h₃
    refine held_same h hends hf (hs.contents h₂) fun row hrow howner => ?_
    rw [hs.store h₁ h₂ h₃] at howner
    exact (h row hrow p howner).same hs.jobs (hs.commits h₂) (hs.rollbacks h₂ h₃)
  cases e with
  | execute stmt =>
      refine held_same h hends hf (hs.contents nofun) fun row hrow howner => ?_
      have hbatch : w.Batching p := by
        obtain hold | ⟨_, _, _, _, _, hv, hmem⟩ := execute_owner hp howner
        · exact h row hrow p hold
        · rcases he with hb | he | hne
          · exact hb
          · exact absurd hmem (outside_locks he hv hrow)
          · exact absurd rfl hne
      exact hbatch.same hs.jobs (hs.commits nofun) (hs.rollbacks nofun nofun)
  | commit =>
      obtain ⟨_, rfl⟩ | ⟨_, _, rfl | rfl⟩ := perform_commit hp
      · exact held_commit h ht.locked
      · exact fun row hrow q howner => (h row hrow q howner).same rfl rfl rfl
      · exact fun row hrow q howner => (held_commit h ht.locked row hrow q howner).same rfl rfl rfl
  | close =>
      obtain ⟨_, rfl⟩ | ⟨_, _, rfl | rfl⟩ := perform_close hp
      · exact held_rollback h
      · exact fun row hrow q howner => (h row hrow q howner).same rfl rfl rfl
      · exact fun row hrow q howner => (held_rollback h row hrow q howner).same rfl rfl rfl
  | _ => exact same nofun nofun nofun

end Steps

section Programs

variable {d : Deployment} {A : Assumption Pid World Effect Answer} {p : Pid}

theorem batching_call {P : World → Prop} {e : Effect} (hP : ∀ w, P w → w.Batching p ∨
      (e.ofRequest ∨ e.ofConsumer) ∨ e.kind ≠ .execute) {Q : Except Exn e.Result → World → Prop}
    (hQ : ∀ w a result w', P w → World.perform d p e a w = some (result, w') → Q result w') :
    CallSpec (machine d) A (handoverFresh d A) batching p P e Q := by
  intro w a result w' hi hw _ hp _ hg
  obtain ⟨⟨⟨⟨ht, _⟩, _⟩, _⟩, hn⟩ := hi
  have hf : ∀ q, q ≠ p → Frame q w w' := fun q hq => (hg q hq).1.1.1
  exact ⟨held_perform hn ht hf hp (hP w hw), batching_guarantee (ending_perform hp) hf,
    hQ w a result w' hw hp⟩

theorem outside_batching {prog : Async Unit} (h : prog.Only fun e => e.ofRequest ∨ e.ofConsumer) :
    Triple (machine d) A (handoverFresh d A) batching p (fun _ => True) prog fun _ _ => True :=
  Triple.only h (Logic.Stable.const _ p True) fun _ he =>
    batching_call (fun _ _ => .inr (.inl he)) fun _ _ _ _ _ _ => trivial

theorem ending_batching {e : Effect} (he : e.kind ≠ .execute) :
    Triple (machine d) A (handoverFresh d A) batching p (fun _ => True) (Prog.perform e)
      fun _ _ => True :=
  Triple.perform (Logic.Stable.const _ p True)
    (batching_call (fun _ _ => .inr (.inr he)) fun _ _ _ _ _ _ => trivial)

theorem ofBatch_kind {e : Effect} (he : e.ofBatch) : e.kind ≠ .commit ∧ e.kind ≠ .close := by
  cases e with
  | execute stmt => exact ⟨nofun, nofun⟩
  | container_get | now => exact ⟨nofun, nofun⟩
  | publish => exact ⟨nofun, nofun⟩
  | _ => exact he.elim

-- Up to its commit a batch is one whose transaction has not ended.
theorem process_batch_batching (c : Container) (batch_size : ℤ) :
    Triple (machine d) A (handoverFresh d A) batching p (fun w => w.Batching p)
      (_process_batch c batch_size) fun _ _ => True := by
  rw [process_batch_eq]
  refine Triple.bind (R := fun _ w => w.Batching p) ?_ (fun rows => ?_) fun _ _ _ _ => trivial
  · refine Triple.only (dispatched_rows_only batch_size) (fun w w' hr hw => hr.2 hw)
      fun e he => batching_call (fun _ hw => .inl hw) fun w a result w' hw hp => ?_
    have hs := scope_perform hp
    obtain ⟨hc, hr⟩ := ofBatch_kind he
    exact hw.same hs.jobs (hs.commits hc) (hs.rollbacks hc hr)
  · refine Triple.bind (R := fun _ _ => True) ?_ (fun _ => Triple.ret fun _ _ _ => trivial)
      fun _ _ _ _ => trivial
    exact (ending_batching (e := Effect.commit) nofun).pre fun _ _ => trivial

theorem run_iteration_batching (c : Container) (config : OutboxDispatcherConfig) :
    Triple (machine d) A (handoverFresh d A) batching p (fun w => w.Batching p)
      (_run_iteration c config) fun _ _ => True := by
  unfold _run_iteration
  simp only [Prog.bind_eq]
  refine Triple.bind (R := fun _ _ => True) ?_ (fun processed => ?_) fun _ _ _ _ => trivial
  · refine Triple.tryCatch (R := fun _ _ => True) ?_ (fun _ _ _ _ => trivial) fun x => ?_
    · refine Triple.andThen ((process_batch_batching c _).post fun r _ _ => trivial) fun r => ?_
      exact (ending_batching (e := Effect.close) nofun).post fun s _ _ => by cases s <;> trivial
    · exact Triple.ite (fun _ => Triple.ret fun _ _ _ => trivial)
        fun _ => Triple.ret fun _ _ _ => trivial
  · refine Triple.ite (fun _ => ?_) fun _ => Triple.ret fun _ _ _ => trivial
    exact (ending_batching (e := Effect.sleep _) nofun).post fun _ _ _ => trivial

end Programs

section Soundness

variable (d : Deployment) (A : Assumption Pid World Effect Answer)

theorem batching_obliged : Obliged (machine d) A (handoverFresh d A) batching where
  launch p l w prog w' hi hl hk hg := by
    obtain ⟨⟨⟨⟨ht, _⟩, _⟩, hfresh⟩, hn⟩ := hi
    obtain ⟨hs, _, hlog⟩ := launch_same hl
    obtain ⟨hj, hcases⟩ := launch_cases hl
    have hf : ∀ q, q ≠ p → Frame q w w' := fun q hq => (hg q hq).1.1.1
    have hends : Ending p w w' := ending_of_same (by rw [hlog]) (by rw [hlog])
    have hheld : HeldByBatches w' := by
      refine held_same hn hends hf (by rw [hs]) fun row hrow howner => ?_
      rw [hs] at howner
      obtain ⟨config, hjob⟩ := (hn row hrow p howner).job
      rw [hj] at hjob
      cases hjob
    have hi' : ((handoverFresh d A).inf batching).inv w' := ⟨hk, hheld⟩
    refine ⟨hheld, batching_guarantee hends hf, ?_⟩
    obtain ⟨request, rfl, _⟩ | ⟨config, rfl, hw⟩ | ⟨_, msg, event, _, _, rfl, _⟩ := hcases
    · exact outside_batching ((create_payment_only request).mono fun _ => .inl) w' hi' trivial
    · refine run_iteration_batching _ config w' hi' ⟨⟨config, ?_⟩, ?_, ?_⟩
      · rw [hw]
        exact Function.update_self ..
      · intro e he heq
        exact hfresh.commits e (hlog ▸ he) (heq ▸ hj)
      · intro e he heq
        exact hfresh.rollbacks e (hlog ▸ he) (heq ▸ hj)
    · exact outside_batching ((entrypoint_only event msg).mono fun _ => .inr) w' hi' trivial
  crash p w hi hk hg := by
    obtain ⟨⟨⟨⟨ht, _⟩, _⟩, _⟩, hn⟩ := hi
    obtain ⟨hs, _, hj, hlog⟩ := @crash_same p w
    have hf : ∀ q, q ≠ p → Frame q w (w.crash p) := fun q hq => (hg q hq).1.1.1
    have hback := @ending_rollback p w
    have hends : Ending p w (w.crash p) :=
      ⟨by rw [hlog]; exact hback.commits, by rw [hlog]; exact hback.rollbacks⟩
    have hheld : HeldByBatches (w.crash p) := by
      refine held_same hn hends hf (by rw [hs]; rfl) fun row _ howner => ?_
      rw [hs] at howner
      exact absurd howner (rollback_owner_self row)
    exact ⟨hheld, batching_guarantee hends hf, trivial⟩
  tick t w w' hi ht _ hf := by
    obtain ⟨hs, _, hj, hlog⟩ := tick_same ht
    have hkept : ∀ q, w.Batching q → w'.Batching q :=
      fun q hb => hb.same hj (by rw [hlog]) (by rw [hlog])
    refine ⟨fun row hrow q howner => ?_, hkept⟩
    rw [hs] at hrow howner
    exact hkept q (hi.2 row hrow q howner)

theorem batching_sound :
    Sound (machine d) A ((handoverFresh d A).inf batching) SystemConfig.init :=
  (handoverFresh_sound d A).extend (batching_obliged d A)
    (by simp [batching, HeldByBatches, LockStore.empty, Tables.empty, Table.empty,
      SystemConfig.init]) fun _ => rfl

end Soundness

end PaymentsProcessor
