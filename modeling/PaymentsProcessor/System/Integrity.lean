import PaymentsProcessor.System.Alphabets
import PaymentsProcessor.System.Requests

namespace PaymentsProcessor

open Python Storage Concurrency PaymentsConstants

section Background

variable {d : Deployment} {A : Assumption Pid World Effect Answer} {p : Pid}

-- All a dispatcher or a consumer has written moves existing rows on.
structure Progresses (p : Pid) (w : World) : Prop where
  job : ∀ r, w.jobs p ≠ some (.request r)
  writes : ∀ wr ∈ w.store.writes p, wr.Progress

theorem stable_progresses : (frameLogic.inf (records d A)).Stable p (Progresses p) := by
  intro w w' hr hw
  constructor
  · rw [hr.1.job]
    exact hw.job
  · rw [hr.1.writes]
    exact hw.writes

def Statement.background : Statement → Prop
  | .insert_payment _ | .insert_outbox _ => False
  | .update_processing_outcome _ status _ => status ≠ .PENDING
  | _ => True

theorem background_of_alphabet {stmt : Statement}
    (h : (Effect.execute stmt).ofDispatcher ∨ (Effect.execute stmt).ofConsumer) :
    stmt.background := by
  cases stmt <;> simp_all [Effect.ofDispatcher, Effect.ofConsumer, Statement.background]

theorem progress_of_verdict {stmt : Statement} (hs : stmt.background) {s : Store} {time : DateTime}
    {ids : List UUID} {result : stmt.Result} {locks : List Resource} {writes : List Write}
    (h : stmt.verdict s p time ids = .succeeds result locks writes) :
    ∀ wr ∈ writes, wr.Progress := by
  cases stmt with
  | insert_payment | insert_outbox => exact hs.elim
  | get_by_id | get_by_idempotency_key =>
      cases h
      simp
  | update_processing_outcome id status processed_at =>
      obtain ⟨_, _, rfl⟩ | ⟨_, _, _, _, _, rfl⟩ := update_payment_succeeds h
      · simp
      · simp only [List.mem_singleton, forall_eq]
        exact hs
  | scan_pending =>
      obtain ⟨_, rfl, _⟩ := scan_succeeds h
      simp
  | lock_pending =>
      obtain ⟨rfl, _⟩ := lock_succeeds h
      simp
  | mark_published =>
      obtain ⟨_, rfl, _⟩ | ⟨_, _, rfl⟩ := mark_succeeds h
      · simp
      · simp [Write.Progress]
  | bump_attempt =>
      obtain ⟨_, rfl, _⟩ | ⟨_, _, rfl⟩ := bump_succeeds h
      · simp
      · simp [Write.Progress]

theorem Write.Progress.pending {wr : Write} {w : World} (h : wr.Progress) : Pending w p wr := by
  cases wr with
  | insert_payment | insert_outbox => exact h.elim
  | update_payment | publish_outbox | bump_outbox => exact h

-- A commit of such writes takes the tables to a later state of theirs.
theorem Progresses.commit {w : World} (h : Progresses p w) :
    w.store.contents.Corresponds (w.commit p).store.contents := by
  rw [commit_contents]
  refine LockStore.commit_induction (P := fun c => w.store.contents.Corresponds c) w.store p ?_ ?_
  · exact .refl _
  · intro wr hwr c hc
    exact hc.trans (h.writes wr hwr).corresponds

theorem background_spec {e : Effect} (he : e.ofDispatcher ∨ e.ofConsumer) :
    CallSpec (machine d) A frameLogic (records d A) p (Progresses p) e fun _ => Progresses p := by
  intro w a result w' hi hw _ hp _ hg
  have quiet : e.quiet → Recorded d A w' ∧ (records d A).Guarantee p w w' ∧ Progresses p w' :=
    fun hq => ⟨(quiet_step hq hi hp hg).1, (quiet_step hq hi hp hg).2,
      (quiet_perform hq hp).job ▸ hw.job,
      fun wr hwr => hw.writes wr ((quiet_perform hq hp).writes hwr)⟩
  cases e with
  | execute stmt =>
      have hs := background_of_alphabet he
      have hpend : ∀ time ids result locks writes, w.store.aborted p = false →
          stmt.verdict w.store p time ids = .succeeds result locks writes →
            ∀ wr ∈ writes, Pending w p wr :=
        fun _ _ _ _ _ _ hv wr hwr => (progress_of_verdict hs hv wr hwr).pending
      obtain ⟨hn, hc, hj⟩ := hi.2.execute hi.1 hg hp hpend
      refine ⟨hn, guarantee_of_same hg hc, congrFun hj p ▸ hw.job, ?_⟩
      obtain ⟨time, ids, res, locks, writes, _, hv, rfl, rfl⟩ | ⟨_, _, error, _, _, _, rfl, rfl⟩ |
        ⟨x, w₁, rfl, ha, rfl⟩ := perform_execute hp
      · intro wr hwr
        rw [World.fetch_store, World.take_store, LockStore.take_writes_self,
          List.mem_append] at hwr
        exact hwr.elim (hw.writes wr) (progress_of_verdict hs hv wr)
      · exact hw.writes
      · intro wr hwr
        rcases ha.facts.2.2.2 wr hwr with hwr | ⟨_, _, _, _, _, _, hv, hwr⟩
        · exact hw.writes wr hwr
        · exact progress_of_verdict hs hv wr hwr
  | commit =>
      have hcor := hw.commit
      have main : ∀ w₁ : World, (∀ pid, pid ≠ p → Frame pid w w₁) →
          w₁.store = (w.commit p).store → w₁.jobs = w.jobs →
          w₁.log.responses = w.log.responses →
            Recorded d A w₁ ∧ (records d A).Guarantee p w w₁ ∧ Progresses p w₁ := by
        intro w₁ hf hs hj hr
        have hown : ∀ wr ∈ w₁.store.writes p, False := by
          rw [hs, commit_writes_self]
          simp
        rw [← hs] at hcor
        refine ⟨?_, records_guarantee hf hcor.toEvolves, hj ▸ hw.job,
          fun wr hwr => (hown wr hwr).elim⟩
        refine hi.2.step hi.1 hf hcor.toEvolves (hi.2.consistent.corresponds hcor) ?_
          (fun wr hwr => (hown wr hwr).elim) (hr ▸ fun x hx => .inl hx)
        intro q' hq'
        obtain ⟨q, hq, he, _⟩ := hcor.payment_of q' hq'
        obtain ⟨pid, r, hjob, hins⟩ := hi.2.origin_started hf hq
        exact ⟨pid, r, hjob, hins.of_same he⟩
      obtain ⟨_, rfl⟩ | ⟨x, _, rfl | rfl⟩ := perform_commit hp
      · exact main _ hg rfl commit_jobs commit_responses
      · exact ⟨hi.2.quiet hi.1 hg ⟨rfl, fun _ h => h, rfl, rfl⟩, guarantee_of_same hg rfl,
          ⟨hw.job, hw.writes⟩⟩
      · exact main _ hg rfl commit_jobs commit_responses
  | respond => exact (he.elim id id).elim
  | _ => exact quiet rfl

theorem background_triple {prog : Async Unit}
    (h : prog.Only fun e => e.ofDispatcher ∨ e.ofConsumer) :
    Triple (machine d) A frameLogic (records d A) p (Progresses p) prog fun _ => Progresses p :=
  Triple.only h stable_progresses fun _ he => background_spec he

end Background

section Soundness

variable (d : Deployment) (A : Assumption Pid World Effect Answer)

theorem recorded_init : Recorded d A World.init where
  consistent := Tables.consistent_empty
  origin := by simp [LockStore.empty, Tables.empty, Table.empty]
  pending := by simp [LockStore.empty]
  responses := by simp

theorem records_obliged : Obliged (machine d) A frameLogic (records d A) where
  launch pid l w prog w' hi hl ht hg := by
    obtain ⟨hj, hcases⟩ := launch_cases hl
    obtain ⟨hs, _, hlog⟩ := launch_same hl
    have hw : w'.store.writes pid = [] := by
      rw [hs]
      exact hi.1.fresh_writes pid hj
    have hc : w'.store.contents = w.store.contents := by rw [hs]
    have hn : Recorded d A w' := by
      have hevolves : w.store.contents.Evolves w'.store.contents := hc ▸ .refl _
      refine hi.2.step hi.1 hg hevolves (hc ▸ hi.2.consistent) ?_ ?_ ?_
      · rw [hc]
        exact fun q hq => hi.2.origin_started hg hq
      · simp [hw]
      · rw [hlog]
        exact fun x hx => .inl hx
    refine ⟨hn, guarantee_of_same hg hc, ?_⟩
    have hend : ∀ {prog : Async Unit}, (∀ r, w'.jobs pid ≠ some (.request r)) →
        (prog.Only fun e => e.ofDispatcher ∨ e.ofConsumer) →
          wp (machine d) A frameLogic (records d A) pid prog (fun _ => Responded pid) w' := by
      intro prog hjob ho
      exact wp_mono (background_triple ho w' ⟨ht, hn⟩ ⟨hjob, by simp [hw]⟩) ⟨ht, hn⟩
        fun _ _ _ h r hr => absurd hr (h.job r)
    obtain ⟨request, rfl, rfl⟩ | ⟨config, rfl, rfl⟩ | ⟨index, msg, event, _, _, rfl, rfl⟩ := hcases
    · exact create_payment_answers _ ⟨ht, hn⟩ ⟨by simp [Serves], hw⟩
    · exact hend (by simp) (run_iteration_only.mono fun _ => .inl)
    · exact hend (by simp) ((entrypoint_only event msg).mono fun _ => .inr)
  crash pid w hi _ hg := by
    have hq : Quiet pid w (w.crash pid) := by
      refine (quiet_rollback.trans quiet_requeue).trans ?_
      exact ⟨rfl, fun _ h => h, rfl, rfl⟩
    exact ⟨hi.2.quiet hi.1 hg hq, guarantee_of_same hg hq.contents,
      fun _ _ => .inl mem_failures_fail⟩
  tick t w w' hi ht _ hf := by
    obtain ⟨hs, _, hj, hlog⟩ := tick_same ht
    have hq : Quiet 0 w w' :=
      ⟨by rw [hs], by rw [hs]; exact fun _ h => h, by rw [hj], by rw [hlog]⟩
    exact ⟨hi.2.quiet hi.1 (fun q _ => hf q) hq,
      fun pid => records_rely (hf pid) (evolves_of_same hq.contents)⟩

-- The tables stay in order in every run, whatever fails and in whatever order.
theorem records_sound : Sound (machine d) A (frameLogic.inf (records d A)) SystemConfig.init :=
  (frame_sound d A).extend (records_obliged d A) (recorded_init d A) fun _ => rfl

end Soundness

end PaymentsProcessor
