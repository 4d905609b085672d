import PaymentsProcessor.System.Waiting

namespace PaymentsProcessor

open Python Storage Concurrency PaymentsConstants

section Calls

variable {d : Deployment} {config : OutboxDispatcherConfig} {now : DateTime} {r : Outbox}
variable {size seen total : ℕ} {p : Pid}

abbrev WaitingSpec (d : Deployment) (config : OutboxDispatcherConfig) (now : DateTime) (r : Outbox)
    (size seen total : ℕ) (p : Pid) (P : World → Prop) (e : Effect)
    (Q : Except Exn e.Result → World → Prop) : Prop :=
  CallSpec (machine d) (SingleDispatcher config now r) (heldBatches d) (waiting size seen total r) p
    P e Q

abbrev WaitingTriple (d : Deployment) (config : OutboxDispatcherConfig) (now : DateTime)
    (r : Outbox) (size seen total : ℕ) (p : Pid) {α : Type} (P : World → Prop) (prog : Async α)
    (Q : Except Exn α → World → Prop) : Prop :=
  Triple (machine d) (SingleDispatcher config now r) (heldBatches d) (waiting size seen total r) p
    P prog Q

abbrev StableWaiting (d : Deployment) (r : Outbox) (size seen total : ℕ) (p : Pid)
    (P : World → Prop) : Prop :=
  ((heldBatches d).inf (waiting size seen total r)).Stable p P

-- A call that commits nothing owes nothing to the row.
theorem waiting_call {P : World → Prop} {e : Effect} {Q : Except Exn e.Result → World → Prop}
    (he : e.kind ≠ .commit)
    (hQ : ∀ w a result w', ((heldBatches d).inf (waiting size seen total r)).inv w → P w →
      SingleDispatcher config now r p e a w → World.perform d p e a w = some (result, w') →
        Q result w') : WaitingSpec d config now r size seen total p P e Q := by
  intro w a result w' hi hw hA hp _ hg
  have hidle := idle_perform hp he
  exact ⟨hi.2.idle hidle, fun q hq => hidle.rely (hg q hq).2, hQ w a result w' hi hw hA hp⟩

-- Rows of the table are held by batches only.
theorem unbatched_fetched {w : World} (hi : (heldBatches d).inv w)
    (hjob : ∀ config', w.jobs p ≠ some (.batch config')) : w.fetched p = [] := by
  obtain ⟨⟨⟨⟨ht, _⟩, hhand⟩, _⟩, hheld⟩ := hi
  refine List.eq_nil_iff_forall_not_mem.mpr fun id hid => ?_
  obtain ⟨row, hrow, rfl, _⟩ := hhand.pending p id hid
  obtain ⟨config', hbatch⟩ := (hheld row hrow p (ht.fetched p _ hid)).job
  exact hjob config' hbatch

-- A process that is no batch.
def Unbatched (p : Pid) (w : World) : Prop := ∀ config', w.jobs p ≠ some (.batch config')

theorem stable_unbatched : StableWaiting d r size seen total p (Unbatched p) := by
  intro w w' hr hw config'
  rw [hr.1.1.1.1.1.job]
  exact hw config'

theorem unbatched_dispatches {w : World} (h : Unbatched p w) : w.dispatches p = false := by
  unfold World.dispatches
  split
  · exact absurd ‹_› (h _)
  · rfl

-- A commit that is carried out, in the log and in the tables.
theorem commit_log {w : World} (hb : w.store.aborted p = false) :
    (w.commit p).log = { w.log with commits := w.log.commits ++ [(p, w.store.writes p)] } ∧
      (w.commit p).store.contents =
        LockStore.applyAll Write.writing (w.store.writes p) w.store.contents := by
  rw [commit_contents, LockStore.commit_contents, if_neg (by simp [hb])]
  unfold World.commit
  rw [if_neg (by simp [hb])]
  exact ⟨rfl, rfl⟩

theorem commit_batches {w : World} (hb : w.store.aborted p = false) :
    (w.commit p).batches = w.batches + if w.dispatches p then 1 else 0 := by
  have hsame : (w.commit p).dispatches = w.dispatches := by
    funext q
    unfold World.dispatches
    rw [commit_jobs]
  unfold World.batches
  rw [(commit_log hb).1, hsame, List.countP_append, List.countP_singleton]

theorem rollback_idle (w : World) : Idle w (w.rollback p) :=
  ⟨rfl, rfl, fun _ _ => rfl, List.prefix_rfl⟩

theorem fail_idle (w : World) : Idle w (w.fail p) :=
  ⟨rfl, rfl, fun _ _ => rfl, List.prefix_rfl⟩

theorem Idle.trans {w w' w'' : World} (h : Idle w w') (h' : Idle w' w'') : Idle w w'' where
  contents := h'.contents.trans h.contents
  commits := h'.commits.trans h.commits
  jobs e he := (h'.jobs e (h.commits ▸ he)).trans (h.jobs e he)
  publishes := h.publishes.trans h'.publishes

-- What is owed for a commit call is owed for the commit that is carried out.
theorem waiting_commit {P : World → Prop} {Q : Except Exn Unit → World → Prop}
    (hmain : ∀ w a, ((heldBatches d).inf (waiting size seen total r)).inv w → P w →
      SingleDispatcher config now r p .commit a w → w.store.aborted p = false →
        Waiting size seen total r (w.commit p) ∧ Advances size seen r w (w.commit p) ∧
          ∀ q, q ≠ p → w.Batching q → Undisturbed r w (w.commit p))
    (hQ : ∀ w a result w', P w → World.perform d p .commit a w = some (result, w') → Q result w') :
    WaitingSpec d config now r size seen total p P .commit Q := by
  intro w a result w' hi hw hA hp _ hg
  have hkept : ∀ q, q ≠ p → w.Batching q → w'.Batching q := fun q hq => (hg q hq).2
  have idle : Idle w w' → Waiting size seen total r w' ∧
      (waiting size seen total r).Guarantee p w w' :=
    fun h => ⟨hi.2.idle h, fun q hq => h.rely (hkept q hq)⟩
  -- a transaction that has failed is rolled back
  have committed : Idle (w.commit p) w' → Waiting size seen total r w' ∧
      (waiting size seen total r).Guarantee p w w' := by
    intro h
    by_cases hb : w.store.aborted p
    · have hback : w.commit p = w.rollback p := by
        unfold World.commit
        rw [if_pos hb]
      rw [hback] at h
      exact idle ((rollback_idle w).trans h)
    · obtain ⟨hwait, hadv, hu⟩ := hmain w a hi hw hA (by simpa using hb)
      refine ⟨hwait.idle h, fun q hq => ⟨hadv.trans h.advances, fun hbatch => ?_⟩⟩
      refine ⟨hkept q hq hbatch, (hu q hq hbatch).trans ?_⟩
      constructor
      · rw [h.contents]
        exact List.Subset.refl _
      · rw [h.contents]
        exact fun _ hrow => .inl hrow
  have hmoved : Waiting size seen total r w' ∧ (waiting size seen total r).Guarantee p w w' := by
    obtain ⟨_, rfl⟩ | ⟨_, _, rfl | rfl⟩ := perform_commit hp
    · exact committed ⟨rfl, rfl, fun _ _ => rfl, List.prefix_rfl⟩
    · exact idle (fail_idle w)
    · exact committed (fail_idle (w.commit p))
  exact ⟨hmoved.1, hmoved.2, hQ w a result w' hw hp⟩

-- The commit of a process that is no batch brings in later rows only.
theorem unbatched_commit {w : World} {a : Answer}
    (hi : ((heldBatches d).inf (waiting size seen total r)).inv w) (hw : Unbatched p w)
    (hA : SingleDispatcher config now r p .commit a w) (hb : w.store.aborted p = false) :
    Waiting size seen total r (w.commit p) ∧ Advances size seen r w (w.commit p) ∧
      Undisturbed r w (w.commit p) := by
  have hfetched := unbatched_fetched hi.1 hw
  obtain ⟨⟨⟨⟨_, hhand⟩, _⟩, _⟩, hn⟩ := hi
  obtain ⟨hlog, hcontents⟩ := commit_log hb
  have hmoves : ∀ wr ∈ w.store.writes p, wr.moves = none := by
    intro wr hwr
    cases hm : wr.moves with
    | none => rfl
    | some id =>
        have hmem := hhand.moved p wr hwr id hm
        rw [hfetched] at hmem
        cases hmem
  obtain ⟨hsub, hnew, hahead⟩ := inserted_later hmoves (hA.later rfl) w.store.contents
  rw [← hcontents] at hsub hnew hahead
  have hpub : (w.commit p).log.publishes = w.log.publishes := by rw [hlog]
  have hhanded : (w.commit p).HandedSince seen r ↔ w.HandedSince seen r := by
    unfold World.HandedSince
    rw [hpub]
  have hstanding : (w.commit p).standing size r = w.standing size r := by
    unfold World.standing
    rw [hahead, commit_batches hb, unbatched_dispatches hw]
    rfl
  refine ⟨⟨hpub ▸ hn.seen_le, ?_⟩, ⟨?_, hhanded.mpr, fun hr => .inr ⟨hsub hr, ?_, ?_⟩⟩, hsub, hnew⟩
  · rw [hhanded, hstanding]
    exact hn.handed_or.imp_right fun h => ⟨hsub h.1, h.2⟩
  · rw [hlog]
    exact List.prefix_append _ _
  · rw [hahead]
    exact List.Subset.refl _
  · exact hstanding.symm

theorem unbatched_spec {e : Effect} (he : e.ofRequest ∨ e.ofConsumer) :
    WaitingSpec d config now r size seen total p (Unbatched p) e fun _ => Unbatched p := by
  have hjobs : ∀ {e : Effect} {w a result w'}, Unbatched p w →
      World.perform d p e a w = some (result, w') → Unbatched p w' := by
    intro e w a result w' hw hp config'
    rw [(scope_perform hp).jobs]
    exact hw config'
  cases e with
  | commit =>
      refine waiting_commit (fun w a hi hw hA hb => ?_) fun _ _ _ _ hw hp => hjobs hw hp
      obtain ⟨hwait, hadv, hu⟩ := unbatched_commit hi hw hA hb
      exact ⟨hwait, hadv, fun _ _ _ => hu⟩
  | _ => exact waiting_call nofun fun _ _ _ _ _ hw _ hp => hjobs hw hp

theorem unbatched_triple {prog : Async Unit} (h : prog.Only fun e => e.ofRequest ∨ e.ofConsumer) :
    WaitingTriple d config now r size seen total p (Unbatched p) prog fun _ _ => True :=
  (Triple.only h stable_unbatched fun _ he => unbatched_spec he).post fun _ _ _ => trivial

-- A dispatcher with other settings makes no call.
theorem other_triple {config' : OutboxDispatcherConfig} (hne : config' ≠ config) (c : Container) :
    WaitingTriple d config now r size seen total p (fun w => w.jobs p = some (.batch config'))
      (_run_iteration c config') fun _ _ => True := by
  refine (Triple.only run_iteration_only (fun w w' hr hw => ?_)
    fun e _ w a result w' _ hw hA => ?_).post fun _ _ _ => trivial
  · exact hr.1.1.1.1.1.job.trans hw
  · exact absurd (hA.config_eq config' hw) hne

end Calls

end PaymentsProcessor
