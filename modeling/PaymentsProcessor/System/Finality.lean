import PaymentsProcessor.System.Outcomes

namespace PaymentsProcessor

open Python Storage Concurrency PaymentsConstants

-- What has an outcome keeps it.
def Tables.Keeps (c c' : Tables) : Prop :=
  ∀ id p, c.payments.find? id = some p → p.status ≠ .PENDING →
    ∃ p', c'.payments.find? id = some p' ∧ p'.status = p.status ∧
      p'.processed_at = p.processed_at

theorem Tables.Keeps.refl (c : Tables) : c.Keeps c := fun _ p hp _ => ⟨p, hp, rfl, rfl⟩

theorem Tables.Keeps.trans {c c' c'' : Tables} (h : c.Keeps c') (h' : c'.Keeps c'') :
    c.Keeps c'' := by
  intro id p hp hs
  obtain ⟨p', hp', hs', ht'⟩ := h id p hp hs
  obtain ⟨p'', hp'', hs'', ht''⟩ := h' id p' hp' (hs' ▸ hs)
  exact ⟨p'', hp'', hs''.trans hs', ht''.trans ht'⟩

def Reply.executes : Reply → Bool
  | .executed .. => true
  | _ => false

-- The answer of a server that has executed the statement, whether or not the
-- program learns of it.
def Answer.executes : Answer → Bool
  | .reply r => r.executes
  | .raised _ (some r) => r.executes
  | .raised _ none => false

-- An outcome is written only while the committed payment has none.
def updates_pending : Assumption Pid World Effect Answer := fun _ e a w =>
  ∀ id status processed_at, e = .execute (.update_processing_outcome id status processed_at) →
    a.executes → ∀ p, w.store.contents.payments.find? id = some p → p.status = .PENDING

-- The payment with this id has the outcome.
def World.Shows (w : World) (id : UUID) (status : PaymentStatusEnum) (processed_at : DateTime) :
    Prop :=
  status ≠ .PENDING ∧ ∃ p, w.store.contents.payments.find? id = some p ∧ p.status = status ∧
    p.processed_at = some processed_at

structure Guarded (w : World) : Prop where
  updates : ∀ pid id status processed_at time,
    .update_payment id status processed_at time ∈ w.store.writes pid →
      ∃ p, w.store.contents.payments.find? id = some p ∧ p.status = .PENDING
  shown : ∀ id status processed_at, w.Wrote id status processed_at → w.Shows id status processed_at

def finality : Logic Pid World where
  inv := Guarded
  rely _ w w' := w.store.contents.Keeps w'.store.contents
  done _ _ := True
  rely_refl _ _ := .refl _
  rely_trans _ _ _ _ := .trans
  done_stable _ _ _ _ _ := trivial

section Steps

variable {d : Deployment} {p : Pid} {w w' : World}

theorem finality_guarantee (h : w.store.contents.Keeps w'.store.contents) :
    finality.Guarantee p w w' := fun _ _ => h

-- The row that a pending update is about is locked, so that others leave it.
theorem Guarded.others (h : Guarded w) (ht : Tidy w) {q : Pid} (hf : Frame q w w') {id : UUID}
    {status : PaymentStatusEnum} {processed_at time : DateTime}
    (hwr : .update_payment id status processed_at time ∈ w'.store.writes q) :
    ∃ p, w'.store.contents.payments.find? id = some p ∧ p.status = .PENDING := by
  rw [hf.writes] at hwr
  rw [hf.payment id (ht.locked q _ hwr _ (by simp [Write.writing, Write.touches]))]
  exact h.updates q id status processed_at time hwr

-- A step of `p` that commits nothing.
theorem Guarded.step (h : Guarded w) (ht : Tidy w) (hf : ∀ pid, pid ≠ p → Frame pid w w')
    (hc : w'.store.contents = w.store.contents) (hl : w'.log.commits = w.log.commits)
    (hown : ∀ id status processed_at time,
      .update_payment id status processed_at time ∈ w'.store.writes p →
        .update_payment id status processed_at time ∈ w.store.writes p ∨
          ∃ p, w.store.contents.payments.find? id = some p ∧ p.status = .PENDING) :
    Guarded w' ∧ finality.Guarantee p w w' := by
  refine ⟨⟨fun pid id status t time hwr => ?_, fun id status t hwrote => ?_⟩,
    finality_guarantee (hc ▸ .refl _)⟩
  · by_cases hpid : pid = p
    · subst hpid
      rw [hc]
      exact (hown id status t time hwr).elim (h.updates pid id status t time) fun h => h
    · exact h.others ht (hf pid hpid) hwr
  · unfold World.Wrote at hwrote
    rw [hl] at hwrote
    unfold World.Shows
    rw [hc]
    exact h.shown id status t hwrote

theorem Guarded.same (h : Guarded w) (ht : Tidy w) (hf : ∀ pid, pid ≠ p → Frame pid w w')
    (hc : w'.store.contents = w.store.contents) (hl : w'.log.commits = w.log.commits)
    (hw : w'.store.writes p = [] ∨ w'.store.writes p = w.store.writes p) :
    Guarded w' ∧ finality.Guarantee p w w' := by
  refine h.step ht hf hc hl fun id status t time hwr => .inl ?_
  rcases hw with hw | hw
  · rw [hw] at hwr
    cases hwr
  · exact hw ▸ hwr

theorem update_of_verdict {stmt : Statement} {s : Store} {time time' : DateTime} {ids : List UUID}
    {result : stmt.Result} {locks : List Resource} {writes : List Write} {id : UUID}
    {status : PaymentStatusEnum} {processed_at : DateTime}
    (h : stmt.verdict s p time ids = .succeeds result locks writes)
    (hwr : .update_payment id status processed_at time' ∈ writes) :
    stmt = .update_processing_outcome id status processed_at ∧
      writes = [.update_payment id status processed_at time'] ∧
        ∃ q, (s.visible p).payments.find? id = some q := by
  cases stmt with
  | update_processing_outcome id' status' processed_at' =>
      obtain ⟨_, _, rfl⟩ | ⟨q, hq, _, _, _, rfl⟩ := update_payment_succeeds h
      · cases hwr
      · rw [List.mem_singleton] at hwr
        cases hwr
        exact ⟨rfl, rfl, q, hq⟩
  | get_by_id | get_by_idempotency_key =>
      cases h
      cases hwr
  | insert_payment =>
      obtain ⟨_, _, _, _, _, _, _, _, _, rfl⟩ := insert_payment_succeeds h
      simp at hwr
  | insert_outbox =>
      obtain ⟨_, _, _, _, rfl⟩ := insert_outbox_succeeds h
      simp at hwr
  | scan_pending =>
      obtain ⟨_, rfl, _⟩ := scan_succeeds h
      cases hwr
  | lock_pending =>
      obtain ⟨rfl, _⟩ := lock_succeeds h
      cases hwr
  | mark_published =>
      obtain ⟨_, rfl, _⟩ | ⟨_, _, rfl⟩ := mark_succeeds h <;> simp at hwr
  | bump_attempt =>
      obtain ⟨_, rfl, _⟩ | ⟨_, _, rfl⟩ := bump_succeeds h <;> simp at hwr

-- A write that is no update changes no payment that exists.
theorem Write.keeps_payment {wr : Write} (h : wr.updates = false) {c : Tables} {id : UUID}
    {q : Payment} (hq : c.payments.find? id = some q) :
    (Write.writing.apply wr c).payments.find? id = some q := by
  cases wr with
  | update_payment => cases h
  | insert_payment r =>
      obtain ⟨hmem, hid⟩ := Table.find?_eq_some_iff.mp hq
      exact Table.find?_eq_some_iff.mpr ⟨Table.mem_insert_of_mem hmem, hid⟩
  | insert_outbox | publish_outbox | bump_outbox => exact hq

-- What was not executed has written nothing.
theorem executes_of_writes {stmt : Statement} {a : Answer} {result : Except Exn stmt.Result}
    (h : World.perform d p (.execute stmt) a w = some (result, w'))
    (hw : w'.store.writes p ≠ w.store.writes p) : a.executes := by
  cases a with
  | reply r =>
      cases r with
      | executed => rfl
      | broken e =>
          cases h
          exact absurd rfl hw
      | _ => cases h
  | raised x carried_out =>
      cases carried_out with
      | none =>
          cases h
          exact absurd rfl hw
      | some r =>
          cases r with
          | executed => rfl
          | broken e =>
              cases h
              exact absurd rfl hw
          | _ => cases h

-- A committed update is the transaction's only write, and finds its payment pending.
theorem Guarded.updated (h : Guarded w) (ha : Attested d w) (hb : w.store.aborted p = false)
    {id : UUID} {status : PaymentStatusEnum} {processed_at time : DateTime}
    (hwr : .update_payment id status processed_at time ∈ w.store.writes p) :
    (w.commit p).Shows id status processed_at := by
  obtain ⟨q, hq, _⟩ := h.updates p id status processed_at time hwr
  refine ⟨ha.writes p _ hwr, q.set_outcome status processed_at time, ?_, rfl, rfl⟩
  have hc : (w.commit p).store.contents = Write.writing.apply
      (.update_payment id status processed_at time) w.store.contents := by
    rw [commit_contents, LockStore.commit_contents, if_neg (by simp [hb]), LockStore.view,
      ha.single p _ hwr rfl]
    rfl
  rw [hc]
  refine (Table.find?_modify (Payment.set_outcome_id status processed_at time)).trans ?_
  rw [hq, Option.map_some, if_pos (Table.key_of_find? hq)]

-- A payment that the transaction does not update stays as it is.
theorem not_updated {id : UUID} {q : Payment}
    (hq : w.store.contents.payments.find? id = some q)
    (hnot : ∀ status processed_at time,
      .update_payment id status processed_at time ∉ w.store.writes p) :
    (w.commit p).store.contents.payments.find? id = some q := by
  rw [commit_contents]
  refine LockStore.commit_induction (P := fun c => c.payments.find? id = some q) w.store p hq ?_
  intro wr hwr c hc
  cases hu : wr.updates with
  | false => exact Write.keeps_payment hu hc
  | true =>
      cases wr with
      | update_payment id' status processed_at time =>
          have hne : id ≠ id' := fun he => hnot status processed_at time (he ▸ hwr)
          exact (Table.find?_modify_ne (Payment.set_outcome_id status processed_at time) hne).trans
            hc
      | _ => cases hu

theorem Guarded.commit (h : Guarded w) (ht : Tidy w) (ha : Attested d w) :
    Guarded (w.commit p) ∧ finality.Guarantee p w (w.commit p) := by
  have hf : ∀ pid, pid ≠ p → Frame pid w (w.commit p) := fun pid hne => frame_commit hne ht.locked
  by_cases hb : w.store.aborted p
  · refine h.same ht hf ?_ ?_ (.inl (by simp))
    · rw [commit_contents, LockStore.commit_contents, if_pos hb]
    · rw [World.commit, if_pos hb]
      rfl
  -- an outcome stays, since its payment is not pending
  have hstays : ∀ id q, w.store.contents.payments.find? id = some q → q.status ≠ .PENDING →
      (w.commit p).store.contents.payments.find? id = some q := by
    intro id q hq hs
    refine not_updated hq fun status processed_at time hwr => ?_
    obtain ⟨q', hq', hs'⟩ := h.updates p id status processed_at time hwr
    rw [hq] at hq'
    cases hq'
    exact hs hs'
  refine ⟨⟨fun pid id status t time hwr => ?_, fun id status t hwrote => ?_⟩,
    finality_guarantee fun id q hq hs => ⟨q, hstays id q hq hs, rfl, rfl⟩⟩
  · by_cases hpid : pid = p
    · subst hpid
      simp at hwr
    · exact h.others ht (hf pid hpid) hwr
  · obtain ⟨commit, hc, time, hwr⟩ := hwrote
    rw [World.commit, if_neg hb] at hc
    rcases List.mem_append.mp hc with hc | hc
    · obtain ⟨hs, q, hq, hqs, hqt⟩ := h.shown id status t ⟨commit, hc, time, hwr⟩
      exact ⟨hs, q, hstays id q hq (hqs ▸ hs), hqs, hqt⟩
    · rw [List.mem_singleton] at hc
      subst hc
      exact h.updated ha (by simpa using hb) hwr

theorem guarded_spec {e : Effect} :
    CallSpec (machine d) updates_pending (frameLogic.inf (outcomes d)) finality p (fun _ => True) e
      fun _ _ => True := by
  intro w a result w' hi _ hA hp hk hg
  obtain ⟨⟨ht, ha⟩, hn⟩ := hi
  have hf : ∀ pid, pid ≠ p → Frame pid w w' := fun pid hne => (hg pid hne).1
  have hs := scope_perform hp
  have main : Guarded w' ∧ finality.Guarantee p w w' := by
    cases e with
    | execute stmt =>
        refine hn.step ht hf (hs.contents nofun) (hs.commits nofun) fun id status t time hwr => ?_
        obtain hw | ⟨_, _, _, _, writes, hv, hw⟩ := execute_writes hp
        · exact .inl (hw ▸ hwr)
        rw [hw, List.mem_append] at hwr
        refine hwr.imp_right fun hwr => ?_
        obtain ⟨rfl, rfl, q, hq⟩ := update_of_verdict hv hwr
        -- it is the first write, so that the statement has seen what is committed
        have hnil : w.store.writes p = [] := by
          have hsingle := hk.2.single p (.update_payment id status t time) (by simp [hw]) rfl
          simpa [hw] using hsingle
        rw [visible_of_nil hnil] at hq
        refine ⟨q, hq, hA id status t rfl (executes_of_writes hp ?_) q hq⟩
        simp [hw]
    | commit =>
        have hc := hn.commit (p := p) ht ha
        obtain ⟨_, rfl⟩ | ⟨_, _, rfl | rfl⟩ := perform_commit hp
        · exact hc
        · exact hn.same ht hf rfl rfl (.inr rfl)
        · exact ⟨{ hc.1 with }, hc.2⟩
    | _ => exact hn.same ht hf (hs.contents nofun) (hs.commits nofun) (hs.writes nofun p)
  exact ⟨main.1, main.2, trivial⟩

end Steps

section Soundness

variable (d : Deployment)

theorem guarded_init : Guarded World.init := by
  constructor
  · simp [LockStore.empty]
  · rintro id status t ⟨commit, hc, _⟩
    cases hc

theorem finality_obliged :
    Obliged (machine d) updates_pending (frameLogic.inf (outcomes d)) finality where
  launch pid l w prog w' hi hl hk hg := by
    have hf : ∀ q, q ≠ pid → Frame q w w' := fun q hne => (hg q hne).1
    obtain ⟨hs, _, hlog⟩ := launch_same hl
    obtain ⟨hn, hgn⟩ := hi.2.same hi.1.1 hf (by rw [hs]) (by rw [hlog]) (.inr (by rw [hs]))
    have hprog : Triple (machine d) updates_pending (frameLogic.inf (outcomes d)) finality pid
        (fun _ => True) prog fun _ _ => True :=
      Triple.only prog.only_true (fun _ _ _ h => h) fun _ _ => guarded_spec
    exact ⟨hn, hgn, hprog w' ⟨hk, hn⟩ trivial⟩
  crash pid w hi _ hg := by
    obtain ⟨hs, _, _, hl⟩ := @crash_same pid w
    have hn := @Guarded.same pid w (w.crash pid) hi.2 hi.1.1 (fun q hne => (hg q hne).1)
      (by rw [hs]; rfl) (by rw [hl]; rfl) (.inl (by rw [hs]; simp))
    exact ⟨hn.1, hn.2, trivial⟩
  tick t w w' hi ht _ hf := by
    obtain ⟨hs, _, _, hl⟩ := tick_same ht
    have hn := @Guarded.same 0 w w' hi.2 hi.1.1 (fun q _ => (hf q).1) (by rw [hs]) (by rw [hl])
      (.inr (by rw [hs]))
    exact ⟨hn.1, fun _ => (hs ▸ .refl _ : w.store.contents.Keeps w'.store.contents)⟩

theorem finality_sound :
    Sound (machine d) updates_pending ((frameLogic.inf (outcomes d)).inf finality)
      SystemConfig.init :=
  (outcomes_sound d updates_pending).extend (finality_obliged d) guarded_init fun _ => rfl

end Soundness

end PaymentsProcessor
