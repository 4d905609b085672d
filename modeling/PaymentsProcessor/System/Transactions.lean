import PaymentsProcessor.Database.Records
import PaymentsProcessor.System.Scope

namespace PaymentsProcessor

open Python Storage Concurrency PaymentsConstants

-- A statement that raises has aborted its transaction.
def failures_abort : Assumption Pid World Effect Answer := fun _ e a _ =>
  match e, a with
  | .execute _, .raised .. => False
  | _, _ => True

-- And a commit that raises has applied nothing.
def faults_undo : Assumption Pid World Effect Answer := fun pid e a w =>
  failures_abort pid e a w ∧ match e, a with
    | .commit, .raised _ (some _) => False
    | _, _ => True

section Statements

variable {d : Deployment} {p : Pid} {w w' : World} {stmt : Statement} {a : Answer}

theorem execute_returns {res : stmt.Result}
    (h : World.perform d p (.execute stmt) a w = some (.ok res, w')) :
    ∃ time ids locks writes, w.store.aborted p = false ∧
      stmt.verdict w.store p time ids = .succeeds res locks writes ∧
        w' = (w.take p locks writes).fetch p (World.fetches stmt (.ok res)) := by
  obtain ⟨time, ids, _, locks, writes, ha, hv, he, rfl⟩ | ⟨_, _, _, _, _, _, he, _⟩ |
    ⟨_, _, he, _, _⟩ := perform_execute h
  · cases he
    exact ⟨time, ids, locks, writes, ha, hv, rfl⟩
  · cases he
  · cases he

-- In an aborted transaction every statement raises.
theorem aborted_execute {result : Except Exn stmt.Result} (ha : w.store.aborted p = true)
    (h : World.perform d p (.execute stmt) a w = some (result, w')) : ∃ x, result = .error x := by
  cases result with
  | error x => exact ⟨x, rfl⟩
  | ok res =>
      obtain ⟨_, _, _, _, hb, _⟩ := execute_returns h
      rw [ha] at hb
      cases hb

theorem failed_execute {x : Exn} (hA : failures_abort p (.execute stmt) a w)
    (h : World.perform d p (.execute stmt) a w = some (.error x, w')) :
    w'.store.aborted p = true := by
  cases a with
  | raised => exact hA.elim
  | reply r =>
      obtain ⟨⟨res, w₁⟩, hc, he⟩ := Option.map_eq_some_iff.mp h
      obtain ⟨rfl, rfl⟩ := Prod.mk.inj he
      have hsame : ((w₁.handed p (.execute stmt) (.error x)).answered p false
          (.execute stmt)).store = w₁.store := rfl
      rw [show (Except.error x : Except Exn stmt.Result).isOk = false from rfl, hsame]
      cases r with
      | broken e =>
          cases hc
          exact Function.update_self ..
      | executed time ids =>
          replace hc : w.execute p stmt time ids = some (.error x, w₁) := hc
          unfold World.execute at hc
          split at hc
          · rename_i hb
            cases hc
            exact hb
          · split at hc <;> cases hc
            · exact Function.update_self ..
            · exact Function.update_self ..
      | _ => cases hc

theorem aborted_kept {result : Except Exn stmt.Result} (ha : w.store.aborted p = true)
    (h : World.perform d p (.execute stmt) a w = some (result, w')) :
    w'.store.aborted p = true := by
  have attempted : ∀ {w₁ : World}, Attempted p stmt w w₁ → w₁.store.aborted p = true := by
    intro w₁ h
    induction h with
    | untouched => exact ha
    | aborted => exact Function.update_self ..
    | failed _ ih => exact ih
    | carried_out => exact ha
  obtain ⟨_, _, _, _, _, hb, _⟩ | ⟨_, _, _, _, hb, _⟩ | ⟨_, _, _, hattempted, rfl⟩ :=
    perform_execute h
  · rw [ha] at hb
    cases hb
  · rw [ha] at hb
    cases hb
  · have hab := attempted hattempted
    exact hab

theorem undone_commit {result : Except Exn Unit} (hA : faults_undo p .commit a w)
    (h : World.perform d p .commit a w = some (result, w')) :
    result = .ok () ∧ w' = w.commit p ∨ ∃ x, result = .error x ∧ w' = w.fail p := by
  cases a with
  | reply r =>
      obtain ⟨rfl, rfl⟩ | ⟨x, rfl, hw⟩ := perform_commit h
      · exact .inl ⟨rfl, rfl⟩
      · cases r <;> cases h
  | raised x carried_out =>
      cases carried_out with
      | none =>
          cases h
          exact .inr ⟨x, rfl, rfl⟩
      | some r => exact hA.2.elim

-- No statement takes a lock away from its transaction.
theorem owner_kept {stmt : Statement} {result : Except Exn stmt.Result}
    (h : World.perform d p (.execute stmt) a w = some (result, w')) {k : Resource}
    (hk : w.store.owner k = some p) : w'.store.owner k = some p := by
  have take : ∀ locks writes, (w.store.take p locks writes).owner k = some p := by
    intro locks writes
    rw [LockStore.take_owner, hk, ite_self]
  have attempted : ∀ {w₁ : World}, Attempted p stmt w w₁ → w₁.store.owner k = some p := by
    intro w₁ ha
    induction ha with
    | untouched => exact hk
    | aborted _ ih => exact ih
    | failed _ ih => exact ih
    | carried_out => exact take _ _
  obtain ⟨_, _, _, _, _, _, _, _, rfl⟩ | ⟨_, _, _, _, _, _, _, rfl⟩ | ⟨_, _, _, ha, rfl⟩ :=
    perform_execute h
  · exact take _ _
  · exact hk
  · have hown := attempted ha
    exact hown

end Statements

section Views

variable {s : Store} {p : Pid}

-- Under writes that move rows on, a transaction sees the committed rows.
theorem visible_corresponds (h : ∀ wr ∈ s.writes p, wr.Progress) :
    s.contents.Corresponds (s.visible p) := by
  have hall : ∀ (ws : List Write) (c : Tables), (∀ wr ∈ ws, wr.Progress) →
      c.Corresponds (LockStore.applyAll Write.writing ws c) := by
    intro ws
    induction ws with
    | nil => exact fun c _ => .refl c
    | cons wr ws ih =>
        intro c hws
        exact (hws wr List.mem_cons_self).corresponds.trans
          (ih _ fun v hv => hws v (List.mem_cons_of_mem _ hv))
  exact hall _ _ h

theorem visible_row (h : ∀ wr ∈ s.writes p, wr.Progress) {row : Outbox}
    (hr : row ∈ s.contents.outbox.rows) : ∃ row', (s.visible p).outbox.find? row.id = some row' ∧
      row'.as_enqueued = row.as_enqueued ∧ (row.status = .PUBLISHED → row'.status = .PUBLISHED) := by
  obtain ⟨row', hr', he, hs⟩ := (visible_corresponds h).outbox row hr
  exact ⟨row', as_enqueued_id he ▸ Table.find?_key hr', he, hs⟩

end Views

end PaymentsProcessor
