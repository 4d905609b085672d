import PaymentsProcessor.OutboxDispatcher.Ahead
import PaymentsProcessor.System.Batching

namespace PaymentsProcessor

open Python Storage Concurrency PaymentsConstants

-- One dispatcher with these settings, which starts a batch when the one before
-- has ended. Its clock does not go back behind `now`, and the rows that come to
-- the table are due later than `r`.
structure SingleDispatcher (config : OutboxDispatcherConfig) (now : DateTime) (r : Outbox)
    (p : Pid) (e : Effect) (a : Answer) (w : World) : Prop where
  config_eq : ∀ config', w.jobs p = some (.batch config') → config' = config
  alone : ∀ config', w.jobs p = some (.batch config') → ∀ q, q ≠ p → ¬w.Batching q
  clock : ∀ config', w.jobs p = some (.batch config') → e = .now →
    ∀ t, a = .reply (.time t) → now ≤ t
  later : e = .commit → ∀ row, .insert_outbox row ∈ w.store.writes p →
    r.next_attempt_at < row.next_attempt_at

namespace World

def dispatches (w : World) (p : Pid) : Bool :=
  match w.jobs p with
  | some (.batch _) => true
  | _ => false

-- The batches that have committed.
def batches (w : World) : ℕ := w.log.commits.countP fun e => w.dispatches e.1

-- The row was handed to the publisher after so many calls of it.
def HandedSince (w : World) (seen : ℕ) (r : Outbox) : Prop :=
  ∃ m ∈ w.log.publishes.drop seen, m.exchange = EXCHANGE_PAYMENTS ∧
    m.routing_key = r.routing_key ∧ m.message = ⟨r.payload, []⟩

-- The rows ahead, with those that so many in each batch have been removed.
def standing (w : World) (size : ℕ) (r : Outbox) : ℕ :=
  (w.store.contents.ahead r).length + size * w.batches

end World

-- A commit since then has written to the row.
def Contained (r : Outbox) (w w' : World) : Prop :=
  ∃ e ∈ w'.log.commits.drop w.log.commits.length, ∃ wr ∈ e.2, wr.moves = some r.id

-- As long as no commit contains the row, each batch removes so many rows from
-- those ahead of it, and none is added.
structure Advances (size seen : ℕ) (r : Outbox) (w w' : World) : Prop where
  commits : w.log.commits <+: w'.log.commits
  handed : w.HandedSince seen r → w'.HandedSince seen r
  row : r ∈ w.store.contents.outbox.rows → Contained r w w' ∨
    r ∈ w'.store.contents.outbox.rows ∧
      w'.store.contents.ahead r ⊆ w.store.contents.ahead r ∧
      w.standing size r = w'.standing size r

-- Only rows that are due later than `r` come in.
structure Undisturbed (r : Outbox) (w w' : World) : Prop where
  kept : w.store.contents.outbox.rows ⊆ w'.store.contents.outbox.rows
  later : ∀ row ∈ w'.store.contents.outbox.rows, row ∈ w.store.contents.outbox.rows ∨
    r.next_attempt_at < row.next_attempt_at

structure Waiting (size seen total : ℕ) (r : Outbox) (w : World) : Prop where
  seen_le : seen ≤ w.log.publishes.length
  handed_or : w.HandedSince seen r ∨
    r ∈ w.store.contents.outbox.rows ∧ w.standing size r = total

section Relations

variable {size seen total : ℕ} {r : Outbox} {w w' w'' : World}

theorem drop_subset_of_prefix {α : Type} {l l' : List α} (h : l <+: l') (n : ℕ) :
    l.drop n ⊆ l'.drop n := by
  obtain ⟨rest, rfl⟩ := h
  rw [List.drop_append]
  exact List.subset_append_left _ _

theorem Contained.extend (h : Contained r w w') (hc : w'.log.commits <+: w''.log.commits) :
    Contained r w w'' := by
  obtain ⟨e, he, hmoves⟩ := h
  exact ⟨e, drop_subset_of_prefix hc _ he, hmoves⟩

theorem Contained.after (h : Contained r w' w'') (hc : w.log.commits <+: w'.log.commits) :
    Contained r w w'' := by
  obtain ⟨e, he, hmoves⟩ := h
  exact ⟨e, List.drop_subset_drop_left _ hc.length_le he, hmoves⟩

theorem Advances.refl (size seen : ℕ) (r : Outbox) (w : World) : Advances size seen r w w :=
  ⟨List.prefix_rfl, fun h => h, fun h => .inr ⟨h, List.Subset.refl _, rfl⟩⟩

theorem Advances.trans (h : Advances size seen r w w') (h' : Advances size seen r w' w'') :
    Advances size seen r w w'' := by
  refine ⟨h.commits.trans h'.commits, fun hh => h'.handed (h.handed hh), fun hr => ?_⟩
  rcases h.row hr with hc | ⟨hr', hsub, hstand⟩
  · exact .inl (hc.extend h'.commits)
  · rcases h'.row hr' with hc | ⟨hr'', hsub', hstand'⟩
    · exact .inl (hc.after h.commits)
    · exact .inr ⟨hr'', List.Subset.trans hsub' hsub, hstand.trans hstand'⟩

theorem Undisturbed.refl (r : Outbox) (w : World) : Undisturbed r w w :=
  ⟨List.Subset.refl _, fun _ h => .inl h⟩

theorem Undisturbed.trans (h : Undisturbed r w w') (h' : Undisturbed r w' w'') :
    Undisturbed r w w'' := by
  refine ⟨List.Subset.trans h.kept h'.kept, fun row hrow => ?_⟩
  rcases h'.later row hrow with hrow | hlater
  · exact h.later row hrow
  · exact .inr hlater

-- What is not due later than `r` was there before.
theorem Undisturbed.mem (h : Undisturbed r w w') {row : Outbox}
    (hrow : row ∈ w'.store.contents.outbox.rows)
    (hle : row.next_attempt_at ≤ r.next_attempt_at) : row ∈ w.store.contents.outbox.rows :=
  (h.later row hrow).resolve_right (not_lt.mpr hle)

theorem Undisturbed.ahead (h : Undisturbed r w w') :
    w.store.contents.ahead r ⊆ w'.store.contents.ahead r := by
  intro row hrow
  obtain ⟨hrow, hahead⟩ := mem_ahead.mp hrow
  exact mem_ahead.mpr ⟨h.kept hrow, hahead⟩

end Relations

def waiting (size seen total : ℕ) (r : Outbox) : Logic Pid World where
  inv := Waiting size seen total r
  rely p w w' := Advances size seen r w w' ∧
    (w.Batching p → w'.Batching p ∧ Undisturbed r w w')
  done _ _ := True
  rely_refl _ w := ⟨.refl size seen r w, fun h => ⟨h, .refl r w⟩⟩
  rely_trans _ _ _ _ h h' := by
    refine ⟨h.1.trans h'.1, fun hb => ?_⟩
    obtain ⟨hb', hu⟩ := h.2 hb
    obtain ⟨hb'', hu'⟩ := h'.2 hb'
    exact ⟨hb'', hu.trans hu'⟩
  done_stable _ _ _ _ _ := trivial

abbrev heldBatches (d : Deployment) : Logic Pid World :=
  (handoverFresh d unrestricted).inf batching

section Steps

variable {d : Deployment} {size seen total : ℕ} {r : Outbox} {p : Pid} {w w' : World}

theorem batches_congr (hc : w'.log.commits = w.log.commits)
    (hj : ∀ e ∈ w.log.commits, w'.jobs e.1 = w.jobs e.1) : w'.batches = w.batches := by
  unfold World.batches World.dispatches
  rw [hc]
  apply List.countP_congr
  intro e he
  rw [hj e he]

-- The parts of a world that the waiting of a row is about stay as they are.
structure Idle (w w' : World) : Prop where
  contents : w'.store.contents = w.store.contents
  commits : w'.log.commits = w.log.commits
  jobs : ∀ e ∈ w.log.commits, w'.jobs e.1 = w.jobs e.1
  publishes : w.log.publishes <+: w'.log.publishes

theorem Idle.handed (h : Idle w w') (hw : w.HandedSince seen r) : w'.HandedSince seen r := by
  obtain ⟨m, hm, hrow⟩ := hw
  exact ⟨m, drop_subset_of_prefix h.publishes _ hm, hrow⟩

theorem Idle.standing (h : Idle w w') : w'.standing size r = w.standing size r := by
  unfold World.standing
  rw [h.contents, batches_congr h.commits h.jobs]

theorem Waiting.idle (hw : Waiting size seen total r w) (h : Idle w w') :
    Waiting size seen total r w' := by
  refine ⟨hw.seen_le.trans h.publishes.length_le, ?_⟩
  rw [h.contents, h.standing]
  exact hw.handed_or.imp_left h.handed

theorem Idle.advances (h : Idle w w') : Advances size seen r w w' := by
  refine ⟨h.commits ▸ List.prefix_rfl, h.handed, fun hr => .inr ?_⟩
  rw [h.contents, h.standing]
  exact ⟨hr, List.Subset.refl _, rfl⟩

theorem Idle.rely (h : Idle w w') (hb : w.Batching p → w'.Batching p) :
    (waiting size seen total r).rely p w w' := by
  refine ⟨h.advances, fun hbatch => ⟨hb hbatch, ?_⟩⟩
  constructor
  · rw [h.contents]
    exact List.Subset.refl _
  · rw [h.contents]
    exact fun _ hrow => .inl hrow

theorem publishes_prefix {e : Effect} {a : Answer} {result : Except Exn e.Result}
    (hp : World.perform d p e a w = some (result, w')) :
    w.log.publishes <+: w'.log.publishes := by
  by_cases he : e.kind = .publish
  · cases e with
    | publish exchange routing_key payload headers =>
        obtain ⟨w₁, rfl, _, _, _, hpub, _⟩ := perform_recorded hp
        rw [World.record_log_publishes, hpub]
        exact List.prefix_append _ _
    | _ => cases he
  · exact (scope_perform hp).publishes he ▸ List.prefix_rfl

theorem idle_perform {e : Effect} {a : Answer} {result : Except Exn e.Result}
    (hp : World.perform d p e a w = some (result, w')) (he : e.kind ≠ .commit) : Idle w w' := by
  have hs := scope_perform hp
  exact ⟨hs.contents he, hs.commits he, fun _ _ => by rw [hs.jobs], publishes_prefix hp⟩

-- What only inserts rows that are due later changes nothing ahead of `r`.
theorem inserted_later {ws : List Write} (hmoves : ∀ wr ∈ ws, wr.moves = none)
    (hlater : ∀ row, .insert_outbox row ∈ ws → r.next_attempt_at < row.next_attempt_at)
    (c : Tables) : c.outbox.rows ⊆ (LockStore.applyAll Write.writing ws c).outbox.rows ∧
      (∀ row ∈ (LockStore.applyAll Write.writing ws c).outbox.rows, row ∈ c.outbox.rows ∨
        r.next_attempt_at < row.next_attempt_at) ∧
      (LockStore.applyAll Write.writing ws c).ahead r = c.ahead r := by
  induction ws generalizing c with
  | nil => exact ⟨List.Subset.refl _, fun _ h => .inl h, rfl⟩
  | cons wr ws ih =>
      obtain ⟨hwr, hws⟩ := List.forall_mem_cons.mp hmoves
      obtain ⟨hsub, hnew, hahead⟩ := ih hws
        (fun row hrow => hlater row (List.mem_cons_of_mem _ hrow)) (wr.apply c)
      have happly : c.outbox.rows ⊆ (wr.apply c).outbox.rows ∧
          (∀ row ∈ (wr.apply c).outbox.rows, row ∈ c.outbox.rows ∨
            r.next_attempt_at < row.next_attempt_at) ∧ (wr.apply c).ahead r = c.ahead r := by
        cases wr with
        | insert_payment | update_payment => exact ⟨List.Subset.refl _, fun _ h => .inl h, rfl⟩
        | insert_outbox new =>
            have hlate := hlater new List.mem_cons_self
            refine ⟨fun row hrow => Table.mem_insert_of_mem hrow, fun row hrow => ?_, ?_⟩
            · rcases Table.of_mem_insert hrow with hrow | rfl
              · exact .inl hrow
              · exact .inr hlate
            · unfold Tables.ahead
              simp only [Write.apply, Table.insert]
              split
              · rfl
              · rw [List.filter_append, List.filter_singleton, not_ahead_of_later hlate]
                exact List.append_nil _
        | publish_outbox | bump_outbox => cases hwr
      refine ⟨List.Subset.trans happly.1 hsub, fun row hrow => ?_, hahead.trans happly.2.2⟩
      rcases hnew row hrow with hrow | hlate
      · exact happly.2.1 row hrow
      · exact .inr hlate

end Steps

end PaymentsProcessor
