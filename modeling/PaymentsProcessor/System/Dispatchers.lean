import PaymentsProcessor.OutboxDispatcher.Dispatching
import PaymentsProcessor.System.Handover

namespace PaymentsProcessor

open Python Storage Concurrency PaymentsConstants

section Calls

variable {d : Deployment} {A : Assumption Pid World Effect Answer} {p : Pid} {w w' : World}

theorem Handover.execute (h : Handover A w) (hf : ∀ q, q ≠ p → Frame q w w') {stmt : Statement}
    {a : Answer} {result : Except Exn stmt.Result}
    (hp : World.perform d p (.execute stmt) a w = some (result, w'))
    (hstmt : ∀ id now, stmt ≠ .lock_pending id now)
    (hallowed : ∀ time ids result locks writes,
      stmt.verdict w.store p time ids = .succeeds result locks writes →
        ∀ wr ∈ writes, Allowed p w wr) :
    Handover A w' ∧ (handover A).Guarantee p w w' := by
  have hs : Scope .execute w w' := scope_perform hp
  have hcontents := hs.contents (by decide)
  have hpublishes := hs.publishes (by decide)
  have hfetched := execute_fetches_none hstmt hp
  refine ⟨h.step hf hcontents hpublishes (hs.rollbacks (by decide) (by decide)) hs.jobs
    (fun hj => by rw [hfetched]; exact (h.fresh p hj).1) (by rw [hfetched]; exact fun _ hid => hid)
    (fun id hid => .inl (by rw [hfetched] at hid; exact hid)) fun wr hwr => ?_,
    handover_guarantee hcontents hpublishes⟩
  obtain hw | ⟨_, _, _, _, _, hv, hw⟩ := execute_writes hp
  · exact .inl (hw ▸ hwr)
  · rw [hw, List.mem_append] at hwr
    exact hwr.imp_right (hallowed _ _ _ _ _ hv wr)

theorem Handover.commit_call (h : Handover A w) (ht : Tidy w) (hrec : Recorded d A w)
    (hcleared : Cleared A p w) {a : Answer} {result : Except Exn Unit}
    (hp : World.perform d p .commit a w = some (result, w')) (hk : Recorded d A w')
    (he : w.store.contents.Evolves w'.store.contents) :
    Handover A w' ∧ (handover A).Guarantee p w w' := by
  have hown : ∀ w₁ : World, w₁.log.publishes = w.log.publishes → w.Settles w₁ →
      (handover A).Guarantee p w w₁ := fun w₁ hp hs q _ => ⟨own_of_same hp q, hs⟩
  have hcommit : (w.commit p).store.contents.Consistent →
      w.store.contents.Evolves (w.commit p).store.contents →
      Handover A (w.commit p) ∧ (handover A).Guarantee p w (w.commit p) := by
    intro hcons he
    by_cases hb : w.store.aborted p
    · have hback : w.commit p = w.rollback p := by
        unfold World.commit
        rw [if_pos hb]
      rw [hback]
      exact ⟨h.rollback, handover_guarantee rfl rfl⟩
    · have hb : w.store.aborted p = false := by simpa using hb
      refine ⟨h.commit ht hrec he hcons hb hcleared, hown _ ?_ (h.settles_commit hrec hb)⟩
      unfold World.commit
      rw [if_neg (by simp [hb])]
  obtain ⟨_, rfl⟩ | ⟨_, _, rfl | rfl⟩ := perform_commit hp
  · exact hcommit hk.consistent he
  · exact ⟨h.congr rfl rfl rfl rfl fun _ h => h, handover_guarantee rfl rfl⟩
  · obtain ⟨hn, hg⟩ := hcommit hk.consistent he
    exact ⟨hn.congr rfl rfl rfl rfl fun _ h => h, hg⟩

theorem Handover.close_call (h : Handover A w) {a : Answer} {result : Except Exn Unit}
    (hp : World.perform d p .close a w = some (result, w')) :
    Handover A w' ∧ (handover A).Guarantee p w w' := by
  obtain ⟨_, rfl⟩ | ⟨_, _, rfl | rfl⟩ := perform_close hp
  · exact ⟨h.rollback, handover_guarantee rfl rfl⟩
  · exact ⟨h.congr rfl rfl rfl rfl fun _ h => h, handover_guarantee rfl rfl⟩
  · exact ⟨(h.rollback (p := p)).congr rfl rfl rfl rfl fun _ h => h, handover_guarantee rfl rfl⟩

-- A publish call is recorded with the message, whether it returns or not.
theorem perform_recorded {exchange routing_key : String} {payload : JsonDict} {headers : Headers}
    {a : Answer} {result : Except Exn Unit}
    (hp : World.perform d p (.publish exchange routing_key payload headers) a w =
      some (result, w')) :
    ∃ w₁ : World, w' = w₁.record ⟨p, exchange, routing_key, ⟨payload, headers⟩, result.isOk⟩ ∧
      w₁.store = w.store ∧ w₁.fetched = w.fetched ∧ w₁.jobs = w.jobs ∧
      w₁.log.publishes = w.log.publishes ∧ w₁.log.rollbacks = w.log.rollbacks := by
  obtain ⟨rfl, rfl⟩ | ⟨_, w₁, rfl, rfl | rfl, rfl⟩ := perform_publish hp
  all_goals exact ⟨_, rfl, rfl, rfl, rfl, rfl, rfl⟩

theorem Handover.publish_call (h : Handover A w) (ht : Tidy w) (hrec : Recorded d A w)
    (hstarted : w.jobs p ≠ none) {exchange routing_key : String} {payload : JsonDict}
    {headers : Headers} {a : Answer} {result : Except Exn Unit}
    (hp : World.perform d p (.publish exchange routing_key payload headers) a w =
      some (result, w'))
    (hm : Handing p w ⟨p, exchange, routing_key, ⟨payload, headers⟩, result.isOk⟩) :
    Handover A w' ∧ (handover A).Guarantee p w w' := by
  obtain ⟨w₁, rfl, hs, hf, hj, hpub, hroll⟩ := perform_recorded hp
  have hn := h.publish ht hrec hm hstarted
  have hg := publish_guarantee h hrec hm
  refine ⟨hn.congr ?_ ?_ ?_ ?_ ?_, fun q hq => ⟨?_, fun row hrow hsettled => ?_⟩⟩
  · exact hs
  · exact hf
  · simp [hpub]
  · exact hroll
  · exact fun q hq => hj ▸ hq
  · rw [← (hg q hq).1]
    simp [World.own, hpub]
  · rw [World.record_store, hs]
    refine ⟨hrow, ?_⟩
    rw [← ((hg q hq).2 row hrow hsettled).2]
    simp [World.handovers, hpub]

end Calls

section Outside

variable {d : Deployment} {A : Assumption Pid World Effect Answer} {p : Pid}

-- A process that is no dispatcher.
structure Outside (p : Pid) (w : World) : Prop where
  started : w.jobs p ≠ none
  fetched : w.fetched p = []

theorem stable_outside : ((frameLogic.inf (records d A)).inf (handover A)).Stable p (Outside p) :=
  fun _ _ hr hw => ⟨hr.1.1.job ▸ hw.started, hr.1.1.fetched.trans hw.fetched⟩

private theorem outside_writes {stmt : Statement}
    (he : Effect.ofRequest (.execute stmt) ∨ Effect.ofConsumer (.execute stmt)) {w : World}
    {time : DateTime} {ids : List UUID} {result : stmt.Result} {locks : List Resource}
    {writes : List Write} (hv : stmt.verdict w.store p time ids = .succeeds result locks writes) :
    ∀ wr ∈ writes, Allowed p w wr := by
  intro wr hwr
  cases stmt with
  | get_by_id | get_by_idempotency_key =>
      cases hv
      cases hwr
  | insert_payment values =>
      obtain ⟨_, _, _, _, _, _, _, _, _, rfl⟩ := insert_payment_succeeds hv
      rw [List.mem_singleton] at hwr
      subst hwr
      exact ⟨by simp [Write.moves], by simp, by simp⟩
  | insert_outbox values =>
      obtain ⟨rfl, _, _, _, rfl⟩ := insert_outbox_succeeds hv
      rw [List.mem_singleton] at hwr
      subst hwr
      refine ⟨by simp [Write.moves], fun row hrow => ?_, by simp⟩
      cases hrow
      exact he.elim id False.elim
  | update_processing_outcome id status processed_at =>
      obtain ⟨_, _, rfl⟩ | ⟨_, _, _, _, _, rfl⟩ := update_payment_succeeds hv
      · cases hwr
      · rw [List.mem_singleton] at hwr
        subst hwr
        exact ⟨by simp [Write.moves], by simp, by simp⟩
  | scan_pending | lock_pending | mark_published | bump_attempt => exact (he.elim id id).elim

theorem outside_spec {e : Effect} (he : e.ofRequest ∨ e.ofConsumer) :
    CallSpec (machine d) A (frameLogic.inf (records d A)) (handover A) p (Outside p) e
      fun _ => Outside p := by
  intro w a result w' hi hw _ hp hk hg
  obtain ⟨⟨ht, hrec⟩, hn⟩ := hi
  have hf : ∀ q, q ≠ p → Frame q w w' := fun q hq => (hg q hq).1
  have hs := scope_perform hp
  have hjobs : w'.jobs p ≠ none := hs.jobs ▸ hw.started
  have same : e.kind ≠ .execute → e.kind ≠ .commit → e.kind ≠ .close → e.kind ≠ .publish →
      Handover A w' ∧ (handover A).Guarantee p w w' ∧ Outside p w' := by
    intro h₁ h₂ h₃ h₄
    have hstore := hs.store h₁ h₂ h₃
    refine ⟨hn.congr hstore (hs.fetched h₁ h₂ h₃) (hs.publishes h₄) (hs.rollbacks h₂ h₃)
      fun q hq => hs.jobs ▸ hq, handover_guarantee (hs.contents h₂) (hs.publishes h₄),
      hjobs, ?_⟩
    rw [hs.fetched h₁ h₂ h₃]
    exact hw.fetched
  cases e with
  | execute stmt =>
      have hstmt : ∀ id now, stmt ≠ .lock_pending id now := by
        rintro id now rfl
        exact he.elim (fun h => h) fun h => h
      obtain ⟨hn', hg'⟩ := hn.execute hf hp hstmt fun _ _ _ _ _ hv => outside_writes he hv
      exact ⟨hn', hg', hjobs, by rw [execute_fetches_none hstmt hp]; exact hw.fetched⟩
  | commit =>
      have hcleared : Cleared A p w := fun _ => .inr fun row _ hid => by
        rw [hw.fetched] at hid
        cases hid
      obtain ⟨hn', hg'⟩ := hn.commit_call ht hrec hcleared hp hk.2 (hg (p + 1) (by simp)).2.1
      refine ⟨hn', hg', hjobs, ?_⟩
      obtain ⟨_, rfl⟩ | ⟨_, _, rfl | rfl⟩ := perform_commit hp
      · exact commit_fetched_self
      · exact hw.fetched
      · exact commit_fetched_self
  | close =>
      obtain ⟨hn', hg'⟩ := hn.close_call hp
      refine ⟨hn', hg', hjobs, ?_⟩
      obtain ⟨_, rfl⟩ | ⟨_, _, rfl | rfl⟩ := perform_close hp
      · simp
      · exact hw.fetched
      · simp
  | publish exchange routing_key payload headers =>
      have hother : exchange ≠ EXCHANGE_PAYMENTS := he.elim False.elim id
      obtain ⟨hn', hg'⟩ := hn.publish_call ht hrec hw.started hp
        ⟨rfl, fun hx => absurd hx hother⟩
      refine ⟨hn', hg', hjobs, ?_⟩
      have hs : Scope .publish w w' := scope_perform hp
      rw [hs.fetched (by decide) (by decide) (by decide)]
      exact hw.fetched
  | _ => exact same nofun nofun nofun nofun

theorem outside_triple {prog : Async Unit} (h : prog.Only fun e => e.ofRequest ∨ e.ofConsumer) :
    Triple (machine d) A (frameLogic.inf (records d A)) (handover A) p (Outside p) prog
      fun _ => Outside p :=
  Triple.only h stable_outside fun _ he => outside_spec he

end Outside

section Batch

variable {d : Deployment} {A : Assumption Pid World Effect Answer} {p : Pid}

-- The batch holds this row, and the row is as the batch has found it.
structure Holds (p : Pid) (row : Outbox) (w : World) : Prop where
  fetched : row.id ∈ w.fetched p
  locked : w.store.owner (.outbox row.id) = some p
  found : w.store.contents.outbox.find? row.id = some row

-- A batch that has published nothing yet.
structure Fetching (p : Pid) (rows : List Outbox) (w : World) : Prop where
  started : w.jobs p ≠ none
  locked : ∀ id ∈ w.fetched p, w.store.owner (.outbox id) = some p
  writes : w.store.writes p = []
  own : w.own p = []
  holds : ∀ row ∈ rows, Holds p row w

-- What was handed over is marked, this row perhaps apart.
def ClearedBut (A : Assumption Pid World Effect Answer) (p : Pid) (but : Option UUID) (w : World) :
    Prop :=
  FailuresAbort A → w.store.aborted p = true ∨
    ∀ id ∈ w.fetched p, some id ≠ but → ∀ row, w.store.contents.outbox.find? id = some row →
      w.copies_of p row.aggregate_id = 0 ∨ w.Marked p id

-- A batch with these rows still to do.
structure Doing (A : Assumption Pid World Effect Answer) (p : Pid) (but : Option UUID)
    (rows : List Outbox) (w : World) : Prop where
  started : w.jobs p ≠ none
  locked : ∀ id ∈ w.fetched p, w.store.owner (.outbox id) = some p
  cleared : ClearedBut A p but w
  holds : ∀ row ∈ rows, Holds p row w ∧ w.copies_of p row.aggregate_id = 0

section Stability

variable {w w' : World} {rows : List Outbox} {but : Option UUID}

theorem Holds.of_frame {row : Outbox} (hf : Frame p w w') (h : Holds p row w) : Holds p row w' where
  fetched := hf.fetched ▸ h.fetched
  locked := (hf.owner _).mpr h.locked
  found := (hf.outbox _ h.locked).trans h.found

theorem locked_of_frame (hf : Frame p w w')
    (h : ∀ id ∈ w.fetched p, w.store.owner (.outbox id) = some p) :
    ∀ id ∈ w'.fetched p, w'.store.owner (.outbox id) = some p :=
  fun id hid => (hf.owner _).mpr (h id (hf.fetched ▸ hid))

theorem stable_fetching :
    ((frameLogic.inf (records d A)).inf (handover A)).Stable p (Fetching p rows) := by
  rintro w w' ⟨⟨hf, _⟩, hown, _⟩ hw
  constructor
  · exact hf.job ▸ hw.started
  · exact locked_of_frame hf hw.locked
  · exact hf.writes.trans hw.writes
  · exact hown.trans hw.own
  · exact fun row hrow => (hw.holds row hrow).of_frame hf

theorem stable_doing :
    ((frameLogic.inf (records d A)).inf (handover A)).Stable p (Doing A p but rows) := by
  rintro w w' ⟨⟨hf, _⟩, hown, _⟩ hw
  have hmarked : ∀ id, w.Marked p id → w'.Marked p id := by
    rintro id ⟨published_at, time, hwr⟩
    exact ⟨published_at, time, hf.writes.symm ▸ hwr⟩
  constructor
  · exact hf.job ▸ hw.started
  · exact locked_of_frame hf hw.locked
  · intro hA
    refine (hw.cleared hA).imp (fun ha => hf.aborted.trans ha) fun hall id hid hne row hrow => ?_
    rw [hf.fetched] at hid
    rw [hf.outbox id (hw.locked id hid)] at hrow
    rw [copies_of_of_own hown]
    exact (hall id hid hne row hrow).imp_right (hmarked id)
  · intro row hrow
    obtain ⟨hh, hzero⟩ := hw.holds row hrow
    exact ⟨hh.of_frame hf, (copies_of_of_own hown _).trans hzero⟩

theorem Doing.cleared_all {rows : List Outbox} (h : Doing A p none rows w) : Cleared A p w :=
  fun hA => (h.cleared hA).imp_right fun hall row hrow hid =>
    hall row.id hid nofun row (Table.find?_key hrow)

theorem Fetching.doing (h : Fetching p rows w) : Doing A p none rows w := by
  have hzero : ∀ id, w.copies_of p id = 0 := by
    intro id
    unfold World.copies_of
    rw [h.own]
    rfl
  exact ⟨h.started, h.locked, fun _ => .inr fun _ _ _ _ _ => .inl (hzero _),
    fun row hrow => ⟨h.holds row hrow, hzero _⟩⟩

end Stability

abbrev HandoverTriple (d : Deployment) (A : Assumption Pid World Effect Answer) (p : Pid) {α : Type}
    (P : World → Prop) (prog : Async α) (R : Except Exn α → World → Prop) : Prop :=
  Triple (machine d) A (frameLogic.inf (records d A)) (handover A) p P prog R

-- An exception of the fetching promises nothing.
abbrev FetchTriple (d : Deployment) (A : Assumption Pid World Effect Answer) (p : Pid) {α : Type}
    (P : World → Prop) (prog : Async α) (R : α → World → Prop) : Prop :=
  HandoverTriple d A p P prog (Ends (fun _ _ => True) R)

theorem FetchTriple.bind {α β : Type} {P : World → Prop} {prog : Async α} {f : α → Async β}
    {R : α → World → Prop} {S : β → World → Prop} (hp : FetchTriple d A p P prog R)
    (hf : ∀ a, FetchTriple d A p (R a) (f a) S) : FetchTriple d A p P (prog.bind f) S :=
  Triple.bind hp hf fun _ _ _ h => h

theorem idle_handover {e : Effect} {P : World → Prop} (he : e.idle)
    (hP : ((frameLogic.inf (records d A)).inf (handover A)).Stable p P) :
    FetchTriple d A p P (Prog.perform e) fun _ => P := by
  refine Triple.perform hP fun w a result w' hi hw _ hp _ _ => ?_
  obtain ⟨⟨x, rfl⟩, rfl⟩ | ⟨⟨x, rfl⟩, rfl⟩ := perform_idle he hp
  · exact ⟨hi.2, fun q _ => (handover A).rely_refl q w', hw⟩
  · exact ⟨hi.2.congr rfl rfl rfl rfl fun _ h => h, handover_guarantee rfl rfl, trivial⟩

variable {rows : List Outbox}

theorem scan_triple (batch_size : ℤ) (now : DateTime) :
    FetchTriple d A p (Fetching p rows) (Async.execute (.scan_pending batch_size now))
      fun (ids : List UUID) w => Fetching p rows w ∧ ids.Nodup := by
  refine Triple.perform stable_fetching fun w a result w' hi hw _ hp _ hg => ?_
  obtain ⟨hn, hgn⟩ := hi.2.execute (fun q hq => (hg q hq).1) hp (by simp)
    fun _ _ _ _ _ hv wr hwr => by
      obtain ⟨_, rfl, _⟩ := scan_succeeds hv
      cases hwr
  refine ⟨hn, hgn, ?_⟩
  obtain ⟨_, _, ids, _, _, _, hv, rfl, rfl⟩ | ⟨_, _, _, _, _, _, rfl, _⟩ | ⟨_, _, rfl, _⟩ :=
    perform_execute hp
  · obtain ⟨rfl, rfl, rfl, hperm, _⟩ := scan_succeeds hv
    have hnodup : (((w.store.visible p).outbox.rows.filter fun row => row.is_due now).map
        (·.id)).Nodup :=
      (w.store.visible p).outbox.nodup.sublist (List.filter_sublist.map _)
    have hsame : (w.take p [] []).fetch p [] = w := by
      rw [fetch_nil]
      exact congrArg (fun s => { w with store := s }) (LockStore.take_nil ..)
    refine ⟨?_, hperm.nodup_iff.mpr hnodup⟩
    show Fetching p rows ((w.take p [] []).fetch p [])
    rw [hsame]
    exact hw
  · trivial
  · trivial

theorem locked_row {id : UUID} {now : DateTime} {a : Answer} {row : Outbox} {w w' : World}
    (hw : w.store.writes p = [])
    (hp : World.perform d p (.execute (.lock_pending id now)) a w = some (.ok (some row), w')) :
    row.id = id ∧ w.store.contents.outbox.find? row.id = some row ∧ row.status = .PENDING ∧
      w.store.isFree p (.outbox row.id) ∧ w'.store.owner (.outbox row.id) = some p := by
  obtain ⟨_, _, _, _, _, hv, rfl⟩ := execute_returns hp
  obtain ⟨rfl, ⟨he, _⟩ | ⟨found, hfind, he, hdue, hfree, rfl⟩⟩ := lock_succeeds hv
  · cases he
  · cases he
    rw [visible_of_nil hw] at hfind
    have hid : row.id = id := Table.key_of_find? hfind
    subst hid
    refine ⟨rfl, hfind, (of_decide_eq_true hdue).1, hfree, ?_⟩
    rw [World.fetch_store, World.take_store, LockStore.take_owner, if_pos (List.mem_singleton_self _)]

-- A row that is locked is pending, and nobody has held it.
theorem lock_spec (id : UUID) (now : DateTime) :
    CallSpec (machine d) A (frameLogic.inf (records d A)) (handover A) p (Fetching p rows)
      (.execute (.lock_pending id now)) (Ends (fun _ _ => True) fun (row : Option Outbox) w =>
        Fetching p (rows ++ row.toList) w ∧ ∀ found ∈ row, found.id = id) := by
  intro w a result w' hi hw _ hp _ hg
  obtain ⟨⟨ht, _⟩, hn⟩ := hi
  have hs : Scope .execute w w' := scope_perform hp
  have hcontents := hs.contents (by decide)
  have hpublishes := hs.publishes (by decide)
  have hfetched : w'.fetched p = w.fetched p ++ World.fetches (.lock_pending id now) result := by
    rw [execute_fetched hp, Function.update_self]
  have hwrites : w'.store.writes p = w.store.writes p := by
    obtain hw | ⟨_, _, _, _, _, hv, hw⟩ := execute_writes hp
    · exact hw
    · rw [hw, (lock_succeeds hv).1, List.append_nil]
  have hown := own_of_same hpublishes p
  have hkept : ∀ k, w.store.owner k = some p → w'.store.owner k = some p :=
    fun k hk => owner_kept hp hk
  have hnew : ∀ found, found ∈ World.fetches (.lock_pending id now) result →
      ∃ row, result = .ok (some row) ∧ found = row.id := by
    intro found hfound
    cases result with
    | error x => cases hfound
    | ok row =>
        cases row with
        | none => cases hfound
        | some row => exact ⟨row, rfl, List.mem_singleton.mp hfound⟩
  refine ⟨?_, handover_guarantee hcontents hpublishes, ?_⟩
  · refine hn.step (fun q hq => (hg q hq).1) hcontents hpublishes
      (hs.rollbacks (by decide) (by decide)) hs.jobs (fun hj => absurd hj hw.started)
      (hfetched ▸ List.subset_append_left _ _) (fun found hfound => ?_)
      fun wr hwr => .inl (hwrites ▸ hwr)
    rw [hfetched, List.mem_append] at hfound
    by_cases hold : found ∈ w.fetched p
    · exact .inl hold
    · obtain ⟨row, rfl, rfl⟩ := hnew found (hfound.resolve_left hold)
      obtain ⟨_, hfind, hpending, hfree, _⟩ := locked_row hw.writes hp
      refine .inr ⟨hw.own, fun q hq => ?_, row, Table.mem_of_find? hfind, rfl, hpending⟩
      have howner := ht.fetched q _ hq
      simp only [LockStore.isFree, howner, reduceCtorEq, Option.some.injEq, false_or,
        decide_eq_true_eq] at hfree
      exact hold (hfree ▸ hq)
  · have hlocked : ∀ found ∈ w'.fetched p, w'.store.owner (.outbox found) = some p := by
      intro found hfound
      rw [hfetched, List.mem_append] at hfound
      rcases hfound with hold | hfound
      · exact hkept _ (hw.locked found hold)
      · obtain ⟨row, rfl, rfl⟩ := hnew found hfound
        exact (locked_row hw.writes hp).2.2.2.2
    have hholds : ∀ row ∈ rows, Holds p row w' := by
      intro row hrow
      obtain ⟨hf, hl, hfind⟩ := hw.holds row hrow
      refine ⟨?_, hkept _ hl, by rw [hcontents]; exact hfind⟩
      rw [hfetched]
      exact List.mem_append_left _ hf
    have hjobs : w'.jobs p ≠ none := hs.jobs ▸ hw.started
    cases result with
    | error x => trivial
    | ok row =>
        cases row with
        | none =>
            refine ⟨⟨hjobs, hlocked, hwrites.trans hw.writes, hown.trans hw.own, ?_⟩, ?_⟩
            · simpa using hholds
            · rintro found ⟨⟩
        | some row =>
            obtain ⟨hid, hfind, _, _, howner⟩ := locked_row hw.writes hp
            refine ⟨⟨hjobs, hlocked, hwrites.trans hw.writes, hown.trans hw.own, fun r hr => ?_⟩, ?_⟩
            · rcases List.mem_append.mp hr with hr | hr
              · exact hholds r hr
              · obtain rfl := List.mem_singleton.mp hr
                refine ⟨?_, howner, by rw [hcontents]; exact hfind⟩
                rw [hfetched]
                exact List.mem_append_right _ (List.mem_singleton_self _)
            · rintro found ⟨⟩
              exact hid

theorem lock_rows_triple (now : DateTime) (ids : List UUID) (limit : ℕ) :
    FetchTriple d A p (Fetching p rows) (OutboxRepository.lock_rows now ids limit)
      fun found w => Fetching p (rows ++ found) w ∧ (found.map (·.id)).Sublist ids := by
  induction ids generalizing rows limit with
  | nil => exact Triple.ret fun w _ hw => ⟨by simpa using hw, List.Sublist.refl _⟩
  | cons id ids ih =>
      cases limit with
      | zero => exact Triple.ret fun w _ hw => ⟨by simpa using hw, List.nil_sublist _⟩
      | succ limit =>
          unfold OutboxRepository.lock_rows
          simp only [Prog.bind_eq]
          refine FetchTriple.bind (Triple.perform stable_fetching (lock_spec id now)) fun row => ?_
          cases row with
          | none =>
              refine ((ih (limit + 1)).pre fun w hw => by simpa using hw.1).post fun r w hr => ?_
              cases r with
              | error x => trivial
              | ok found => exact ⟨hr.1, hr.2.cons _⟩
          | some row =>
              refine Triple.pre (P := fun w => row.id = id ∧ Fetching p (rows ++ [row]) w)
                (Triple.and_pure fun hid => ?_) fun w hw => ⟨hw.2 row rfl, hw.1⟩
              refine FetchTriple.bind (ih limit) fun found => Triple.ret fun w _ hw => ?_
              refine ⟨by simpa using hw.1, ?_⟩
              simpa [hid] using hw.2.cons_cons id

theorem fetch_triple (batch_size : ℤ) :
    FetchTriple d A p (Fetching p []) (OutboxService.fetch_pending batch_size)
      fun found w => Fetching p found w ∧ (found.map (·.id)).Nodup := by
  unfold OutboxService.fetch_pending OutboxRepository.fetch_pending
  simp only [Prog.bind_eq]
  refine FetchTriple.bind (idle_handover rfl stable_fetching) fun now => ?_
  refine FetchTriple.bind (scan_triple batch_size now) fun ids => ?_
  refine Triple.pre (P := fun w => ids.Nodup ∧ Fetching p [] w)
    (Triple.and_pure fun hnodup => ?_) fun w hw => ⟨hw.2, hw.1⟩
  refine (lock_rows_triple now ids _).post fun r w hr => ?_
  cases r with
  | error x => trivial
  | ok found => exact ⟨by simpa using hr.1, hnodup.sublist hr.2⟩

section Rows

variable {w w' : World} {row : Outbox} {but : Option UUID}

theorem Holds.execute {stmt : Statement} {a : Answer} {result : Except Exn stmt.Result}
    (h : Holds p row w) (hstmt : ∀ id now, stmt ≠ .lock_pending id now)
    (hp : World.perform d p (.execute stmt) a w = some (result, w')) : Holds p row w' where
  fetched := execute_fetches_none hstmt hp ▸ h.fetched
  locked := owner_kept hp h.locked
  found := by
    have hs : Scope .execute w w' := scope_perform hp
    exact hs.contents (by decide) ▸ h.found

theorem Doing.execute {stmt : Statement} {a : Answer} {result : Except Exn stmt.Result}
    (h : Doing A p but rows w) (hstmt : ∀ id now, stmt ≠ .lock_pending id now)
    (hp : World.perform d p (.execute stmt) a w = some (result, w')) : Doing A p but rows w' := by
  have hs : Scope .execute w w' := scope_perform hp
  have hfetched := execute_fetches_none hstmt hp
  have hcopies_of := copies_of_of_own (own_of_same (hs.publishes (by decide)) p)
  have hmarked : ∀ id, w.Marked p id → w'.Marked p id := by
    rintro id ⟨published_at, time, hwr⟩
    refine ⟨published_at, time, ?_⟩
    obtain hw | ⟨_, _, _, _, _, _, hw⟩ := execute_writes hp
    · exact hw ▸ hwr
    · exact hw ▸ List.mem_append_left _ hwr
  constructor
  · exact hs.jobs ▸ h.started
  · intro id hid
    exact owner_kept hp (h.locked id (hfetched ▸ hid))
  · intro hA
    refine (h.cleared hA).imp (fun ha => aborted_kept ha hp) fun hall id hid hne row hrow => ?_
    rw [hfetched] at hid
    rw [hs.contents (by decide)] at hrow
    rw [hcopies_of]
    exact (hall id hid hne row hrow).imp_right (hmarked id)
  · intro row hrow
    obtain ⟨hh, hzero⟩ := h.holds row hrow
    exact ⟨hh.execute hstmt hp, (hcopies_of _).trans hzero⟩

theorem Doing.cleared_row {id : UUID} (h : Doing A p (some id) rows w)
    (hid : FailuresAbort A → w.store.aborted p = true ∨ w.Marked p id) :
    Doing A p none rows w := by
  refine { h with cleared := fun hA => ?_ }
  rcases hid hA with hab | hmarked
  · exact .inl hab
  · refine (h.cleared hA).imp_right fun hall id' hid' _ row hrow => ?_
    by_cases he : id' = id
    · exact .inr (he ▸ hmarked)
    · exact hall id' hid' (by simpa using he) row hrow

-- The row has been handed over, and has still to be marked.
structure Sent (A : Assumption Pid World Effect Answer) (p : Pid) (row : Outbox)
    (rows : List Outbox) (w : World) : Prop where
  doing : Doing A p (some row.id) rows w
  holds : Holds p row w
  sent : 0 < w.copies_of p row.aggregate_id

-- The row has not been handed over, or the transaction has failed.
structure Unsent (A : Assumption Pid World Effect Answer) (p : Pid) (row : Outbox)
    (rows : List Outbox) (w : World) : Prop where
  doing : Doing A p none rows w
  holds : Holds p row w

theorem stable_sent :
    ((frameLogic.inf (records d A)).inf (handover A)).Stable p (Sent A p row rows) :=
  fun w w' hr hw => ⟨stable_doing w w' hr hw.doing, hw.holds.of_frame hr.1.1,
    by rw [copies_of_of_own hr.2.1]; exact hw.sent⟩

theorem stable_unsent :
    ((frameLogic.inf (records d A)).inf (handover A)).Stable p (Unsent A p row rows) :=
  fun w w' hr hw => ⟨stable_doing w w' hr hw.doing, hw.holds.of_frame hr.1.1⟩

-- The call hands this row over and no other.
theorem publish_row_spec (hne : ∀ other ∈ rows, row.id ≠ other.id) :
    CallSpec (machine d) A (frameLogic.inf (records d A)) (handover A) p
      (Doing A p none (row :: rows)) (publish_row row)
      (Ends (fun _ => Unsent A p row rows) fun _ => Sent A p row rows) := by
  intro w a (result : Except Exn Unit) w' hi hw _ hp _ _
  obtain ⟨⟨ht, hrec⟩, hn⟩ := hi
  obtain ⟨hholds, hzero⟩ := hw.holds row List.mem_cons_self
  have hrow := Table.mem_of_find? hholds.found
  obtain ⟨hn', hg'⟩ := hn.publish_call ht hrec hw.started hp
    ⟨rfl, fun _ => ⟨row, hrow, hholds.fetched, rfl, rfl, hzero⟩⟩
  refine ⟨hn', hg', ?_⟩
  obtain ⟨w₁, hw₁, hs, hf, hj, hpub, _⟩ := perform_recorded hp
  have hstore : w'.store = w.store := by rw [hw₁]; exact hs
  have hfetched : w'.fetched = w.fetched := by rw [hw₁]; exact hf
  have hcopies_of : ∀ id, w'.copies_of p id = w.copies_of p id +
      if Publish.handed id ⟨p, EXCHANGE_PAYMENTS, row.routing_key, ⟨row.payload, []⟩, result.isOk⟩
        then 1 else 0 := by
    intro id
    rw [hw₁, copies_of_record, copies_of_of_own (own_of_same hpub p)]
    simp
  -- other rows are of other payments
  have hkept : ∀ other ∈ w.store.contents.outbox.rows, other.id ≠ row.id →
      w'.copies_of p other.aggregate_id = w.copies_of p other.aggregate_id := by
    intro other hother hid
    rw [hcopies_of, if_neg, Nat.add_zero]
    intro hh
    obtain ⟨_, hdecode⟩ := of_decide_eq_true (Bool.and_eq_true_iff.mp hh).1
    have hagg := (hrec.decodes hrow).mp hdecode
    exact hid (congrArg Outbox.id (hrec.consistent.aggregates other hother row hrow hagg))
  have hkeeps : ∀ other, Holds p other w → Holds p other w' :=
    fun other h => ⟨hfetched ▸ h.fetched, hstore ▸ h.locked, hstore ▸ h.found⟩
  have hdoing : Doing A p (some row.id) rows w' := by
    constructor
    · rw [hw₁]
      exact hj ▸ hw.started
    · rw [hfetched, hstore]
      exact hw.locked
    · intro hA
      unfold World.Marked
      rw [hfetched, hstore]
      refine (hw.cleared hA).imp_right fun hall id hid hbut other hother => ?_
      have hoid : other.id ≠ row.id := fun he => hbut (by rw [← Table.key_of_find? hother, he])
      rw [hkept other (Table.mem_of_find? hother) hoid]
      exact hall id hid nofun other hother
    · intro other hother
      obtain ⟨hh, hz⟩ := hw.holds other (List.mem_cons_of_mem _ hother)
      refine ⟨hkeeps other hh, ?_⟩
      rw [hkept other (Table.mem_of_find? hh.found) (hne other hother).symm]
      exact hz
  cases result with
  | ok _ =>
      refine ⟨hdoing, hkeeps row hholds, ?_⟩
      have hself : Publish.handed row.aggregate_id
          ⟨p, EXCHANGE_PAYMENTS, row.routing_key, ⟨row.payload, []⟩, true⟩ = true := by
        simp [Publish.handed, Publish.hands, (hrec.decodes hrow).mpr rfl]
      have hone : w'.copies_of p row.aggregate_id = w.copies_of p row.aggregate_id + 1 :=
        (hcopies_of row.aggregate_id).trans (congrArg _ (if_pos hself))
      omega
  | error x =>
      refine ⟨{ hdoing with cleared := fun hA => ?_ }, hkeeps row hholds⟩
      refine (hdoing.cleared hA).imp_right fun hall id hid _ other hother => ?_
      by_cases he : id = row.id
      · subst he
        rw [hstore, hholds.found] at hother
        cases hother
        have hnone := hcopies_of row.aggregate_id
        exact .inl (by simpa [Publish.handed, hzero, Except.isOk, Except.toBool] using hnone)
      · exact hall id hid (by simpa using he) other hother

theorem mark_spec (published_at : DateTime) :
    CallSpec (machine d) A (frameLogic.inf (records d A)) (handover A) p (Sent A p row rows)
      (.execute (.mark_published row.id published_at))
      (Ends (fun _ => Unsent A p row rows) fun _ => Doing A p none rows) := by
  intro w a result w' hi hw hA hp _ hg
  have hstmt : ∀ id now, Statement.mark_published row.id published_at ≠ .lock_pending id now := by
    simp
  obtain ⟨hn, hgn⟩ := hi.2.execute (fun q hq => (hg q hq).1) hp hstmt fun _ _ _ _ _ hv wr hwr => by
    obtain ⟨_, rfl, _⟩ | ⟨_, _, rfl⟩ := mark_succeeds hv
    · cases hwr
    · obtain rfl := List.mem_singleton.mp hwr
      refine ⟨fun id hid => ?_, by simp, fun id _ _ he other hother hid => ?_⟩
      · cases hid
        exact hw.holds.fetched
      · cases he
        rw [Table.eq_of_key_eq hother (Table.mem_of_find? hw.holds.found) hid]
        exact hw.sent
  have hdoing := hw.doing.execute hstmt hp
  refine ⟨hn, hgn, ?_⟩
  cases result with
  | error x =>
      exact ⟨hdoing.cleared_row fun hall => .inl (failed_execute (hall _ _ _ _ hA) hp),
        hw.holds.execute hstmt hp⟩
  | ok _ =>
      refine hdoing.cleared_row fun _ => .inr ?_
      obtain ⟨time, ids, locks, writes, _, hv, rfl⟩ := execute_returns hp
      obtain ⟨_, _, hnone⟩ | ⟨_, _, rfl⟩ := mark_succeeds hv
      · have hfound := find?_changes hw.holds.found (w.store.writes p)
        rw [Store.visible, LockStore.view, hfound] at hnone
        cases hnone
      · refine ⟨published_at, time, ?_⟩
        rw [World.fetch_store, World.take_store, LockStore.take_writes_self]
        exact List.mem_append_right _ (List.mem_singleton_self _)

theorem bump_spec (error : String) (next_attempt_at : DateTime) :
    CallSpec (machine d) A (frameLogic.inf (records d A)) (handover A) p (Unsent A p row rows)
      (.execute (.bump_attempt row.id error next_attempt_at))
      (Ends (fun _ _ => True) fun _ => Doing A p none rows) := by
  intro w a result w' hi hw _ hp _ hg
  have hstmt : ∀ id now,
      Statement.bump_attempt row.id error next_attempt_at ≠ .lock_pending id now := by simp
  obtain ⟨hn, hgn⟩ := hi.2.execute (fun q hq => (hg q hq).1) hp hstmt fun _ _ _ _ _ hv wr hwr => by
    obtain ⟨_, rfl, _⟩ | ⟨_, _, rfl⟩ := bump_succeeds hv
    · cases hwr
    · obtain rfl := List.mem_singleton.mp hwr
      refine ⟨fun id hid => ?_, by simp, by simp⟩
      cases hid
      exact hw.holds.fetched
  refine ⟨hn, hgn, ?_⟩
  cases result with
  | error x => trivial
  | ok _ => exact hw.doing.execute hstmt hp

theorem bump_triple (service : OutboxService) (attempts : ℕ) (error : String) :
    FetchTriple d A p (Unsent A p row rows) (service.bump_attempt row.id attempts error)
      fun _ => Doing A p none rows := by
  have python : ∀ {α : Type} (r : Except PyError α),
      FetchTriple d A p (Unsent A p row rows) (ofPython r) fun _ => Unsent A p row rows := by
    intro α r
    refine Triple.ret fun w _ hw => ?_
    cases r with
    | error e => trivial
    | ok x => exact hw
  unfold OutboxService.bump_attempt
  simp only [Prog.bind_eq]
  refine FetchTriple.bind (python _) fun delay => ?_
  refine FetchTriple.bind (idle_handover rfl stable_unsent) fun now => ?_
  refine FetchTriple.bind (python _) fun delta => FetchTriple.bind (python _) fun t => ?_
  exact Triple.perform stable_unsent (bump_spec error t)

theorem process_row_triple (service : OutboxService) (hne : ∀ other ∈ rows, row.id ≠ other.id) :
    FetchTriple d A p (Doing A p none (row :: rows)) (_process_row service row)
      fun _ => Doing A p none rows := by
  unfold _process_row
  refine Triple.tryCatch (R := Ends (fun _ => Unsent A p row rows) fun _ => Doing A p none rows)
    ?_ (fun _ _ _ hw => hw) fun x => Triple.ite (fun _ => bump_triple service _ _)
      fun _ => Triple.ret fun _ _ _ => trivial
  refine Triple.bind (Triple.perform stable_doing (publish_row_spec hne)) (fun _ => ?_)
    fun _ _ _ hw => hw
  -- the clock does not raise
  refine Triple.bind (R := Ends (fun _ _ => False) fun _ => Sent A p row rows)
    (Triple.perform stable_sent fun w a result w' hi hw _ hp _ _ => ?_) (fun published_at => ?_)
    fun _ _ _ hw => hw.elim
  · obtain ⟨rfl, time, rfl⟩ := perform_unawaited rfl hp
    exact ⟨hi.2, fun q _ => (handover A).rely_refl q w', hw⟩
  · exact Triple.perform stable_sent (mark_spec published_at)

theorem process_rows_triple (service : OutboxService) (hids : (rows.map (·.id)).Nodup) :
    FetchTriple d A p (Doing A p none rows) (_process_rows service rows)
      fun _ => Doing A p none [] := by
  induction rows with
  | nil => exact Triple.ret fun _ _ hw => hw
  | cons row rows ih =>
      obtain ⟨hnew, hnodup⟩ := List.nodup_cons.mp hids
      have hne : ∀ other ∈ rows, row.id ≠ other.id :=
        fun other hother he => hnew (List.mem_map.mpr ⟨other, hother, he.symm⟩)
      unfold _process_rows
      simp only [Prog.bind_eq]
      exact FetchTriple.bind (process_row_triple service hne) fun _ => ih hnodup

theorem commit_batch_triple :
    FetchTriple d A p (Doing A p none []) Async.commit fun _ _ => True := by
  refine Triple.perform stable_doing fun w a result w' hi hw _ hp hk hg => ?_
  obtain ⟨⟨ht, hrec⟩, hn⟩ := hi
  obtain ⟨hn', hg'⟩ := hn.commit_call ht hrec hw.cleared_all hp hk.2 (hg (p + 1) (by simp)).2.1
  refine ⟨hn', hg', ?_⟩
  cases result <;> trivial

theorem process_batch_triple (c : Container) (batch_size : ℤ) :
    FetchTriple d A p (Fetching p []) (_process_batch c batch_size) fun _ _ => True := by
  unfold _process_batch
  simp only [Prog.bind_eq]
  refine FetchTriple.bind (idle_handover rfl stable_fetching) fun _ => ?_
  refine FetchTriple.bind (idle_handover rfl stable_fetching) fun _ => ?_
  refine FetchTriple.bind (fetch_triple batch_size) fun found => ?_
  refine Triple.pre (P := fun w => (found.map (·.id)).Nodup ∧ Doing A p none found w)
    (Triple.and_pure fun hids => ?_) fun w hw => ⟨hw.2, hw.1.doing⟩
  refine FetchTriple.bind (process_rows_triple c.outbox_service hids) fun _ => ?_
  exact FetchTriple.bind commit_batch_triple fun _ => Triple.ret fun _ _ _ => trivial

theorem close_batch_triple :
    HandoverTriple d A p (fun _ => True) Async.close fun _ _ => True := by
  refine Triple.perform (Logic.Stable.const _ p True) fun w a result w' hi _ _ hp _ _ => ?_
  obtain ⟨hn, hg⟩ := hi.2.close_call hp
  exact ⟨hn, hg, trivial⟩

theorem run_iteration_triple (c : Container) (config : OutboxDispatcherConfig) :
    HandoverTriple d A p (Fetching p []) (_run_iteration c config) fun _ _ => True := by
  unfold _run_iteration
  simp only [Prog.bind_eq]
  refine Triple.bind (R := fun _ _ => True) ?_ (fun processed => ?_) fun _ _ _ _ => trivial
  · refine Triple.tryCatch (R := fun _ _ => True) ?_ (fun _ _ _ _ => trivial) fun x => ?_
    · refine Triple.andThen ((process_batch_triple c _).post fun r _ _ => trivial) fun r => ?_
      exact close_batch_triple.post fun s _ _ => by cases s <;> trivial
    · exact Triple.ite (fun _ => Triple.ret fun _ _ _ => trivial)
        fun _ => Triple.ret fun _ _ _ => trivial
  · refine Triple.ite (fun _ => ?_) fun _ => Triple.ret fun _ _ _ => trivial
    exact (idle_handover rfl (Logic.Stable.const _ p True)).post fun _ _ _ => trivial

end Rows

end Batch

section Soundness

variable (d : Deployment) (A : Assumption Pid World Effect Answer)

theorem handover_init : Handover A World.init where
  pending := by simp
  moved := by simp [LockStore.empty]
  inserted := by simp [LockStore.empty]
  marked := by simp [World.Marked, LockStore.empty]
  sent := by simp [LockStore.empty, Tables.empty, Table.empty]
  announced := by simp
  fresh := by simp [World.own]
  counted _ := by constructor <;> simp [LockStore.empty, Tables.empty, Table.empty]

theorem handover_obliged :
    Obliged (machine d) A (frameLogic.inf (records d A)) (handover A) where
  launch pid l w prog w' hi hl hk hg := by
    obtain ⟨hj, hcases⟩ := launch_cases hl
    obtain ⟨hs, hf, hlog⟩ := launch_same hl
    have hstarted : w'.jobs pid ≠ none := (launch_frame hi.1.1 hl).2.2
    have hn : Handover A w' := by
      refine hi.2.congr hs hf (by rw [hlog]) (by rw [hlog]) fun q hq => ?_
      cases hjq : w.jobs q with
      | none => rfl
      | some j =>
          by_cases hqp : q = pid
          · rw [hqp, hj] at hjq
            cases hjq
          · rw [← (hg q hqp).1.job, hq] at hjq
            cases hjq
    refine ⟨hn, handover_guarantee (by rw [hs]) (by rw [hlog]), ?_⟩
    obtain ⟨hfetched, hown⟩ := hi.2.fresh pid hj
    have houtside : Outside pid w' := ⟨hstarted, by rw [hf]; exact hfetched⟩
    obtain ⟨request, rfl, _⟩ | ⟨config, rfl, _⟩ | ⟨_, msg, event, _, _, rfl, _⟩ := hcases
    · exact wp_mono (outside_triple ((create_payment_only request).mono fun _ => .inl) w' ⟨hk, hn⟩
        houtside) ⟨hk, hn⟩ fun _ _ _ _ => trivial
    · refine run_iteration_triple _ config w' ⟨hk, hn⟩ ⟨hstarted, ?_, ?_, ?_, by simp⟩
      · rw [hf, hfetched]
        exact nofun
      · rw [hs]
        exact hi.1.1.fresh_writes pid hj
      · exact (own_of_same (congrArg Log.publishes hlog) pid).trans hown
    · exact wp_mono (outside_triple ((entrypoint_only event msg).mono fun _ => .inr) w' ⟨hk, hn⟩
        houtside) ⟨hk, hn⟩ fun _ _ _ _ => trivial
  crash pid w hi _ _ := by
    obtain ⟨hs, hf, hj, hl⟩ := @crash_same pid w
    have hn : Handover A (w.crash pid) := by
      refine (hi.2.rollback (p := pid)).congr hs hf ?_ ?_ fun q hq => hj ▸ hq
      · rw [hl]
        rfl
      · rw [hl]
        rfl
    have hg : (handover A).Guarantee pid w (w.crash pid) :=
      handover_guarantee (by rw [hs]; rfl) (by rw [hl]; rfl)
    exact ⟨hn, hg, trivial⟩
  tick t w w' hi ht _ _ := by
    obtain ⟨hs, hf, hj, hl⟩ := tick_same ht
    refine ⟨hi.2.congr hs hf (by rw [hl]) (by rw [hl]) fun q hq => hj ▸ hq, fun q => ?_⟩
    exact handover_guarantee (p := q + 1) (by rw [hs]) (by rw [hl]) q (Nat.succ_ne_self q).symm

-- In every run each row is handed over and marked in turn, whatever fails.
theorem handover_sound :
    Sound (machine d) A ((frameLogic.inf (records d A)).inf (handover A)) SystemConfig.init :=
  (records_sound d A).extend (handover_obliged d A) (handover_init A) fun _ => rfl

end Soundness

end PaymentsProcessor
