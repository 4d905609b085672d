import PaymentsProcessor.System.SingleDispatcher

namespace PaymentsProcessor

open Python Storage Concurrency PaymentsConstants

section Batch

variable {d : Deployment} {config : OutboxDispatcherConfig} {now : DateTime} {r : Outbox}
variable {seen total : ℕ} {p : Pid}

-- How many rows a batch takes.
abbrev OutboxDispatcherConfig.size (config : OutboxDispatcherConfig) : ℕ :=
  config.OUTBOX_BATCH_SIZE.toNat

-- A batch of the dispatcher, which has written nothing yet and holds these rows.
structure Opening (config : OutboxDispatcherConfig) (p : Pid) (found : List Outbox) (w : World) :
    Prop where
  job : w.jobs p = some (.batch config)
  batching : w.Batching p
  writes : w.store.writes p = []
  fetched : w.fetched p = found.map (·.id)
  holds : ∀ row ∈ found, Holds p row w

-- The rows that a scan has found are there, and those before `r` are ahead of it.
structure Lined (r : Outbox) (time : DateTime) (ids : List UUID) (w : World) : Prop where
  nodup : ids.Nodup
  due : ∀ id ∈ ids, ∃ row ∈ w.store.contents.outbox.rows, row.id = id ∧ row.is_due time
  before : r ∈ w.store.contents.outbox.rows → ∃ before after, ids = before ++ r.id :: after ∧
    ∀ id ∈ before, ∃ row ∈ w.store.contents.ahead r, row.id = id

-- The batch locks the rows of a scan, one after the other.
structure Locking (config : OutboxDispatcherConfig) (r : Outbox) (p : Pid) (time : DateTime)
    (ids : List UUID) (found : List Outbox) (w : World) : Prop where
  opening : Opening config p found w
  lined : Lined r time ids w

-- The row is published or comes after `r`, and if it is `r` it was handed over.
structure Dealt (seen : ℕ) (r : Outbox) (p : Pid) (row : Outbox) (w : World) : Prop where
  past : (changes (w.store.writes p) row).status = .PUBLISHED ∨
    r.next_attempt_at < (changes (w.store.writes p) row).next_attempt_at
  handed : row.id = r.id → w.HandedSince seen r
  moved : ∃ wr ∈ w.store.writes p, wr.moves = some row.id

-- The batch has dealt with some of its rows, and has still to deal with others.
structure Dealing (config : OutboxDispatcherConfig) (seen : ℕ) (r : Outbox) (p : Pid)
    (dealt rows : List Outbox) (w : World) : Prop where
  job : w.jobs p = some (.batch config)
  batching : w.Batching p
  fetched : w.fetched p = (dealt ++ rows).map (·.id)
  nodup : ((dealt ++ rows).map (·.id)).Nodup
  inserts : ∀ wr ∈ w.store.writes p, ∀ new, wr ≠ .insert_outbox new
  holds : ∀ row ∈ dealt ++ rows, Holds p row w
  chosen : r ∈ w.store.contents.outbox.rows → r.id ∈ (dealt ++ rows).map (·.id) ∨
    (dealt ++ rows).length = config.size ∧ ∀ row ∈ dealt ++ rows, row ∈ w.store.contents.ahead r
  dealt : ∀ row ∈ dealt, Dealt seen r p row w

-- And has called the publisher for the next one.
structure Calling (config : OutboxDispatcherConfig) (seen : ℕ) (r : Outbox) (p : Pid)
    (dealt : List Outbox) (row : Outbox) (rows : List Outbox) (w : World) : Prop where
  dealing : Dealing config seen r p dealt (row :: rows) w
  handed : row.id = r.id → w.HandedSince seen r

section Stability

variable {w w' : World} {time : DateTime} {ids : List UUID} {dealt found rows : List Outbox}
variable {row : Outbox}

-- What a batch relies on while the other processes go on.
structure Undergoes (r : Outbox) (seen : ℕ) (p : Pid) (w w' : World) : Prop where
  frame : Frame p w w'
  batching : w'.Batching p
  undisturbed : Undisturbed r w w'
  handed : w.HandedSince seen r → w'.HandedSince seen r

theorem undergoes {size : ℕ}
    (hr : ((heldBatches d).inf (waiting size seen total r)).rely p w w') (hb : w.Batching p) :
    Undergoes r seen p w w' :=
  ⟨hr.1.1.1.1.1, (hr.2.2 hb).1, (hr.2.2 hb).2, hr.2.1.handed⟩

theorem Opening.undergoes (h : Opening config p found w) (hu : Undergoes r seen p w w') :
    Opening config p found w' :=
  ⟨hu.frame.job.trans h.job, hu.batching, hu.frame.writes.trans h.writes,
    hu.frame.fetched.trans h.fetched, fun row hrow => (h.holds row hrow).of_frame hu.frame⟩

theorem Lined.undisturbed (h : Lined r time ids w) (hu : Undisturbed r w w') :
    Lined r time ids w' := by
  refine ⟨h.nodup, fun id hid => ?_, fun hr => ?_⟩
  · obtain ⟨row, hrow, hdue⟩ := h.due id hid
    exact ⟨row, hu.kept hrow, hdue⟩
  · obtain ⟨before, after, hids, hbefore⟩ := h.before (hu.mem hr le_rfl)
    refine ⟨before, after, hids, fun id hid => ?_⟩
    obtain ⟨row, hrow, he⟩ := hbefore id hid
    exact ⟨row, hu.ahead hrow, he⟩

theorem Locking.undergoes (h : Locking config r p time ids found w)
    (hu : Undergoes r seen p w w') : Locking config r p time ids found w' :=
  ⟨h.opening.undergoes hu, h.lined.undisturbed hu.undisturbed⟩

theorem Dealt.undergoes (h : Dealt seen r p row w) (hu : Undergoes r seen p w w') :
    Dealt seen r p row w' := by
  refine ⟨?_, fun he => hu.handed (h.handed he), ?_⟩
  · rw [hu.frame.writes]
    exact h.past
  · rw [hu.frame.writes]
    exact h.moved

theorem Dealing.undergoes (h : Dealing config seen r p dealt rows w)
    (hu : Undergoes r seen p w w') : Dealing config seen r p dealt rows w' := by
  constructor
  · exact hu.frame.job.trans h.job
  · exact hu.batching
  · exact hu.frame.fetched.trans h.fetched
  · exact h.nodup
  · rw [hu.frame.writes]
    exact h.inserts
  · exact fun row hrow => (h.holds row hrow).of_frame hu.frame
  · intro hr
    refine (h.chosen (hu.undisturbed.mem hr le_rfl)).imp_right fun hc => ⟨hc.1, fun row hrow => ?_⟩
    exact hu.undisturbed.ahead (hc.2 row hrow)
  · exact fun row hrow => (h.dealt row hrow).undergoes hu

theorem stable_opening {size : ℕ} :
    StableWaiting d r size seen total p (Opening config p found) :=
  fun _ _ hr hw => hw.undergoes (undergoes hr hw.batching)

theorem stable_locking {size : ℕ} :
    StableWaiting d r size seen total p (Locking config r p time ids found) :=
  fun _ _ hr hw => hw.undergoes (undergoes hr hw.opening.batching)

theorem stable_dealing {size : ℕ} :
    StableWaiting d r size seen total p (Dealing config seen r p dealt rows) :=
  fun _ _ hr hw => hw.undergoes (undergoes hr hw.batching)

theorem stable_calling {size : ℕ} :
    StableWaiting d r size seen total p (Calling config seen r p dealt row rows) := by
  intro w w' hr hw
  have hu := undergoes hr hw.dealing.batching
  exact ⟨hw.dealing.undergoes hu, fun he => hu.handed (hw.handed he)⟩

end Stability

-- An exception before the commit promises nothing.
abbrev DueTriple (d : Deployment) (config : OutboxDispatcherConfig) (now : DateTime) (r : Outbox)
    (seen total : ℕ) (p : Pid) {α : Type} (P : World → Prop) (prog : Async α)
    (R : α → World → Prop) : Prop :=
  WaitingTriple d config now r config.size seen total p P prog (Ends (fun _ _ => True) R)

theorem DueTriple.bind {α β : Type} {P : World → Prop} {prog : Async α} {f : α → Async β}
    {R : α → World → Prop} {S : β → World → Prop} (hp : DueTriple d config now r seen total p P prog R)
    (hf : ∀ a, DueTriple d config now r seen total p (R a) (f a) S) :
    DueTriple d config now r seen total p P (prog.bind f) S :=
  Triple.bind hp hf fun _ _ _ h => h

section Fetching

variable {w w' : World} {a : Answer} {time : DateTime} {ids : List UUID} {found : List Outbox}

theorem Opening.idle {e : Effect} {result : Except Exn e.Result} (h : Opening config p found w)
    (he : e.idle) (hp : World.perform d p e a w = some (result, w')) :
    Opening config p found w' := by
  obtain ⟨_, rfl⟩ | ⟨_, rfl⟩ := perform_idle he hp
  · exact h
  · exact ⟨h.job, h.batching.same rfl rfl rfl, h.writes, h.fetched,
      fun row hrow => ⟨(h.holds row hrow).fetched, (h.holds row hrow).locked,
        (h.holds row hrow).found⟩⟩

theorem idle_kind {e : Effect} (he : e.idle) : e.kind ≠ .commit := by
  cases e with
  | container_get | flush | now | uuid7 | uniform | random | sleep => nofun
  | _ => cases he

theorem opening_idle {e : Effect} (he : e.idle) :
    DueTriple d config now r seen total p (Opening config p found) (Prog.perform e)
      fun _ => Opening config p found := by
  refine Triple.perform stable_opening (waiting_call (idle_kind he) fun w a result w' _ hw _ hp => ?_)
  cases result with
  | ok _ => exact hw.idle he hp
  | error x => trivial

theorem perform_now {result : Except Exn DateTime}
    (hp : World.perform d p .now a w = some (result, w')) :
    ∃ t, a = .reply (.time t) ∧ result = .ok t := by
  cases a with
  | reply reply =>
      cases reply with
      | time t =>
          cases hp
          exact ⟨t, rfl, rfl⟩
      | _ => cases hp
  | raised x carried_out => cases hp

-- The clock does not go back behind `now`.
theorem opening_now : DueTriple d config now r seen total p (Opening config p found) Async.now
    fun t w => now ≤ t ∧ Opening config p found w := by
  refine Triple.perform stable_opening (waiting_call nofun fun w a result w' _ hw hA hp => ?_)
  obtain ⟨t, ha, hresult⟩ := perform_now hp
  subst hresult
  exact ⟨hA.clock config hw.job rfl t ha, hw.idle rfl hp⟩

theorem scan_lined (hdue : r.status = .PENDING) (hle : r.next_attempt_at ≤ now)
    (htime : now ≤ time) (batch_size : ℤ) :
    DueTriple d config now r seen total p (Opening config p [])
      (Async.execute (.scan_pending batch_size time))
      fun (ids : List UUID) => Locking config r p time ids [] := by
  refine Triple.perform stable_opening (waiting_call nofun fun w a result w' _ hw _ hp => ?_)
  cases result with
  | error x => trivial
  | ok ids =>
      obtain ⟨_, _, _, _, _, hv, rfl⟩ := execute_returns hp
      obtain ⟨rfl, rfl, rfl, hperm, hsorted⟩ := scan_succeeds hv
      have hsame : (w.take p [] []).fetch p [] = w := by
        rw [fetch_nil]
        exact congrArg (fun s => { w with store := s }) (LockStore.take_nil ..)
      show Locking config r p time ids [] ((w.take p [] []).fetch p [])
      rw [hsame]
      rw [visible_of_nil hw.writes] at hperm hsorted
      refine ⟨hw, ?_, fun id hid => ?_, fun hr => ?_⟩
      · exact hperm.nodup_iff.mpr
          (w.store.contents.outbox.nodup.sublist (List.filter_sublist.map _))
      · obtain ⟨row, hrow, rfl⟩ := List.mem_map.mp (hperm.mem_iff.mp hid)
        obtain ⟨hrow, hrowdue⟩ := List.mem_filter.mp hrow
        exact ⟨row, hrow, rfl, hrowdue⟩
      · exact scan_before hperm hsorted hr (decide_eq_true ⟨hdue, hle.trans htime⟩)

-- No other batch is under way, so that the row is free and still due.
theorem lock_found {w : World} (hi : (heldBatches d).inv w) (hw : Locking config r p time ids found w)
    (halone : ∀ q, q ≠ p → ¬w.Batching q) {id : UUID} (hid : id ∈ ids) :
    ∃ row, w.store.contents.outbox.find? id = some row ∧ row.id = id ∧
      lock_verdict w.store p id time = .succeeds (some row) [.outbox id] [] := by
  obtain ⟨row, hrow, rfl, hdue⟩ := hw.lined.due id hid
  have hfind := Table.find?_key hrow
  have hfree : w.store.isFree p (.outbox row.id) = true := by
    unfold LockStore.isFree
    cases howner : w.store.owner (.outbox row.id) with
    | none => simp
    | some q =>
        have hq : q = p := by
          by_contra hne
          exact halone q hne (hi.2 row hrow q howner)
        simp [hq]
  refine ⟨row, hfind, rfl, ?_⟩
  unfold lock_verdict
  rw [visible_of_nil hw.opening.writes, hfind]
  simp [hfree, hdue]

theorem lock_next {id : UUID} (hid : id ∈ ids) :
    DueTriple d config now r seen total p (Locking config r p time ids found)
      (Async.execute (.lock_pending id time))
      fun (row : Option Outbox) w => ∃ new, row = some new ∧ new.id = id ∧
        Locking config r p time ids (found ++ [new]) w := by
  refine Triple.perform stable_locking (waiting_call nofun fun w a result w' hi hw hA hp => ?_)
  cases result with
  | error x => trivial
  | ok row =>
      have hs : Scope .execute w w' := scope_perform hp
      have hcontents := hs.contents (by decide)
      have hkept : ∀ k, w.store.owner k = some p → w'.store.owner k = some p :=
        fun k hk => owner_kept hp hk
      obtain ⟨new, hfind, hnew, hverdict⟩ := lock_found hi.1 hw (hA.alone config hw.opening.job) hid
      obtain ⟨_, _, _, _, _, hv, hw'⟩ := execute_returns hp
      replace hv : lock_verdict w.store p id time = _ := hv
      rw [hverdict] at hv
      cases hv
      subst hnew
      refine ⟨new, rfl, rfl, ⟨?_, ?_, ?_, ?_, fun row hrow => ?_⟩, ?_⟩
      · rw [hs.jobs]
        exact hw.opening.job
      · exact hw.opening.batching.same hs.jobs (hs.commits (by decide))
          (hs.rollbacks (by decide) (by decide))
      · rw [hw', World.fetch_store, World.take_store, LockStore.take_writes_self, List.append_nil]
        exact hw.opening.writes
      · rw [execute_fetched hp, Function.update_self, hw.opening.fetched, List.map_append]
        rfl
      · have hfetched : row.id ∈ w'.fetched p := by
          rw [execute_fetched hp, Function.update_self, hw.opening.fetched]
          have := List.mem_map_of_mem (f := (·.id)) hrow
          rw [List.map_append] at this
          exact this
        rcases List.mem_append.mp hrow with hold | hlast
        · obtain ⟨_, hl, hf⟩ := hw.opening.holds row hold
          exact ⟨hfetched, hkept _ hl, (congrArg (·.outbox.find? row.id) hcontents).trans hf⟩
        · obtain rfl := List.mem_singleton.mp hlast
          refine ⟨hfetched, ?_, (congrArg (·.outbox.find? row.id) hcontents).trans hfind⟩
          rw [hw', World.fetch_store, World.take_store, LockStore.take_owner,
            if_pos (List.mem_singleton_self _)]
      · exact ⟨hw.lined.nodup, by rw [hcontents]; exact hw.lined.due,
          by rw [hcontents]; exact hw.lined.before⟩

-- The first rows of the scan are locked, up to the limit.
theorem lock_first (rest : List UUID) (limit : ℕ) (hids : ids = found.map (·.id) ++ rest) :
    DueTriple d config now r seen total p (Locking config r p time ids found)
      (OutboxRepository.lock_rows time rest limit)
      fun more w => Locking config r p time ids (found ++ more) w ∧
        more.map (·.id) = rest.take limit := by
  induction rest generalizing found limit with
  | nil => exact Triple.ret fun w _ hw => ⟨by simpa using hw, by simp⟩
  | cons id rest ih =>
      cases limit with
      | zero => exact Triple.ret fun w _ hw => ⟨by simpa using hw, rfl⟩
      | succ limit =>
          have hid : id ∈ ids := by
            rw [hids]
            exact List.mem_append_right _ List.mem_cons_self
          unfold OutboxRepository.lock_rows
          simp only [Prog.bind_eq]
          refine DueTriple.bind (lock_next hid) fun row => Triple.exists_pre fun new => ?_
          refine Triple.and_pure fun hrow => Triple.and_pure fun hnew => ?_
          subst hrow hnew
          refine DueTriple.bind (ih limit (by simpa using hids)) fun more => Triple.ret fun w _ hw => ?_
          refine ⟨by simpa using hw.1, ?_⟩
          rw [List.map_cons, hw.2, List.take_succ_cons]

theorem fetch_first (hdue : r.status = .PENDING) (hle : r.next_attempt_at ≤ now) (batch_size : ℤ) :
    DueTriple d config now r seen total p (Opening config p [])
      (OutboxService.fetch_pending batch_size)
      fun found w => ∃ time ids, Locking config r p time ids found w ∧
        found.map (·.id) = ids.take batch_size.toNat := by
  unfold OutboxService.fetch_pending OutboxRepository.fetch_pending
  simp only [Prog.bind_eq]
  refine DueTriple.bind opening_now fun time => Triple.and_pure fun htime => ?_
  refine DueTriple.bind (scan_lined hdue hle htime batch_size) fun ids => ?_
  have hlock : DueTriple d config now r seen total p (Locking config r p time ids [])
      (OutboxRepository.lock_rows time ids batch_size.toNat) fun more w =>
        Locking config r p time ids ([] ++ more) w ∧
          more.map (·.id) = ids.take batch_size.toNat := lock_first ids _ rfl
  refine hlock.post fun result w hr => ?_
  cases result with
  | error x => trivial
  | ok found => exact ⟨time, ids, by simpa using hr.1, hr.2⟩

-- The batch reaches `r`, or takes as many rows as it can from those ahead.
theorem Locking.dealing (h : Locking config r p time ids found w)
    (hfound : found.map (·.id) = ids.take config.size) :
    Dealing config seen r p [] found w := by
  obtain ⟨hjob, hbatch, hwrites, hfetched, hholds⟩ := h.opening
  have hnodup : (found.map (·.id)).Nodup := hfound ▸ h.lined.nodup.sublist (List.take_sublist _ _)
  refine ⟨hjob, hbatch, hfetched, hnodup, by simp [hwrites], hholds, fun hr => ?_, by simp⟩
  obtain ⟨before, after, hids, hbefore⟩ := h.lined.before hr
  rw [List.nil_append]
  rcases take_split ids before after hids config.size with hmem | ⟨htake, hlen⟩
  · exact .inl (hfound ▸ hmem)
  · refine .inr ⟨?_, fun row hrow => ?_⟩
    · rw [← hlen, ← hfound, List.length_map]
    · have hid : row.id ∈ before := by
        have hmem := List.mem_map_of_mem (f := (·.id)) hrow
        rw [hfound, htake] at hmem
        exact List.mem_of_mem_take hmem
      obtain ⟨row', hrow', he⟩ := hbefore _ hid
      have hsame : row' = row := Table.eq_of_key_eq (mem_ahead.mp hrow').1
        (Table.mem_of_find? (hholds row hrow).found) he
      exact hsame ▸ hrow'

end Fetching

section Dealing

variable {w w' : World} {a : Answer} {dealt rows : List Outbox} {row : Outbox}

-- What is written to a row by a mark or a bump.
theorem moved_write {wr : Write} {id : UUID} (h : wr.moves = some id) :
    wr.touches = [.outbox id] ∧ ∀ new, wr ≠ .insert_outbox new := by
  cases wr with
  | publish_outbox | bump_outbox =>
      cases h
      exact ⟨rfl, by simp⟩
  | _ => cases h

theorem changes_append (ws ws' : List Write) (row : Outbox) :
    changes (ws ++ ws') row = changes ws' (changes ws row) := List.foldl_append

-- Writes to another row leave what was dealt with as it is.
theorem Dealt.append {ws : List Write} {other : Outbox} (h : Dealt seen r p other w)
    (hne : other.id ≠ row.id) (hmoves : ∀ wr ∈ ws, wr.moves = some row.id)
    (hwrites : w'.store.writes p = w.store.writes p ++ ws)
    (hhanded : w.HandedSince seen r → w'.HandedSince seen r) : Dealt seen r p other w' := by
  have hsame : changes (w'.store.writes p) other = changes (w.store.writes p) other := by
    rw [hwrites, changes_append]
    apply changes_untouched
    intro wr hwr
    rw [(moved_write (hmoves wr hwr)).1, changes_id]
    simpa using hne
  refine ⟨hsame ▸ h.past, fun he => hhanded (h.handed he), ?_⟩
  obtain ⟨wr, hwr, hmoved⟩ := h.moved
  exact ⟨wr, hwrites ▸ List.mem_append_left _ hwr, hmoved⟩

-- A call that leaves the tables alone and writes at most to the row at hand.
theorem Dealing.step {ws : List Write} (h : Dealing config seen r p dealt (row :: rows) w)
    (hjob : w'.jobs = w.jobs) (hcommits : w'.log.commits = w.log.commits)
    (hrollbacks : w'.log.rollbacks = w.log.rollbacks)
    (hcontents : w'.store.contents = w.store.contents) (hfetched : w'.fetched = w.fetched)
    (howner : ∀ k, w.store.owner k = some p → w'.store.owner k = some p)
    (hwrites : w'.store.writes p = w.store.writes p ++ ws)
    (hmoves : ∀ wr ∈ ws, wr.moves = some row.id)
    (hhanded : w.HandedSince seen r → w'.HandedSince seen r) :
    Dealing config seen r p dealt (row :: rows) w' := by
  have hnodup : ((dealt ++ row :: rows).map (·.id)).Nodup → ∀ other ∈ dealt, other.id ≠ row.id := by
    intro hn other hother he
    rw [List.map_append, List.nodup_append] at hn
    exact hn.2.2 _ (List.mem_map_of_mem hother) _ (List.mem_map_of_mem List.mem_cons_self) he
  constructor
  · exact hjob ▸ h.job
  · exact h.batching.same hjob hcommits hrollbacks
  · rw [hfetched]
    exact h.fetched
  · exact h.nodup
  · intro wr hwr
    rw [hwrites, List.mem_append] at hwr
    exact hwr.elim (h.inserts wr) fun hwr => (moved_write (hmoves wr hwr)).2
  · intro other hother
    obtain ⟨hf, hl, hfind⟩ := h.holds other hother
    exact ⟨hfetched ▸ hf, howner _ hl, hcontents ▸ hfind⟩
  · rw [hcontents]
    exact h.chosen
  · exact fun other hother =>
      (h.dealt other hother).append (hnodup h.nodup other hother) hmoves hwrites hhanded

theorem Dealing.next (h : Dealing config seen r p dealt (row :: rows) w)
    (hrow : Dealt seen r p row w) : Dealing config seen r p (dealt ++ [row]) rows w := by
  have hlist : dealt ++ [row] ++ rows = dealt ++ row :: rows := by simp
  constructor
  · exact h.job
  · exact h.batching
  · rw [hlist]
    exact h.fetched
  · rw [hlist]
    exact h.nodup
  · exact h.inserts
  · rw [hlist]
    exact h.holds
  · rw [hlist]
    exact h.chosen
  · intro other hother
    rcases List.mem_append.mp hother with hother | hother
    · exact h.dealt other hother
    · exact List.mem_singleton.mp hother ▸ hrow

-- The publisher is called for the row, whatever becomes of the call.
theorem publish_next : WaitingSpec d config now r config.size seen total p
    (Dealing config seen r p dealt (row :: rows)) (publish_row row)
    fun _ => Calling config seen r p dealt row rows := by
  refine waiting_call nofun fun w a (result : Except Exn Unit) w' hi hw _ hp => ?_
  have hs : Scope .publish w w' := scope_perform hp
  obtain ⟨w₁, hw', hstore, hfetched, _, hpub, _⟩ := perform_recorded hp
  have hstore' : w'.store = w.store := by rw [hw']; exact hstore
  have hlog : w'.log.publishes = w.log.publishes ++
      [⟨p, EXCHANGE_PAYMENTS, row.routing_key, ⟨row.payload, []⟩, result.isOk⟩] := by
    rw [hw', World.record_log_publishes, hpub]
  have hhanded : w.HandedSince seen r → w'.HandedSince seen r := by
    rintro ⟨m, hm, hrow⟩
    exact ⟨m, drop_subset_of_prefix (hlog ▸ List.prefix_append _ _) _ hm, hrow⟩
  have hwrites : w'.store.writes p = w.store.writes p ++ [] := by rw [hstore', List.append_nil]
  refine ⟨hw.step hs.jobs (hs.commits (by decide)) (hs.rollbacks (by decide) (by decide))
    ?_ ?_ ?_ hwrites (by simp) hhanded, fun he => ?_⟩
  · rw [hstore']
  · rw [hw']
    exact hfetched
  · rw [hstore']
    exact fun _ hk => hk
  · rcases hi.2.handed_or with hbefore | ⟨hr, _⟩
    · exact hhanded hbefore
    · have hfind := (hw.holds row (by simp)).found
      have hsame : row = r := Table.eq_of_key_eq (Table.mem_of_find? hfind) hr he
      subst hsame
      unfold World.HandedSince
      rw [hlog, List.drop_append_of_le_length hi.2.seen_le]
      exact ⟨_, List.mem_append_right _ (List.mem_singleton_self _), rfl, rfl, rfl⟩

-- The statements that end with a row.
def Statement.settles (id : UUID) : Statement → Prop
  | .mark_published id' _ | .bump_attempt id' _ _ => id' = id
  | _ => False

theorem settling_writes {stmt : Statement} {id : UUID} (hstmt : stmt.settles id) {s : Store}
    {time : DateTime} {ids : List UUID} {result : stmt.Result} {locks : List Resource}
    {writes : List Write} (hv : stmt.verdict s p time ids = .succeeds result locks writes) :
    ∀ wr ∈ writes, wr.moves = some id := by
  intro wr hwr
  cases stmt with
  | mark_published id' published_at =>
      obtain ⟨_, rfl, _⟩ | ⟨_, _, rfl⟩ := mark_succeeds hv
      · cases hwr
      · rw [List.mem_singleton.mp hwr]
        exact congrArg some hstmt
  | bump_attempt id' error next_attempt_at =>
      obtain ⟨_, rfl, _⟩ | ⟨_, _, rfl⟩ := bump_succeeds hv
      · cases hwr
      · rw [List.mem_singleton.mp hwr]
        exact congrArg some hstmt
  | _ => exact hstmt.elim

theorem Calling.execute {stmt : Statement} {result : Except Exn stmt.Result}
    (h : Calling config seen r p dealt row rows w) (hstmt : stmt.settles row.id)
    (hp : World.perform d p (.execute stmt) a w = some (result, w')) :
    Calling config seen r p dealt row rows w' := by
  have hs : Scope .execute w w' := scope_perform hp
  have hnolock : ∀ id now, stmt ≠ .lock_pending id now := by
    rintro id now rfl
    exact hstmt
  have hwrites : ∃ ws, w'.store.writes p = w.store.writes p ++ ws ∧
      ∀ wr ∈ ws, wr.moves = some row.id := by
    obtain hsame | ⟨_, _, _, _, writes, hv, hw⟩ := execute_writes hp
    · exact ⟨[], by rw [hsame, List.append_nil], by simp⟩
    · exact ⟨writes, hw, settling_writes hstmt hv⟩
  obtain ⟨ws, hws, hmoves⟩ := hwrites
  have hhanded : w.HandedSince seen r → w'.HandedSince seen r := by
    unfold World.HandedSince
    rw [hs.publishes (by decide)]
    exact fun h => h
  refine ⟨h.dealing.step hs.jobs (hs.commits (by decide)) (hs.rollbacks (by decide) (by decide))
    (hs.contents (by decide)) (execute_fetches_none hnolock hp) ?_ hws hmoves hhanded,
    fun he => hhanded (h.handed he)⟩
  exact fun k hk => owner_kept hp hk

-- The statement finds its row.
theorem Calling.visible (h : Calling config seen r p dealt row rows w) :
    (w.store.visible p).outbox.find? row.id ≠ none := by
  have hfind := (h.dealing.holds row (by simp)).found
  rw [Store.visible, LockStore.view, find?_changes hfind]
  exact Option.some_ne_none _

theorem mark_next (published_at : DateTime) :
    WaitingSpec d config now r config.size seen total p (Calling config seen r p dealt row rows)
      (.execute (.mark_published row.id published_at))
      (Ends (fun _ => Calling config seen r p dealt row rows)
        fun _ => Dealing config seen r p (dealt ++ [row]) rows) := by
  refine waiting_call nofun fun w a result w' _ hw _ hp => ?_
  have hsettles : (Statement.mark_published row.id published_at).settles row.id := rfl
  have hcalling := hw.execute hsettles hp
  cases result with
  | error x => exact hcalling
  | ok _ =>
      obtain ⟨time, _, _, _, _, hv, hw'⟩ := execute_returns hp
      obtain ⟨_, _, hnone⟩ | ⟨_, _, rfl⟩ := mark_succeeds hv
      · exact absurd hnone hw.visible
      · have hwrites : w'.store.writes p = w.store.writes p ++
            [.publish_outbox row.id published_at time] := by
          rw [hw', World.fetch_store, World.take_store, LockStore.take_writes_self]
        refine hcalling.dealing.next ⟨.inl ?_, hcalling.handed, ?_⟩
        · refine (changes_status _ row).mpr (.inr ⟨published_at, time, ?_⟩)
          rw [hwrites]
          exact List.mem_append_right _ (List.mem_singleton_self _)
        · rw [hwrites]
          exact ⟨_, List.mem_append_right _ (List.mem_singleton_self _), rfl⟩

theorem bump_next (error : String) {next_attempt_at : DateTime}
    (hlater : r.next_attempt_at < next_attempt_at) :
    WaitingSpec d config now r config.size seen total p (Calling config seen r p dealt row rows)
      (.execute (.bump_attempt row.id error next_attempt_at))
      (Ends (fun _ _ => True) fun _ => Dealing config seen r p (dealt ++ [row]) rows) := by
  refine waiting_call nofun fun w a result w' _ hw _ hp => ?_
  have hsettles : (Statement.bump_attempt row.id error next_attempt_at).settles row.id := rfl
  have hcalling := hw.execute hsettles hp
  cases result with
  | error x => trivial
  | ok _ =>
      obtain ⟨time, _, _, _, _, hv, hw'⟩ := execute_returns hp
      obtain ⟨_, _, hnone⟩ | ⟨_, _, rfl⟩ := bump_succeeds hv
      · exact absurd hnone hw.visible
      · have hwrites : w'.store.writes p = w.store.writes p ++
            [.bump_outbox row.id error next_attempt_at time] := by
          rw [hw', World.fetch_store, World.take_store, LockStore.take_writes_self]
        refine hcalling.dealing.next ⟨.inr ?_, hcalling.handed, ?_⟩
        · rw [hwrites, changes_append]
          have hid : (changes (w.store.writes p) row).id = row.id := changes_id _ _
          show r.next_attempt_at < ((Write.bump_outbox row.id error next_attempt_at time).change
            (changes (w.store.writes p) row)).next_attempt_at
          rw [Write.change, if_pos hid]
          exact hlater
        · rw [hwrites]
          exact ⟨_, List.mem_append_right _ (List.mem_singleton_self _), rfl⟩

end Dealing

section Programs

variable {dealt rows : List Outbox} {row : Outbox}

theorem calling_now : DueTriple d config now r seen total p
    (Calling config seen r p dealt row rows) Async.now
    fun t w => now ≤ t ∧ Calling config seen r p dealt row rows w := by
  refine Triple.perform stable_calling (waiting_call nofun fun w a result w' _ hw hA hp => ?_)
  obtain ⟨t, ha, hresult⟩ := perform_now hp
  obtain ⟨_, rfl⟩ | ⟨⟨x, hx⟩, _⟩ := perform_idle rfl hp
  · subst hresult
    exact ⟨hA.clock config hw.dealing.job rfl t ha, hw⟩
  · rw [hresult] at hx
    cases hx

theorem bump_later {service : OutboxService} (hle : r.next_attempt_at ≤ now)
    (hlater : ∀ attempts now t, next_attempt service attempts now = .ok t → now < t)
    (attempts : ℕ) (error : String) :
    DueTriple d config now r seen total p (Calling config seen r p dealt row rows)
      (service.bump_attempt row.id attempts error)
      fun _ => Dealing config seen r p (dealt ++ [row]) rows := by
  have python : ∀ {α : Type} (result : Except PyError α),
      DueTriple d config now r seen total p (Calling config seen r p dealt row rows)
        (ofPython result) fun a w => result = .ok a ∧ Calling config seen r p dealt row rows w := by
    intro α result
    refine Triple.ret fun w _ hw => ?_
    cases result with
    | error e => trivial
    | ok x => exact ⟨rfl, hw⟩
  unfold OutboxService.bump_attempt
  simp only [Prog.bind_eq]
  refine DueTriple.bind (python _) fun delay => Triple.and_pure fun hdelay => ?_
  refine DueTriple.bind calling_now fun current => Triple.and_pure fun hcurrent => ?_
  refine DueTriple.bind (python _) fun delta => Triple.and_pure fun hdelta => ?_
  refine DueTriple.bind (python _) fun t => Triple.and_pure fun ht => ?_
  have hnext : next_attempt service attempts current = .ok t := by
    unfold next_attempt
    rw [hdelay]
    simp only [bind, Except.bind, hdelta]
    exact ht
  refine Triple.perform stable_calling (bump_next error ?_)
  exact (hle.trans hcurrent).trans_lt (hlater attempts current t hnext)

theorem process_next {service : OutboxService} (hle : r.next_attempt_at ≤ now)
    (hlater : ∀ attempts now t, next_attempt service attempts now = .ok t → now < t) :
    DueTriple d config now r seen total p (Dealing config seen r p dealt (row :: rows))
      (_process_row service row) fun _ => Dealing config seen r p (dealt ++ [row]) rows := by
  unfold _process_row
  refine Triple.tryCatch (R := Ends (fun _ => Calling config seen r p dealt row rows)
    fun _ => Dealing config seen r p (dealt ++ [row]) rows) ?_ (fun _ _ _ hw => hw)
    fun x => Triple.ite (fun _ => bump_later hle hlater _ _) fun _ => Triple.ret fun _ _ _ => trivial
  refine Triple.bind (Triple.perform stable_dealing publish_next) (fun _ => ?_) fun _ _ _ hw => hw
  -- the clock does not raise
  refine Triple.bind (R := Ends (fun _ _ => False) fun _ => Calling config seen r p dealt row rows)
    (Triple.perform stable_calling (waiting_call nofun fun w a result w' _ hw _ hp => ?_))
    (fun published_at => Triple.perform stable_calling (mark_next published_at))
    fun _ _ _ hw => hw.elim
  obtain ⟨rfl, time, rfl⟩ := perform_unawaited rfl hp
  exact hw

theorem process_all {service : OutboxService} (hle : r.next_attempt_at ≤ now)
    (hlater : ∀ attempts now t, next_attempt service attempts now = .ok t → now < t) :
    DueTriple d config now r seen total p (Dealing config seen r p dealt rows)
      (_process_rows service rows) fun _ => Dealing config seen r p (dealt ++ rows) [] := by
  induction rows generalizing dealt with
  | nil =>
      rw [List.append_nil]
      exact Triple.ret fun _ _ hw => hw
  | cons row rows ih =>
      unfold _process_rows
      simp only [Prog.bind_eq]
      refine DueTriple.bind (process_next hle hlater) fun _ => ?_
      have hall : DueTriple d config now r seen total p
          (Dealing config seen r p (dealt ++ [row]) rows) (_process_rows service rows)
          fun _ => Dealing config seen r p (dealt ++ [row] ++ rows) [] := ih
      rw [List.append_assoc] at hall
      exact hall

-- The rows of the batch come after `r` from its commit on, or are published.
theorem Dealing.settled {w : World} (h : Dealing config seen r p dealt [] w) {row : Outbox}
    (hrow : row ∈ w.store.contents.outbox.rows) (hid : row.id ∈ dealt.map (·.id)) :
    r.is_ahead (changes (w.store.writes p) row) = false := by
  obtain ⟨found, hfound, he⟩ := List.mem_map.mp hid
  have hsame : found = row := Table.eq_of_key_eq
    (Table.mem_of_find? (h.holds found (by simpa using hfound)).found) hrow he
  rcases (h.dealt found hfound).past with hpast | hpast
  · rw [← hsame]
    simp [Outbox.is_ahead, hpast]
  · exact not_ahead_of_later (hsame ▸ hpast)

theorem dealt_commit {w : World}
    (hi : ((heldBatches d).inf (waiting config.size seen total r)).inv w)
    (hw : Dealing config seen r p dealt [] w) (hb : w.store.aborted p = false) :
    Waiting config.size seen total r (w.commit p) ∧
      Advances config.size seen r w (w.commit p) := by
  obtain ⟨⟨⟨⟨⟨_, hrec⟩, hhand⟩, _⟩, _⟩, hn⟩ := hi
  obtain ⟨hlog, hcontents⟩ := commit_log hb
  have hfetched : w.fetched p = dealt.map (·.id) := by simpa using hw.fetched
  have hnodup : (dealt.map (·.id)).Nodup := by simpa using hw.nodup
  have hpub : (w.commit p).log.publishes = w.log.publishes := by rw [hlog]
  have hcommits : (w.commit p).log.commits = w.log.commits ++ [(p, w.store.writes p)] := by rw [hlog]
  have hhanded : (w.commit p).HandedSince seen r ↔ w.HandedSince seen r := by
    unfold World.HandedSince
    rw [hpub]
  have huntouched : ∀ row ∈ w.store.contents.outbox.rows, row.id ∉ dealt.map (·.id) →
      changes (w.store.writes p) row = row :=
    fun row hrow hid => hhand.untouched hrec hrow (hfetched ▸ hid)
  have hdispatches : w.dispatches p = true := by
    unfold World.dispatches
    rw [hw.job]
  have hcase : r ∈ w.store.contents.outbox.rows →
      (Contained r w (w.commit p) ∧ w.HandedSince seen r) ∨
        r ∈ (w.commit p).store.contents.outbox.rows ∧
          (w.commit p).store.contents.ahead r ⊆ w.store.contents.ahead r ∧
          w.standing config.size r = (w.commit p).standing config.size r := by
    intro hr
    rcases hw.chosen hr with hmem | ⟨hlen, hahead⟩
    · left
      obtain ⟨row, hrow, hid⟩ := List.mem_map.mp hmem
      rw [List.append_nil] at hrow
      obtain ⟨_, hhand, wr, hwr, hmoves⟩ := hw.dealt row hrow
      refine ⟨⟨(p, w.store.writes p), ?_, wr, hwr, hmoves.trans (congrArg some hid)⟩, hhand hid⟩
      rw [hcommits, List.drop_left]
      exact List.mem_singleton_self _
    · right
      rw [List.append_nil] at hlen hahead
      obtain ⟨hsub, hlength⟩ := ahead_settled hw.inserts hnodup hahead
        (fun row hrow hid => hw.settled hrow hid) huntouched
      rw [← hcontents] at hsub hlength
      have hout : r.id ∉ dealt.map (·.id) := by
        intro hmem
        obtain ⟨row, hrow, hid⟩ := List.mem_map.mp hmem
        exact (mem_ahead.mp (hahead row hrow)).2.2.1 hid
      refine ⟨?_, hsub, ?_⟩
      · have hfind := commit_row hb hr
        rw [huntouched r hr hout] at hfind
        exact Table.mem_of_find? hfind
      · unfold World.standing
        rw [commit_batches hb, hdispatches, if_pos rfl, Nat.mul_add, Nat.mul_one]
        omega
  refine ⟨⟨hpub ▸ hn.seen_le, ?_⟩, ?_, hhanded.mpr, fun hr => (hcase hr).imp_left And.left⟩
  · rw [hhanded]
    rcases hn.handed_or with hbefore | ⟨hr, htotal⟩
    · exact .inl hbefore
    · rcases hcase hr with ⟨_, hhand⟩ | ⟨hr', _, hsame⟩
      · exact .inl hhand
      · exact .inr ⟨hr', hsame.symm.trans htotal⟩
  · rw [hcommits]
    exact List.prefix_append _ _

theorem commit_dealt : DueTriple d config now r seen total p (Dealing config seen r p dealt [])
    Async.commit fun _ _ => True := by
  refine Triple.perform stable_dealing (waiting_commit (fun w a hi hw hA hb => ?_)
    fun _ _ result _ _ _ => by cases result <;> trivial)
  obtain ⟨hwait, hadv⟩ := dealt_commit hi hw hb
  exact ⟨hwait, hadv, fun q hq hbatch => absurd hbatch (hA.alone config hw.job q hq)⟩

variable {c : Container}

theorem process_batch_advances (hdue : r.status = .PENDING) (hle : r.next_attempt_at ≤ now)
    (hlater : ∀ attempts now t, next_attempt c.outbox_service attempts now = .ok t → now < t) :
    DueTriple d config now r seen total p (Opening config p [])
      (_process_batch c config.OUTBOX_BATCH_SIZE) fun _ _ => True := by
  unfold _process_batch
  simp only [Prog.bind_eq]
  refine DueTriple.bind (opening_idle rfl) fun _ => DueTriple.bind (opening_idle rfl) fun _ => ?_
  refine DueTriple.bind (fetch_first hdue hle _) fun found => ?_
  refine Triple.pre (P := Dealing config seen r p [] found) ?_ fun w hw => ?_
  · refine DueTriple.bind (process_all hle hlater) fun _ => ?_
    exact DueTriple.bind commit_dealt fun _ => Triple.ret fun _ _ _ => trivial
  · obtain ⟨time, ids, hlocking, hfound⟩ := hw
    exact hlocking.dealing hfound

theorem ended_advances {e : Effect} (he : e.kind ≠ .commit) :
    WaitingTriple d config now r config.size seen total p (fun _ => True) (Prog.perform e)
      fun _ _ => True :=
  Triple.perform (Logic.Stable.const _ p True) (waiting_call he fun _ _ _ _ _ _ _ _ => trivial)

theorem run_iteration_advances (hdue : r.status = .PENDING) (hle : r.next_attempt_at ≤ now)
    (hlater : ∀ attempts now t, next_attempt c.outbox_service attempts now = .ok t → now < t) :
    WaitingTriple d config now r config.size seen total p (Opening config p [])
      (_run_iteration c config) fun _ _ => True := by
  unfold _run_iteration
  simp only [Prog.bind_eq]
  refine Triple.bind (R := fun _ _ => True) ?_ (fun processed => ?_) fun _ _ _ _ => trivial
  · refine Triple.tryCatch (R := fun _ _ => True) ?_ (fun _ _ _ _ => trivial) fun x => ?_
    · refine Triple.andThen ((process_batch_advances hdue hle hlater).post fun r _ _ => trivial)
        fun r => ?_
      exact (ended_advances (e := Effect.close) nofun).post fun s _ _ => by cases s <;> trivial
    · exact Triple.ite (fun _ => Triple.ret fun _ _ _ => trivial)
        fun _ => Triple.ret fun _ _ _ => trivial
  · refine Triple.ite (fun _ => ?_) fun _ => Triple.ret fun _ _ _ => trivial
    exact (ended_advances (e := Effect.sleep _) nofun).post fun _ _ _ => trivial

end Programs

end Batch

section Soundness

variable {d : Deployment} {config : OutboxDispatcherConfig} {now : DateTime} {r : Outbox}
variable {seen total : ℕ}

theorem waiting_obliged (hdue : r.status = .PENDING) (hle : r.next_attempt_at ≤ now)
    (hlater : ∀ attempts now t, next_attempt ⟨config⟩ attempts now = .ok t → now < t) :
    Obliged (machine d) (SingleDispatcher config now r) (heldBatches d)
      (waiting config.size seen total r) where
  launch p l w prog w' hi hl hk hg := by
    obtain ⟨hi, hn⟩ := hi
    have hfresh : Fresh w := hi.1.2
    obtain ⟨hs, hf, hlog⟩ := launch_same hl
    obtain ⟨job, hj, hjobs, _, _⟩ := launched_only hl
    have hidle : Idle w w' := by
      refine ⟨by rw [hs], by rw [hlog], fun e he => ?_, hlog ▸ List.prefix_rfl⟩
      have hne : e.1 ≠ p := fun heq => hfresh.commits e he (heq ▸ hj)
      rw [hjobs, Function.update_of_ne hne]
    have hi' : ((heldBatches d).inf (waiting config.size seen total r)).inv w' :=
      ⟨hk, hn.idle hidle⟩
    refine ⟨hn.idle hidle, fun q hq => hidle.rely (hg q hq).2, ?_⟩
    obtain ⟨_, ⟨request, rfl, hw⟩ | ⟨config', rfl, hw⟩ | ⟨_, msg, event, _, _, rfl, hw⟩⟩ :=
      launch_cases hl
    · have hout : Unbatched p w' := by
        intro config'
        rw [hw]
        simp
      exact unbatched_triple ((create_payment_only request).mono fun _ => .inl) w' hi' hout
    · have hjob : w'.jobs p = some (.batch config') := by
        rw [hw]
        exact Function.update_self ..
      by_cases hconfig : config' = config
      · subst hconfig
        have hbatch : w'.Batching p := by
          refine ⟨⟨config', hjob⟩, fun e he heq => ?_, fun e he heq => ?_⟩
          · exact hfresh.commits e (hlog ▸ he) (heq ▸ hj)
          · exact hfresh.rollbacks e (hlog ▸ he) (heq ▸ hj)
        refine run_iteration_advances (c := { d.container with outbox_dispatcher_config := config' })
          hdue hle hlater w' hi' ⟨hjob, hbatch, ?_, ?_, by simp⟩
        · rw [hs]
          exact hi.1.1.1.1.fresh_writes p hj
        · rw [hf]
          exact (hi.1.1.2.fresh p hj).1
      · exact other_triple hconfig _ w' hi' hjob
    · have hout : Unbatched p w' := by
        intro config'
        rw [hw]
        simp
      exact unbatched_triple ((entrypoint_only event msg).mono fun _ => .inr) w' hi' hout
  crash p w hi _ hg := by
    obtain ⟨hs, _, hj, hlog⟩ := @crash_same p w
    have hidle : Idle w (w.crash p) := by
      refine ⟨by rw [hs]; rfl, by rw [hlog]; rfl, fun _ _ => by rw [hj], ?_⟩
      rw [hlog]
      exact List.prefix_rfl
    exact ⟨hi.2.idle hidle, fun q hq => hidle.rely (hg q hq).2, trivial⟩
  tick t w w' hi ht _ hf := by
    obtain ⟨hs, _, hj, hlog⟩ := tick_same ht
    have hidle : Idle w w' :=
      ⟨by rw [hs], by rw [hlog], fun _ _ => by rw [hj], hlog ▸ List.prefix_rfl⟩
    exact ⟨hi.2.idle hidle, fun q => hidle.rely (hf q).2⟩

-- No batch is under way.
def SystemConfig.BetweenBatches (c : SystemConfig) : Prop :=
  ∀ p config, c.world.jobs p = some (.batch config) → ∃ result, c.prog p = some (.ret result)

-- From then on the row waits, and it is handed over when it is its turn.
theorem waiting_sound {c : SystemConfig} (h : Reachable d unrestricted c)
    (hbetween : c.BetweenBatches) (hr : r ∈ c.world.store.contents.outbox.rows)
    (hdue : r.status = .PENDING) (hle : r.next_attempt_at ≤ now)
    (hlater : ∀ attempts now t, next_attempt ⟨config⟩ attempts now = .ok t → now < t) :
    Sound (machine d) (SingleDispatcher config now r) ((heldBatches d).inf
      (waiting config.size c.world.log.publishes.length (c.world.standing config.size r) r)) c := by
  have hsound := batching_sound d unrestricted
  have hinv : Waiting config.size c.world.log.publishes.length (c.world.standing config.size r) r
      c.world := ⟨le_rfl, .inr ⟨hr, rfl⟩⟩
  refine hsound.resume (fun _ _ _ _ _ => trivial) h (waiting_obliged hdue hle hlater) hinv ?_
  intro p prog hp
  have hi := And.intro (hsound.inv c h) hinv
  obtain ⟨job, hjob, honly⟩ := (reachable_manned h).programs p prog hp
  have outside : (∀ config', job ≠ .batch config') →
      (prog.Only fun e => e.ofRequest ∨ e.ofConsumer) →
        wp (machine d) (SingleDispatcher config now r) (heldBatches d)
          (waiting config.size c.world.log.publishes.length (c.world.standing config.size r) r) p prog
          (fun _ _ => True) c.world := by
    intro hne ho
    refine unbatched_triple ho c.world hi fun config' hbatch => ?_
    rw [hjob] at hbatch
    exact hne config' (Option.some.inj hbatch)
  cases job with
  | request request => exact outside (by simp) (honly.mono fun _ => .inl)
  | batch config' =>
      obtain ⟨result, hret⟩ := hbetween p config' hjob
      rw [hp] at hret
      cases hret
      exact wp_ret trivial
  | delivery event msg => exact outside (by simp) (honly.mono fun _ => .inr)

end Soundness

end PaymentsProcessor
