import PaymentsProcessor.Database.Changes
import PaymentsProcessor.System.Integrity
import PaymentsProcessor.System.Transactions

namespace PaymentsProcessor

open Python Storage Concurrency PaymentsConstants

-- The call hands the event of this payment, and so its outbox row, to the broker.
def Publish.hands (id : UUID) (m : Publish) : Bool :=
  m.exchange = EXCHANGE_PAYMENTS ∧ PaymentCreatedEvent.decode m.message.payload = some ⟨id⟩

-- And has returned.
def Publish.handed (id : UUID) (m : Publish) : Bool := m.hands id && m.returned

namespace World

def handovers (w : World) (id : UUID) : List Publish := w.log.publishes.filter (·.hands id)

def own (w : World) (p : Pid) : List Publish := w.log.publishes.filter (·.pid = p)

def copies (w : World) (id : UUID) : ℕ := w.log.publishes.countP (·.handed id)

def copies_of (w : World) (p : Pid) (id : UUID) : ℕ := (w.own p).countP (·.handed id)

-- The batches with this row that were rolled back.
def losses (w : World) (id : UUID) : ℕ := w.log.rollbacks.countP fun r => id ∈ r.2

def Marked (w : World) (p : Pid) (id : UUID) : Prop :=
  ∃ published_at time, .publish_outbox id published_at time ∈ w.store.writes p

theorem copies_of_le (w : World) (p : Pid) (id : UUID) : w.copies_of p id ≤ w.copies id :=
  List.Sublist.countP_le List.filter_sublist

end World

-- The outbox row that a write moves on.
def Write.moves : Write → Option UUID
  | publish_outbox id .. | bump_outbox id .. => some id
  | _ => none

abbrev FailuresAbort (A : Assumption Pid World Effect Answer) : Prop :=
  ∀ pid e a w, A pid e a w → failures_abort pid e a w

-- How often each row was handed over: once more than it was lost at most, and
-- while no batch holds it unpublished, no more often than that.
structure Counted (w : World) : Prop where
  free : ∀ row ∈ w.store.contents.outbox.rows, row.status = .PENDING →
    (∀ p, row.id ∉ w.fetched p) → w.copies row.aggregate_id ≤ w.losses row.id
  held : ∀ row ∈ w.store.contents.outbox.rows, ∀ p, row.id ∈ w.fetched p →
    w.copies row.aggregate_id ≤ w.losses row.id + w.copies_of p row.aggregate_id ∧
      w.copies_of p row.aggregate_id ≤ 1
  published : ∀ row ∈ w.store.contents.outbox.rows, row.status = .PUBLISHED →
    w.copies row.aggregate_id ≤ w.losses row.id + 1

-- A batch holds pending rows, moves only rows that it holds, and marks only what
-- it has handed over.
structure Handover (A : Assumption Pid World Effect Answer) (w : World) : Prop where
  pending : ∀ p, ∀ id ∈ w.fetched p,
    ∃ row ∈ w.store.contents.outbox.rows, row.id = id ∧ row.status = .PENDING
  moved : ∀ p, ∀ wr ∈ w.store.writes p, ∀ id, wr.moves = some id → id ∈ w.fetched p
  inserted : ∀ p row, .insert_outbox row ∈ w.store.writes p → row.status = .PENDING
  marked : ∀ p id, w.Marked p id → ∀ row ∈ w.store.contents.outbox.rows, row.id = id →
    0 < w.copies_of p row.aggregate_id
  sent : ∀ row ∈ w.store.contents.outbox.rows, row.status = .PUBLISHED →
    0 < w.copies row.aggregate_id
  announced : ∀ m ∈ w.log.publishes, m.exchange = EXCHANGE_PAYMENTS →
    ∃ row ∈ w.store.contents.outbox.rows, m.routing_key = row.routing_key ∧
      m.message = ⟨row.payload, []⟩
  fresh : ∀ p, w.jobs p = none → w.fetched p = [] ∧ w.own p = []
  counted : FailuresAbort A → Counted w

-- A published row stays as it is, and is not handed over again.
def World.Settles (w w' : World) : Prop :=
  ∀ row ∈ w.store.contents.outbox.rows, row.status = .PUBLISHED →
    row ∈ w'.store.contents.outbox.rows ∧
      w'.handovers row.aggregate_id = w.handovers row.aggregate_id

theorem World.Settles.refl (w : World) : w.Settles w := fun _ hr _ => ⟨hr, rfl⟩

theorem World.Settles.trans {w w' w'' : World} (h : w.Settles w') (h' : w'.Settles w'') :
    w.Settles w'' := by
  intro row hr hs
  obtain ⟨hr', hh⟩ := h row hr hs
  obtain ⟨hr'', hh'⟩ := h' row hr' hs
  exact ⟨hr'', hh'.trans hh⟩

def handover (A : Assumption Pid World Effect Answer) : Logic Pid World where
  inv := Handover A
  rely p w w' := w'.own p = w.own p ∧ w.Settles w'
  done _ _ := True
  rely_refl _ w := ⟨rfl, .refl w⟩
  rely_trans _ _ _ _ h h' := ⟨h'.1.trans h.1, h.2.trans h'.2⟩
  done_stable _ _ _ _ _ := trivial

section Facts

variable {d : Deployment} {A : Assumption Pid World Effect Answer} {p q : Pid} {w w' : World}
variable {row row' : Outbox}

theorem fetched_unique (ht : Tidy w) {id : UUID} (hp : id ∈ w.fetched p) (hq : id ∈ w.fetched q) :
    p = q := by
  have h := (ht.fetched p id hp).symm.trans (ht.fetched q id hq)
  exact Option.some.inj h

theorem Handover.not_published (h : Handover A w) (hr : row ∈ w.store.contents.outbox.rows)
    (hs : row.status = .PUBLISHED) : row.id ∉ w.fetched p := by
  intro hf
  obtain ⟨row', hr', hid, hs'⟩ := h.pending p _ hf
  rw [Table.eq_of_key_eq hr' hr hid, hs] at hs'
  cases hs'

-- A message of the payments exchange tells of one payment.
theorem Recorded.decodes (h : Recorded d A w) (hr : row ∈ w.store.contents.outbox.rows)
    {id : UUID} : PaymentCreatedEvent.decode row.payload = some ⟨id⟩ ↔ id = row.aggregate_id := by
  obtain ⟨payment, _, ha⟩ := h.consistent.announces row hr
  rw [ha.decode_payload, ha.aggregate_id]
  simp [eq_comm]

-- What a transaction does not hold, its writes do not touch.
theorem Handover.untouched (h : Handover A w) (hrec : Recorded d A w)
    (hr : row ∈ w.store.contents.outbox.rows) (hf : row.id ∉ w.fetched p) :
    changes (w.store.writes p) row = row := by
  apply changes_untouched
  intro wr hwr
  have hmoved := h.moved p wr hwr
  have hpend := hrec.pending p wr hwr
  cases wr with
  | insert_payment | update_payment => simp [Write.touches]
  | insert_outbox new =>
      have hne : row.id ≠ new.id := fun he => Table.find?_eq_none_iff.mp hpend.2 row hr he
      simpa [Write.touches] using hne
  | publish_outbox id published_at time | bump_outbox id error next_attempt_at time =>
      have hne : row.id ≠ id := fun he => hf (he ▸ hmoved id rfl)
      simpa [Write.touches] using hne

theorem commit_row (hb : w.store.aborted p = false) (hr : row ∈ w.store.contents.outbox.rows) :
    (w.commit p).store.contents.outbox.find? row.id = some (changes (w.store.writes p) row) := by
  rw [commit_contents, LockStore.commit_contents, if_neg (by simp [hb])]
  exact find?_changes (Table.find?_key hr) _

end Facts

section Steps

variable {d : Deployment} {A : Assumption Pid World Effect Answer} {p : Pid} {w w' : World}
variable {row : Outbox}

theorem own_of_same (h : w'.log.publishes = w.log.publishes) (q : Pid) : w'.own q = w.own q := by
  unfold World.own
  rw [h]

theorem copies_of_same (h : w'.log.publishes = w.log.publishes) (id : UUID) :
    w'.copies id = w.copies id := by
  unfold World.copies
  rw [h]

theorem copies_of_of_own {q : Pid} (h : w'.own q = w.own q) (id : UUID) :
    w'.copies_of q id = w.copies_of q id := by
  unfold World.copies_of
  rw [h]

theorem losses_of_same (h : w'.log.rollbacks = w.log.rollbacks) (id : UUID) :
    w'.losses id = w.losses id := by
  unfold World.losses
  rw [h]

theorem handover_guarantee (hc : w'.store.contents = w.store.contents)
    (hp : w'.log.publishes = w.log.publishes) : (handover A).Guarantee p w w' := by
  refine fun q _ => ⟨own_of_same hp q, fun row hr _ => ⟨hc ▸ hr, ?_⟩⟩
  unfold World.handovers
  rw [hp]

-- What `p` may write.
structure Allowed (p : Pid) (w : World) (wr : Write) : Prop where
  moved : ∀ id, wr.moves = some id → id ∈ w.fetched p
  inserted : ∀ row, wr = .insert_outbox row → row.status = .PENDING
  marked : ∀ id published_at time, wr = .publish_outbox id published_at time →
    ∀ row ∈ w.store.contents.outbox.rows, row.id = id → 0 < w.copies_of p row.aggregate_id

-- A step of `p` that leaves tables and messages alone: it may take rows that
-- nobody holds, before it has published anything.
theorem Counted.step (h : Counted w) (hf : ∀ q, q ≠ p → Frame q w w')
    (hc : w'.store.contents = w.store.contents) (hp : w'.log.publishes = w.log.publishes)
    (hr : w'.log.rollbacks = w.log.rollbacks) (hkept : w.fetched p ⊆ w'.fetched p)
    (hnew : ∀ id ∈ w'.fetched p, id ∈ w.fetched p ∨ w.own p = [] ∧ (∀ q, id ∉ w.fetched q) ∧
      ∃ row ∈ w.store.contents.outbox.rows, row.id = id ∧ row.status = .PENDING) :
    Counted w' where
  free := by
    rw [hc]
    intro row hrow hs hid
    rw [copies_of_same hp, losses_of_same hr]
    refine h.free row hrow hs fun q hq => ?_
    by_cases hqp : q = p
    · subst hqp
      exact hid q (hkept hq)
    · exact hid q ((hf q hqp).fetched ▸ hq)
  held := by
    rw [hc]
    intro row hrow q hid
    rw [copies_of_same hp, losses_of_same hr, copies_of_of_own (own_of_same hp q)]
    by_cases hq : q = p
    · subst hq
      rcases hnew _ hid with hold | ⟨hnone, hunheld, row', hrow', hid', hs⟩
      · exact h.held row hrow q hold
      · have hzero : w.copies_of q row.aggregate_id = 0 := by
          unfold World.copies_of
          rw [hnone]
          rfl
        have heq : row' = row := Table.eq_of_key_eq hrow' hrow hid'
        have hle := h.free row hrow (heq ▸ hs) hunheld
        omega
    · exact h.held row hrow q ((hf q hq).fetched ▸ hid)
  published := by
    rw [hc]
    intro row hrow hs
    rw [copies_of_same hp, losses_of_same hr]
    exact h.published row hrow hs

-- And it may write to rows it holds.
theorem Handover.step (h : Handover A w) (hf : ∀ q, q ≠ p → Frame q w w')
    (hc : w'.store.contents = w.store.contents) (hp : w'.log.publishes = w.log.publishes)
    (hr : w'.log.rollbacks = w.log.rollbacks) (hj : w'.jobs = w.jobs)
    (hstarted : w.jobs p = none → w'.fetched p = []) (hkept : w.fetched p ⊆ w'.fetched p)
    (hnew : ∀ id ∈ w'.fetched p, id ∈ w.fetched p ∨ w.own p = [] ∧ (∀ q, id ∉ w.fetched q) ∧
      ∃ row ∈ w.store.contents.outbox.rows, row.id = id ∧ row.status = .PENDING)
    (hown : ∀ wr ∈ w'.store.writes p, wr ∈ w.store.writes p ∨ Allowed p w wr) :
    Handover A w' where
  pending q id hid := by
    rw [hc]
    by_cases hq : q = p
    · subst hq
      exact (hnew id hid).elim (h.pending q id) fun hn => hn.2.2
    · exact h.pending q id ((hf q hq).fetched ▸ hid)
  moved q wr hwr id hmoves := by
    by_cases hq : q = p
    · subst hq
      exact hkept ((hown wr hwr).elim (fun hwr => h.moved q wr hwr id hmoves)
        fun hn => hn.moved id hmoves)
    · rw [(hf q hq).fetched]
      exact h.moved q wr ((hf q hq).writes ▸ hwr) id hmoves
  inserted q row hwr := by
    by_cases hq : q = p
    · subst hq
      exact (hown _ hwr).elim (h.inserted q row) fun hn => hn.inserted row rfl
    · exact h.inserted q row ((hf q hq).writes ▸ hwr)
  marked := by
    rintro q id ⟨published_at, time, hwr⟩ row hrow hid
    rw [hc] at hrow
    rw [copies_of_of_own (own_of_same hp q)]
    by_cases hq : q = p
    · subst hq
      rcases hown _ hwr with hold | hn
      · exact h.marked q id ⟨_, _, hold⟩ row hrow hid
      · exact hn.marked id published_at time rfl row hrow hid
    · exact h.marked q id ⟨_, _, (hf q hq).writes ▸ hwr⟩ row hrow hid
  sent := by
    rw [hc]
    intro row hrow hs
    rw [copies_of_same hp]
    exact h.sent row hrow hs
  announced := by
    rw [hp, hc]
    exact h.announced
  fresh q hq := by
    rw [hj] at hq
    rw [own_of_same hp]
    refine ⟨?_, (h.fresh q hq).2⟩
    by_cases hqp : q = p
    · subst hqp
      exact hstarted hq
    · rw [(hf q hqp).fetched]
      exact (h.fresh q hq).1
  counted hA := (h.counted hA).step hf hc hp hr hkept hnew

-- Only these parts of a world matter.
theorem Handover.congr (h : Handover A w) (hs : w'.store = w.store) (hf : w'.fetched = w.fetched)
    (hp : w'.log.publishes = w.log.publishes) (hr : w'.log.rollbacks = w.log.rollbacks)
    (hj : ∀ q, w'.jobs q = none → w.jobs q = none) : Handover A w' where
  pending := by
    rw [hs, hf]
    exact h.pending
  moved := by
    rw [hs, hf]
    exact h.moved
  inserted := by
    rw [hs]
    exact h.inserted
  marked q id hmarked := by
    unfold World.Marked at hmarked
    rw [hs] at hmarked ⊢
    simp only [copies_of_of_own (own_of_same hp q)]
    exact h.marked q id hmarked
  sent := by
    rw [hs]
    simp only [copies_of_same hp]
    exact h.sent
  announced := by
    rw [hs, hp]
    exact h.announced
  fresh q hq := by
    rw [hf, own_of_same hp]
    exact h.fresh q (hj q hq)
  counted hA := by
    have hcount := h.counted hA
    constructor
    case free =>
      rw [hs, hf]
      simp only [copies_of_same hp, losses_of_same hr]
      exact hcount.free
    case held =>
      rw [hs, hf]
      simp only [copies_of_same hp, losses_of_same hr, fun q => copies_of_of_own (own_of_same hp q)]
      exact hcount.held
    case published =>
      rw [hs]
      simp only [copies_of_same hp, losses_of_same hr]
      exact hcount.published

theorem mem_rollback_fetched {q : Pid} {id : UUID} :
    id ∈ (w.rollback p).fetched q ↔ q ≠ p ∧ id ∈ w.fetched q := by
  by_cases hq : q = p
  · simp [hq]
  · simp [hq]

theorem mem_rollback_writes {q : Pid} {wr : Write} :
    wr ∈ (w.rollback p).store.writes q ↔ q ≠ p ∧ wr ∈ w.store.writes q := by
  by_cases hq : q = p
  · simp [hq]
  · simp [hq, LockStore.rollback_writes_other _ hq]

theorem losses_rollback (w : World) (p : Pid) (id : UUID) :
    (w.rollback p).losses id = w.losses id + if id ∈ w.fetched p then 1 else 0 := by
  simp [World.losses, List.countP_append, List.countP_singleton]

-- What a batch loses when it is rolled back it no longer holds.
theorem Counted.rollback (h : Counted w) : Counted (w.rollback p) where
  free row hrow hs hid := by
    show w.copies row.aggregate_id ≤ (w.rollback p).losses row.id
    rw [losses_rollback]
    by_cases hheld : row.id ∈ w.fetched p
    · have hle := h.held row hrow p hheld
      rw [if_pos hheld]
      omega
    · have hle := h.free row hrow hs fun q hq => by
        by_cases hqp : q = p
        · exact hheld (hqp ▸ hq)
        · exact hid q (mem_rollback_fetched.mpr ⟨hqp, hq⟩)
      omega
  held row hrow q hid := by
    have hle := h.held row hrow q (mem_rollback_fetched.mp hid).2
    show w.copies row.aggregate_id ≤ (w.rollback p).losses row.id + w.copies_of q row.aggregate_id ∧
      w.copies_of q row.aggregate_id ≤ 1
    rw [losses_rollback]
    omega
  published row hrow hs := by
    have hle := h.published row hrow hs
    show w.copies row.aggregate_id ≤ (w.rollback p).losses row.id + 1
    rw [losses_rollback]
    omega

theorem Handover.rollback (h : Handover A w) : Handover A (w.rollback p) where
  pending q id hid := h.pending q id (mem_rollback_fetched.mp hid).2
  moved q wr hwr id hmoves := by
    obtain ⟨hq, hwr⟩ := mem_rollback_writes.mp hwr
    exact mem_rollback_fetched.mpr ⟨hq, h.moved q wr hwr id hmoves⟩
  inserted q row hwr := h.inserted q row (mem_rollback_writes.mp hwr).2
  marked := by
    rintro q id ⟨published_at, time, hwr⟩
    exact h.marked q id ⟨published_at, time, (mem_rollback_writes.mp hwr).2⟩
  sent := h.sent
  announced := h.announced
  fresh q hq := by
    obtain ⟨hf, ho⟩ := h.fresh q hq
    refine ⟨List.eq_nil_iff_forall_not_mem.mpr fun id hid => ?_, ho⟩
    have hmem := (mem_rollback_fetched.mp hid).2
    rw [hf] at hmem
    cases hmem
  counted hA := (h.counted hA).rollback

theorem copies_record (w : World) (m : Publish) (id : UUID) :
    (w.record m).copies id = w.copies id + if m.handed id then 1 else 0 := by
  simp [World.copies, List.countP_append, List.countP_singleton]

theorem copies_of_record (w : World) (m : Publish) (q : Pid) (id : UUID) :
    (w.record m).copies_of q id = w.copies_of q id + if m.pid = q ∧ m.handed id then 1 else 0 := by
  by_cases hq : m.pid = q
  · simp [World.copies_of, World.own, List.filter_append, List.countP_append, hq,
      List.countP_singleton]
  · simp [World.copies_of, World.own, List.filter_append, hq]

-- A publish call of `p`: of another exchange, or of a row that `p` holds and has
-- not handed over yet.
structure Handing (p : Pid) (w : World) (m : Publish) : Prop where
  pid : m.pid = p
  row : m.exchange = EXCHANGE_PAYMENTS → ∃ row ∈ w.store.contents.outbox.rows,
    row.id ∈ w.fetched p ∧ m.routing_key = row.routing_key ∧ m.message = ⟨row.payload, []⟩ ∧
      w.copies_of p row.aggregate_id = 0

theorem Handing.hands {m : Publish} (hm : Handing p w m) (hrec : Recorded d A w) {id : UUID}
    (hid : m.hands id) : ∃ row ∈ w.store.contents.outbox.rows, row.id ∈ w.fetched p ∧
      id = row.aggregate_id ∧ w.copies_of p row.aggregate_id = 0 := by
  obtain ⟨hx, hdecode⟩ := of_decide_eq_true hid
  obtain ⟨row, hrow, hf, _, hmsg, hzero⟩ := hm.row hx
  rw [hmsg] at hdecode
  exact ⟨row, hrow, hf, (hrec.decodes hrow).mp hdecode, hzero⟩

-- What the call can hand over is a row that `p` holds.
theorem Handing.handed {m : Publish} (hm : Handing p w m) (hrec : Recorded d A w)
    (hr : row ∈ w.store.contents.outbox.rows) (hh : m.handed row.aggregate_id) :
    row.id ∈ w.fetched p ∧ w.copies_of p row.aggregate_id = 0 := by
  obtain ⟨row', hrow', hf, he, hzero⟩ := hm.hands hrec (Bool.and_eq_true_iff.mp hh).1
  obtain rfl := hrec.consistent.aggregates row hr row' hrow' he
  exact ⟨hf, hzero⟩

theorem Counted.publish (h : Counted w) (hover : Handover A w) (ht : Tidy w) (hrec : Recorded d A w)
    {m : Publish} (hm : Handing p w m) : Counted (w.record m) where
  free row hrow hs hid := by
    have hnot : ¬m.handed row.aggregate_id := fun hh => hid p (hm.handed hrec hrow hh).1
    rw [copies_record, if_neg hnot]
    exact h.free row hrow hs hid
  held row hrow q hid := by
    have hle := h.held row hrow q hid
    rw [copies_record, copies_of_record]
    by_cases hh : m.handed row.aggregate_id
    · obtain ⟨hf, hzero⟩ := hm.handed hrec hrow hh
      obtain rfl : q = p := fetched_unique ht hid hf
      have hboth : m.pid = q ∧ m.handed row.aggregate_id = true := ⟨hm.pid, hh⟩
      rw [if_pos hh, if_pos hboth]
      show w.copies row.aggregate_id + 1 ≤ w.losses row.id + (w.copies_of q row.aggregate_id + 1) ∧
        w.copies_of q row.aggregate_id + 1 ≤ 1
      omega
    · have hneither : ¬(m.pid = q ∧ m.handed row.aggregate_id = true) := fun hb => hh hb.2
      rw [if_neg hh, if_neg hneither]
      exact hle
  published row hrow hs := by
    have hnot : ¬m.handed row.aggregate_id := fun hh =>
      hover.not_published hrow hs (hm.handed hrec hrow hh).1
    rw [copies_record, if_neg hnot]
    exact h.published row hrow hs

theorem Handover.publish (h : Handover A w) (ht : Tidy w) (hrec : Recorded d A w) {m : Publish}
    (hm : Handing p w m) (hstarted : w.jobs p ≠ none) : Handover A (w.record m) where
  pending := h.pending
  moved := h.moved
  inserted := h.inserted
  marked q id hmarked row hrow hid := by
    have hpos := h.marked q id hmarked row hrow hid
    rw [copies_of_record]
    omega
  sent row hrow hs := by
    have hpos := h.sent row hrow hs
    rw [copies_record]
    omega
  announced m' hm' hx := by
    rcases List.mem_append.mp hm' with hm' | hm'
    · exact h.announced m' hm' hx
    · rw [List.mem_singleton] at hm'
      subst hm'
      obtain ⟨row, hrow, _, hkey, hmsg, _⟩ := hm.row hx
      exact ⟨row, hrow, hkey, hmsg⟩
  fresh q hq := by
    obtain ⟨hf, ho⟩ := h.fresh q hq
    have hne : m.pid ≠ q := fun he => hstarted (hm.pid ▸ he ▸ hq)
    refine ⟨hf, ?_⟩
    unfold World.own at ho ⊢
    rw [World.record_log_publishes, List.filter_append, ho]
    simp [hne]
  counted hA := (h.counted hA).publish h ht hrec hm

theorem publish_guarantee (h : Handover A w) (hrec : Recorded d A w) {m : Publish}
    (hm : Handing p w m) : (handover A).Guarantee p w (w.record m) := by
  refine fun q hq => ⟨?_, fun row hrow hs => ⟨hrow, ?_⟩⟩
  · have hne : m.pid ≠ q := fun he => hq (he ▸ hm.pid)
    simp [World.own, List.filter_append, hne]
  · have hnot : m.hands row.aggregate_id = false := by
      rw [← Bool.not_eq_true]
      intro hh
      obtain ⟨row', hrow', hf', he, _⟩ := hm.hands hrec hh
      rw [← hrec.consistent.aggregates row hrow row' hrow' he] at hf'
      exact h.not_published hrow hs hf'
    simp [World.handovers, List.filter_append, hnot]

-- What a batch may commit: what it has handed over, it has marked.
def Cleared (A : Assumption Pid World Effect Answer) (p : Pid) (w : World) : Prop :=
  FailuresAbort A → w.store.aborted p = true ∨
    ∀ row ∈ w.store.contents.outbox.rows, row.id ∈ w.fetched p →
      w.copies_of p row.aggregate_id = 0 ∨ w.Marked p row.id

-- A row after a commit is one from before with the writes of the transaction, or new.
theorem committed_row (hb : w.store.aborted p = false) {row' : Outbox}
    (hr : row' ∈ (w.commit p).store.contents.outbox.rows) :
    (∃ row ∈ w.store.contents.outbox.rows, row' = changes (w.store.writes p) row) ∨
      ∀ row ∈ w.store.contents.outbox.rows, row.id ≠ row'.id := by
  by_cases hex : ∃ row ∈ w.store.contents.outbox.rows, row.id = row'.id
  · obtain ⟨row, hrow, hid⟩ := hex
    have hfind := commit_row hb hrow
    rw [hid, Table.find?_key hr] at hfind
    exact .inl ⟨row, hrow, Option.some.inj hfind⟩
  · exact .inr fun row hrow hid => hex ⟨row, hrow, hid⟩

theorem Handover.settles_commit (h : Handover A w) (hrec : Recorded d A w)
    (hb : w.store.aborted p = false) : w.Settles (w.commit p) := by
  intro row hrow hs
  have hfind := commit_row hb hrow
  rw [h.untouched hrec hrow (h.not_published hrow hs)] at hfind
  refine ⟨Table.mem_of_find? hfind, ?_⟩
  unfold World.handovers World.commit
  rw [if_neg (by simp [hb])]

-- Of a payment whose row is new, nothing has been handed over.
theorem Handover.copies_new (h : Handover A w) (hrec : Recorded d A w)
    (he : w.store.contents.Evolves w'.store.contents) (hcons : w'.store.contents.Consistent)
    {row' : Outbox} (hr : row' ∈ w'.store.contents.outbox.rows)
    (hnew : ∀ row ∈ w.store.contents.outbox.rows, row.id ≠ row'.id) :
    w.copies row'.aggregate_id = 0 := by
  unfold World.copies
  rw [List.countP_eq_zero]
  intro m hm hh
  obtain ⟨hx, hdecode⟩ := of_decide_eq_true (Bool.and_eq_true_iff.mp hh).1
  obtain ⟨row, hrow, _, hmsg⟩ := h.announced m hm hx
  rw [hmsg] at hdecode
  have hagg := (hrec.decodes hrow).mp hdecode
  obtain ⟨row₁, hrow₁, hsame, _⟩ := he.outbox row hrow
  have hagg₁ : row₁.aggregate_id = row.aggregate_id := (congrArg Outbox.aggregate_id hsame :)
  have heq := hcons.aggregates row₁ hrow₁ row' hr (hagg₁.trans hagg.symm)
  exact hnew row hrow ((as_enqueued_id hsame).symm.trans (congrArg Outbox.id heq))

-- And it is not published.
theorem Handover.pending_new (h : Handover A w) {row' : Outbox}
    (hr : row' ∈ (w.commit p).store.contents.outbox.rows)
    (hnew : ∀ row ∈ w.store.contents.outbox.rows, row.id ≠ row'.id) :
    row'.status ≠ .PUBLISHED := by
  rw [commit_contents] at hr
  refine LockStore.commit_induction (W := Write.writing)
    (P := fun c => ∀ row ∈ c.outbox.rows, row.id = row'.id → row.status ≠ .PUBLISHED)
    w.store p (fun row hrow hid => absurd hid (hnew row hrow)) ?_ row' hr rfl
  intro wr hwr c hc row hrow hid
  cases wr with
  | insert_payment | update_payment => exact hc row hrow hid
  | insert_outbox new =>
      rcases Table.of_mem_insert hrow with hrow | rfl
      · exact hc row hrow hid
      · simp [h.inserted p row hwr]
  | publish_outbox id published_at time =>
      obtain ⟨old, hold, hoid, _⟩ := h.pending p id (h.moved p _ hwr id rfl)
      obtain ⟨r, hr', rfl⟩ := (Table.mem_modify (Outbox.set_published_id published_at time)).mp hrow
      have hne : r.id ≠ id := by
        intro he
        rw [if_pos he] at hid
        exact hnew old hold (hoid.trans (he.symm.trans hid))
      rw [if_neg hne] at hid ⊢
      exact hc r hr' hid
  | bump_outbox id error next_attempt_at time =>
      obtain ⟨r, hr', rfl⟩ :=
        (Table.mem_modify (Outbox.set_attempt_id error next_attempt_at time)).mp hrow
      by_cases he : r.id = id
      · rw [if_pos he] at hid ⊢
        exact hc r hr' hid
      · rw [if_neg he] at hid ⊢
        exact hc r hr' hid

theorem commit_of_open (hb : w.store.aborted p = false) : w.commit p = { w with
    store := w.store.commit Write.writing p
    fetched := Function.update w.fetched p []
    log := { w.log with commits := w.log.commits ++ [(p, w.store.writes p)] } } := by
  unfold World.commit
  rw [if_neg (by simp [hb])]

theorem commit_publishes (hb : w.store.aborted p = false) :
    (w.commit p).log.publishes = w.log.publishes := by
  rw [commit_of_open hb]

theorem commit_rollbacks (hb : w.store.aborted p = false) :
    (w.commit p).log.rollbacks = w.log.rollbacks := by
  rw [commit_of_open hb]

theorem mem_commit_fetched (hb : w.store.aborted p = false) {q : Pid} {id : UUID} :
    id ∈ (w.commit p).fetched q ↔ q ≠ p ∧ id ∈ w.fetched q := by
  rw [commit_of_open hb]
  by_cases hq : q = p
  · simp [hq]
  · simp [hq]

theorem mem_commit_writes (ht : Tidy w) {q : Pid} {wr : Write}
    (h : wr ∈ (w.commit p).store.writes q) : q ≠ p ∧ wr ∈ w.store.writes q := by
  by_cases hq : q = p
  · subst hq
    simp at h
  · exact ⟨hq, (frame_commit hq ht.locked).writes ▸ h⟩

-- What another batch holds stays as it is.
theorem Handover.held_stays (h : Handover A w) (ht : Tidy w) (hrec : Recorded d A w)
    (hb : w.store.aborted p = false) {q : Pid} (hq : q ≠ p)
    (hr : row ∈ w.store.contents.outbox.rows) (hid : row.id ∈ w.fetched q) :
    row ∈ (w.commit p).store.contents.outbox.rows := by
  have hfind := commit_row hb hr
  rw [h.untouched hrec hr fun hp => hq (fetched_unique ht hid hp)] at hfind
  exact Table.mem_of_find? hfind

-- What is handed over of a payment does not change with a commit.
theorem commit_counts (hb : w.store.aborted p = false) (id : UUID) :
    (w.commit p).copies id = w.copies id ∧ (w.commit p).losses id = w.losses id ∧
      ∀ q, (w.commit p).copies_of q id = w.copies_of q id :=
  ⟨copies_of_same (commit_publishes hb) id, losses_of_same (commit_rollbacks hb) id,
    fun q => copies_of_of_own (own_of_same (commit_publishes hb) q) id⟩

-- A row that was handed over and not marked is lost; a commit has none.
theorem Counted.commit (h : Counted w) (hover : Handover A w) (hrec : Recorded d A w)
    (he : w.store.contents.Evolves (w.commit p).store.contents)
    (hcons : (w.commit p).store.contents.Consistent) (hb : w.store.aborted p = false)
    (hclear : ∀ row ∈ w.store.contents.outbox.rows, row.id ∈ w.fetched p →
      w.copies_of p row.aggregate_id = 0 ∨ w.Marked p row.id) : Counted (w.commit p) where
  free row' hrow' hs hid := by
    obtain ⟨hcopies, _, _⟩ := commit_counts hb row'.aggregate_id
    rw [hcopies, (commit_counts hb row'.id).2.1]
    rcases committed_row hb hrow' with ⟨row, hrow, rfl⟩ | hnew
    · rw [changes_aggregate, changes_id]
      have hpending : row.status = .PENDING ∧ ¬w.Marked p row.id := by
        have hnot : (changes (w.store.writes p) row).status ≠ .PUBLISHED := by simp [hs]
        rw [Ne, changes_status, not_or] at hnot
        obtain ⟨hrs, _⟩ | ⟨hrs, _⟩ := hrec.consistent.outbox row hrow
        · exact ⟨hrs, hnot.2⟩
        · exact absurd hrs hnot.1
      by_cases hheld : row.id ∈ w.fetched p
      · have hzero := (hclear row hrow hheld).resolve_right hpending.2
        have hle := h.held row hrow p hheld
        omega
      · refine h.free row hrow hpending.1 fun q hq => ?_
        by_cases hqp : q = p
        · exact hheld (hqp ▸ hq)
        · exact hid q ((mem_commit_fetched hb).mpr ⟨hqp, (changes_id _ row).symm ▸ hq⟩)
    · rw [hover.copies_new hrec he hcons hrow' hnew]
      exact Nat.zero_le _
  held row' hrow' q hid := by
    obtain ⟨hcopies, _, hcopies_of⟩ := commit_counts hb row'.aggregate_id
    rw [hcopies, hcopies_of, (commit_counts hb row'.id).2.1]
    obtain ⟨hq, hid⟩ := (mem_commit_fetched hb).mp hid
    rcases committed_row hb hrow' with ⟨row, hrow, rfl⟩ | hnew
    · rw [changes_id] at hid
      rw [changes_aggregate, changes_id]
      exact h.held row hrow q hid
    · have hzero := hover.copies_new hrec he hcons hrow' hnew
      have hle := w.copies_of_le q row'.aggregate_id
      omega
  published row' hrow' hs := by
    rw [(commit_counts hb row'.aggregate_id).1, (commit_counts hb row'.id).2.1]
    rcases committed_row hb hrow' with ⟨row, hrow, rfl⟩ | hnew
    · rw [changes_aggregate, changes_id]
      rcases (changes_status _ row).mp hs with hs | ⟨published_at, time, hwr⟩
      · exact h.published row hrow hs
      · have hle := h.held row hrow p (hover.moved p _ hwr row.id rfl)
        omega
    · rw [hover.copies_new hrec he hcons hrow' hnew]
      exact Nat.zero_le _

theorem Handover.commit (h : Handover A w) (ht : Tidy w) (hrec : Recorded d A w)
    (he : w.store.contents.Evolves (w.commit p).store.contents)
    (hcons : (w.commit p).store.contents.Consistent) (hb : w.store.aborted p = false)
    (hcleared : Cleared A p w) : Handover A (w.commit p) where
  pending q id hid := by
    obtain ⟨hq, hid⟩ := (mem_commit_fetched hb).mp hid
    obtain ⟨row, hrow, rfl, hs⟩ := h.pending q id hid
    exact ⟨row, h.held_stays ht hrec hb hq hrow hid, rfl, hs⟩
  moved q wr hwr id hmoves := by
    obtain ⟨hq, hwr⟩ := mem_commit_writes ht hwr
    exact (mem_commit_fetched hb).mpr ⟨hq, h.moved q wr hwr id hmoves⟩
  inserted q row hwr := h.inserted q row (mem_commit_writes ht hwr).2
  marked := by
    rintro q id ⟨published_at, time, hwr⟩ row' hrow' hid
    obtain ⟨hq, hwr⟩ := mem_commit_writes ht hwr
    obtain ⟨row, hrow, hrid, _⟩ := h.pending q id (h.moved q _ hwr id rfl)
    have hrow₁ := h.held_stays ht hrec hb hq hrow (hrid ▸ h.moved q _ hwr id rfl)
    rw [(commit_counts hb _).2.2, Table.eq_of_key_eq hrow' hrow₁ (hid.trans hrid.symm)]
    exact h.marked q id ⟨published_at, time, hwr⟩ row hrow hrid
  sent row' hrow' hs := by
    rw [(commit_counts hb _).1]
    rcases committed_row hb hrow' with ⟨row, hrow, rfl⟩ | hnew
    · rw [changes_aggregate]
      rcases (changes_status _ row).mp hs with hs | hm
      · exact h.sent row hrow hs
      · exact lt_of_lt_of_le (h.marked p row.id hm row hrow rfl) (w.copies_of_le p _)
    · exact absurd hs (h.pending_new hrow' hnew)
  announced m hm hx := by
    rw [commit_publishes hb] at hm
    obtain ⟨row, hrow, hkey, hmsg⟩ := h.announced m hm hx
    obtain ⟨row', hrow', hsame, _⟩ := he.outbox row hrow
    refine ⟨row', hrow', hkey.trans (congrArg Outbox.routing_key hsame :).symm, ?_⟩
    have hpayload : row'.payload = row.payload := (congrArg Outbox.payload hsame :)
    rw [hmsg, hpayload]
  fresh q hq := by
    rw [commit_jobs] at hq
    obtain ⟨hfq, ho⟩ := h.fresh q hq
    rw [own_of_same (commit_publishes hb)]
    refine ⟨List.eq_nil_iff_forall_not_mem.mpr fun id hid => ?_, ho⟩
    have hmem := ((mem_commit_fetched hb).mp hid).2
    rw [hfq] at hmem
    cases hmem
  counted hA := (h.counted hA).commit h hrec he hcons hb ((hcleared hA).resolve_left (by simp [hb]))

end Steps

end PaymentsProcessor
