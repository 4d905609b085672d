import PaymentsProcessor.System.Records

namespace PaymentsProcessor

open Python Storage Concurrency PaymentsConstants

section Request

variable {d : Deployment} {A : Assumption Pid World Effect Answer} {p : Pid} {r : CreateRequest}

-- The process answers this request.
def Serves (p : Pid) (r : CreateRequest) (w : World) : Prop := w.jobs p = some (.request r)

-- It has made these writes and no others.
def Wrote (p : Pid) (r : CreateRequest) (writes : List Write) (w : World) : Prop :=
  Serves p r w ∧ w.store.writes p = writes

-- How a part of a program ends: as it should, or with an exception of a known kind.
def Ends {α : Type} (E : Exn → World → Prop) (R : α → World → Prop) :
    Except Exn α → World → Prop
  | .ok a, w => R a w
  | .error x, w => E x w

-- Something has failed that is not the request's business.
def Broken (p : Pid) (r : CreateRequest) (_ : Exn) (w : World) : Prop :=
  Serves p r w ∧ p ∈ w.log.failures

-- The unique index has refused the key, rightly or not.
def Duplicate (d : Deployment) (A : Assumption Pid World Effect Answer) (p : Pid)
    (r : CreateRequest) (x : Exn) (w : World) : Prop :=
  Serves p r w ∧ (p ∈ w.log.failures ∨
    x = .IntegrityError (some ⟨.UniqueViolationError, some Payment.UQ_PAYMENT_IDEMPOTENCY_KEY⟩) ∧
      Excused d A p r True w)

-- The request may be refused with this exception, and if nothing has failed it
-- is one that gets a response.
def Refusal (d : Deployment) (A : Assumption Pid World Effect Answer) (p : Pid)
    (r : CreateRequest) (x : Exn) (w : World) : Prop :=
  Serves p r w ∧ (p ∈ w.log.failures ∨ x.isinstance .Exception) ∧
    Excused d A p r (x = .IdempotencyKeyConflictError r.idempotency_key) w

theorem serves_of_jobs {w w' : World} (hj : w'.jobs = w.jobs) (h : Serves p r w) :
    Serves p r w' := by
  unfold Serves
  rw [hj]
  exact h

theorem Frame.serves {w w' : World} (hf : Frame p w w') (h : Serves p r w) : Serves p r w' := by
  unfold Serves
  rw [hf.job]
  exact h

theorem stable_wrote {writes : List Write} :
    (frameLogic.inf (records d A)).Stable p (Wrote p r writes) :=
  fun _ _ hr hw => ⟨hr.1.serves hw.1, hr.1.writes.trans hw.2⟩

theorem Quiet.serves {w w' : World} (hq : Quiet p w w') (h : Serves p r w) : Serves p r w' := by
  unfold Serves
  rw [hq.job]
  exact h

theorem records_guarantee {w w' : World} (hg : frameLogic.Guarantee p w w')
    (hc : w.store.contents.Evolves w'.store.contents) : (records d A).Guarantee p w w' :=
  fun pid hne => records_rely (hg pid hne) hc

theorem guarantee_of_same {w w' : World} (hg : frameLogic.Guarantee p w w')
    (hc : w'.store.contents = w.store.contents) : (records d A).Guarantee p w w' :=
  records_guarantee hg (evolves_of_same hc)

theorem quiet_step {e : Effect} (he : e.quiet) {a : Answer} {result : Except Exn e.Result}
    {w w' : World} (hi : (frameLogic.inf (records d A)).inv w)
    (h : World.perform d p e a w = some (result, w')) (hg : frameLogic.Guarantee p w w') :
    (records d A).inv w' ∧ (records d A).Guarantee p w w' := by
  have hq := quiet_perform he h
  exact ⟨hi.2.quiet hi.1 hg hq, guarantee_of_same hg hq.contents⟩

theorem Broken.duplicate {x : Exn} {w : World} (h : Broken p r x w) : Duplicate d A p r x w :=
  ⟨h.1, .inl h.2⟩

theorem Broken.refusal {x : Exn} {w : World} (h : Broken p r x w) : Refusal d A p r x w :=
  ⟨h.1, .inl h.2, .inl h.2⟩

theorem mem_failures_fail {w : World} : p ∈ (w.fail p).log.failures := by
  simp

-- A call that does nothing keeps what the request knows.
theorem idle_spec {e : Effect} (he : e.idle) {P : World → Prop} (hP : ∀ w, P w → Serves p r w) :
    CallSpec (machine d) A frameLogic (records d A) p P e (Ends (Broken p r) fun _ => P) := by
  intro w a result w' hi hw _ hp _ hg
  have hq : e.quiet := by cases e <;> first | rfl | cases he
  obtain ⟨hn, hng⟩ := quiet_step hq hi hp hg
  refine ⟨hn, hng, ?_⟩
  obtain ⟨⟨x, rfl⟩, rfl⟩ | ⟨⟨x, rfl⟩, rfl⟩ := perform_idle he hp
  · exact hw
  · exact ⟨hP w hw, mem_failures_fail⟩

abbrev RequestTriple (d : Deployment) (A : Assumption Pid World Effect Answer) (p : Pid)
    {α : Type} (E : Exn → World → Prop) (P : World → Prop) (prog : Async α)
    (R : α → World → Prop) : Prop :=
  Triple (machine d) A frameLogic (records d A) p P prog (Ends E R)

section Rules

variable {α β : Type} {E E' : Exn → World → Prop} {P : World → Prop} {prog : Async α}
variable {R : α → World → Prop} {S : β → World → Prop}

theorem RequestTriple.bind {f : α → Async β} (hp : RequestTriple d A p E P prog R)
    (hf : ∀ a, RequestTriple d A p E (R a) (f a) S) :
    RequestTriple d A p E P (prog.bind f) S :=
  Triple.bind hp hf fun _ _ _ h => h

theorem RequestTriple.weaken (h : RequestTriple d A p E P prog R)
    (hE : ∀ x w, E x w → E' x w) : RequestTriple d A p E' P prog R :=
  Triple.post h fun result w hw => by
    cases result with
    | ok a => exact hw
    | error x => exact hE x w hw

theorem idle_triple {e : Effect} (he : e.idle)
    (hs : (frameLogic.inf (records d A)).Stable p P) (hP : ∀ w, P w → Serves p r w) :
    RequestTriple d A p (Broken p r) P (Prog.perform e) fun _ => P :=
  Triple.perform hs (idle_spec he hP)

end Rules

theorem lookup_spec {host : String} {port : Option ℕ} :
    CallSpec (machine d) A frameLogic (records d A) p (Wrote p r []) (.getaddrinfo host port)
      (Ends (Broken p r) fun infos w => Wrote p r [] w ∧ (p, infos) ∈ w.log.lookups) := by
  intro w a result w' hi hw _ hp _ hg
  obtain ⟨hn, hng⟩ := quiet_step rfl hi hp hg
  refine ⟨hn, hng, ?_⟩
  obtain ⟨infos, rfl, rfl⟩ | ⟨x, rfl, rfl | ⟨infos, rfl⟩⟩ := perform_getaddrinfo hp
  · exact ⟨hw, by simp⟩
  · exact ⟨hw.1, mem_failures_fail⟩
  · exact ⟨hw.1, mem_failures_fail⟩

-- Where the guard is not satisfied, or something has failed, the request ends
-- with an exception that is no conflict.
theorem Refusal.of_guard {x : Exn} {w : World} (hs : Serves p r w) (hx : x.isinstance .Exception)
    (hg : ¬GuardAccepts d w p r.payload.webhook_url) : Refusal d A p r x w :=
  ⟨hs, .inr hx, .inr (.inl hg)⟩

theorem resolve_triple {url : String} {parsed : ParsedUrl} {host : String}
    (hparse : d.container.ssrf_guard.parse_host r.payload.webhook_url = .ok (parsed, host))
    (hprivate : d.container.ssrf_guard.allow_private_hosts = false) :
    RequestTriple d A p (Refusal d A p r) (Wrote p r []) (SSRFGuard.resolve url parsed host)
      fun infos w => Wrote p r [] w ∧ (p, infos) ∈ w.log.lookups := by
  unfold SSRFGuard.resolve
  cases hport : parsed.port with
  | error e =>
      have hguard : ∀ w, ¬GuardAccepts d w p r.payload.webhook_url := by
        rintro w ⟨parsed', host', hparse', hc⟩
        rw [hparse] at hparse'
        cases hparse'
        rcases hc with hc | ⟨⟨port, hc⟩, _⟩
        · rw [hprivate] at hc
          cases hc
        · rw [hport] at hc
          cases hc
      -- the port is read inside the `try`, but its exception is no `OSError`
      refine Triple.tryCatch (R := Ends (fun x w => x.isinstance .Exception ∧ Serves p r w)
        fun _ _ => False) ?_ (fun _ _ _ hf => hf.elim) fun x => ?_
      · exact Triple.ret (r := .error (Exn.python e)) fun w _ hw => ⟨python_isinstance e, hw.1⟩
      · refine Triple.ite (fun _ => ?_) fun _ => ?_
        · exact Triple.ret fun w _ hw => .of_guard hw.2 rfl (hguard w)
        · exact Triple.ret fun w _ hw => .of_guard hw.2 hw.1 (hguard w)
  | ok port =>
      refine Triple.tryCatch (R := Ends (Broken p r)
        fun infos w => Wrote p r [] w ∧ (p, infos) ∈ w.log.lookups)
        (Triple.perform stable_wrote lookup_spec) (fun infos w _ hw => hw) fun x => ?_
      refine Triple.ite (fun _ => ?_) fun _ => ?_
      · exact Triple.ret fun w _ hw => Broken.refusal hw
      · exact Triple.ret fun w _ hw => Broken.refusal hw

theorem validate_url_triple :
    RequestTriple d A p (Refusal d A p r) (Wrote p r [])
      (d.container.ssrf_guard.validate_url r.payload.webhook_url) fun _ => Wrote p r [] := by
  unfold SSRFGuard.validate_url
  cases hparse : d.container.ssrf_guard.parse_host r.payload.webhook_url with
  | error x =>
      refine Triple.ret fun w _ hw => .of_guard hw.1 (SSRFGuard.parse_host_error hparse) ?_
      rintro ⟨parsed, host, h, _⟩
      rw [hparse] at h
      cases h
  | ok parsed_host =>
      obtain ⟨parsed, host⟩ := parsed_host
      refine Triple.ite (fun _ => ?_) fun hprivate => ?_
      · exact Triple.ret fun _ _ hw => hw
      · simp only [Bool.not_eq_true] at hprivate
        refine (resolve_triple hparse hprivate).bind fun infos => ?_
        refine Triple.ret fun w _ hw => ?_
        cases hcheck : SSRFGuard.check_infos r.payload.webhook_url infos with
        | ok u => exact hw.1
        | error x =>
            refine .of_guard hw.1.1 (SSRFGuard.check_infos_error hcheck) ?_
            rintro ⟨parsed', host', h, hc⟩
            rcases hc with hc | ⟨_, hall⟩
            · rw [hprivate] at hc
              cases hc
            · rw [hall infos hw.2] at hcheck
              cases hcheck

-- A committed payment, as it was created.
def Known (q : Payment) (w : World) : Prop :=
  ∃ q' ∈ w.store.contents.payments.rows, q'.as_created = q.as_created

theorem Known.evolves {q : Payment} {w w' : World}
    (h : w.store.contents.Evolves w'.store.contents) (hq : Known q w) : Known q w' := by
  obtain ⟨q', hq', he⟩ := hq
  obtain ⟨q'', hq'', he'⟩ := h.payments q' hq'
  exact ⟨q'', hq'', he'.trans he⟩

theorem get_by_key_spec :
    CallSpec (machine d) A frameLogic (records d A) p (Wrote p r [])
      (.execute (.get_by_idempotency_key r.idempotency_key))
      (Ends (Broken p r) fun rows w => Wrote p r [] w ∧
        (rows = [] ∨ ∃ q, rows = [q] ∧ Known q w ∧ q.idempotency_key = r.idempotency_key)) := by
  intro w a result w' hi hw _ hp _ hg
  obtain ⟨hn, hc, hj⟩ := hi.2.execute hi.1 hg hp fun _ _ _ _ _ _ hv => by
    cases hv
    simp
  refine ⟨hn, guarantee_of_same hg hc, ?_⟩
  obtain ⟨time, ids, res, locks, writes, _, hv, rfl, rfl⟩ | ⟨_, _, error, _, _, hv, _, _⟩ |
    ⟨x, w₁, rfl, ha, rfl⟩ := perform_execute hp
  · cases hv
    have hsame : w.take p [] [] = w := by simp [World.take]
    have hvisible := visible_of_nil hw.2
    simp only [World.fetches, fetch_nil, hsame, Ends, hvisible]
    refine ⟨hw, ?_⟩
    obtain hk | ⟨q, hq, hqk, hk⟩ := hi.2.consistent.with_key r.idempotency_key
    · exact .inl hk
    · exact .inr ⟨q, hk, ⟨q, hq, rfl⟩, hqk⟩
  · cases hv
  · exact ⟨serves_of_jobs hj hw.1, mem_failures_fail⟩

-- The row that the request inserts under this id.
def CreateRequest.values (r : CreateRequest) (id : UUID) : PaymentValues where
  id := id
  amount := r.payload.amount
  currency := r.payload.currency
  description := r.payload.description
  meta_ := r.payload.meta_
  status := .PENDING
  idempotency_key := r.idempotency_key
  webhook_url := r.payload.webhook_url

theorem values_row {id : UUID} {time : DateTime} {amount : Amount}
    (h : Numeric.store AMOUNT_MAX_DIGITS r.payload.amount.toRat = some amount) :
    0 < amount.units ∧ r.Inserts ((r.values id).row time amount) := by
  obtain ⟨units, hpos, he, hs⟩ := r.payload.store_amount
  rw [h] at hs
  cases hs
  exact ⟨hpos, ⟨he, rfl, rfl⟩, rfl, rfl, rfl⟩

-- The unique index refuses a row because of one that is committed.
theorem insert_payment_spec {id : UUID} :
    CallSpec (machine d) A frameLogic (records d A) p (Wrote p r [])
      (.execute (.insert_payment (r.values id)))
      (Ends (Duplicate d A p r) fun q w => r.Inserts q ∧ Wrote p r [.insert_payment q] w) := by
  intro w a result w' hi hw hA hp _ hg
  have hvisible := visible_of_nil hw.2
  obtain ⟨hn, hc, hj⟩ := hi.2.execute hi.1 hg hp fun time ids q locks writes _ hv => by
    obtain ⟨amount, hs, hpos, rfl, _, _, hid, hk, _, rfl⟩ := insert_payment_succeeds hv
    rw [hvisible] at hid hk
    simp only [List.mem_singleton, forall_eq]
    exact ⟨⟨by simp [PaymentValues.row, CreateRequest.values], hpos⟩, hid,
      with_key_eq_nil_iff.mp hk, r, hw.1, (values_row hs).2⟩
  refine ⟨hn, guarantee_of_same hg hc, ?_⟩
  obtain ⟨time, ids, q, locks, writes, _, hv, rfl, rfl⟩ | ⟨time, ids, error, rfl, _, hv, rfl, rfl⟩ |
    ⟨x, w₁, rfl, ha, rfl⟩ := perform_execute hp
  · obtain ⟨amount, hs, _, rfl, _, _, _, _, rfl, rfl⟩ := insert_payment_succeeds hv
    refine ⟨(values_row hs).2, serves_of_jobs hj hw.1, ?_⟩
    rw [World.fetch_store, World.take_store, LockStore.take_writes_self, hw.2]
    rfl
  · refine ⟨hw.1, .inr ?_⟩
    obtain ⟨amount, hs, hneg⟩ | ⟨rfl, _, hk⟩ := insert_payment_refuses hv
    · exact absurd (@values_row _ id 0 _ hs).1 (by omega)
    · refine ⟨rfl, .inr (.inr ⟨trivial, fun hreal => ?_⟩)⟩
      rw [hvisible, Ne, with_key_eq_nil_iff, Bool.not_eq_false] at hk
      obtain ⟨q, hq, hqk⟩ := has_key_iff.mp hk
      exact ⟨q, hq, hqk, fun ha => hreal p _ time ids w hA q hq hqk ⟨ha.amount, ha.currency,
        ha.webhook_url⟩⟩
  · exact ⟨serves_of_jobs hj hw.1, .inl mem_failures_fail⟩

-- The transaction has both of its rows, and would be committed.
def Ready (p : Pid) (r : CreateRequest) (q : Payment) (w : World) : Prop :=
  ∃ row, Wrote p r [.insert_payment q, .insert_outbox row] w ∧ w.store.aborted p = false ∧
    r.Inserts q ∧ row.Announces q

theorem Ready.serves {q : Payment} {w : World} (h : Ready p r q w) : Serves p r w := by
  obtain ⟨row, hw, _⟩ := h
  exact hw.1

theorem stable_ready {q : Payment} : (frameLogic.inf (records d A)).Stable p (Ready p r q) := by
  rintro w w' hr ⟨row, hw, ha, hi, hrow⟩
  exact ⟨row, stable_wrote w w' hr hw, hr.1.aborted.trans ha, hi, hrow⟩

-- The row that announces the payment under this id.
def announcement (id payment_id : UUID) : OutboxValues where
  id := id
  aggregate_type := PAYMENT_AGGREGATE_TYPE
  aggregate_id := payment_id
  event_type := PAYMENT_CREATED_EVENT_TYPE
  routing_key := PAYMENT_CREATED_ROUTING_KEY
  payload := event_payload payment_id
  status := .PENDING
  attempts := 0

theorem insert_outbox_spec {id : UUID} {q : Payment} (hq : r.Inserts q) :
    CallSpec (machine d) A frameLogic (records d A) p (Wrote p r [.insert_payment q])
      (.execute (.insert_outbox (announcement id q.id)))
      (Ends (Broken p r) fun _ => Ready p r q) := by
  intro w a result w' hi hw _ hp _ hg
  have hvisible : (w.store.visible p).outbox = w.store.contents.outbox := by
    simp [Store.visible, LockStore.view, LockStore.applyAll, hw.2, Write.writing, Write.apply]
  obtain ⟨hn, hc, hj⟩ := hi.2.execute hi.1 hg hp fun time ids row locks writes _ hv => by
    obtain ⟨rfl, _, hid, _, rfl⟩ := insert_outbox_succeeds hv
    rw [hvisible] at hid
    simp only [List.mem_singleton, forall_eq]
    exact ⟨.inl ⟨rfl, rfl⟩, hid⟩
  refine ⟨hn, guarantee_of_same hg hc, ?_⟩
  obtain ⟨time, ids, row, locks, writes, ha, hv, rfl, rfl⟩ | ⟨_, _, error, _, _, hv, rfl, rfl⟩ |
    ⟨x, w₁, rfl, ha, rfl⟩ := perform_execute hp
  · obtain ⟨rfl, _, _, rfl, rfl⟩ := insert_outbox_succeeds hv
    refine ⟨(announcement id q.id).row time, ⟨serves_of_jobs hj hw.1, ?_⟩, ha, hq,
      ⟨rfl, rfl, rfl, rfl⟩⟩
    rw [World.fetch_store, World.take_store, LockStore.take_writes_self, hw.2]
    rfl
  · simp only [Statement.verdict, insert_outbox_verdict] at hv
    repeat' split at hv
    all_goals cases hv
  · exact ⟨serves_of_jobs hj hw.1, mem_failures_fail⟩

-- What the commit of a ready transaction makes of the tables.
theorem Ready.commit {q : Payment} {w : World} (h : Ready p r q w) (hi : Recorded d A w) :
    w.store.contents.Evolves (w.commit p).store.contents ∧ (w.commit p).store.contents.Consistent ∧
      (∀ q' ∈ (w.commit p).store.contents.payments.rows,
        q' ∈ w.store.contents.payments.rows ∨ q' = q) ∧
      q ∈ (w.commit p).store.contents.payments.rows := by
  obtain ⟨row, hw, ha, hins, hann⟩ := h
  have hmem : ∀ wr ∈ [Write.insert_payment q, .insert_outbox row], Pending w p wr :=
    fun wr hwr => hi.pending p wr (hw.2 ▸ hwr)
  obtain ⟨hqw, hqid, hqk, _⟩ := hmem (.insert_payment q) (by simp)
  obtain ⟨hrw, hrid⟩ := hmem (.insert_outbox row) (by simp)
  have hc : (w.commit p).store.contents = w.store.contents.with_payment q row := by
    rw [commit_contents, LockStore.commit_contents, ha, LockStore.view, hw.2]
    rfl
  rw [hc]
  exact ⟨evolves_with_payment hqid hrid,
    hi.consistent.with_payment hqid hrid hqk hqw hrw hann,
    fun q' hq' => (mem_with_payment hqid).mp hq', (mem_with_payment hqid).mpr (.inr rfl)⟩

theorem commit_spec {q : Payment} :
    CallSpec (machine d) A frameLogic (records d A) p (Ready p r q) .commit
      (Ends (Broken p r) fun _ w => Settled r q.id w ∧ Serves p r w) := by
  intro w a result w' hi hw _ hp _ hg
  obtain ⟨hevolves, hcons, hrows, hq⟩ := hw.commit hi.2
  have hins : r.Inserts q := by
    obtain ⟨row, _, _, hins, _⟩ := hw
    exact hins
  have main : ∀ w₁ : World, (∀ pid, pid ≠ p → Frame pid w w₁) →
      w₁.store = (w.commit p).store → w₁.jobs = w.jobs →
      w₁.log.responses = w.log.responses → Recorded d A w₁ := by
    intro w₁ hf hs hj hr
    refine hi.2.step hi.1 hf (hs ▸ hevolves) (hs ▸ hcons) ?_ ?_ ?_
    · rw [hs]
      intro q' hq'
      rcases hrows q' hq' with hq' | rfl
      · exact hi.2.origin_started hf hq'
      · exact ⟨p, r, serves_of_jobs hj hw.serves, hins⟩
    · rw [hs, commit_writes_self]
      simp
    · rw [hr]
      exact fun x hx => .inl hx
  obtain ⟨rfl, rfl⟩ | ⟨x, rfl, rfl | rfl⟩ := perform_commit hp
  · refine ⟨main _ hg rfl commit_jobs commit_responses, records_guarantee hg hevolves, ?_⟩
    exact ⟨⟨q, hq, rfl, hins.idempotency_key, hins.toAgrees⟩, serves_of_jobs commit_jobs hw.serves⟩
  · refine ⟨hi.2.quiet hi.1 hg ⟨rfl, fun _ h => h, rfl, rfl⟩, guarantee_of_same hg rfl, hw.serves,
      mem_failures_fail⟩
  · exact ⟨main _ hg rfl commit_jobs commit_responses, records_guarantee hg hevolves,
      serves_of_jobs commit_jobs hw.serves, mem_failures_fail⟩

theorem respond_spec {response : Response} :
    CallSpec (machine d) A frameLogic (records d A) p
      (fun w => Serves p r w ∧ Answered d A p r w response) (.respond response)
      fun _ => Responded p := by
  intro w a result w' hi hw _ hp _ hg
  have main : ∀ w₁ : World, (∀ pid, pid ≠ p → Frame pid w w₁) → w₁.store = w.store →
      w₁.jobs = w.jobs → (∀ x ∈ w₁.log.responses, x ∈ w.log.responses ∨ x = (p, response)) →
        (p ∈ w₁.log.failures ∨ (p, response) ∈ w₁.log.responses) →
          Recorded d A w₁ ∧ (records d A).Guarantee p w w₁ ∧ Responded p w₁ := by
    intro w₁ hf hs hj hr hdone
    have hc : w₁.store.contents = w.store.contents := by rw [hs]
    have hevolves : w.store.contents.Evolves w₁.store.contents := hc ▸ .refl _
    refine ⟨?_, guarantee_of_same hf hc, fun _ _ => hdone.imp_right fun h => ⟨response, h⟩⟩
    refine hi.2.step hi.1 hf hevolves (hc ▸ hi.2.consistent) ?_ ?_ ?_
    · rw [hc]
      exact fun q hq => hi.2.origin_started hf hq
    · rw [hs]
      exact fun wr hwr => (hi.2.pending p wr hwr).of_same hc (congrFun hj p)
    · intro x hx
      refine (hr x hx).imp_right ?_
      rintro rfl
      exact ⟨r, serves_of_jobs hj hw.1, hw.2.evolves (Frame.all_log hf) hevolves⟩
  obtain rfl | rfl | rfl := perform_respond hp
  · exact main _ hg rfl rfl (by simp) (by simp)
  · exact main _ hg rfl rfl (fun _ hx => .inl hx) (by simp)
  · exact main _ hg rfl rfl (by simp) (by simp)

theorem get_by_key_triple :
    RequestTriple d A p (Broken p r) (Wrote p r [])
      (PaymentRepository.get_by_idempotency_key r.idempotency_key) fun existing w =>
        Wrote p r [] w ∧ ∀ q, existing = some q → Known q w ∧
          q.idempotency_key = r.idempotency_key := by
  unfold PaymentRepository.get_by_idempotency_key
  refine RequestTriple.bind (Triple.perform stable_wrote get_by_key_spec) fun rows => ?_
  rintro w hi ⟨hw, rfl | ⟨q, rfl, hk, hqk⟩⟩
  · exact wp_ret ⟨hw, by simp⟩
  · exact wp_ret ⟨hw, by simpa using ⟨hk, hqk⟩⟩

-- The lookup's own detector of a reused key.
theorem match_triple {q : Payment} (hqk : q.idempotency_key = r.idempotency_key) :
    RequestTriple d A p (Refusal d A p r) (fun w => Wrote p r [] w ∧ Known q w)
      (Prog.ofExcept (PaymentService._ensure_idempotent_match q r.payload.amount
        r.payload.currency r.payload.webhook_url r.idempotency_key))
      fun _ w => Settled r q.id w ∧ Serves p r w := by
  refine Triple.ret ?_
  rintro w _ ⟨hw, q', hq', he⟩
  have hk' : q'.idempotency_key = r.idempotency_key :=
    Eq.trans (congrArg Payment.idempotency_key he :) hqk
  unfold PaymentService._ensure_idempotent_match
  by_cases ha : r.Agrees q
  · rw [if_neg (by simpa using conflicting_eq_nil_iff.mpr ha)]
    exact ⟨⟨q', hq', as_created_id he, hk', (CreateRequest.Agrees.of_same he).mpr ha⟩, hw.1⟩
  · rw [if_pos (by simpa using mt conflicting_eq_nil_iff.mp ha)]
    exact ⟨hw.1, .inr rfl, .inr (.inr ⟨rfl, fun _ =>
      ⟨q', hq', hk', mt (CreateRequest.Agrees.of_same he).mp ha⟩⟩)⟩

theorem insert_rows_triple :
    RequestTriple d A p (Duplicate d A p r) (Wrote p r [])
      (PaymentService.insert_payment r.payload.amount r.payload.currency r.payload.description
        r.payload.meta_ r.idempotency_key r.payload.webhook_url) fun q => Ready p r q := by
  unfold PaymentService.insert_payment PaymentRepository.create_payment OutboxRepository.enqueue
  have broken : ∀ x w, Broken p r x w → Duplicate d A p r x w := fun _ _ h => h.duplicate
  refine RequestTriple.bind (RequestTriple.bind
    ((idle_triple rfl stable_wrote fun _ hw => hw.1).weaken broken) fun id =>
      Triple.perform stable_wrote insert_payment_spec) fun q => ?_
  refine Triple.and_pure fun hins => RequestTriple.bind (RequestTriple.bind
    ((idle_triple rfl stable_wrote fun _ hw => hw.1).weaken broken) fun id =>
      RequestTriple.weaken (Triple.perform stable_wrote (insert_outbox_spec hins)) broken)
    fun row => ?_
  exact RequestTriple.bind
    ((idle_triple rfl stable_ready fun _ hw => hw.serves).weaken broken) fun _ =>
      Triple.ret fun _ _ hw => hw

-- The insertion under the handler of integrity errors: the second detector.
theorem insert_triple :
    RequestTriple d A p (Refusal d A p r) (Wrote p r [])
      (handle_payment_integrity r.idempotency_key (PaymentService.insert_payment r.payload.amount
        r.payload.currency r.payload.description r.payload.meta_ r.idempotency_key
        r.payload.webhook_url)) fun q => Ready p r q := by
  unfold handle_payment_integrity
  refine Triple.tryCatch insert_rows_triple (fun q w _ hw => hw) fun x => ?_
  rintro w _ ⟨hs, hf | ⟨rfl, he⟩⟩
  · split
    · exact wp_ret (Broken.refusal ⟨hs, hf⟩)
    · exact wp_ret (Broken.refusal ⟨hs, hf⟩)
  · exact wp_ret ⟨hs, .inr rfl, he.imp_right fun he => he.imp_right fun he => ⟨rfl, he.2⟩⟩

-- The service hands over a payment, and whether it has still to be committed.
def Served (p : Pid) (r : CreateRequest) : Payment × Bool → World → Prop
  | (q, true), w => Ready p r q w
  | (q, false), w => Settled r q.id w ∧ Serves p r w

theorem create_payment_triple :
    RequestTriple d A p (Refusal d A p r) (Wrote p r [])
      (PaymentAction.create_payment d.container r.payload.amount r.payload.currency
        r.payload.description r.payload.meta_ r.idempotency_key r.payload.webhook_url)
      fun q w => Settled r q.id w ∧ Serves p r w := by
  have broken : ∀ x w, Broken p r x w → Refusal d A p r x w := fun _ _ h => h.refusal
  unfold PaymentAction.create_payment PaymentService.create_payment
  refine RequestTriple.bind (R := Served p r) ?_ fun result => ?_
  · refine RequestTriple.bind validate_url_triple fun _ => ?_
    refine RequestTriple.bind (get_by_key_triple.weaken broken) fun existing => ?_
    cases existing with
    | none =>
        refine Triple.pre ?_ fun w hw => hw.1
        exact RequestTriple.bind insert_triple fun q => Triple.ret fun _ _ hw => hw
    | some q =>
        intro w hi hw
        obtain ⟨hk, hqk⟩ := hw.2 q rfl
        refine RequestTriple.bind (match_triple hqk) (fun _ => ?_) w hi ⟨hw.1, hk⟩
        exact Triple.ret fun _ _ hw => hw
  · obtain ⟨q, is_new⟩ := result
    cases is_new with
    | false => exact Triple.ret fun _ _ hw => hw
    | true =>
        exact RequestTriple.bind
          (RequestTriple.weaken (Triple.perform stable_ready commit_spec) broken) fun _ =>
            Triple.ret fun _ _ hw => hw

theorem handle_triple :
    RequestTriple d A p (Refusal d A p r) (Wrote p r []) (r.handle d.container)
      fun q w => Settled r q.id w ∧ Serves p r w := by
  unfold CreateRequest.handle
  refine RequestTriple.bind (RequestTriple.weaken
    (idle_triple rfl stable_wrote fun _ hw => hw.1) fun _ _ h => h.refusal) fun _ => ?_
  exact create_payment_triple

theorem stable_refusal {x : Exn} :
    (frameLogic.inf (records d A)).Stable p (Refusal d A p r x) :=
  fun _ _ hr hw => ⟨hr.1.serves hw.1, hw.2.1.imp_left fun h => hr.1.log.failures h,
    hw.2.2.evolves hr.1.log hr.2.1⟩

-- Closing the session takes no reason away.
theorem close_refusal_spec {x : Exn} :
    CallSpec (machine d) A frameLogic (records d A) p (Refusal d A p r x) .close
      (Ends (Broken p r) fun _ => Refusal d A p r x) := by
  intro w a result w' hi hw _ hp _ hg
  obtain ⟨hn, hng⟩ := quiet_step rfl hi hp hg
  have hs := (quiet_perform rfl hp).serves hw.1
  refine ⟨hn, hng, ?_⟩
  obtain ⟨rfl, rfl⟩ | ⟨y, rfl, rfl | rfl⟩ := perform_close hp
  · exact ⟨hs, hw.2.1, hw.2.2.evolves (Frame.all_log hg) (.refl _)⟩
  · exact ⟨hs, mem_failures_fail⟩
  · exact ⟨hs, mem_failures_fail⟩

theorem close_triple :
    Triple (machine d) A frameLogic (records d A) p (Responded p) Async.close
      fun _ => Responded p := by
  refine Triple.perform (fun _ _ hr hw => hw.of_frame hr.1) ?_
  intro w a result w' hi hw _ hp _ hg
  obtain ⟨hn, hng⟩ := quiet_step rfl hi hp hg
  have hq := quiet_perform rfl hp
  refine ⟨hn, hng, fun r hj => ?_⟩
  rw [hq.job] at hj
  exact (hw r hj).imp (fun h => (Frame.all_log hg).failures h) fun ⟨response, h⟩ =>
    ⟨response, (Frame.all_log hg).responses h⟩

theorem stable_answered {response : Response} :
    (frameLogic.inf (records d A)).Stable p
      fun w => Serves p r w ∧ Answered d A p r w response :=
  fun _ _ hr hw => ⟨hr.1.serves hw.1, hw.2.evolves hr.1.log hr.2.1⟩

theorem respond_triple {response : Response} :
    Triple (machine d) A frameLogic (records d A) p
      (fun w => Serves p r w ∧ Answered d A p r w response) (Async.respond response)
      fun _ => Responded p :=
  Triple.perform stable_answered respond_spec

theorem handle_all_errors_error (x : Exn) :
    ∃ status content, handle_all_errors x = .error status content := by
  unfold handle_all_errors
  split <;> exact ⟨_, _, rfl⟩

theorem answered_error {x : Exn} {w : World} (h : Refusal d A p r x w) :
    Answered d A p r w (handle_all_errors x) := by
  obtain ⟨status, content, he⟩ := handle_all_errors_error x
  rw [he]
  refine h.2.2.imp_right fun h => h.imp_right fun h => ⟨?_, h.2⟩
  rw [← he, h.1]
  rfl

theorem create_payment_answers :
    Triple (machine d) A frameLogic (records d A) p (Wrote p r []) (create_payment d.container r)
      fun _ => Responded p := by
  unfold create_payment
  refine Triple.bind (R := Ends (fun _ _ => False) (Ends (Refusal d A p r)
    fun q w => Settled r q.id w ∧ Serves p r w)) (Triple.attempt handle_triple) ?_
    fun _ _ _ h => h.elim
  intro result
  cases result with
  | ok q =>
      refine Triple.andThen (R := fun _ => Responded p)
        (Triple.pre respond_triple fun w hw => ⟨hw.2, hw.1⟩) fun s => ?_
      exact close_triple.post fun s _ h => by cases s <;> exact h
  | error x =>
      refine Triple.tryCatch (R := Ends (Refusal d A p r) fun _ _ => False) ?_
        (fun _ _ _ h => h.elim) fun y => ?_
      · refine Triple.andThen (R := Ends (Refusal d A p r) fun _ _ => False)
          (Triple.ret fun _ _ hw => hw) fun s => ?_
        cases s with
        | ok u => exact fun w _ hw => hw.elim
        | error x =>
            refine (Triple.perform stable_refusal close_refusal_spec).post fun s w hw => ?_
            cases s with
            | ok u => exact hw
            | error y => exact Broken.refusal hw
      · refine Triple.ite (fun _ => ?_) fun hx => Triple.ret fun w _ hw r' hj => ?_
        · refine Triple.bind (R := fun _ => Responded p)
            (Triple.pre respond_triple fun w hw => ⟨hw.1, answered_error hw⟩)
            (fun _ => Triple.ret fun _ _ h => h) fun _ _ _ h => h
        · exact hw.2.1.imp_right fun h => absurd h hx

end Request

end PaymentsProcessor
