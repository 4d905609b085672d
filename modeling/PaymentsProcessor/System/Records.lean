import PaymentsProcessor.Database.Records
import PaymentsProcessor.System.Frame

namespace PaymentsProcessor

open Python Storage Concurrency PaymentsConstants

namespace CreateRequest

-- What an answer with an existing payment compares.
structure Agrees (r : CreateRequest) (p : Payment) : Prop where
  amount : p.amount.toRat = r.payload.amount.toRat
  currency : p.currency = r.payload.currency
  webhook_url : p.webhook_url = r.payload.webhook_url

-- A payment as the request has it inserted.
structure Inserts (r : CreateRequest) (p : Payment) : Prop extends r.Agrees p where
  idempotency_key : p.idempotency_key = r.idempotency_key
  description : p.description = r.payload.description
  meta_ : p.meta_ = r.payload.meta_

theorem Agrees.of_same {r : CreateRequest} {p p' : Payment} (h : p'.as_created = p.as_created) :
    r.Agrees p' ↔ r.Agrees p := by
  have ha : p'.amount = p.amount := (congrArg Payment.amount h :)
  have hc : p'.currency = p.currency := (congrArg Payment.currency h :)
  have hu : p'.webhook_url = p.webhook_url := (congrArg Payment.webhook_url h :)
  constructor <;> intro ⟨h₁, h₂, h₃⟩ <;> constructor <;> simp_all

theorem Inserts.of_same {r : CreateRequest} {p p' : Payment} (h : p'.as_created = p.as_created)
    (hi : r.Inserts p) : r.Inserts p' where
  __ := (Agrees.of_same h).mpr hi.toAgrees
  idempotency_key := Eq.trans (congrArg Payment.idempotency_key h :) hi.idempotency_key
  description := Eq.trans (congrArg Payment.description h :) hi.description
  meta_ := Eq.trans (congrArg Payment.meta_ h :) hi.meta_

end CreateRequest

theorem conflicting_eq_nil_iff {r : CreateRequest} {p : Payment} :
    PaymentService.conflicting p r.payload.amount r.payload.currency r.payload.webhook_url = [] ↔
      r.Agrees p := by
  constructor
  · intro h
    simp only [PaymentService.conflicting, List.append_eq_nil_iff, ite_eq_right_iff,
      List.cons_ne_nil, imp_false, not_not] at h
    exact ⟨h.1.1, h.1.2, h.2⟩
  · rintro ⟨ha, hc, hu⟩
    simp [PaymentService.conflicting, ha, hc, hu]

-- The guard has accepted every answer that the process got from the resolver.
def GuardAccepts (d : Deployment) (w : World) (pid : Pid) (url : String) : Prop :=
  ∃ parsed host, d.container.ssrf_guard.parse_host url = .ok (parsed, host) ∧
    (d.container.ssrf_guard.allow_private_hosts = true ∨ (∃ port, parsed.port = .ok port) ∧
      ∀ infos, (pid, infos) ∈ w.log.lookups → SSRFGuard.check_infos url infos = .ok ())

-- Whenever a payment is inserted, what is committed under its key differs from it.
def RealConflicts (A : Assumption Pid World Effect Answer) : Prop :=
  ∀ pid v time ids w, A pid (.execute (.insert_payment v)) (.reply (.executed time ids)) w →
    ∀ p ∈ w.store.contents.payments.rows, p.idempotency_key = v.idempotency_key →
      ¬(p.amount.toRat = v.amount.toRat ∧ p.currency = v.currency ∧ p.webhook_url = v.webhook_url)

-- What a write that is not committed yet is known to be.
def Pending (w : World) (pid : Pid) : Write → Prop
  | .insert_payment p =>
      p.WellFormed ∧ w.store.contents.payments.find? p.id = none ∧
        w.store.contents.has_key p.idempotency_key = false ∧
          ∃ r, w.jobs pid = some (.request r) ∧ r.Inserts p
  | .insert_outbox row => row.WellFormed ∧ w.store.contents.outbox.find? row.id = none
  | wr => wr.Progress

section Answers

variable (d : Deployment) (A : Assumption Pid World Effect Answer)

-- What may be behind an exception that a request ends with.
def Excused (pid : Pid) (r : CreateRequest) (conflict : Prop) (w : World) : Prop :=
  pid ∈ w.log.failures ∨ ¬GuardAccepts d w pid r.payload.webhook_url ∨
    conflict ∧ (RealConflicts A → ∃ p ∈ w.store.contents.payments.rows,
      p.idempotency_key = r.idempotency_key ∧ ¬r.Agrees p)

-- The committed payment that a request was answered with.
def Settled (r : CreateRequest) (id : UUID) (w : World) : Prop :=
  ∃ p ∈ w.store.contents.payments.rows, p.id = id ∧ p.idempotency_key = r.idempotency_key ∧
    r.Agrees p

-- The response to a reused key: 409.
def conflict_response (r : CreateRequest) : Response :=
  handle_all_errors (.IdempotencyKeyConflictError r.idempotency_key)

def Answered (pid : Pid) (r : CreateRequest) (w : World) : Response → Prop
  | .accepted id _ _ => Settled r id w
  | .error status content => Excused d A pid r (.error status content = conflict_response r) w

structure Recorded (w : World) : Prop where
  consistent : w.store.contents.Consistent
  origin : ∀ p ∈ w.store.contents.payments.rows,
    ∃ pid r, w.jobs pid = some (.request r) ∧ r.Inserts p
  pending : ∀ pid, ∀ wr ∈ w.store.writes pid, Pending w pid wr
  responses : ∀ x ∈ w.log.responses,
    ∃ r, w.jobs x.1 = some (.request r) ∧ Answered d A x.1 r w x.2

end Answers

-- A request that has met no failure has a response.
def Responded (pid : Pid) (w : World) : Prop :=
  ∀ r, w.jobs pid = some (.request r) →
    pid ∈ w.log.failures ∨ ∃ response, (pid, response) ∈ w.log.responses

section Stability

variable {d : Deployment} {A : Assumption Pid World Effect Answer} {pid : Pid} {w w' : World}
variable {r : CreateRequest}

theorem GuardAccepts.of_extends {url : String} (h : w.log.Extends w'.log)
    (hg : GuardAccepts d w' pid url) : GuardAccepts d w pid url := by
  obtain ⟨parsed, host, hp, hc⟩ := hg
  exact ⟨parsed, host, hp, hc.imp_right fun ⟨hport, hall⟩ =>
    ⟨hport, fun infos hi => hall infos (h.lookups hi)⟩⟩

variable (hl : w.log.Extends w'.log) (hc : w.store.contents.Evolves w'.store.contents)

include hc in
theorem Settled.evolves {id : UUID} (h : Settled r id w) : Settled r id w' := by
  obtain ⟨p, hp, hid, hk, ha⟩ := h
  obtain ⟨p', hp', he⟩ := hc.payments p hp
  exact ⟨p', hp', (as_created_id he).trans hid,
    Eq.trans (congrArg Payment.idempotency_key he :) hk, (CreateRequest.Agrees.of_same he).mpr ha⟩

include hl hc

theorem Excused.evolves {conflict : Prop} (h : Excused d A pid r conflict w) :
    Excused d A pid r conflict w' := by
  rcases h with h | h | ⟨h, hr⟩
  · exact .inl (hl.failures h)
  · exact .inr (.inl fun hg => h (hg.of_extends hl))
  · refine .inr (.inr ⟨h, fun hA => ?_⟩)
    obtain ⟨p, hp, hk, ha⟩ := hr hA
    obtain ⟨p', hp', he⟩ := hc.payments p hp
    exact ⟨p', hp', Eq.trans (congrArg Payment.idempotency_key he :) hk,
      fun h => ha ((CreateRequest.Agrees.of_same he).mp h)⟩

theorem Answered.evolves {response : Response} (h : Answered d A pid r w response) :
    Answered d A pid r w' response := by
  cases response with
  | accepted => exact Settled.evolves hc h
  | error => exact Excused.evolves hl hc h

end Stability

theorem Pending.of_frame {pid : Pid} {w w' : World} {wr : Write} (hf : Frame pid w w')
    (ho : ∀ k ∈ Write.writing.touches wr, w.store.owner k = some pid) (h : Pending w pid wr) :
    Pending w' pid wr := by
  cases wr with
  | insert_payment p =>
      obtain ⟨hw, hid, hk, r, hj, hi⟩ := h
      refine ⟨hw, ?_, ?_, r, hf.job ▸ hj, hi⟩
      · rw [hf.payment p.id (ho _ (by simp [Write.writing, Write.touches]))]
        exact hid
      · rw [hf.key p.idempotency_key (ho _ (by simp [Write.writing, Write.touches]))]
        exact hk
  | insert_outbox row =>
      obtain ⟨hw, hid⟩ := h
      refine ⟨hw, ?_⟩
      rw [hf.outbox row.id (ho _ (by simp [Write.writing, Write.touches]))]
      exact hid
  | update_payment | publish_outbox | bump_outbox => exact h

theorem Responded.of_frame {pid : Pid} {w w' : World} (hf : Frame pid w w')
    (h : Responded pid w) : Responded pid w' := by
  intro r hj
  rw [hf.job] at hj
  exact (h r hj).imp (fun h => hf.log.failures h) fun ⟨response, h⟩ =>
    ⟨response, hf.log.responses h⟩

def records (d : Deployment) (A : Assumption Pid World Effect Answer) : Logic Pid World where
  inv := Recorded d A
  rely pid w w' := w.store.contents.Evolves w'.store.contents ∧
    (Responded pid w → Responded pid w')
  done := Responded
  rely_refl _ _ := ⟨.refl _, id⟩
  rely_trans _ _ _ _ h h' := ⟨h.1.trans h'.1, fun hr => h'.2 (h.2 hr)⟩
  done_stable _ _ _ h := h.2

theorem records_rely {d : Deployment} {A : Assumption Pid World Effect Answer} {pid : Pid}
    {w w' : World} (hf : Frame pid w w') (hc : w.store.contents.Evolves w'.store.contents) :
    (records d A).rely pid w w' :=
  ⟨hc, fun h => h.of_frame hf⟩

theorem evolves_of_same {w w' : World} (hc : w'.store.contents = w.store.contents) :
    w.store.contents.Evolves w'.store.contents := hc ▸ .refl _

section Steps

variable {d : Deployment} {A : Assumption Pid World Effect Answer} {p : Pid} {w w' : World}

theorem Frame.all_log (h : ∀ pid, pid ≠ p → Frame pid w w') : w.log.Extends w'.log :=
  (h (p + 1) (Nat.succ_ne_self p)).log

theorem Frame.all_started (h : ∀ pid, pid ≠ p → Frame pid w w') :
    ∀ q j, w.jobs q = some j → w'.jobs q = some j :=
  (h (p + 1) (Nat.succ_ne_self p)).started

-- A step of `p` keeps the invariant if its own writes, the tables it leaves and
-- the responses it adds are in order.
theorem Recorded.step (h : Recorded d A w) (ht : Tidy w) (hf : ∀ pid, pid ≠ p → Frame pid w w')
    (hc : w.store.contents.Evolves w'.store.contents) (hcons : w'.store.contents.Consistent)
    (horigin : ∀ q ∈ w'.store.contents.payments.rows,
      ∃ pid r, w'.jobs pid = some (.request r) ∧ r.Inserts q)
    (hown : ∀ wr ∈ w'.store.writes p, Pending w' p wr)
    (hresp : ∀ x ∈ w'.log.responses, x ∈ w.log.responses ∨
      ∃ r, w'.jobs x.1 = some (.request r) ∧ Answered d A x.1 r w' x.2) : Recorded d A w' where
  consistent := hcons
  origin := horigin
  pending pid wr hwr := by
    by_cases hp : pid = p
    · subst hp
      exact hown wr hwr
    · rw [(hf pid hp).writes] at hwr
      exact (h.pending pid wr hwr).of_frame (hf pid hp) (ht.locked pid wr hwr)
  responses x hx := by
    rcases hresp x hx with hx | hx
    · obtain ⟨r, hj, ha⟩ := h.responses x hx
      exact ⟨r, Frame.all_started hf _ _ hj, ha.evolves (Frame.all_log hf) hc⟩
    · exact hx

theorem Recorded.origin_started (h : Recorded d A w) (hf : ∀ pid, pid ≠ p → Frame pid w w')
    {q : Payment} (hq : q ∈ w.store.contents.payments.rows) :
    ∃ pid r, w'.jobs pid = some (.request r) ∧ r.Inserts q := by
  obtain ⟨pid, r, hj, hi⟩ := h.origin q hq
  exact ⟨pid, r, Frame.all_started hf _ _ hj, hi⟩

-- A step that touches neither the tables nor the responses.
structure Quiet (p : Pid) (w w' : World) : Prop where
  contents : w'.store.contents = w.store.contents
  writes : w'.store.writes p ⊆ w.store.writes p
  job : w'.jobs p = w.jobs p
  responses : w'.log.responses = w.log.responses

theorem Quiet.refl (p : Pid) (w : World) : Quiet p w w := ⟨rfl, fun _ h => h, rfl, rfl⟩

theorem Quiet.trans {w'' : World} (h : Quiet p w w') (h' : Quiet p w' w'') : Quiet p w w'' :=
  ⟨h'.contents.trans h.contents, fun _ hx => h.writes (h'.writes hx), h'.job.trans h.job,
    h'.responses.trans h.responses⟩

theorem quiet_rollback : Quiet p w (w.rollback p) := ⟨rfl, by simp, rfl, rfl⟩

theorem quiet_requeue : Quiet p w (w.requeue p) := by
  unfold World.requeue
  split
  · exact .refl p w
  · exact ⟨rfl, fun _ h => h, rfl, rfl⟩

theorem quiet_refuse (requeue : Bool) (x_death : HeaderValue) :
    Quiet p w (w.refuse d p requeue x_death) := by
  unfold World.refuse
  split
  · exact quiet_requeue
  · split
    · exact .refl p w
    · exact ⟨rfl, fun _ h => h, rfl, rfl⟩

end Steps

-- The calls that write nothing to the tables and answer no request.
def Effect.quiet : Effect → Bool
  | .execute _ | .commit | .respond _ => false
  | _ => true

section Calls

variable {d : Deployment} {A : Assumption Pid World Effect Answer} {p : Pid} {w w' : World}

theorem quiet_perform {e : Effect} (he : e.quiet) {a : Answer} {result : Except Exn e.Result}
    (h : World.perform d p e a w = some (result, w')) : Quiet p w w' := by
  have failed : ∀ {w₁ : World}, Quiet p w w₁ → Quiet p w (w₁.fail p) := fun hq => { hq with }
  have same : ∀ {w₁ : World}, w₁.store = w.store → w₁.jobs = w.jobs →
      w₁.log.responses = w.log.responses → Quiet p w w₁ := by
    intro w₁ hs hj hr
    exact ⟨by rw [hs], by rw [hs]; exact fun _ h => h, by rw [hj], hr⟩
  cases e with
  | execute | commit | respond => cases he
  | container_get | flush | sleep | now | uuid7 | uniform | random =>
      obtain ⟨_, rfl⟩ | ⟨_, rfl⟩ := perform_idle rfl h
      · exact .refl p _
      · exact same rfl rfl rfl
  | close =>
      obtain ⟨_, rfl⟩ | ⟨x, _, rfl | rfl⟩ := perform_close h
      · exact quiet_rollback
      · exact same rfl rfl rfl
      · exact failed quiet_rollback
  | publish exchange routing_key payload headers =>
      obtain ⟨_, rfl⟩ | ⟨x, w₁, _, rfl | rfl, rfl⟩ := perform_publish h
      all_goals exact same rfl rfl rfl
  | ack =>
      obtain ⟨_, rfl⟩ | ⟨x, _, rfl | rfl⟩ := perform_ack h
      all_goals exact same rfl rfl rfl
  | nack requeue =>
      obtain rfl | ⟨x_death, rfl | rfl⟩ := perform_refuse (.inl rfl) h
      · exact same rfl rfl rfl
      · exact quiet_refuse requeue x_death
      · exact failed (quiet_refuse requeue x_death)
  | reject requeue =>
      obtain rfl | ⟨x_death, rfl | rfl⟩ := perform_refuse (.inr rfl) h
      · exact same rfl rfl rfl
      · exact quiet_refuse requeue x_death
      · exact failed (quiet_refuse requeue x_death)
  | getaddrinfo host port =>
      obtain ⟨infos, _, rfl⟩ | ⟨x, _, rfl | ⟨infos, rfl⟩⟩ := perform_getaddrinfo h
      all_goals exact same rfl rfl rfl
  | post request =>
      obtain ⟨peer, status_code, _, rfl⟩ | ⟨x, _, rfl | ⟨peer, status_code, rfl | rfl⟩⟩ :=
        perform_post h
      all_goals exact same rfl rfl rfl

theorem Pending.of_same {wr : Write} (hc : w'.store.contents = w.store.contents)
    (hj : w'.jobs p = w.jobs p) (h : Pending w p wr) : Pending w' p wr := by
  cases wr with
  | insert_payment | insert_outbox =>
      simp only [Pending, hc, hj] at h ⊢
      exact h
  | update_payment | publish_outbox | bump_outbox => exact h

-- A step that leaves the tables and the responses alone, and adds writes that are in order.
theorem Recorded.same_tables (h : Recorded d A w) (ht : Tidy w)
    (hf : ∀ pid, pid ≠ p → Frame pid w w') (hc : w'.store.contents = w.store.contents)
    (hj : w'.jobs p = w.jobs p)
    (hown : ∀ wr ∈ w'.store.writes p, wr ∈ w.store.writes p ∨ Pending w p wr)
    (hr : w'.log.responses = w.log.responses) : Recorded d A w' := by
  have hevolves : w.store.contents.Evolves w'.store.contents := hc ▸ .refl _
  refine h.step ht hf hevolves (hc ▸ h.consistent) ?_ ?_ ?_
  · rw [hc]
    exact fun q hq => h.origin_started hf hq
  · intro wr hwr
    refine Pending.of_same hc hj ?_
    exact (hown wr hwr).elim (h.pending p wr) id
  · intro x hx
    rw [hr] at hx
    exact .inl hx

theorem Recorded.quiet (h : Recorded d A w) (ht : Tidy w)
    (hf : ∀ pid, pid ≠ p → Frame pid w w') (hq : Quiet p w w') : Recorded d A w' :=
  h.same_tables ht hf hq.contents hq.job (fun _ hwr => .inl (hq.writes hwr)) hq.responses

theorem Attempted.facts {stmt : Statement} (h : Attempted p stmt w w') :
    w'.store.contents = w.store.contents ∧ w'.jobs = w.jobs ∧
      w'.log.responses = w.log.responses ∧ ∀ wr ∈ w'.store.writes p, wr ∈ w.store.writes p ∨
        ∃ time ids result locks writes, w.store.aborted p = false ∧
          stmt.verdict w.store p time ids = .succeeds result locks writes ∧ wr ∈ writes := by
  induction h with
  | untouched => exact ⟨rfl, rfl, rfl, fun _ hwr => .inl hwr⟩
  | aborted _ ih => exact ih
  | failed _ ih => exact ih
  | carried_out ha hv =>
      refine ⟨rfl, rfl, rfl, fun wr hwr => ?_⟩
      rw [World.take_store, LockStore.take_writes_self, List.mem_append] at hwr
      exact hwr.imp_right fun hwr => ⟨_, _, _, _, _, ha, hv, hwr⟩

-- Executing a statement commits nothing. What it writes has to be in order.
theorem Recorded.execute {stmt : Statement} {a : Answer} {result : Except Exn stmt.Result}
    (h : Recorded d A w) (ht : Tidy w) (hf : ∀ pid, pid ≠ p → Frame pid w w')
    (hp : World.perform d p (.execute stmt) a w = some (result, w'))
    (hpend : ∀ time ids result locks writes, w.store.aborted p = false →
      stmt.verdict w.store p time ids = .succeeds result locks writes →
        ∀ wr ∈ writes, Pending w p wr) :
    Recorded d A w' ∧ w'.store.contents = w.store.contents ∧ w'.jobs = w.jobs := by
  have main : w'.store.contents = w.store.contents ∧ w'.jobs = w.jobs ∧
      w'.log.responses = w.log.responses ∧
        ∀ wr ∈ w'.store.writes p, wr ∈ w.store.writes p ∨ Pending w p wr := by
    obtain ⟨time, ids, res, locks, writes, ha, hv, rfl, rfl⟩ | ⟨_, _, error, _, _, _, rfl, rfl⟩ |
      ⟨x, w₁, rfl, ha, rfl⟩ := perform_execute hp
    · refine ⟨rfl, rfl, rfl, fun wr hwr => ?_⟩
      rw [World.fetch_store, World.take_store, LockStore.take_writes_self, List.mem_append] at hwr
      exact hwr.imp_right fun hwr => hpend _ _ _ _ _ ha hv wr hwr
    · exact ⟨rfl, rfl, rfl, fun _ hwr => .inl hwr⟩
    · obtain ⟨hc, hj, hr, hw⟩ := ha.facts
      refine ⟨hc, hj, hr, fun wr hwr => (hw wr hwr).imp_right ?_⟩
      rintro ⟨time, ids, result, locks, writes, ha, hv, hwr⟩
      exact hpend _ _ _ _ _ ha hv wr hwr
  obtain ⟨hc, hj, hr, hw⟩ := main
  exact ⟨h.same_tables ht hf hc (congrFun hj p) hw hr, hc, hj⟩

end Calls

end PaymentsProcessor
