import PaymentsProcessor.System.Custody

namespace PaymentsProcessor

open Python Storage Concurrency PaymentsConstants

-- What is known of the rows and of what was handed over.
abbrev handed_over (d : Deployment) (A : Assumption Pid World Effect Answer) : Logic Pid World :=
  (frameLogic.inf (records d A)).inf (handover A)

theorem custody_guarantee {d : Deployment} {id : UUID} {p : Pid} {w w' : World} :
    (custody d id).Guarantee p w w' := fun _ _ => trivial

section Others

variable {d : Deployment} {A : Assumption Pid World Effect Answer} {id : UUID} {p : Pid}

-- Calls that leave the messages where they are.
def Effect.still (e : Effect) : Prop := e.kind ≠ .publish ∧ e.kind ≠ .settle

def Effect.Kind.moves : Effect.Kind → Bool
  | .publish | .settle => true
  | _ => false

theorem Effect.still_of_kind {e : Effect} (h : e.kind.moves = false) : e.still := by
  constructor
  all_goals
    intro he
    rw [he] at h
    cases h

theorem InCustody.still {e : Effect} (he : e.still) {w w' : World} (h : InCustody d id w)
    {a : Answer} {result : Except Exn e.Result}
    (hp : World.perform d p e a w = some (result, w')) : InCustody d id w' := by
  have hs := scope_perform hp
  exact h.same (by rw [hs.jobs]; exact fun _ _ hj => hj) (hs.queues he.1 he.2) (hs.unacked he.2)
    (hs.publishes he.1)

-- A process that no message was delivered to.
def Unburdened (p : Pid) (w : World) : Prop := w.unacked p = none

theorem stable_unburdened :
    ((handed_over d A).inf (custody d id)).Stable p (Unburdened p) := by
  rintro w w' ⟨⟨⟨hf, _⟩, _⟩, _⟩ hw
  rcases hf.unacked with hu | hu
  · exact hu.trans hw
  · exact hu

-- Requests publish nothing, and dispatchers what the outbox says.
theorem others_custody {e : Effect} (he : e.ofRequest ∨ e.ofDispatcher) :
    CallSpec (machine d) A (handed_over d A) (custody d id) p (Unburdened p) e
      fun _ => Unburdened p := by
  intro w a result w' hi hw _ hp hk hg
  have still : e.still → InCustody d id w' ∧ (custody d id).Guarantee p w w' ∧ Unburdened p w' := by
    intro hstill
    exact ⟨hi.2.still hstill hp, custody_guarantee,
      (congrFun ((scope_perform hp).unacked hstill.2) p).trans hw⟩
  cases e with
  | publish exchange routing_key payload headers =>
      obtain rfl : exchange = EXCHANGE_PAYMENTS := he.elim False.elim fun h => h
      obtain ⟨w₁, hw', _⟩ := perform_recorded hp
      obtain ⟨row, hrow, hkey, hmsg⟩ := hk.2.announced _
        (by rw [hw']; exact List.mem_append_right _ (List.mem_singleton_self _)) rfl
      obtain ⟨payment, _, ha⟩ := hk.1.2.consistent.announces row hrow
      cases hmsg
      have hkey : routing_key = PAYMENT_CREATED_ROUTING_KEY := hkey.trans ha.routing_key
      have hroute : d.topology.route EXCHANGE_PAYMENTS routing_key = [QUEUE_PAYMENTS_NEW] := by
        rw [hkey, Deployment.topology, route_created]
      have hcount : Message.HasCount ⟨row.payload, []⟩ := ⟨0, le_rfl, rfl⟩
      refine ⟨(hi.2.publish hp hroute .new (fits_new hcount) fun m hm => ?_).1, custody_guarantee,
        ?_⟩
      · cases hw.symm.trans hm
      · have hs : Scope .publish w w' := scope_perform hp
        exact (congrFun (hs.unacked (by decide)) p).trans hw
  | ack | nack | reject => exact (he.elim (fun h => h) fun h => h).elim
  | _ => exact still (Effect.still_of_kind rfl)

theorem others_kept {prog : Async Unit} (h : prog.Only fun e => e.ofRequest ∨ e.ofDispatcher) :
    Triple (machine d) A (handed_over d A) (custody d id) p (Unburdened p) prog
      fun _ => Unburdened p :=
  Triple.only h stable_unburdened fun _ he => others_custody he

end Others

section Handling

variable {d : Deployment} {id : UUID} {p : Pid} {event : PaymentCreatedEvent} {msg : Message}

def Handling (p : Pid) (event : PaymentCreatedEvent) (msg : Message) (w : World) : Prop :=
  w.jobs p = some (.delivery event msg)

-- The message may be settled: it was passed on, or its payment is another one.
def Settleable (id : UUID) (p : Pid) (event : PaymentCreatedEvent) (msg : Message) (w : World) :
    Prop :=
  Handling p event msg w ∧ (event.payment_id ≠ id ∨ w.Spent p)

theorem stable_handling :
    ((handed_over d (unsent id)).inf (custody d id)).Stable p (Handling p event msg) :=
  fun _ _ hr hw => hr.1.1.1.job.trans hw

theorem World.Spent.of_own {w w' : World} (ho : w'.own p = w.own p) (h : w.Spent p) :
    w'.Spent p := by
  unfold World.Spent
  rw [ho]
  exact h

theorem stable_settleable :
    ((handed_over d (unsent id)).inf (custody d id)).Stable p (Settleable id p event msg) :=
  fun _ _ hr hw => ⟨hr.1.1.1.job.trans hw.1, hw.2.imp_right fun h => h.of_own hr.1.2.1⟩

-- What a handling holds is the message that it was started with.
theorem Handling.holds {w : World} (h : Handling p event msg w) (hc : InCustody d id w)
    {m : Message} (hm : w.unacked p = some m) (ht : m.tells id) : event.payment_id = id := by
  obtain ⟨_, event', hj, hd⟩ := hc.unacked p m hm
  cases h.symm.trans hj
  cases hd.symm.trans ht
  rfl

-- An exception leaves the message with the handling.
abbrev CustodyTriple (d : Deployment) (id : UUID) (p : Pid) (event : PaymentCreatedEvent)
    (msg : Message) {α : Type} (P : World → Prop) (prog : Async α) (R : α → World → Prop) : Prop :=
  Triple (machine d) (unsent id) (handed_over d (unsent id)) (custody d id) p P prog
    (Ends (fun _ => Handling p event msg) R)

theorem CustodyTriple.bind {α β : Type} {P : World → Prop} {prog : Async α} {f : α → Async β}
    {R : α → World → Prop} {S : β → World → Prop} (hp : CustodyTriple d id p event msg P prog R)
    (hf : ∀ a, CustodyTriple d id p event msg (R a) (f a) S) :
    CustodyTriple d id p event msg P (prog.bind f) S :=
  Triple.bind hp hf fun _ _ _ h => h

theorem handling_perform {e : Effect} {w w' : World} {a : Answer} {result : Except Exn e.Result}
    (hp : World.perform d p e a w = some (result, w')) (hw : Handling p event msg w) :
    Handling p event msg w' := by
  unfold Handling
  rw [(scope_perform hp).jobs]
  exact hw

theorem still_only {α : Type} {prog : Async α} (h : prog.Only Effect.still) :
    CustodyTriple d id p event msg (Handling p event msg) prog fun _ => Handling p event msg := by
  refine (Triple.only h stable_handling fun e he => ?_).post fun r w hw => by cases r <;> exact hw
  intro w a result w' hi hw _ hp _ _
  exact ⟨hi.2.still he hp, custody_guarantee, handling_perform hp hw⟩

theorem still_call {e : Effect} (h : e.kind.moves = false) :
    CustodyTriple d id p event msg (Handling p event msg) (Prog.perform e)
      fun _ => Handling p event msg :=
  still_only (.perform (Effect.still_of_kind h))

theorem Effect.ofGuard.still {e : Effect} (h : e.ofGuard) : e.still := by
  cases e with
  | getaddrinfo => exact Effect.still_of_kind rfl
  | _ => exact h.elim

theorem Effect.ofProcessing.still {e : Effect} (h : e.ofProcessing) : e.still := by
  cases e with
  | execute | container_get | commit | now | uniform | random | sleep =>
      exact Effect.still_of_kind rfl
  | _ => exact h.elim

-- A row that a statement returns has the id that it was asked for.
theorem execute_custody {stmt : Statement} {R : stmt.Result → Prop}
    (hR : ∀ s time ids result locks writes,
      stmt.verdict s p time ids = .succeeds result locks writes → R result) :
    CustodyTriple d id p event msg (Handling p event msg) (Async.execute stmt) fun result w =>
      R result ∧ Handling p event msg w := by
  refine Triple.perform stable_handling fun w a result w' hi hw _ hp _ _ => ?_
  have hstill : (Effect.execute stmt).still := Effect.still_of_kind rfl
  refine ⟨hi.2.still hstill hp, custody_guarantee, ?_⟩
  have hh := handling_perform hp hw
  obtain ⟨_, _, res, _, _, _, hv, rfl, _⟩ | ⟨_, _, _, _, _, _, rfl, _⟩ | ⟨_, _, rfl, _⟩ :=
    perform_execute hp
  · exact ⟨hR _ _ _ _ _ _ hv, hh⟩
  · exact hh
  · exact hh

def Identified (payment_id : UUID) (found : Option Payment) : Prop :=
  ∀ payment, found = some payment → payment.id = payment_id

theorem found_custody (payment : Option Payment) (x : Exn) : CustodyTriple d id p event msg
    (fun w => Identified event.payment_id payment ∧ Handling p event msg w)
    (match payment with
      | none => throw x
      | some payment => pure payment)
    fun payment w => payment.id = event.payment_id ∧ Handling p event msg w := by
  cases payment with
  | none => exact Triple.ret fun _ _ h => h.2
  | some payment => exact Triple.ret fun _ _ h => ⟨h.1 payment rfl, h.2⟩

-- The payment that a handling notifies of is the one of its event.
theorem processed_payment_custody :
    CustodyTriple d id p event msg (Handling p event msg) (processed_payment d.container event)
      fun payment w => payment.id = event.payment_id ∧ Handling p event msg w := by
  unfold processed_payment
  simp only [Prog.bind_eq]
  refine CustodyTriple.bind (R := fun payment w =>
    payment.id = event.payment_id ∧ Handling p event msg w) ?_ fun payment => ?_
  · unfold PaymentService.get_payment
    simp only [Prog.bind_eq]
    refine CustodyTriple.bind (execute_custody fun s time ids result locks writes hv => ?_)
      fun payment => found_custody payment _
    cases hv
    exact fun payment he => Table.key_of_find? he
  · refine Triple.ite (fun _ => ?_) fun _ => Triple.ret fun _ _ h => h
    have hprocess := (process_only d.container.processing_service).mono
      fun _ => Effect.ofProcessing.still
    refine CustodyTriple.bind ((still_only hprocess).pre fun _ h => h.2) fun outcome => ?_
    refine CustodyTriple.bind (R := fun payment w =>
      payment.id = event.payment_id ∧ Handling p event msg w) ?_ fun payment => ?_
    · unfold PaymentService.apply_processing_outcome
      simp only [Prog.bind_eq]
      refine CustodyTriple.bind (still_call rfl) fun processed_at => ?_
      refine CustodyTriple.bind (execute_custody fun s time ids result locks writes hv => ?_)
        fun payment => found_custody payment _
      intro payment he
      obtain ⟨rfl, _⟩ | ⟨q, hq, rfl, _⟩ := update_payment_succeeds hv
      · cases he
      · cases he
        have hid : q.id = event.payment_id := Table.key_of_find? hq
        exact hid
    · refine Triple.and_pure fun hid => ?_
      refine CustodyTriple.bind (still_call rfl) fun _ => ?_
      exact Triple.ret fun _ _ h => ⟨hid, h⟩

-- A response comes as the answer that it is.
theorem post_returns {request : HttpRequest} {w w' : World} {a : Answer} {response : HttpResponse}
    (hp : World.perform d p (.post request) a w = some (.ok response, w')) :
    ∃ peer, a = .reply (.response peer response.status_code) := by
  cases a with
  | reply r =>
      cases r with
      | response peer status_code =>
          cases hp
          exact ⟨peer, rfl⟩
      | _ => cases hp
  | raised x carried_out =>
      cases carried_out with
      | none => cases hp
      | some r => cases r <;> cases hp

theorem post_custody (payment : Payment) (event_id : UUID) (ts : ℤ) :
    CustodyTriple d id p event msg (Handling p event msg)
      (WebhookService.post payment (d.container.webhook_service.request payment event_id ts))
      fun response w => (payment.id = id → 400 ≤ response.status_code) ∧
        Handling p event msg w := by
  refine Triple.tryCatch (R := Ends (fun _ => Handling p event msg) fun response w =>
    (payment.id = id → 400 ≤ response.status_code) ∧ Handling p event msg w) ?_
    (fun _ _ _ h => h) fun x => by cases x <;> exact Triple.ret fun _ _ h => h
  refine Triple.perform stable_handling fun w a result w' hi hw hA hp _ _ => ?_
  have hstill : (Effect.post (d.container.webhook_service.request payment event_id ts)).still :=
    Effect.still_of_kind rfl
  refine ⟨hi.2.still hstill hp, custody_guarantee, ?_⟩
  have hh := handling_perform hp hw
  cases result with
  | error x => exact hh
  | ok response =>
      obtain ⟨peer, rfl⟩ := post_returns hp
      exact ⟨fun hid => hA _ peer response.status_code rfl rfl hid, hh⟩

-- `send` returns for another payment only.
theorem send_custody (payment : Payment) :
    CustodyTriple d id p event msg (Handling p event msg) (d.container.webhook_service.send payment)
      fun _ w => payment.id ≠ id ∧ Handling p event msg w := by
  unfold WebhookService.send
  simp only [Prog.bind_eq]
  have hguard := (validate_url_only d.container.webhook_service.ssrf_guard payment.webhook_url).mono
    fun _ => Effect.ofGuard.still
  refine CustodyTriple.bind (still_only hguard) fun _ => ?_
  refine CustodyTriple.bind (still_call rfl) fun event_id => ?_
  refine CustodyTriple.bind (still_call rfl) fun now => ?_
  refine CustodyTriple.bind (post_custody payment event_id _) fun response => ?_
  refine Triple.ite (fun _ => Triple.ret fun _ _ h => h.2) fun hcode => ?_
  exact Triple.ret fun _ _ h => ⟨fun hid => hcode (h.1 hid), h.2⟩

variable {max_retries : ℤ}

theorem copy_custody {exchange routing_key name : String} {headers : Headers}
    (hroute : d.topology.route exchange routing_key = [name]) (hk : d.Keeps name)
    (hf : Message.Fits name ⟨event_payload event.payment_id, headers⟩) :
    CustodyTriple d id p event msg (Handling p event msg)
      (Async.publish exchange routing_key (event_payload event.payment_id) headers)
      fun _ => Settleable id p event msg := by
  refine Triple.perform stable_handling fun w a (result : Except Exn Unit) w' hi hw _ hp _ _ => ?_
  obtain ⟨hn, hspent⟩ := hi.2.publish hp hroute hk hf fun m hm ht => by
    rw [← hw.holds hi.2 hm ht]
    exact decode_event_payload event.payment_id
  refine ⟨hn, custody_guarantee, ?_⟩
  have hh := handling_perform hp hw
  cases result with
  | ok _ => exact ⟨hh, .inr (hspent rfl)⟩
  | error x => exact hh

-- A copy is published to the next retry queue, or to the dead letters.
theorem retry_custody (hm : msg.HasCount) (hN : max_retries ≤ d.ttls.length) (reason : String) :
    CustodyTriple d id p event msg (Handling p event msg)
      (_retry_or_dlq msg event reason max_retries) fun _ => Settleable id p event msg := by
  obtain ⟨count, h0, hcount⟩ := hm
  unfold _retry_or_dlq
  rw [hcount]
  show CustodyTriple d id p event msg _ (ite _ _ _) _
  refine Triple.ite (fun hlast => ?_) fun hnext => ?_
  · have hroute : d.topology.route EXCHANGE_PAYMENTS_DLX PAYMENT_FAILED_ROUTING_KEY =
        [QUEUE_PAYMENTS_DLQ] := by
      rw [Deployment.topology, route_failed]
    exact copy_custody hroute .dlq fits_dlq
  · have hlo : 1 ≤ count + 1 := by omega
    have hhi : count + 1 ≤ d.ttls.length := by omega
    have hroute : d.topology.route "" (retry_queue_name (count + 1)) =
        [retry_queue_name (count + 1)] := by
      rw [Deployment.topology, route_retry hlo hhi]
    exact copy_custody hroute (.retry hlo hhi) (fits_retry ⟨count + 1, by omega, rfl⟩)

theorem send_or_retry_custody (hm : msg.HasCount) (hN : max_retries ≤ d.ttls.length)
    {payment : Payment} (hid : payment.id = event.payment_id) :
    CustodyTriple d id p event msg (Handling p event msg)
      (send_or_retry d.container event msg max_retries payment)
      fun _ => Settleable id p event msg := by
  unfold send_or_retry
  refine Triple.tryCatch (send_custody payment) (fun _ w _ h => ⟨h.2, .inl (hid ▸ h.1)⟩) fun x => ?_
  cases x with
  | WebhookSendError _ reason _ => exact retry_custody hm hN reason
  | _ => exact Triple.ret fun _ _ h => h

theorem in_container_custody (hm : msg.HasCount) (hN : max_retries ≤ d.ttls.length) :
    CustodyTriple d id p event msg (Handling p event msg)
      (in_container d.container event msg max_retries) fun _ => Settleable id p event msg := by
  unfold in_container
  simp only [Prog.bind_eq]
  have hget : ∀ dependency, CustodyTriple d id p event msg (Handling p event msg)
      (Async.container_get dependency) fun _ => Handling p event msg :=
    fun dependency => still_call rfl
  iterate 4 refine CustodyTriple.bind (hget _) fun _ => ?_
  refine CustodyTriple.bind processed_payment_custody fun payment => ?_
  exact Triple.and_pure fun hid => send_or_retry_custody hm hN hid

-- Closing the container loses nothing that was achieved in it.
theorem close_custody {P : World → Prop}
    (hP : ((handed_over d (unsent id)).inf (custody d id)).Stable p P)
    (hown : ∀ w w' : World, w'.jobs = w.jobs → w'.own p = w.own p → P w → P w') :
    Triple (machine d) (unsent id) (handed_over d (unsent id)) (custody d id) p P Async.close
      fun _ => P := by
  refine Triple.perform hP fun w a result w' hi hw _ hp _ _ => ?_
  have hs : Scope .close w w' := scope_perform hp
  have hstill : Effect.close.still := Effect.still_of_kind rfl
  exact ⟨hi.2.still hstill hp, custody_guarantee,
    hown w w' hs.jobs (own_of_same (hs.publishes (by decide)) p) hw⟩

theorem ack_custody :
    CustodyTriple d id p event msg (Settleable id p event msg) Async.ack
      fun _ => Handling p event msg := by
  refine Triple.perform stable_settleable fun w a (result : Except Exn Unit) w' hi hw _ hp _ _ => ?_
  have hh := handling_perform hp hw.1
  have hsettle : InCustody d id (w.settle p) :=
    hi.2.settle fun m hm ht => hw.2.resolve_left fun hne => hne (hw.1.holds hi.2 hm ht)
  refine ⟨?_, custody_guarantee, by cases result <;> exact hh⟩
  obtain ⟨_, rfl⟩ | ⟨_, _, rfl | rfl⟩ := perform_ack hp
  · exact hsettle
  · exact { hi.2 with }
  · exact { hsettle with }

-- What is refused goes to the dead letters.
theorem refuse_custody {e : Effect} (he : e = .nack false ∨ e = .reject false) :
    CallSpec (machine d) (unsent id) (handed_over d (unsent id)) (custody d id) p
      (Handling p event msg) e fun _ _ => True := by
  intro w a result w' hi _ _ hp _ _
  refine ⟨?_, custody_guarantee, trivial⟩
  obtain rfl | ⟨x_death, rfl | rfl⟩ := perform_refuse he hp
  · exact { hi.2 with }
  · exact hi.2.refuse x_death
  · exact { hi.2.refuse (p := p) x_death with }

theorem on_exception_custody (x : Exn) :
    Triple (machine d) (unsent id) (handed_over d (unsent id)) (custody d id) p
      (Handling p event msg) (on_exception x) fun _ _ => True := by
  refine Triple.ite (fun _ => Triple.perform stable_handling (refuse_custody (.inr rfl)))
    fun _ => Triple.ite (fun _ => Triple.perform stable_handling (refuse_custody (.inl rfl)))
      fun _ => Triple.ret fun _ _ _ => trivial

theorem entrypoint_custody (hm : msg.HasCount)
    (hN : d.container.consumer_config.CONSUMER_MAX_RETRIES ≤ d.ttls.length) :
    Triple (machine d) (unsent id) (handed_over d (unsent id)) (custody d id) p
      (Handling p event msg) (_entrypoint d.container event msg) fun _ _ => True := by
  refine Triple.tryCatch (R := Ends (fun _ => Handling p event msg) fun _ _ => True) ?_
    (fun _ _ _ h => trivial) on_exception_custody
  refine CustodyTriple.bind (R := fun _ => Settleable id p event msg) ?_
    fun _ => ack_custody.post fun r _ h => by cases r with
      | ok _ => trivial
      | error _ => exact h
  refine Triple.andThen (in_container_custody hm hN) fun r => ?_
  cases r with
  | ok _ =>
      refine (close_custody stable_settleable fun w w' hj ho h => ?_).post fun s w h => ?_
      · exact ⟨(congrFun hj p).trans h.1, h.2.imp_right fun hspent => hspent.of_own ho⟩
      · cases s with
        | ok _ => exact h
        | error _ => exact h.1
  | error x =>
      refine (close_custody stable_handling fun w w' hj _ h => (congrFun hj p).trans h).post
        fun s w h => ?_
      cases s <;> exact h

end Handling

section Soundness

variable (d : Deployment) (id : UUID)

theorem custody_init : InCustody d id World.init := by
  constructor <;> simp [World.copies]

theorem custody_obliged
    (hN : d.container.consumer_config.CONSUMER_MAX_RETRIES ≤ d.ttls.length) :
    Obliged (machine d) (unsent id) (handed_over d (unsent id)) (custody d id) where
  launch pid l w prog w' hi hl hk hg := by
    obtain ⟨⟨⟨ht, _⟩, hh⟩, hn⟩ := hi
    obtain ⟨hj, hcases⟩ := launch_cases hl
    have hu := ht.fresh_unacked pid hj
    have hstarted : ∀ job q j, w.jobs q = some j → (w.start pid job).jobs q = some j := by
      intro job q j hq
      have hne : q ≠ pid := by
        rintro rfl
        rw [hj] at hq
        cases hq
      simpa [hne] using hq
    obtain ⟨request, rfl, rfl⟩ | ⟨config, rfl, rfl⟩ | ⟨index, msg, event, hm, hd, rfl, rfl⟩ := hcases
    · have hn' := hn.same (hstarted (.request request)) rfl rfl rfl
      exact ⟨hn', custody_guarantee, wp_mono (others_kept ((create_payment_only request).mono
        fun _ => .inl) _ ⟨hk, hn'⟩ hu) ⟨hk, hn'⟩ fun _ _ _ _ => trivial⟩
    · have hn' := hn.same (hstarted (.batch config)) rfl rfl rfl
      exact ⟨hn', custody_guarantee, wp_mono (others_kept (run_iteration_only.mono
        fun _ => .inr) _ ⟨hk, hn'⟩ hu) ⟨hk, hn'⟩ fun _ _ _ _ => trivial⟩
    · have hn' := hn.receive hm hd hj hu (hh.fresh pid hj).2
      have hcount := (hn.queues _ msg (List.mem_of_getElem? hm)).new rfl
      exact ⟨hn', custody_guarantee, entrypoint_custody hcount hN _ ⟨hk, hn'⟩ (by simp [Handling])⟩
  crash pid w hi _ _ := by
    have hn : InCustody d id (w.rollback pid) := { hi.2 with }
    exact ⟨{ hn.requeue (p := pid) with }, custody_guarantee, trivial⟩
  tick t w w' hi ht _ _ := by
    refine ⟨?_, fun _ => trivial⟩
    obtain ⟨name, index, x_death, queue, m, hq, httl, hm, rfl⟩ | ⟨pid, rfl⟩ := tick_cases ht
    · obtain ⟨hname, hroute⟩ := expiring_is_retry hq httl
      rw [Deployment.topology, hroute]
      exact hi.2.expire hm x_death hname
    · exact hi.2.requeue

-- While no webhook of the payment has been accepted, its event is somewhere safe.
theorem custody_sound (hN : d.container.consumer_config.CONSUMER_MAX_RETRIES ≤ d.ttls.length) :
    Sound (machine d) (unsent id) ((handed_over d (unsent id)).inf (custody d id))
      SystemConfig.init :=
  (handover_sound d (unsent id)).extend (custody_obliged d id hN) (custody_init d id) fun _ => rfl

end Soundness

end PaymentsProcessor
