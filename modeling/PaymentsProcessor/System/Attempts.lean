import Mathlib.Data.Finset.Card
import PaymentsProcessor.System.Provenance

namespace PaymentsProcessor

open Python Storage Concurrency PaymentsConstants

-- The process was handed an event of this payment, and failed to notify: a call of
-- it failed, or its webhook was not accepted.
structure World.Tried (w : World) (id : UUID) (p : Pid) : Prop where
  handed : ∃ event msg, w.jobs p = some (.delivery event msg) ∧ event.payment_id = id
  failed : p ∈ w.log.failures ∨ ∃ post ∈ w.log.posts, post.pid = p ∧
    post.request.content.payload.payment_id = id ∧ ∀ code, post.status_code = some code → 400 ≤ code

-- So many processes have tried, none of them counted twice.
def World.Attempts (w : World) (id : UUID) (n : ℕ) : Prop :=
  ∃ pids : Finset Pid, pids.card = n ∧ ∀ p ∈ pids, w.Tried id p

-- A message that is on its way for the time being, and was tried `n` times.
structure Message.Retriable (m : Message) (n : ℕ) : Prop where
  count : get_retry_count (some m.headers) = .ok n
  undead : m.headers.lookup DLQ_REASON_HEADER = none

-- A message that was passed on carries its count.
structure Message.Counted (m : Message) (n : ℕ) : Prop extends m.Retriable n where
  carried : m.headers.lookup RETRY_COUNT_HEADER = some (.int n)

-- A message that was given up after `n` retries.
structure Message.Exhausted (m : Message) (max_retries : ℤ) (n : ℕ) : Prop where
  carried : m.headers.lookup RETRY_COUNT_HEADER = some (.int n)
  enough : max_retries ≤ n

namespace World

def Waiting (w : World) (m : Message) : Prop :=
  ∃ n, m.Retriable n ∧ ∀ id, m.tells id → w.Attempts id n

-- What is known of a message in this queue.
structure Placed (d : Deployment) (w : World) (name : String) (m : Message) : Prop where
  new : name = QUEUE_PAYMENTS_NEW → w.Waiting m
  retry : ∀ attempt : ℤ, name = retry_queue_name attempt → ∃ n : ℕ, attempt = n + 1 ∧
    attempt ≤ d.container.consumer_config.CONSUMER_MAX_RETRIES ∧ m.Counted (n + 1) ∧
      ∀ id, m.tells id → w.Attempts id (n + 1)
  dlq : name = QUEUE_PAYMENTS_DLQ → m.headers.lookup DLQ_REASON_HEADER ≠ none →
    ∃ n, m.Exhausted d.container.consumer_config.CONSUMER_MAX_RETRIES n ∧
      ∀ id, m.tells id → w.Attempts id (n + 1)

-- What a consumer was handed was tried by others.
def Charged (w : World) (p : Pid) (event : PaymentCreatedEvent) (m : Message) : Prop :=
  ∃ n, m.Retriable n ∧ ∃ pids : Finset Pid, p ∉ pids ∧ pids.card = n ∧
    ∀ q ∈ pids, w.Tried event.payment_id q

end World

structure Earned (d : Deployment) (w : World) : Prop where
  queues : ∀ name, ∀ m ∈ w.queues name, w.Placed d name m
  unacked : ∀ p m, w.unacked p = some m → w.Waiting m
  jobs : ∀ p event m, w.jobs p = some (.delivery event m) → w.Charged p event m

-- A process that stands at `s` has loaded what it was told of, and if it has failed
-- to notify that is on record.
structure Attempting (p : Pid) (s : Told) (w : World) : Prop where
  job : ∀ duty, s.duty = some duty → w.jobs p = some (.delivery duty.event duty.msg)
  loaded : ∀ duty, s.duty = some duty → ∀ id, duty.loaded = some id → id = duty.event.payment_id
  failed : ∀ duty, s.duty = some duty → s.failed = true → w.Tried duty.event.payment_id p

section Headers

variable {m : Message} {n : ℕ}

theorem lookup_other_with_x_death {key : String} (h : key ≠ X_DEATH_HEADER)
    (x_death : HeaderValue) :
    (m.with_x_death x_death).headers.lookup key = m.headers.lookup key := by
  have hfilter : ∀ headers : Headers,
      (headers.filter fun h => h.1 ≠ X_DEATH_HEADER).lookup key = headers.lookup key := by
    intro headers
    induction headers with
    | nil => rfl
    | cons header headers ih =>
        obtain ⟨name, value⟩ := header
        by_cases hn : name = X_DEATH_HEADER
        · rw [List.filter_cons_of_neg (by simpa using hn), List.lookup_cons, ih, hn,
            beq_false_of_ne h]
        · rw [List.filter_cons_of_pos (by simpa using hn), List.lookup_cons, List.lookup_cons, ih]
  show List.lookup key ((X_DEATH_HEADER, x_death) :: _) = _
  rw [List.lookup_cons, beq_false_of_ne h, hfilter]

theorem count_of_carried (h : m.headers.lookup RETRY_COUNT_HEADER = some (.int n)) :
    get_retry_count (some m.headers) = .ok n := by
  simp [get_retry_count, h, HeaderValue.toInt]

theorem Message.Counted.with_x_death (h : m.Counted n) (x_death : HeaderValue) :
    (m.with_x_death x_death).Counted n := by
  have hcarried := (lookup_other_with_x_death (by decide) x_death).trans h.carried
  exact ⟨⟨count_of_carried hcarried,
    (lookup_other_with_x_death (by decide) x_death).trans h.undead⟩, hcarried⟩

theorem counted_retry (payload : JsonDict) (reason : String) :
    (⟨payload, build_retry_headers n reason⟩ : Message).Counted n :=
  ⟨⟨count_of_carried rfl, rfl⟩, rfl⟩

theorem retriable_fresh (payload : JsonDict) : (⟨payload, []⟩ : Message).Retriable 0 := ⟨rfl, rfl⟩

theorem tells_iff {id id' : UUID} {headers : Headers} :
    (⟨event_payload id, headers⟩ : Message).tells id' ↔ id' = id := by
  simp [Message.tells, eq_comm]

end Headers

section Worlds

variable {d : Deployment} {A : Assumption Pid World Effect Answer} {p : Pid} {w w' : World}
variable {id : UUID} {n : ℕ} {m : Message}

-- What is on record stays on record.
structure Lasts (w w' : World) : Prop where
  log : w.log.Extends w'.log
  started : ∀ q j, w.jobs q = some j → w'.jobs q = some j

theorem Frame.lasts (h : Frame p w w') : Lasts w w' := ⟨h.log, h.started⟩

theorem World.Tried.lasts (h : w.Tried id p) (hl : Lasts w w') : w'.Tried id p where
  handed := by
    obtain ⟨event, msg, hj, he⟩ := h.handed
    exact ⟨event, msg, hl.started p _ hj, he⟩
  failed := h.failed.imp (fun hf => hl.log.failures hf) fun ⟨post, hpost, hrest⟩ =>
    ⟨post, hl.log.posts hpost, hrest⟩

theorem World.Attempts.lasts (h : w.Attempts id n) (hl : Lasts w w') : w'.Attempts id n := by
  obtain ⟨pids, hcard, htried⟩ := h
  exact ⟨pids, hcard, fun q hq => (htried q hq).lasts hl⟩

theorem World.Waiting.lasts (h : w.Waiting m) (hl : Lasts w w') : w'.Waiting m := by
  obtain ⟨n, hr, ha⟩ := h
  exact ⟨n, hr, fun id ht => (ha id ht).lasts hl⟩

theorem World.Placed.lasts {name : String} (h : w.Placed d name m) (hl : Lasts w w') :
    w'.Placed d name m where
  new hn := (h.new hn).lasts hl
  retry attempt hn := by
    obtain ⟨n, he, hmax, hc, ha⟩ := h.retry attempt hn
    exact ⟨n, he, hmax, hc, fun id ht => (ha id ht).lasts hl⟩
  dlq hn hr := by
    obtain ⟨n, he, ha⟩ := h.dlq hn hr
    exact ⟨n, he, fun id ht => (ha id ht).lasts hl⟩

theorem World.Charged.lasts {event : PaymentCreatedEvent} (h : w.Charged p event m)
    (hl : Lasts w w') : w'.Charged p event m := by
  obtain ⟨n, hr, pids, hp, hcard, htried⟩ := h
  exact ⟨n, hr, pids, hp, hcard, fun q hq => (htried q hq).lasts hl⟩

theorem Earned.step (h : Earned d w) (hl : Lasts w w')
    (hq : ∀ name, ∀ m ∈ w'.queues name, m ∈ w.queues name ∨ w'.Placed d name m)
    (hu : ∀ q m, w'.unacked q = some m → w.unacked q = some m ∨ w'.Waiting m)
    (hj : ∀ q event m, w'.jobs q = some (.delivery event m) →
      w.jobs q = some (.delivery event m) ∨ w'.Charged q event m) : Earned d w' where
  queues name m hm := (hq name m hm).elim (fun hm => (h.queues name m hm).lasts hl) fun hm => hm
  unacked q m hm := (hu q m hm).elim (fun hm => (h.unacked q m hm).lasts hl) fun hm => hm
  jobs q event m hm :=
    (hj q event m hm).elim (fun hm => (h.jobs q event m hm).lasts hl) fun hm => hm

theorem Earned.same (h : Earned d w) (hl : Lasts w w') (hq : w'.queues = w.queues)
    (hu : w'.unacked = w.unacked) (hj : w'.jobs = w.jobs) : Earned d w' :=
  h.step hl (fun _ _ hm => .inl (hq ▸ hm)) (fun _ _ hm => .inl (hu ▸ hm))
    fun _ _ _ hm => .inl (hj ▸ hm)

theorem lasts_rfl (hlog : w'.log = w.log) (hj : w'.jobs = w.jobs) : Lasts w w' :=
  ⟨hlog ▸ .refl _, fun _ _ h => hj ▸ h⟩

theorem lasts_fail : Lasts w (w.fail p) := (@frame_fail p w p).lasts

theorem Lasts.trans {w'' : World} (h : Lasts w w') (h' : Lasts w' w'') : Lasts w w'' :=
  ⟨h.log.trans h'.log, fun q j hj => h'.started q j (h.started q j hj)⟩

theorem earned_deliver {names : List String} (h : Earned d w)
    (hm : ∀ name ∈ names, w.Placed d name m) : Earned d (w.deliver names m) :=
  h.step (lasts_rfl rfl rfl) (fun name _ hx => (mem_enqueue.mp hx).imp_right fun ⟨hn, he⟩ =>
    (he.symm ▸ hm name hn : w.Placed d name _).lasts (lasts_rfl rfl rfl))
    (fun _ _ hx => .inl hx) fun _ _ _ hx => .inl hx

theorem earned_settle (h : Earned d w) : Earned d (w.settle p) := by
  refine h.step (lasts_rfl rfl rfl) (fun _ _ hx => .inl hx) (fun q m hm => .inl ?_)
    fun _ _ _ hx => .inl hx
  by_cases hq : q = p
  · rw [hq, World.settle_unacked, Function.update_self] at hm
    cases hm
  · rwa [World.settle_unacked, Function.update_of_ne hq] at hm

theorem placed_new (h : w.Waiting m) : w.Placed d QUEUE_PAYMENTS_NEW m where
  new _ := h
  retry _ hn := absurd hn.symm retry_queue_name_ne.1
  dlq hn := absurd hn (by decide)

theorem placed_retry (hmax : (n : ℤ) + 1 ≤ d.container.consumer_config.CONSUMER_MAX_RETRIES)
    (hc : m.Counted (n + 1)) (ha : ∀ id, m.tells id → w.Attempts id (n + 1)) :
    w.Placed d (retry_queue_name (n + 1)) m where
  new hn := absurd hn retry_queue_name_ne.1
  retry attempt hn := by
    obtain rfl := retry_queue_name_inj hn
    exact ⟨n, rfl, hmax, hc, ha⟩
  dlq hn := absurd hn retry_queue_name_ne.2

theorem placed_dlq (h : m.headers.lookup DLQ_REASON_HEADER ≠ none →
    ∃ n, m.Exhausted d.container.consumer_config.CONSUMER_MAX_RETRIES n ∧
      ∀ id, m.tells id → w.Attempts id (n + 1)) :
    w.Placed d QUEUE_PAYMENTS_DLQ m where
  new hn := absurd hn (by decide)
  retry _ hn := absurd hn.symm retry_queue_name_ne.2
  dlq _ := h

theorem earned_requeue (h : Earned d w) : Earned d (w.requeue p) := by
  unfold World.requeue
  split
  · exact h
  · rename_i m hm
    refine earned_deliver (earned_settle h) fun name hn => ?_
    rw [List.mem_singleton.mp hn]
    exact placed_new ((h.unacked p m hm).lasts (lasts_rfl rfl rfl))

-- A message that is refused was not given up.
theorem earned_refuse (h : Earned d w) (requeue : Bool) (x_death : HeaderValue) :
    Earned d (w.refuse d p requeue x_death) := by
  unfold World.refuse
  split
  · exact earned_requeue h
  · split
    · exact h
    · rename_i m hm
      obtain ⟨n, hr, _⟩ := h.unacked p m hm
      refine earned_deliver (earned_settle h) fun name hn => ?_
      rw [Deployment.topology, dead_letters_of_new, List.mem_singleton] at hn
      subst hn
      exact placed_dlq fun hne =>
        absurd ((lookup_other_with_x_death (by decide) x_death).trans hr.undead) hne

-- What a process publishes is placed where it belongs.
theorem route_payments {routing_key name : String}
    (h : name ∈ d.topology.route EXCHANGE_PAYMENTS routing_key) : name = QUEUE_PAYMENTS_NEW := by
  rw [Amqp.Topology.route_named (by decide), List.mem_eraseDups, List.mem_map] at h
  obtain ⟨binding, hb, rfl⟩ := h
  simp only [Deployment.topology, declare_topology, List.mem_filter, List.mem_cons,
    List.not_mem_nil, or_false, Bool.and_eq_true, decide_eq_true_eq] at hb
  obtain ⟨rfl | rfl | rfl, hexchange, _⟩ := hb
  · rfl
  · exact absurd hexchange (by decide)
  · exact absurd hexchange (by decide)

theorem route_queue {routing_key name : String} (h : name ∈ d.topology.route "" routing_key) :
    name = routing_key := by
  rw [Amqp.Topology.route, if_pos rfl, List.mem_map] at h
  obtain ⟨queue, hq, rfl⟩ := h
  have hfind := List.find?_some (Option.mem_toList.mp hq)
  exact of_decide_eq_true hfind

-- The copy of a message that a consumer has failed to notify of.
theorem placed_copy {event : PaymentCreatedEvent} {msg : Message} {count : ℤ} {reason : String}
    {name : String} (hc : w.Charged p event msg) (ht : w.Tried event.payment_id p)
    (hcount : get_retry_count (some msg.headers) = .ok count)
    (hn : name ∈ d.topology.route
      (retry_exchange count d.container.consumer_config.CONSUMER_MAX_RETRIES)
      (retry_routing_key count d.container.consumer_config.CONSUMER_MAX_RETRIES)) :
    w.Placed d name ⟨event_payload event.payment_id,
      retry_headers count d.container.consumer_config.CONSUMER_MAX_RETRIES reason⟩ := by
  obtain ⟨n, hr, pids, hp, hcard, htried⟩ := hc
  obtain rfl : (n : ℤ) = count := Except.ok.inj (hr.count.symm.trans hcount)
  have hattempts : w.Attempts event.payment_id (n + 1) := by
    refine ⟨insert p pids, by rw [Finset.card_insert_of_notMem hp, hcard], fun q hq => ?_⟩
    rcases Finset.mem_insert.mp hq with rfl | hq
    · exact ht
    · exact htried q hq
  by_cases hmax : (n : ℤ) + 1 > d.container.consumer_config.CONSUMER_MAX_RETRIES
  · rw [retry_exchange, if_pos hmax, retry_routing_key, if_pos hmax, Deployment.topology,
      route_failed, List.mem_singleton] at hn
    rw [retry_headers, if_pos hmax, hn]
    exact placed_dlq fun _ => ⟨n, ⟨rfl, by omega⟩, fun id hid => tells_iff.mp hid ▸ hattempts⟩
  · rw [retry_exchange, if_neg hmax, retry_routing_key, if_neg hmax] at hn
    rw [retry_headers, if_neg hmax, route_queue hn]
    exact placed_retry (by omega) (counted_retry _ reason) fun id hid =>
      tells_iff.mp hid ▸ hattempts

theorem placed_published {s : Told} {exchange routing_key : String} {payload : JsonDict}
    {headers : Headers} {name : String} (h : Earned d w) (hs : Attempting p s w)
    (hmay : s.may d.container.consumer_config.CONSUMER_MAX_RETRIES
      (.publish exchange routing_key payload headers))
    (hfresh : exchange = EXCHANGE_PAYMENTS → headers = [])
    (hn : name ∈ d.topology.route exchange routing_key) :
    w.Placed d name ⟨payload, headers⟩ := by
  cases hd : s.duty with
  | none =>
      simp only [Told.may, hd] at hmay
      subst hmay
      rw [hfresh rfl, route_payments hn]
      exact placed_new ⟨0, retriable_fresh payload, fun _ _ => ⟨∅, rfl, by simp⟩⟩
  | some duty =>
      obtain ⟨hf, rfl, count, reason, hcount, rfl, rfl, rfl⟩ := Told.may_publish hd hmay
      exact placed_copy (h.jobs p _ _ (hs.job duty hd)) (hs.failed duty hd hf) hcount hn

theorem Earned.perform (h : Earned d w) (hn : Handover A w') (hl : Lasts w w') {s : Told}
    (hs : Attempting p s w) {e : Effect} {a : Answer} {result : Except Exn e.Result}
    (hmay : s.may d.container.consumer_config.CONSUMER_MAX_RETRIES e)
    (hp : World.perform d p e a w = some (result, w')) : Earned d w' := by
  have hscope := scope_perform hp
  cases e with
  | publish exchange routing_key payload headers =>
      have hfresh : exchange = EXCHANGE_PAYMENTS → headers = [] := by
        obtain ⟨m, hm, hexchange, hmessage⟩ := publish_recorded hp
        intro he
        obtain ⟨row, _, _, hrow⟩ := hn.announced m hm (hexchange.trans he)
        exact (Message.mk.inj (hmessage.symm.trans hrow)).2
      have hdelivered : Earned d (w.deliver (d.topology.route exchange routing_key)
          ⟨payload, headers⟩) :=
        earned_deliver h fun name hname => placed_published h hs hmay hfresh hname
      obtain ⟨_, rfl⟩ | ⟨_, w₁, _, rfl | rfl, rfl⟩ := perform_publish hp
      · exact hdelivered.same ⟨hl.log, hl.started⟩ rfl rfl rfl
      · exact h.same hl rfl rfl rfl
      · exact hdelivered.same ⟨hl.log, hl.started⟩ rfl rfl rfl
  | ack =>
      obtain ⟨_, rfl⟩ | ⟨_, _, rfl | rfl⟩ := perform_ack hp
      · exact earned_settle h
      · exact h.same hl rfl rfl rfl
      · exact (earned_settle h).same lasts_fail rfl rfl rfl
  | nack requeue =>
      obtain rfl | ⟨_, rfl | rfl⟩ := perform_refuse (.inl rfl) hp
      · exact h.same hl rfl rfl rfl
      · exact earned_refuse h requeue _
      · exact (earned_refuse h requeue _).same lasts_fail rfl rfl rfl
  | reject requeue =>
      obtain rfl | ⟨_, rfl | rfl⟩ := perform_refuse (.inr rfl) hp
      · exact h.same hl rfl rfl rfl
      · exact earned_refuse h requeue _
      · exact (earned_refuse h requeue _).same lasts_fail rfl rfl rfl
  | _ =>
      exact h.same hl (hscope.queues (by simp [Effect.kind]) (by simp [Effect.kind]))
        (hscope.unacked (by simp [Effect.kind])) hscope.jobs

-- A webhook that has failed is on record.
theorem failure_recorded {e : Effect} {a : Answer} {result : Except Exn e.Result}
    (hf : e.fails result = true) (h : World.perform d p e a w = some (result, w')) :
    p ∈ w'.log.failures ∨ ∃ request, e = .post request ∧ ∃ post ∈ w'.log.posts,
      post.pid = p ∧ post.request = request ∧
        ∀ code, post.status_code = some code → 400 ≤ code := by
  have hanswered : ∀ (w : World) returned, (w.answered p returned e).log.failures =
      w.log.failures := by
    intro w returned
    cases e <;> rfl
  cases a with
  | raised x carried_out =>
      left
      simp only [World.perform] at h
      split at h
      · cases carried_out with
        | none =>
            cases h
            rw [hanswered]
            exact List.mem_append_right _ (List.mem_singleton_self p)
        | some r =>
            obtain ⟨_, _, he⟩ := Option.map_eq_some_iff.mp h
            cases he
            rw [hanswered]
            exact List.mem_append_right _ (List.mem_singleton_self p)
      · cases h
  | reply r =>
      cases e with
      | execute stmt =>
          obtain ⟨_, _, _, _, _, _, _, rfl, _⟩ | ⟨_, _, _, _, _, _, rfl, _⟩ | ⟨_, w₁, _, _, rfl⟩ :=
            perform_execute h
          · cases stmt <;> cases hf
          · cases stmt <;> cases hf
          · exact .inl (List.mem_append_right _ (List.mem_singleton_self p))
      | post request =>
          right
          obtain ⟨⟨result', w₁⟩, hc, he⟩ := Option.map_eq_some_iff.mp h
          cases he
          refine ⟨request, rfl, ?_⟩
          cases r with
          | response peer status_code =>
              cases hc
              refine ⟨_, List.mem_append_right _ (List.mem_singleton_self _), rfl, rfl, ?_⟩
              rintro _ ⟨⟩
              exact of_decide_eq_true hf
          | dropped peer x =>
              cases hc
              refine ⟨_, List.mem_append_right _ (List.mem_singleton_self _), rfl, rfl, ?_⟩
              intro code hcode
              cases hcode
          | _ => cases hc
      | ack | nack | reject =>
          obtain ⟨⟨result', w₁⟩, hc, he⟩ := Option.map_eq_some_iff.mp h
          cases he
          cases r with
          | done | dead =>
              first
                | cases hc
                | obtain ⟨_, _, he⟩ := Option.map_eq_some_iff.mp hc
                  cases he
                  cases hf
          | _ => cases hc
      | _ =>
          obtain ⟨⟨result', w₁⟩, hc, he⟩ := Option.map_eq_some_iff.mp h
          cases he
          cases r <;> cases hc
          cases hf

-- What a consumer loads is what it was told of.
theorem load_told {s : Told} {duty : Duty} (hd : s.duty = some duty) {max_retries : ℤ}
    {e : Effect} {a : Answer} {result : Except Exn e.Result} (hmay : s.may max_retries e)
    (hp : World.perform d p e a w = some (result, w'))
    (hl : (duty.load e result).loaded = some id) :
    duty.loaded = some id ∨ id = duty.event.payment_id := by
  have hid : ∀ {asked : UUID}, s.id = some asked → asked = duty.event.payment_id := by
    intro asked ha
    rw [Told.id, hd] at ha
    exact (Option.some.inj ha).symm
  have hfind : ∀ {asked : UUID} {found : Option Payment}, s.id = some asked →
      (∀ payment, found = some payment → payment.id = asked) →
        (duty.find found).loaded = some id →
          duty.loaded = some id ∨ id = duty.event.payment_id := by
    intro asked found ha hf hl
    cases found with
    | none => exact .inl hl
    | some payment => exact .inr ((Option.some.inj hl).symm.trans ((hf payment rfl).trans (hid ha)))
  cases e with
  | execute stmt =>
      obtain ⟨time, ids, res, locks, writes, _, hv, rfl, _⟩ | ⟨_, _, _, _, _, _, rfl, _⟩ |
        ⟨_, _, rfl, _⟩ := perform_execute hp
      · cases stmt with
        | get_by_id asked =>
            cases hv
            exact hfind hmay (fun payment hf => Table.key_of_find? hf) hl
        | update_processing_outcome asked status processed_at =>
            refine hfind hmay (fun payment hf => ?_) hl
            subst hf
            obtain ⟨he, _⟩ | ⟨found, hfound, he, _⟩ := update_payment_succeeds hv
            · cases he
            · rw [Option.some.inj he, ← Table.key_of_find? hfound]
              rfl
        | _ => exact .inl hl
      · cases stmt <;> exact .inl hl
      · cases stmt <;> exact .inl hl
  | _ => exact .inl hl

theorem Attempting.lasts {s : Told} (h : Attempting p s w) (hl : Lasts w w')
    (hj : w'.jobs p = w.jobs p) : Attempting p s w' where
  job duty hd := hj.trans (h.job duty hd)
  loaded := h.loaded
  failed duty hd hf := (h.failed duty hd hf).lasts hl

theorem Attempting.call {s : Told} (h : Attempting p s w) (hl : Lasts w w') {max_retries : ℤ}
    {e : Effect} {a : Answer} {result : Except Exn e.Result} (hmay : s.may max_retries e)
    (hp : World.perform d p e a w = some (result, w')) : Attempting p (s.next e result) w' := by
  have h' := h.lasts hl (congrFun (scope_perform hp).jobs p)
  -- what it has now, and what it had before
  have hbefore : ∀ duty, (s.next e result).duty = some duty →
      ∃ before, s.duty = some before ∧ duty = before.load e result := by
    intro duty hd
    obtain ⟨before, hb, rfl⟩ := Option.map_eq_some_iff.mp hd
    exact ⟨before, hb, rfl⟩
  refine ⟨fun duty hd => ?_, fun duty hd id hid => ?_, fun duty hd hf => ?_⟩
  all_goals
    obtain ⟨before, hb, rfl⟩ := hbefore duty hd
    obtain ⟨hevent, hmsg⟩ := before.load_same e result
    rw [hevent]
  · rw [hmsg]
    exact h'.job before hb
  · exact (load_told hb hmay hp hid).elim (h.loaded before hb id) fun he => he
  · rcases Bool.or_eq_true_iff.mp hf with hf | hf
    · exact h'.failed before hb hf
    · refine ⟨⟨before.event, before.msg, h'.job before hb, rfl⟩, ?_⟩
      refine (failure_recorded hf hp).imp_right ?_
      rintro ⟨request, rfl, post, hpost, hpid, rfl, hcode⟩
      obtain ⟨duty', hd', hloaded⟩ := hmay
      obtain rfl := Option.some.inj (hb.symm.trans hd')
      exact ⟨post, hpost, hpid, h.loaded before hb _ hloaded, hcode⟩

end Worlds

section Runs

variable {d : Deployment} {A : Assumption Pid World Effect Answer} {c : SystemConfig}

end Runs

end PaymentsProcessor
