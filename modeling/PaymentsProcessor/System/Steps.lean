import PaymentsProcessor.Database.Lemmas
import PaymentsProcessor.System

namespace PaymentsProcessor

open Python Storage Concurrency PaymentsConstants World

-- The calls that leave the world as it is, the process's own failures apart.
def Effect.idle : Effect → Bool
  | .container_get _ | .flush | .sleep _ | .now | .uuid7 | .uniform .. | .random => true
  | _ => false

-- What a statement can have done that raised.
inductive Attempted (p : Pid) (stmt : Statement) (w : World) : World → Prop where
  | untouched : Attempted p stmt w w
  | aborted {w' : World} (h : Attempted p stmt w w') : Attempted p stmt w (w'.abort p)
  | failed {w' : World} (h : Attempted p stmt w w') : Attempted p stmt w (w'.fail p)
  | carried_out {time : DateTime} {ids : List UUID} {result : stmt.Result}
      {locks : List Resource} {writes : List Write} (ha : w.store.aborted p = false)
      (h : stmt.verdict w.store p time ids = .succeeds result locks writes) :
      Attempted p stmt w (w.take p locks writes)

section Perform

variable {d : Deployment} {p : Pid} {w w' : World} {a : Answer}

@[simp] theorem fetch_nil : w.fetch p [] = w := by
  simp [World.fetch]

@[simp] theorem commit_contents :
    (w.commit p).store.contents = (w.store.commit Write.writing p).contents := by
  unfold World.commit LockStore.commit
  split <;> rfl

@[simp] theorem commit_jobs : (w.commit p).jobs = w.jobs := by
  unfold World.commit
  split <;> rfl

@[simp] theorem commit_responses : (w.commit p).log.responses = w.log.responses := by
  unfold World.commit
  split <;> rfl

@[simp] theorem commit_writes_self : (w.commit p).store.writes p = [] := by
  unfold World.commit
  split <;> simp

theorem commit_fetched_self : (w.commit p).fetched p = [] := by
  unfold World.commit
  split <;> simp

private theorem reply_or_raised {e : Effect} {result : Except Exn e.Result}
    (h : perform d p e a w = some (result, w')) :
    (∃ r w₁, a = .reply r ∧ w.carry_out d p e r = some (result, w₁) ∧
        w' = (w₁.handed p e result).answered p result.isOk e) ∨
      ∃ x, result = .error x ∧ e.awaits ∧ (w' = (w.fail p).answered p false e ∨
        ∃ r result' w₁, w.carry_out d p e r = some (result', w₁) ∧
          w' = (w₁.fail p).answered p false e) := by
  unfold perform at h
  split at h
  · rename_i r
    obtain ⟨⟨result', w₁⟩, hc, he⟩ := Option.map_eq_some_iff.mp h
    cases he
    exact .inl ⟨r, w₁, rfl, hc, rfl⟩
  · right
    split at h
    · split at h
      · cases h
        exact ⟨_, rfl, ‹_›, .inl rfl⟩
      · rename_i r
        obtain ⟨⟨result', w₁⟩, hc, he⟩ := Option.map_eq_some_iff.mp h
        cases he
        exact ⟨_, rfl, ‹_›, .inr ⟨r, result', w₁, hc, rfl⟩⟩
    · cases h

theorem perform_idle {e : Effect} (he : e.idle) {result : Except Exn e.Result}
    (h : perform d p e a w = some (result, w')) :
    (∃ x, result = .ok x) ∧ w' = w ∨ (∃ x, result = .error x) ∧ w' = w.fail p := by
  have hcarry : ∀ r result' w₁, w.carry_out d p e r = some (result', w₁) →
      (∃ x, result' = .ok x) ∧ w₁ = w := by
    intro r result' w₁ hc
    cases e with
    | container_get | flush | sleep | now | uuid7 | uniform | random =>
        cases r <;> cases hc
        exact ⟨⟨_, rfl⟩, rfl⟩
    | _ => cases he
  have hrest : ∀ returned (w₁ : World), w₁.answered p returned e = w₁ := by
    intro returned w₁
    cases e <;> first | rfl | cases he
  have hhand : ∀ (w₁ : World), w₁.handed p e result = w₁ := by
    intro w₁
    cases e <;> first | rfl | cases he
  obtain ⟨r, w₁, rfl, hc, rfl⟩ | ⟨x, rfl, _, rfl | ⟨r, result', w₁, hc, rfl⟩⟩ := reply_or_raised h
  · rw [hrest, hhand]
    exact .inl (hcarry _ _ _ hc)
  · rw [hrest]
    exact .inr ⟨⟨x, rfl⟩, rfl⟩
  · rw [hrest, (hcarry _ _ _ hc).2]
    exact .inr ⟨⟨x, rfl⟩, rfl⟩

-- What is not awaited returns.
theorem perform_unawaited {e : Effect} (he : e.awaits = false) {result : Except Exn e.Result}
    (h : perform d p e a w = some (result, w')) : w' = w ∧ ∃ x, result = .ok x := by
  obtain ⟨r, w₁, rfl, hc, rfl⟩ | ⟨x, _, ha, _⟩ := reply_or_raised h
  · cases e with
    | now | uuid7 | uniform | random =>
        cases r <;> cases hc
        exact ⟨rfl, _, rfl⟩
    | _ => cases he
  · rw [he] at ha
    cases ha

private theorem handed_error (stmt : Statement) (x : Exn) :
    w.handed p (.execute stmt) (.error x) = w := by
  cases stmt <;> exact fetch_nil

theorem perform_execute {stmt : Statement} {result : Except Exn stmt.Result}
    (h : perform d p (.execute stmt) a w = some (result, w')) :
    (∃ time ids res locks writes, w.store.aborted p = false ∧
        stmt.verdict w.store p time ids = .succeeds res locks writes ∧ result = .ok res ∧
        w' = (w.take p locks writes).fetch p (fetches stmt (.ok res))) ∨
      (∃ time ids error, a = .reply (.executed time ids) ∧ w.store.aborted p = false ∧
        stmt.verdict w.store p time ids = .refuses error ∧
        result = .error (.IntegrityError (some error)) ∧ w' = w.abort p) ∨
      ∃ x w₁, result = .error x ∧ Attempted p stmt w w₁ ∧ w' = w₁.fail p := by
  have hexec : ∀ {time ids} {res : Except Exn stmt.Result} {w₁ : World},
      w.execute p stmt time ids = some (res, w₁) →
        (∃ x, res = .error x ∧ w₁ = w.fail p) ∨ w.store.aborted p = false ∧
          ((∃ error, stmt.verdict w.store p time ids = .refuses error ∧
            res = .error (.IntegrityError (some error)) ∧ w₁ = w.abort p) ∨
          (∃ x, res = .error x ∧ w₁ = (w.abort p).fail p) ∨
          ∃ r locks writes, stmt.verdict w.store p time ids = .succeeds r locks writes ∧
            res = .ok r ∧ w₁ = w.take p locks writes) := by
    intro time ids res w₁ he
    unfold World.execute at he
    split at he
    · cases he
      exact .inl ⟨_, rfl, rfl⟩
    rename_i ha
    refine .inr ⟨by simpa using ha, ?_⟩
    split at he <;> cases he
    · exact .inl ⟨_, ‹_›, rfl, rfl⟩
    · exact .inr (.inl ⟨_, rfl, rfl⟩)
    · exact .inr (.inr ⟨_, _, _, ‹_›, rfl, rfl⟩)
  obtain ⟨r, w₁, rfl, hc, rfl⟩ | ⟨x, rfl, _, rfl | ⟨r, result', w₁, hc, rfl⟩⟩ := reply_or_raised h
  · cases r with
    | executed time ids =>
        obtain ⟨x, rfl, rfl⟩ | ⟨ha, ⟨error, hv, rfl, rfl⟩ | ⟨x, rfl, rfl⟩ |
          ⟨res, locks, writes, hv, rfl, rfl⟩⟩ := hexec hc
        · exact .inr (.inr ⟨x, w, rfl, .untouched, handed_error stmt _⟩)
        · exact .inr (.inl ⟨time, ids, error, rfl, ha, hv, rfl, handed_error stmt _⟩)
        · exact .inr (.inr ⟨x, _, rfl, .aborted .untouched, handed_error stmt _⟩)
        · exact .inl ⟨time, ids, res, locks, writes, ha, hv, rfl, rfl⟩
    | broken x =>
        cases hc
        exact .inr (.inr ⟨x, _, rfl, .aborted .untouched, handed_error stmt _⟩)
    | _ => cases hc
  · exact .inr (.inr ⟨x, w, rfl, .untouched, rfl⟩)
  · refine .inr (.inr ⟨x, w₁, rfl, ?_, rfl⟩)
    cases r with
    | executed time ids =>
        obtain ⟨x, rfl, rfl⟩ | ⟨ha, ⟨error, hv, rfl, rfl⟩ | ⟨x, rfl, rfl⟩ |
          ⟨res, locks, writes, hv, rfl, rfl⟩⟩ := hexec hc
        · exact .failed .untouched
        · exact .aborted .untouched
        · exact .failed (.aborted .untouched)
        · exact .carried_out ha hv
    | broken x =>
        cases hc
        exact .failed (.aborted .untouched)
    | _ => cases hc

theorem perform_commit {result : Except Exn Unit}
    (h : perform d p .commit a w = some (result, w')) :
    result = .ok () ∧ w' = w.commit p ∨
      ∃ x, result = .error x ∧ (w' = w.fail p ∨ w' = (w.commit p).fail p) := by
  obtain ⟨r, w₁, rfl, hc, rfl⟩ | ⟨x, rfl, _, rfl | ⟨r, result', w₁, hc, rfl⟩⟩ := reply_or_raised h
  · cases r <;> cases hc
    exact .inl ⟨rfl, rfl⟩
  · exact .inr ⟨x, rfl, .inl rfl⟩
  · cases r <;> cases hc
    exact .inr ⟨x, rfl, .inr rfl⟩

theorem perform_close {result : Except Exn Unit}
    (h : perform d p .close a w = some (result, w')) :
    result = .ok () ∧ w' = w.rollback p ∨
      ∃ x, result = .error x ∧ (w' = w.fail p ∨ w' = (w.rollback p).fail p) := by
  obtain ⟨r, w₁, rfl, hc, rfl⟩ | ⟨x, rfl, _, rfl | ⟨r, result', w₁, hc, rfl⟩⟩ := reply_or_raised h
  · cases r <;> cases hc
    exact .inl ⟨rfl, rfl⟩
  · exact .inr ⟨x, rfl, .inl rfl⟩
  · cases r <;> cases hc
    exact .inr ⟨x, rfl, .inr rfl⟩

theorem perform_publish {exchange routing_key : String} {payload : JsonDict} {headers : Headers}
    {result : Except Exn Unit}
    (h : perform d p (.publish exchange routing_key payload headers) a w = some (result, w')) :
    result = .ok () ∧
        w' = (w.deliver (d.topology.route exchange routing_key) ⟨payload, headers⟩).record
          ⟨p, exchange, routing_key, ⟨payload, headers⟩, true⟩ ∨
      ∃ x w₁, result = .error x ∧
        (w₁ = w ∨ w₁ = w.deliver (d.topology.route exchange routing_key) ⟨payload, headers⟩) ∧
        w' = (w₁.fail p).record ⟨p, exchange, routing_key, ⟨payload, headers⟩, false⟩ := by
  obtain ⟨r, w₁, rfl, hc, rfl⟩ | ⟨x, rfl, _, rfl | ⟨r, result', w₁, hc, rfl⟩⟩ := reply_or_raised h
  · cases r <;> cases hc
    exact .inl ⟨rfl, rfl⟩
  · exact .inr ⟨x, w, rfl, .inl rfl, rfl⟩
  · cases r <;> cases hc
    exact .inr ⟨x, _, rfl, .inr rfl, rfl⟩

theorem perform_ack {result : Except Exn Unit}
    (h : perform d p .ack a w = some (result, w')) :
    result = .ok () ∧ w' = w.settle p ∨
      ∃ x, result = .error x ∧ (w' = w.fail p ∨ w' = (w.settle p).fail p) := by
  have hcarry : ∀ r result' w₁, w.carry_out d p .ack r = some (result', w₁) →
      result' = .ok () ∧ w₁ = w.settle p := by
    intro r result' w₁ hc
    cases r with
    | done =>
        obtain ⟨m, _, he⟩ := Option.map_eq_some_iff.mp hc
        cases he
        exact ⟨rfl, rfl⟩
    | _ => cases hc
  obtain ⟨r, w₁, rfl, hc, rfl⟩ | ⟨x, rfl, _, rfl | ⟨r, result', w₁, hc, rfl⟩⟩ := reply_or_raised h
  · obtain ⟨rfl, rfl⟩ := hcarry _ _ _ hc
    exact .inl ⟨rfl, rfl⟩
  · exact .inr ⟨x, rfl, .inl rfl⟩
  · obtain ⟨rfl, rfl⟩ := hcarry _ _ _ hc
    exact .inr ⟨x, rfl, .inr rfl⟩

-- Refusing a message is one call under two names.
theorem perform_refuse {e : Effect} {requeue : Bool} (he : e = .nack requeue ∨ e = .reject requeue)
    {result : Except Exn e.Result} (h : perform d p e a w = some (result, w')) :
    w' = w.fail p ∨ ∃ x_death, w' = w.refuse d p requeue x_death ∨
      w' = (w.refuse d p requeue x_death).fail p := by
  have hcarry : ∀ r result' w₁, w.carry_out d p e r = some (result', w₁) →
      ∃ x_death, w₁ = w.refuse d p requeue x_death := by
    intro r result' w₁ hc
    rcases he with rfl | rfl
    all_goals
      cases r with
      | dead x_death =>
          obtain ⟨m, _, he⟩ := Option.map_eq_some_iff.mp hc
          cases he
          exact ⟨x_death, rfl⟩
      | _ => cases hc
  have hrest : ∀ returned (w₁ : World), w₁.answered p returned e = w₁ := by
    intro returned w₁
    rcases he with rfl | rfl <;> rfl
  have hhand : ∀ (w₁ : World), w₁.handed p e result = w₁ := by
    intro w₁
    rcases he with rfl | rfl <;> rfl
  obtain ⟨r, w₁, rfl, hc, rfl⟩ | ⟨x, rfl, _, rfl | ⟨r, result', w₁, hc, rfl⟩⟩ := reply_or_raised h
  · obtain ⟨x_death, rfl⟩ := hcarry _ _ _ hc
    rw [hrest, hhand]
    exact .inr ⟨x_death, .inl rfl⟩
  · rw [hrest]
    exact .inl rfl
  · obtain ⟨x_death, rfl⟩ := hcarry _ _ _ hc
    rw [hrest]
    exact .inr ⟨x_death, .inr rfl⟩

theorem perform_getaddrinfo {host : String} {port : Option ℕ}
    {result : Except Exn (List AddrInfo)}
    (h : perform d p (.getaddrinfo host port) a w = some (result, w')) :
    (∃ infos, result = .ok infos ∧ w' = w.lookup p infos) ∨
      ∃ x, result = .error x ∧ (w' = w.fail p ∨ ∃ infos, w' = (w.lookup p infos).fail p) := by
  obtain ⟨r, w₁, rfl, hc, rfl⟩ | ⟨x, rfl, _, rfl | ⟨r, result', w₁, hc, rfl⟩⟩ := reply_or_raised h
  · cases r <;> cases hc
    exact .inl ⟨_, rfl, rfl⟩
  · exact .inr ⟨x, rfl, .inl rfl⟩
  · cases r <;> cases hc
    exact .inr ⟨x, rfl, .inr ⟨_, rfl⟩⟩

theorem perform_post {request : HttpRequest} {result : Except Exn HttpResponse}
    (h : perform d p (.post request) a w = some (result, w')) :
    (∃ peer status_code, result = .ok ⟨status_code⟩ ∧
        w' = w.post p request (some peer) (some status_code)) ∨
      ∃ x, result = .error x ∧ (w' = w.fail p ∨ ∃ peer status_code,
        w' = w.post p request peer status_code ∨ w' = (w.post p request peer status_code).fail p) := by
  obtain ⟨r, w₁, rfl, hc, rfl⟩ | ⟨x, rfl, _, rfl | ⟨r, result', w₁, hc, rfl⟩⟩ := reply_or_raised h
  · cases r with
    | response peer status_code =>
        cases hc
        exact .inl ⟨peer, status_code, rfl, rfl⟩
    | dropped peer e =>
        cases hc
        exact .inr ⟨e, rfl, .inr ⟨peer, none, .inl rfl⟩⟩
    | _ => cases hc
  · exact .inr ⟨x, rfl, .inl rfl⟩
  · cases r with
    | response peer status_code =>
        cases hc
        exact .inr ⟨x, rfl, .inr ⟨some peer, some status_code, .inr rfl⟩⟩
    | dropped peer e =>
        cases hc
        exact .inr ⟨x, rfl, .inr ⟨peer, none, .inr rfl⟩⟩
    | _ => cases hc

theorem perform_respond {response : Response} {result : Except Exn Unit}
    (h : perform d p (.respond response) a w = some (result, w')) :
    w' = w.respond p response ∨ w' = w.fail p ∨ w' = (w.respond p response).fail p := by
  obtain ⟨r, w₁, rfl, hc, rfl⟩ | ⟨x, rfl, _, rfl | ⟨r, result', w₁, hc, rfl⟩⟩ := reply_or_raised h
  · cases r <;> cases hc
    exact .inl rfl
  · exact .inr (.inl rfl)
  · cases r <;> cases hc
    exact .inr (.inr rfl)

end Perform

section Events

variable {d : Deployment} {p : Pid} {w w' : World}

-- What a launch does, by the job of the process.
theorem launch_cases {l : Launch} {prog : Async Unit} (h : launch d p l w = some (prog, w')) :
    w.jobs p = none ∧
      ((∃ request, prog = create_payment d.container request ∧
          w' = w.start p (.request request)) ∨
        (∃ config,
          prog = _run_iteration { d.container with outbox_dispatcher_config := config } config ∧
            w' = w.start p (.batch config)) ∨
        ∃ index msg event, (w.queues QUEUE_PAYMENTS_NEW)[index]? = some msg ∧
          PaymentCreatedEvent.decode msg.payload = some event ∧
          prog = _entrypoint d.container event msg ∧
          w' = ((w.start p (.delivery event msg)).remove QUEUE_PAYMENTS_NEW index).receive p
            msg) := by
  unfold launch at h
  split at h
  · cases h
  · cases h
    exact ⟨‹_›, .inl ⟨_, rfl, rfl⟩⟩
  · cases h
    exact ⟨‹_›, .inr (.inl ⟨_, rfl, rfl⟩)⟩
  · rename_i index hj
    obtain ⟨msg, hm, h⟩ := Option.bind_eq_some_iff.mp h
    obtain ⟨event, hd, h⟩ := Option.bind_eq_some_iff.mp h
    cases h
    exact ⟨hj, .inr (.inr ⟨index, msg, event, hm, hd, rfl, rfl⟩)⟩

-- A process starts in the tables and the log as they are.
theorem launch_same {l : Launch} {prog : Async Unit} (h : launch d p l w = some (prog, w')) :
    w'.store = w.store ∧ w'.fetched = w.fetched ∧ w'.log = w.log := by
  obtain ⟨_, ⟨_, _, rfl⟩ | ⟨_, _, rfl⟩ | ⟨_, _, _, _, _, _, rfl⟩⟩ := launch_cases h
  all_goals exact ⟨rfl, rfl, rfl⟩

-- Taking a message back changes only where messages are.
theorem requeue_same : (w.requeue p).store = w.store ∧ (w.requeue p).fetched = w.fetched ∧
    (w.requeue p).jobs = w.jobs ∧ (w.requeue p).log = w.log := by
  unfold requeue
  split <;> exact ⟨rfl, rfl, rfl, rfl⟩

theorem crash_same : (w.crash p).store = (w.rollback p).store ∧
    (w.crash p).fetched = (w.rollback p).fetched ∧ (w.crash p).jobs = w.jobs ∧
      (w.crash p).log = ((w.rollback p).fail p).log := by
  obtain ⟨hs, hf, hj, hl⟩ := @requeue_same p (w.rollback p)
  refine ⟨hs, hf, hj, ?_⟩
  simp only [crash, fail, hl]

theorem tick_cases {t : Tick} (h : tick d t w = some w') :
    (∃ name index x_death queue msg, d.topology.queue? name = some queue ∧
        queue.message_ttl.isSome ∧ (w.queues name)[index]? = some msg ∧
        w' = (w.remove name index).deliver (d.topology.deadLetterRoute name)
          (msg.with_x_death x_death)) ∨
      ∃ pid, w' = w.requeue pid := by
  unfold tick at h
  split at h
  · obtain ⟨queue, hq, h⟩ := Option.bind_eq_some_iff.mp h
    obtain ⟨ttl, ht, h⟩ := Option.bind_eq_some_iff.mp h
    obtain ⟨msg, hm, h⟩ := Option.bind_eq_some_iff.mp h
    cases h
    exact .inl ⟨_, _, _, queue, msg, hq, by simp [ht], hm, rfl⟩
  · cases h
    exact .inr ⟨_, rfl⟩

theorem tick_same {t : Tick} (h : tick d t w = some w') :
    w'.store = w.store ∧ w'.fetched = w.fetched ∧ w'.jobs = w.jobs ∧ w'.log = w.log := by
  obtain ⟨_, _, _, _, _, _, _, _, rfl⟩ | ⟨pid, rfl⟩ := tick_cases h
  · exact ⟨rfl, rfl, rfl, rfl⟩
  · exact requeue_same

end Events

end PaymentsProcessor
