import PaymentsProcessor.Concurrency.Discipline
import PaymentsProcessor.Consumer.Handling
import PaymentsProcessor.System.Processes

namespace PaymentsProcessor

open Python Concurrency PaymentsConstants

-- What a consumer was handed, and which payment it has loaded.
structure Duty where
  event : PaymentCreatedEvent
  msg : Message
  loaded : Option UUID

-- Where a process stands: its duty, if it is a consumer, whether anything has told
-- it that there is no such payment, and whether it has failed to notify.
structure Told where
  duty : Option Duty
  missing : Bool
  failed : Bool

-- The answers that say that a payment is not there.
def Effect.denies : (e : Effect) → Except Exn e.Result → Bool
  | .execute (.get_by_id _), .ok none => true
  | .execute (.update_processing_outcome ..), .ok none => true
  | _, .error x => x.isinstance .PaymentNotFoundError
  | _, .ok _ => false

-- The answers by which a webhook fails.
def Effect.fails : (e : Effect) → Except Exn e.Result → Bool
  | .post _, .ok response => 400 ≤ response.status_code
  | .post _, .error _ => true
  | _, .error x => x.isinstance .WebhookSendError
  | _, .ok _ => false

theorem denies_error (e : Effect) (x : Exn) :
    e.denies (.error x) = x.isinstance .PaymentNotFoundError := by
  unfold Effect.denies
  split <;> simp_all

theorem fails_error (e : Effect) {x : Exn} (h : x.isinstance .WebhookSendError) :
    e.fails (.error x) = true := by
  unfold Effect.fails
  split <;> simp_all

def Duty.find (duty : Duty) : Option Payment → Duty
  | some payment => { duty with loaded := some payment.id }
  | none => duty

def Duty.load (duty : Duty) : (e : Effect) → Except Exn e.Result → Duty
  | .execute (.get_by_id _), .ok found => duty.find found
  | .execute (.update_processing_outcome ..), .ok found => duty.find found
  | _, _ => duty

theorem Duty.find_same (duty : Duty) (found : Option Payment) :
    (duty.find found).event = duty.event ∧ (duty.find found).msg = duty.msg := by
  cases found <;> exact ⟨rfl, rfl⟩

-- Loading changes nothing of what was handed over.
theorem Duty.load_same (duty : Duty) (e : Effect) (r : Except Exn e.Result) :
    (duty.load e r).event = duty.event ∧ (duty.load e r).msg = duty.msg := by
  unfold Duty.load
  split
  · exact duty.find_same _
  · exact duty.find_same _
  · exact ⟨rfl, rfl⟩

namespace Told

def id (s : Told) : Option UUID := s.duty.map (·.event.payment_id)

-- A consumer asks for the payment that it was told of, and notifies of the one that
-- it has loaded. It passes its message on only after it has failed to notify, and
-- rejects it only for a payment that is not there.
def may (max_retries : ℤ) (s : Told) : Effect → Prop
  | .publish exchange routing_key payload headers =>
      match s.duty with
      | none => exchange = EXCHANGE_PAYMENTS
      | some duty => s.failed = true ∧ ∃ count reason,
          get_retry_count (some duty.msg.headers) = .ok count ∧
            Effect.publish exchange routing_key payload headers =
              retry_copy duty.event count max_retries reason
  | .execute (.get_by_id id) | .execute (.update_processing_outcome id ..) => s.id = some id
  | .post request => ∃ duty, s.duty = some duty ∧
      duty.loaded = some request.content.payload.payment_id
  | .reject _ => s.missing = true
  | _ => True

def next (s : Told) (e : Effect) (r : Except Exn e.Result) : Told where
  duty := s.duty.map fun duty => duty.load e r
  missing := s.missing || e.denies r
  failed := s.failed || e.fails r

theorem next_id (s : Told) (e : Effect) (r : Except Exn e.Result) : (s.next e r).id = s.id := by
  simp [Told.id, next, Function.comp_def, Duty.load_same]

def discipline (max_retries : ℤ) : Discipline Effect.Result Exn Told := ⟨may max_retries, next⟩

theorem may_publish {max_retries : ℤ} {s : Told} {duty : Duty} {exchange routing_key : String}
    {payload : JsonDict} {headers : Headers} (hs : s.duty = some duty)
    (h : s.may max_retries (.publish exchange routing_key payload headers)) :
    s.failed = true ∧ payload = event_payload duty.event.payment_id ∧ ∃ count reason,
      get_retry_count (some duty.msg.headers) = .ok count ∧
        exchange = retry_exchange count max_retries ∧
          routing_key = retry_routing_key count max_retries ∧
            headers = retry_headers count max_retries reason := by
  simp only [may, hs] at h
  obtain ⟨hf, count, reason, hcount, he⟩ := h
  cases he
  exact ⟨hf, rfl, count, reason, hcount, rfl, rfl, rfl⟩

-- What is raised was brought about by an answer.
structure Explains (s : Told) (x : Exn) : Prop where
  missing : x.isinstance .PaymentNotFoundError → s.missing = true
  failed : x.isinstance .WebhookSendError → s.failed = true

def Fair {α : Type} (duty : Duty) (r : Except Exn α) (s : Told) : Prop :=
  s.duty = some duty ∧ ∀ x, r = .error x → s.Explains x

theorem Fair.ok {α : Type} {duty : Duty} {s : Told} (hs : s.duty = some duty) (a : α) :
    Fair duty (.ok a) s := ⟨hs, fun _ hr => by cases hr⟩

theorem Fair.error {α : Type} {duty : Duty} {s : Told} {x : Exn} (hs : s.duty = some duty)
    (hx : s.Explains x) : Fair duty (.error x : Except Exn α) s :=
  ⟨hs, fun _ hr => by cases hr; exact hx⟩

theorem Fair.explains {α : Type} {duty : Duty} {s : Told} {x : Exn}
    (h : Fair duty (.error x : Except Exn α) s) : s.Explains x := h.2 x rfl

-- The exception goes on as it is.
theorem Fair.raise {α β : Type} {duty : Duty} {s : Told} {x : Exn}
    (h : Fair duty (.error x : Except Exn α) s) : Fair duty (.error x : Except Exn β) s :=
  .error h.1 h.explains

theorem Explains.next {s : Told} {x : Exn} (h : s.Explains x) (e : Effect)
    (r : Except Exn e.Result) : (s.next e r).Explains x :=
  ⟨fun hx => by simp [Told.next, h.missing hx], fun hx => by simp [Told.next, h.failed hx]⟩

end Told

section Errors

variable {x : Exn}

-- The exceptions that say nothing of payments or webhooks.
structure Exn.Plain (x : Exn) : Prop where
  found : x.isinstance .PaymentNotFoundError = false
  sent : x.isinstance .WebhookSendError = false

theorem plain_python (e : PyError) : (Exn.python e).Plain := by
  cases e <;> exact ⟨rfl, rfl⟩

theorem Exn.Plain.explained (h : x.Plain) (s : Told) : s.Explains x :=
  ⟨fun hx => absurd (h.found ▸ hx) Bool.false_ne_true,
    fun hx => absurd (h.sent ▸ hx) Bool.false_ne_true⟩

theorem parse_host_plain {guard : SSRFGuard} {url : String}
    (h : guard.parse_host url = .error x) : x.Plain := by
  unfold SSRFGuard.parse_host at h
  cases hp : UrlParse.urlparse guard.unicode url with
  | error e =>
      rw [hp] at h
      cases h
      exact plain_python e
  | ok parsed =>
      rw [hp] at h
      simp only [Except.mapError, bind, Except.bind] at h
      split at h
      · cases h
        exact ⟨rfl, rfl⟩
      · split at h
        · cases h
          exact ⟨rfl, rfl⟩
        · split at h <;> cases h
          exact ⟨rfl, rfl⟩

theorem check_infos_plain {url : String} {infos : List AddrInfo}
    (h : SSRFGuard.check_infos url infos = .error x) : x.Plain := by
  induction infos with
  | nil => cases h
  | cons info infos ih =>
      unfold SSRFGuard.check_infos at h
      split at h
      · exact ih h
      · rename_i raw _
        cases hn : SSRFGuard._normalize_ip raw with
        | error e =>
            rw [hn] at h
            cases h
            exact plain_python e
        | ok ip =>
            rw [hn] at h
            simp only [Except.mapError, bind, Except.bind] at h
            split at h
            · cases h
              exact ⟨rfl, rfl⟩
            · exact ih h

end Errors

section Others

-- Requests and batches have no duty, and publish as the outbox does.
theorem told_others {s : Told} {max_retries : ℤ} {prog : Async Unit} (hs : s.duty = none)
    (h : prog.Only fun e => e.ofRequest ∨ e.ofDispatcher) :
    (Told.discipline max_retries).Follows (fun _ _ => True) s prog := by
  refine (Discipline.Follows.only (I := fun s => s.duty = none) h (fun e he s hs => ?_) hs).mono
    fun _ _ _ => trivial
  refine ⟨?_, fun _ => by simp [Told.discipline, Told.next, hs]⟩
  cases e with
  | execute stmt =>
      cases stmt with
      | get_by_id | update_processing_outcome => exact he.elim False.elim False.elim
      | _ => trivial
  | publish exchange routing_key payload headers =>
      simp only [Told.discipline, Told.may, hs]
      exact he.elim False.elim fun h => h
  | post | reject => exact he.elim False.elim False.elim
  | _ => trivial

end Others

section Consumers

variable {s : Told} {duty : Duty} {c : Container} {max_retries : ℤ} {α β : Type}

theorem explains_error (s : Told) (e : Effect) (x : Exn) : (s.next e (.error x)).Explains x := by
  refine ⟨fun hx => ?_, fun hx => ?_⟩
  · simp [Told.next, denies_error, hx]
  · simp [Told.next, fails_error e hx]

theorem fair_next (e : Effect) (hs : s.duty = some duty) (r : Except Exn e.Result) :
    Told.Fair (duty.load e r) r (s.next e r) := by
  refine ⟨by simp [Told.next, hs], fun x hr => ?_⟩
  subst hr
  exact explains_error s e x

theorem fair_throw {x : Exn} (hs : s.duty = some duty) (hx : s.Explains x) :
    (Told.discipline max_retries).Follows (Told.Fair duty) s (Prog.ret (.error x) : Async α) :=
  .ret (.error hs hx)

theorem fair_return (a : α) (hs : s.duty = some duty) :
    (Told.discipline max_retries).Follows (Told.Fair duty) s (Prog.ret (.ok a) : Async α) :=
  .ret (.ok hs a)

theorem fair_bind {p : Async α} {f : α → Async β}
    (hp : (Told.discipline max_retries).Follows (Told.Fair duty) s p)
    (hf : ∀ a s', s'.duty = some duty →
      (Told.discipline max_retries).Follows (Told.Fair duty) s' (f a)) :
    (Told.discipline max_retries).Follows (Told.Fair duty) s (p.bind f) :=
  .bind hp (fun a s' h => hf a s' h.1) fun _ _ h => h.raise

-- Calls that say nothing of messages, and load nothing, may be made anywhere.
def Effect.tacit : Effect → Prop
  | .publish .. | .post _ | .reject _ => False
  | .execute (.get_by_id _) | .execute (.update_processing_outcome ..) => False
  | _ => True

theorem fair_tacit {e : Effect} (h : e.tacit) (hs : s.duty = some duty) :
    (Told.discipline max_retries).Follows (Told.Fair duty) s
      (Prog.perform e : Async e.Result) := by
  have hload : ∀ r, duty.load e r = duty := by
    intro r
    cases e with
    | execute stmt =>
        cases stmt with
        | get_by_id | update_processing_outcome => exact h.elim
        | _ => rfl
    | _ => rfl
  refine .perform ?_ fun r => hload r ▸ fair_next e hs r
  cases e with
  | execute stmt =>
      cases stmt with
      | get_by_id | update_processing_outcome => exact h.elim
      | _ => trivial
  | publish | post | reject => exact h.elim
  | _ => trivial

theorem fair_catch {p : Async α} {handler : Exn → Async α}
    (hp : (Told.discipline max_retries).Follows (Told.Fair duty) s p)
    (hx : ∀ x s', s'.duty = some duty → s'.Explains x →
      (Told.discipline max_retries).Follows (Told.Fair duty) s' (handler x)) :
    (Told.discipline max_retries).Follows (Told.Fair duty) s (tryCatch p handler : Async α) :=
  .tryCatch hp (fun _ _ h => h) fun x s' h => hx x s' h.1 h.explains

theorem fair_python (r : Except PyError α) (hs : s.duty = some duty) :
    (Told.discipline max_retries).Follows (Told.Fair duty) s (ofPython r) := by
  cases r with
  | ok a => exact fair_return a hs
  | error e => exact fair_throw hs ((plain_python e).explained s)

variable (hs : s.duty = some duty)
include hs

theorem validate_url_fair (guard : SSRFGuard) (url : String) :
    (Told.discipline max_retries).Follows (Told.Fair duty) s (guard.validate_url url) := by
  refine fair_bind ?_ fun x s₁ h₁ => ?_
  · cases hp : guard.parse_host url with
    | ok found => exact fair_return found hs
    | error x => exact fair_throw hs ((parse_host_plain hp).explained s)
  · refine .ite (fun _ => fair_return () h₁) fun _ => fair_bind ?_ fun infos s₂ h₂ => ?_
    · refine fair_catch (fair_bind (fair_python _ h₁) fun port s' h' => ?_) fun x s' h' hx => ?_
      · exact fair_tacit (e := Effect.getaddrinfo x.2 port) trivial h'
      · refine .ite (fun _ => fair_throw h' ?_) fun _ => fair_throw h' hx
        exact Exn.Plain.explained ⟨rfl, rfl⟩ s'
    · cases hc : SSRFGuard.check_infos url infos with
      | ok found => exact fair_return found h₂
      | error x => exact fair_throw h₂ ((check_infos_plain hc).explained s₂)

-- A webhook that is not accepted has failed.
theorem post_fair {payment : Payment} {request : HttpRequest}
    (hl : duty.loaded = some request.content.payload.payment_id) :
    (Told.discipline max_retries).Follows
      (fun r s' => Told.Fair duty r s' ∧ ∀ response : HttpResponse, r = .ok response →
        400 ≤ response.status_code → s'.failed = true) s
      (tryCatch (Async.post request) fun x =>
        match x with
        | .RequestError name _ => throw (.WebhookSendError payment.id name none)
        | x => throw x) := by
  refine .tryCatch (R := fun r s' => Told.Fair duty r s' ∧ (r.isOk = false → s'.failed = true) ∧
    ∀ response : HttpResponse, r = .ok response → 400 ≤ response.status_code →
      s'.failed = true) ?_ (fun _ _ h => ⟨h.1, h.2.2⟩) fun x s' h => ?_
  · refine .perform (e := Effect.post request) ⟨duty, hs, hl⟩ fun r =>
      ⟨fair_next (.post request) hs r, fun hr => ?_, fun response hr hcode => ?_⟩
    · cases r with
      | ok _ => cases hr
      | error _ => simp [Told.discipline, Told.next, Effect.fails]
    · subst hr
      simp [Told.discipline, Told.next, Effect.fails, hcode]
  · obtain ⟨⟨hduty, hx⟩, hfailed, _⟩ := h
    cases x with
    | RequestError name =>
        exact .ret ⟨.error hduty ⟨nofun, fun _ => hfailed rfl⟩, fun _ hr => by cases hr⟩
    | _ => exact .ret ⟨⟨hduty, hx⟩, fun _ hr => by cases hr⟩

theorem send_fair (service : WebhookService) {payment : Payment}
    (hl : duty.loaded = some payment.id) :
    (Told.discipline max_retries).Follows (Told.Fair duty) s (service.send payment) := by
  refine fair_bind (validate_url_fair hs _ _) fun _ s₁ h₁ => ?_
  refine fair_bind (fair_tacit (e := Effect.uuid7) trivial h₁) fun event_id s₂ h₂ => ?_
  refine fair_bind (fair_tacit (e := Effect.now) trivial h₂) fun now s₃ h₃ => ?_
  refine .bind (post_fair h₃ hl) (fun response s₄ h₄ => .ite (fun hcode => ?_) fun _ => ?_)
    fun x s₄ h₄ => h₄.1.raise
  · exact fair_throw h₄.1.1 ⟨nofun, fun _ => h₄.2 response rfl hcode⟩
  · exact fair_return () h₄.1.1

-- A consumer that has failed to notify passes its message on.
theorem retry_or_dlq_fair (hf : s.failed = true) (reason : String) :
    (Told.discipline max_retries).Follows (Told.Fair duty) s
      (_retry_or_dlq duty.msg duty.event reason max_retries) := by
  unfold _retry_or_dlq
  cases hcount : get_retry_count (some duty.msg.headers) with
  | error e => exact fair_throw hs ((plain_python e).explained s)
  | ok count =>
      have hcopy : ∀ exchange routing_key headers, Effect.publish exchange routing_key
          (event_payload duty.event.payment_id) headers =
            retry_copy duty.event count max_retries reason →
          (Told.discipline max_retries).Follows (Told.Fair duty) s
            (Async.publish exchange routing_key (event_payload duty.event.payment_id) headers) := by
        intro exchange routing_key headers he
        refine .perform (e := Effect.publish ..) ?_ fun r => fair_next (.publish ..) hs r
        simp only [Told.discipline, Told.may, hs]
        exact ⟨hf, count, reason, hcount, he⟩
      refine .ite (fun h => hcopy _ _ _ ?_) fun h => hcopy _ _ _ ?_
      · simp only [retry_copy, retry_exchange, retry_routing_key, retry_headers, if_pos h,
          Option.getD_some]
      · simp only [retry_copy, retry_exchange, retry_routing_key, retry_headers, if_neg h,
          Option.getD_some]

-- A payment that a consumer gets is the one that it has loaded.
def Told.Loads (duty : Duty) (r : Except Exn Payment) (s : Told) : Prop :=
  ∃ loaded, Told.Fair { duty with loaded := loaded } r s ∧
    ∀ payment, r = .ok payment → loaded = some payment.id

omit hs in
theorem Told.Fair.loads {loaded : Option UUID} {x : Exn}
    (h : Told.Fair { duty with loaded := loaded } (.error x : Except Exn α) s) :
    Told.Loads duty (.error x) s := ⟨loaded, h.raise, fun _ hr => by cases hr⟩

omit hs in
theorem loads_return {payment : Payment}
    (h : s.duty = some { duty with loaded := some payment.id }) :
    Told.Loads duty (.ok payment) s := ⟨_, .ok h payment, fun _ hr => by cases hr; rfl⟩

omit hs in
theorem found_fair (found : Option Payment) :
    s.duty = some (duty.find found) → (found = none → s.missing = true) →
      (Told.discipline max_retries).Follows (Told.Loads duty) s (match found with
        | none => throw (.PaymentNotFoundError duty.event.payment_id)
        | some payment => return payment) := by
  intro hd hm
  cases found with
  | none =>
      have hfair : Told.Fair duty (.error (.PaymentNotFoundError duty.event.payment_id) :
          Except Exn Payment) s := .error hd ⟨fun _ => hm rfl, nofun⟩
      exact .ret hfair.loads
  | some payment => exact .ret (loads_return hd)

theorem get_payment_fair :
    (Told.discipline max_retries).Follows (Told.Loads duty) s
      (PaymentService.get_payment duty.event.payment_id) := by
  refine .bind (R := fun r s' => Told.Fair (duty.load (.execute (.get_by_id _)) r) r s' ∧
      (r = .ok none → s'.missing = true))
    (.perform (e := Effect.execute (.get_by_id duty.event.payment_id)) ?_ fun r => ?_)
    (fun found s' h => found_fair found h.1.1 fun hf => h.2 (by rw [hf])) fun x s' h => h.1.loads
  · simp [Told.discipline, Told.may, Told.id, hs]
  · refine ⟨fair_next (.execute (.get_by_id _)) hs r, fun hr => ?_⟩
    subst hr
    simp [Told.discipline, Told.next, Effect.denies]

theorem apply_processing_outcome_fair (outcome : ProcessingOutcomeEnum) :
    (Told.discipline max_retries).Follows (Told.Loads duty) s
      (PaymentService.apply_processing_outcome duty.event.payment_id outcome) := by
  refine .bind (fair_tacit (e := Effect.now) trivial hs) (fun time s₁ h₁ => ?_)
    fun x s' h => h.loads
  refine .bind (R := fun r s' =>
      Told.Fair (duty.load (.execute (.update_processing_outcome duty.event.payment_id
        (PaymentService.outcome_status outcome) time)) r) r s' ∧ (r = .ok none → s'.missing = true))
    (.perform (e := Effect.execute (.update_processing_outcome duty.event.payment_id _ time)) ?_
      fun r => ?_)
    (fun found s' h => found_fair found h.1.1 fun hf => h.2 (by rw [hf])) fun x s' h => h.1.loads
  · simp [Told.discipline, Told.may, Told.id, h₁.1]
  · refine ⟨fair_next (.execute (.update_processing_outcome _ _ time)) h₁.1 r, fun hr => ?_⟩
    subst hr
    simp [Told.discipline, Told.next, Effect.denies]

omit hs in
theorem loads_bind {p : Async Payment} {f : Payment → Async Payment}
    (hp : (Told.discipline max_retries).Follows (Told.Loads duty) s p)
    (hf : ∀ payment s', s'.duty = some { duty with loaded := some payment.id } →
      (Told.discipline max_retries).Follows (Told.Loads duty) s' (f payment)) :
    (Told.discipline max_retries).Follows (Told.Loads duty) s (p.bind f) := by
  refine .bind hp (fun payment s' ⟨loaded, h, hl⟩ => ?_) fun x s' ⟨loaded, h, _⟩ => ?_
  · exact hf payment s' (hl payment rfl ▸ h.1)
  · exact h.loads

theorem processed_payment_fair :
    (Told.discipline max_retries).Follows (Told.Loads duty) s
      (processed_payment c duty.event) := by
  refine loads_bind (get_payment_fair hs) fun payment s₁ h₁ => .ite (fun _ => ?_)
    fun _ => .ret (loads_return h₁)
  have hprocess : (Told.discipline max_retries).Follows
      (Told.Fair { duty with loaded := some payment.id }) s₁ c.processing_service.process := by
    refine fair_bind (fair_tacit (e := Effect.uniform ..) trivial h₁) fun _ s' h' => ?_
    refine fair_bind (fair_tacit (e := Effect.sleep _) trivial h') fun _ s'' h'' => ?_
    exact fair_bind (fair_tacit (e := Effect.random) trivial h'') fun _ _ h => fair_return _ h
  refine .bind hprocess (fun outcome s₂ h₂ => ?_)
    fun x s' h => h.loads
  refine .bind (apply_processing_outcome_fair h₂.1 outcome) (fun payment s₃ h₃ => ?_)
    fun x s' ⟨loaded, h, _⟩ => h.loads
  obtain ⟨loaded, h₃, hl⟩ := h₃
  rw [hl payment rfl] at h₃
  exact .bind (fair_tacit (e := Effect.commit) trivial h₃.1)
    (fun _ s₄ h₄ => .ret (loads_return h₄.1)) fun x s' h => h.loads

-- What a consumer ends with has its reasons.
theorem in_container_fair :
    (Told.discipline max_retries).Follows (fun r s' => ∀ x, r = .error x → s'.Explains x) s
      (in_container c duty.event duty.msg max_retries) := by
  have hget : ∀ (dependency : Dependency) {α : Type} {f : Unit → Async α}
      {Q : Except Exn α → Told → Prop} {s : Told}, s.duty = some duty →
      (∀ x s', s'.Explains x → Q (.error x) s') →
      (∀ s', s'.duty = some duty → (Told.discipline max_retries).Follows Q s' (f ())) →
        (Told.discipline max_retries).Follows Q s ((Async.container_get dependency).bind f) :=
    fun dependency _ _ _ _ hs hx hf => .bind (fair_tacit (e := Effect.container_get dependency)
      trivial hs) (fun _ s' h => hf s' h.1) fun x s' h => hx x s' (h.2 x rfl)
  have hx : ∀ (x : Exn) (s' : Told), s'.Explains x →
      ∀ y, (.error x : Except Exn Unit) = .error y → s'.Explains y :=
    fun x s' h _ hr => by cases hr; exact h
  refine hget _ hs hx fun s₁ h₁ => hget _ h₁ hx fun s₂ h₂ => hget _ h₂ hx fun s₃ h₃ =>
    hget _ h₃ hx fun s₄ h₄ => ?_
  refine .bind (processed_payment_fair h₄) (fun payment s₅ h₅ => ?_)
    fun x s' ⟨_, h, _⟩ => hx x s' (h.2 x rfl)
  obtain ⟨loaded, h₅, hl⟩ := h₅
  have hsend : (Told.discipline max_retries).Follows (Told.Fair { duty with loaded := loaded }) s₅
      (send_or_retry c duty.event duty.msg max_retries payment) := by
    refine fair_catch (send_fair h₅.1 _ (hl payment rfl)) fun x s₆ h₆ hx₆ => ?_
    cases x with
    | WebhookSendError => exact retry_or_dlq_fair h₆ (hx₆.failed rfl) _
    | _ => exact fair_throw h₆ hx₆
  exact hsend.mono fun _ _ h => h.2

theorem entrypoint_fair :
    (Told.discipline c.consumer_config.CONSUMER_MAX_RETRIES).Follows (fun _ _ => True) s
      (_entrypoint c duty.event duty.msg) := by
  refine .tryCatch (R := fun r s' => ∀ x, r = .error x → s'.Explains x) ?_
    (fun _ _ _ => trivial) fun x s₁ h₁ => ?_
  · refine .bind (R := fun r s' => ∀ x, r = .error x → s'.Explains x)
      (.andThen (in_container_fair hs) fun r s' h' => ?_) (fun _ s' h' => ?_) fun _ _ h => h
    · refine .perform (e := Effect.close) trivial fun t => ?_
      cases t with
      | ok _ => exact fun x hr => (h' x hr).next Effect.close _
      | error x =>
          intro y hr
          cases hr
          exact explains_error s' Effect.close x
    · refine .perform (e := Effect.ack) trivial fun t x hr => ?_
      subst hr
      exact explains_error s' Effect.ack x
  · refine .ite (fun hx => ?_) fun _ => .ite (fun _ => ?_) fun _ => .ret trivial
    · exact .perform (e := Effect.reject false) ((h₁ x rfl).missing hx) fun _ => trivial
    · exact .perform (e := Effect.nack false) trivial fun _ => trivial

end Consumers

-- Where processes start.
def Told.idle : Told := ⟨none, false, false⟩

def Told.handed (event : PaymentCreatedEvent) (msg : Message) : Told :=
  ⟨some ⟨event, msg, none⟩, false, false⟩

-- The discipline of the processes of an installation.
abbrev Deployment.telling (d : Deployment) : Discipline Effect.Result Exn Told :=
  Told.discipline d.container.consumer_config.CONSUMER_MAX_RETRIES

theorem handed_follows (d : Deployment) (event : PaymentCreatedEvent) (msg : Message) :
    d.telling.Follows (fun _ _ => True) (Told.handed event msg)
      (_entrypoint d.container event msg) :=
  @entrypoint_fair _ ⟨event, msg, none⟩ d.container rfl

end PaymentsProcessor
