import PaymentsProcessor.Consumer.Handling
import PaymentsProcessor.System.Requests
import PaymentsProcessor.System.Scope

namespace PaymentsProcessor

open Python Storage Concurrency PaymentsConstants

-- A process that has made a request has had its lookups accepted for the
-- request's address.
structure Vetted (w : World) : Prop where
  accepted : ∀ post ∈ w.log.posts, ∀ infos, (post.pid, infos) ∈ w.log.lookups →
    SSRFGuard.check_infos post.request.url infos = .ok ()
  fresh : ∀ post ∈ w.log.posts, w.jobs post.pid ≠ none

-- No process makes a request in the name of another.
def vetting : Logic Pid World where
  inv := Vetted
  rely pid w w' := ∀ post ∈ w'.log.posts, post.pid = pid → post ∈ w.log.posts
  done _ _ := True
  rely_refl _ _ _ h _ := h
  rely_trans _ _ _ _ h h' post hp he := h post (h' post hp he) he
  done_stable _ _ _ _ _ := trivial

section Steps

variable {d : Deployment} {A : Assumption Pid World Effect Answer} {p : Pid} {w w' : World}

-- The process is under way, and has made no request.
def Unposted (p : Pid) (w : World) : Prop := w.jobs p ≠ none ∧ ∀ post ∈ w.log.posts, post.pid ≠ p

def NotLookedUp (p : Pid) (w : World) : Prop := (∀ infos, (p, infos) ∉ w.log.lookups) ∧ Unposted p w

-- The guard has let the address pass, and no request has been made to it yet.
def Passed (url : String) (p : Pid) (w : World) : Prop :=
  (∀ infos, (p, infos) ∈ w.log.lookups → SSRFGuard.check_infos url infos = .ok ()) ∧ Unposted p w

theorem stable_unposted : (frameLogic.inf vetting).Stable p (Unposted p) :=
  fun _ _ hr h => ⟨hr.1.job ▸ h.1, fun post hp he => h.2 post (hr.2 post hp he) he⟩

theorem stable_not_looked_up : (frameLogic.inf vetting).Stable p (NotLookedUp p) :=
  fun w w' hr h => ⟨fun infos hi => h.1 infos ((hr.1.lookups infos).mp hi),
    stable_unposted w w' hr h.2⟩

theorem stable_passed (url : String) : (frameLogic.inf vetting).Stable p (Passed url p) :=
  fun w w' hr h => ⟨fun infos hi => h.1 infos ((hr.1.lookups infos).mp hi),
    stable_unposted w w' hr h.2⟩

theorem Unposted.of_same (hj : w'.jobs = w.jobs) (hp : w'.log.posts = w.log.posts)
    (h : Unposted p w) : Unposted p w' := by
  unfold Unposted
  rw [hj, hp]
  exact h

theorem Vetted.same (h : Vetted w) (hl : w'.log.lookups = w.log.lookups)
    (hp : w'.log.posts = w.log.posts) (hj : ∀ q j, w.jobs q = some j → w'.jobs q = some j) :
    Vetted w' ∧ vetting.Guarantee p w w' := by
  refine ⟨⟨?_, ?_⟩, fun _ _ post hpost _ => hp ▸ hpost⟩
  · rw [hl, hp]
    exact h.accepted
  · rw [hp]
    intro post hpost hnone
    obtain ⟨j, hjob⟩ := Option.ne_none_iff_exists'.mp (h.fresh post hpost)
    rw [hj post.pid j hjob] at hnone
    cases hnone

-- The calls that look nothing up and make no request.
def Effect.inside (e : Effect) : Prop := e.kind ≠ .lookup ∧ e.kind ≠ .post

theorem inside_spec {e : Effect} (he : e.inside) {P : World → Prop}
    (hP : ∀ w w' : World, w'.jobs = w.jobs → w'.log.lookups = w.log.lookups →
      w'.log.posts = w.log.posts → P w → P w') :
    CallSpec (machine d) A frameLogic vetting p P e fun _ => P := by
  intro w a result w' hi hw _ hp _ hg
  have hs := scope_perform hp
  obtain ⟨hn, hgn⟩ := hi.2.same (p := p) (hs.lookups he.1) (hs.posts he.2) (Frame.all_started hg)
  exact ⟨hn, hgn, hP w w' hs.jobs (hs.lookups he.1) (hs.posts he.2) hw⟩

theorem not_looked_up_of_same (w w' : World) (hj : w'.jobs = w.jobs)
    (hl : w'.log.lookups = w.log.lookups) (hp : w'.log.posts = w.log.posts)
    (h : NotLookedUp p w) : NotLookedUp p w' :=
  ⟨by rw [hl]; exact h.1, h.2.of_same hj hp⟩

theorem passed_of_same {url : String} (w w' : World) (hj : w'.jobs = w.jobs)
    (hl : w'.log.lookups = w.log.lookups) (hp : w'.log.posts = w.log.posts)
    (h : Passed url p w) : Passed url p w' :=
  ⟨by rw [hl]; exact h.1, h.2.of_same hj hp⟩

-- A lookup by a process that has made no request.
theorem lookup_kept {host : String} {port : Option ℕ} {a : Answer}
    {result : Except Exn (List AddrInfo)} (hi : (frameLogic.inf vetting).inv w)
    (hw : Unposted p w) (hp : World.perform d p (.getaddrinfo host port) a w = some (result, w'))
    (hg : frameLogic.Guarantee p w w') :
    Vetted w' ∧ vetting.Guarantee p w w' ∧ Unposted p w' := by
  have hs := scope_perform hp
  have hposts := hs.posts nofun
  refine ⟨⟨?_, ?_⟩, fun _ _ post hpost _ => hposts ▸ hpost,
    hw.of_same hs.jobs hposts⟩
  · rw [hposts]
    intro post hpost infos hmem
    -- the lookups of those who have made a request are what they were
    exact hi.2.accepted post hpost infos (((hg post.pid (hw.2 post hpost)).lookups infos).mp hmem)
  · rw [hposts, hs.jobs]
    exact hi.2.fresh

theorem unposted_spec {e : Effect} (he : e.kind ≠ .post) :
    CallSpec (machine d) A frameLogic vetting p (Unposted p) e fun _ => Unposted p := by
  intro w a result w' hi hw hA hp hk hg
  by_cases hl : e.kind = .lookup
  · cases e with
    | getaddrinfo => exact lookup_kept hi hw hp hg
    | _ => cases hl
  · exact inside_spec ⟨hl, he⟩ (fun _ _ hj _ hposts h => h.of_same hj hposts) w a result w' hi hw
      hA hp hk hg

end Steps

section Handling

variable {d : Deployment} {A : Assumption Pid World Effect Answer} {p : Pid}
variable {event : PaymentCreatedEvent} {msg : Message} {max_retries : ℤ}

abbrev VettingTriple (d : Deployment) (A : Assumption Pid World Effect Answer) (p : Pid) {α : Type}
    (P : World → Prop) (prog : Async α) (R : α → World → Prop) : Prop :=
  Triple (machine d) A frameLogic vetting p P prog (Ends (fun _ _ => True) R)

theorem VettingTriple.bind {α β : Type} {P : World → Prop} {prog : Async α} {f : α → Async β}
    {R : α → World → Prop} {S : β → World → Prop} (hp : VettingTriple d A p P prog R)
    (hf : ∀ a, VettingTriple d A p (R a) (f a) S) : VettingTriple d A p P (prog.bind f) S :=
  Triple.bind hp hf fun _ _ _ h => h

theorem inside_only {α : Type} {prog : Async α} (h : prog.Only Effect.inside) {P : World → Prop} :
    VettingTriple d A p P prog fun _ _ => True := by
  have hall : Triple (machine d) A frameLogic vetting p (fun _ => True) prog fun _ _ => True :=
    Triple.only h (fun _ _ _ h => h) fun _ he => inside_spec he fun _ _ _ _ _ _ => trivial
  exact (hall.pre fun _ _ => trivial).post fun r _ _ => by cases r <;> trivial

theorem resolve_vetted {url host : String} {parsed : ParsedUrl} :
    VettingTriple d A p (NotLookedUp p) (SSRFGuard.resolve url parsed host) fun infos w =>
      (∀ infos', (p, infos') ∈ w.log.lookups → infos' = infos) ∧ Unposted p w := by
  unfold SSRFGuard.resolve
  refine Triple.tryCatch (R := Ends (fun _ _ => True) fun infos w =>
    (∀ infos', (p, infos') ∈ w.log.lookups → infos' = infos) ∧ Unposted p w) ?_
    (fun _ _ _ h => h) fun x => ?_
  · cases parsed.port with
    | error e => exact Triple.ret fun _ _ _ => trivial
    | ok port =>
        refine Triple.perform stable_not_looked_up fun w a result w' hi hw _ hp _ hg => ?_
        obtain ⟨hn, hgn, hu⟩ := lookup_kept hi hw.2 hp hg
        refine ⟨hn, hgn, ?_⟩
        obtain ⟨infos, rfl, rfl⟩ | ⟨x, rfl, _⟩ := perform_getaddrinfo hp
        · refine ⟨fun infos' hmem => ?_, hu⟩
          rw [World.lookup_log_lookups, List.mem_append, List.mem_singleton] at hmem
          rcases hmem with hmem | hmem
          · exact absurd hmem (hw.1 infos')
          · cases hmem
            rfl
        · trivial
  · exact Triple.ite (fun _ => Triple.ret fun _ _ _ => trivial)
      fun _ => Triple.ret fun _ _ _ => trivial

theorem validate_url_vetted (guard : SSRFGuard) (url : String) :
    VettingTriple d A p (NotLookedUp p) (guard.validate_url url) fun _ => Passed url p := by
  unfold SSRFGuard.validate_url
  cases guard.parse_host url with
  | error x => exact Triple.ret fun _ _ _ => trivial
  | ok parsed_host =>
      obtain ⟨parsed, host⟩ := parsed_host
      refine Triple.ite (fun _ => ?_) fun _ => ?_
      · exact Triple.ret fun w _ h => ⟨fun infos hi => absurd hi (h.1 infos), h.2⟩
      · refine VettingTriple.bind resolve_vetted fun infos => ?_
        refine Triple.ret fun w _ h => ?_
        cases hc : SSRFGuard.check_infos url infos with
        | error x => trivial
        | ok _ => exact ⟨fun infos' hi => h.1 infos' hi ▸ hc, h.2⟩

theorem post_vetted (payment : Payment) (request : HttpRequest) :
    VettingTriple d A p (Passed request.url p) (WebhookService.post payment request)
      fun _ _ => True := by
  refine Triple.tryCatch (R := fun _ _ => True) ?_ (fun _ _ _ _ => trivial) fun x => ?_
  · refine Triple.perform (stable_passed request.url) fun w a result w' hi hw _ hp _ hg => ?_
    have posted : ∀ peer status_code, Vetted (w.post p request peer status_code) ∧
        vetting.Guarantee p w (w.post p request peer status_code) := by
      intro peer status_code
      refine ⟨⟨fun post hpost infos hi' => ?_, fun post hpost => ?_⟩, fun q hne post hpost he => ?_⟩
      · rcases List.mem_append.mp hpost with hpost | hpost
        · exact hi.2.accepted post hpost infos hi'
        · rw [List.mem_singleton] at hpost
          subst hpost
          exact hw.1 infos hi'
      · rcases List.mem_append.mp hpost with hpost | hpost
        · exact hi.2.fresh post hpost
        · rw [List.mem_singleton] at hpost
          subst hpost
          exact hw.2.1
      · rcases List.mem_append.mp hpost with hpost | hpost
        · exact hpost
        · rw [List.mem_singleton] at hpost
          subst hpost
          exact absurd he.symm hne
    have failed : ∀ {w₁ : World}, Vetted w₁ ∧ vetting.Guarantee p w w₁ →
        Vetted (w₁.fail p) ∧ vetting.Guarantee p w (w₁.fail p) := fun h => ⟨{ h.1 with }, h.2⟩
    have main : Vetted w' ∧ vetting.Guarantee p w w' := by
      obtain ⟨_, _, _, rfl⟩ | ⟨_, _, rfl | ⟨_, _, rfl | rfl⟩⟩ := perform_post hp
      · exact posted _ _
      · exact failed ⟨hi.2, fun _ _ _ h _ => h⟩
      · exact posted _ _
      · exact failed (posted _ _)
    exact ⟨main.1, main.2, trivial⟩
  · cases x <;> exact Triple.ret fun _ _ _ => trivial

theorem send_vetted (payment : Payment) :
    VettingTriple d A p (NotLookedUp p) (d.container.webhook_service.send payment)
      fun _ _ => True := by
  unfold WebhookService.send
  simp only [Prog.bind_eq]
  refine VettingTriple.bind (validate_url_vetted _ payment.webhook_url) fun _ => ?_
  have hidle : ∀ e : Effect, e.inside → VettingTriple d A p (Passed payment.webhook_url p)
      (Prog.perform e) fun _ => Passed payment.webhook_url p := by
    intro e he
    refine (Triple.perform (stable_passed _) (inside_spec he passed_of_same)).post fun r _ h => ?_
    cases r with
    | ok _ => exact h
    | error _ => trivial
  refine VettingTriple.bind (hidle .uuid7 ⟨nofun, nofun⟩) fun event_id => ?_
  refine VettingTriple.bind (hidle .now ⟨nofun, nofun⟩) fun now => ?_
  refine VettingTriple.bind (post_vetted payment
    (d.container.webhook_service.request payment event_id (DateTime.timestamp now))) fun _ => ?_
  exact Triple.ite (fun _ => Triple.ret fun _ _ _ => trivial)
    fun _ => Triple.ret fun _ _ _ => trivial

theorem Effect.ofProcessing.inside {e : Effect} (h : e.ofProcessing) : e.inside := by
  cases e with
  | execute | container_get | commit | now | uniform | random | sleep => exact ⟨nofun, nofun⟩
  | _ => exact h.elim

theorem entrypoint_vetted :
    VettingTriple d A p (NotLookedUp p) (_entrypoint d.container event msg) fun _ _ => True := by
  refine Triple.tryCatch (R := Ends (fun _ _ => True) fun _ _ => True) ?_ (fun _ _ _ h => h)
    fun x => inside_only ?_
  · refine VettingTriple.bind (R := fun _ _ => True) ?_
      fun _ => inside_only (.perform (e := Effect.ack) ⟨nofun, nofun⟩)
    refine Triple.andThen (R := Ends (fun _ _ => True) fun _ _ => True) ?_ fun r => ?_
    · rw [in_container_eq]
      refine VettingTriple.bind (R := fun _ => NotLookedUp p) ?_ fun payment => ?_
      · refine (Triple.only loaded_payment_only stable_not_looked_up fun e he =>
          inside_spec he.inside not_looked_up_of_same).post fun r _ h => ?_
        cases r with
        | ok _ => exact h
        | error _ => trivial
      · unfold send_or_retry
        refine Triple.tryCatch (send_vetted payment) (fun _ _ _ h => h) fun x => ?_
        cases x with
        | WebhookSendError id reason code =>
            refine inside_only (Prog.Only.bind (.ofExcept _) fun count => ?_)
            exact Prog.Only.ite (.perform ⟨nofun, nofun⟩) (.perform ⟨nofun, nofun⟩)
        | _ => exact Triple.ret fun _ _ _ => trivial
    · refine (inside_only (.perform (e := Effect.close) ⟨nofun, nofun⟩)).post fun s w _ => ?_
      cases s <;> cases r <;> trivial
  · exact Prog.Only.ite (.perform ⟨nofun, nofun⟩)
      (Prog.Only.ite (.perform ⟨nofun, nofun⟩) (.ret _))

end Handling

section Soundness

variable (d : Deployment) (A : Assumption Pid World Effect Answer)

theorem vetted_init : Vetted World.init := by
  constructor <;> simp

theorem unposted_only {p : Pid} {prog : Async Unit} (h : prog.Only fun e => e.kind ≠ .post) :
    Triple (machine d) A frameLogic vetting p (Unposted p) prog fun _ _ => True :=
  (Triple.only h stable_unposted fun _ he => unposted_spec he).post fun _ _ _ => trivial

theorem Effect.ofRequest.kind_ne {e : Effect} (h : e.ofRequest) : e.kind ≠ .post := by
  cases e with
  | post => exact h.elim
  | _ => nofun

theorem Effect.ofDispatcher.kind_ne {e : Effect} (h : e.ofDispatcher) : e.kind ≠ .post := by
  cases e with
  | post => exact h.elim
  | _ => nofun

theorem vetting_obliged : Obliged (machine d) A frameLogic vetting where
  launch pid l w prog w' hi hl ht hg := by
    have hstart := (launch_frame hi.1 hl).2.2
    obtain ⟨hj, hcases⟩ := launch_cases hl
    obtain ⟨_, _, hlog⟩ := launch_same hl
    obtain ⟨hn, hgn⟩ := hi.2.same (p := pid) (by rw [hlog]) (by rw [hlog]) (Frame.all_started hg)
    have hun : Unposted pid w' := by
      refine ⟨hstart, ?_⟩
      rw [hlog]
      exact fun post hpost he => hi.2.fresh post hpost (he ▸ hj)
    refine ⟨hn, hgn, ?_⟩
    obtain ⟨request, rfl, _⟩ | ⟨config, rfl, _⟩ | ⟨index, msg, event, _, _, rfl, _⟩ := hcases
    · exact unposted_only d A ((create_payment_only request).mono fun _ h => h.kind_ne) w' ⟨ht, hn⟩
        hun
    · exact unposted_only d A (run_iteration_only.mono fun _ h => h.kind_ne) w' ⟨ht, hn⟩ hun
    · refine wp_mono (entrypoint_vetted w' ⟨ht, hn⟩ ⟨fun infos => ?_, hun⟩) ⟨ht, hn⟩
        fun _ _ _ _ => trivial
      rw [hlog]
      exact hi.1.fresh_log pid hj infos
  crash pid w hi _ hg := by
    obtain ⟨_, _, hj, hl⟩ := @crash_same pid w
    obtain ⟨hn, hgn⟩ := @Vetted.same pid w (w.crash pid) hi.2 (by rw [hl]; rfl) (by rw [hl]; rfl)
      (by rw [hj]; exact fun _ _ h => h)
    exact ⟨hn, hgn, trivial⟩
  tick t w w' hi ht _ hf := by
    obtain ⟨_, _, hj, hl⟩ := tick_same ht
    obtain ⟨hn, _⟩ := @Vetted.same 0 w w' hi.2 (by rw [hl]) (by rw [hl])
      (by rw [hj]; exact fun _ _ h => h)
    exact ⟨hn, fun _ post hpost _ => hl ▸ hpost⟩

theorem vetting_sound : Sound (machine d) A (frameLogic.inf vetting) SystemConfig.init :=
  (frame_sound d A).extend (vetting_obliged d A) vetted_init fun _ => rfl

end Soundness

end PaymentsProcessor
