import PaymentsProcessor.Guarantees.Payments
import PaymentsProcessor.System.Finality

namespace PaymentsProcessor

open Python Storage Concurrency PaymentsConstants

-- The request tells of an outcome that a committed transaction has written.
structure World.Backs (d : Deployment) (w : World) (request : HttpRequest) : Prop where
  body : request.content.bytes = d.container.lib.model_dump_json request.content.payload
  final : request.content.payload.status = .SUCCEEDED ∨ request.content.payload.status = .FAILED
  committed : ∃ processed_at, request.content.payload.processed_at = some processed_at ∧
    w.Wrote request.content.payload.payment_id request.content.payload.status processed_at

section Backed

variable {d : Deployment} {A : Assumption Pid World Effect Answer} {c : SystemConfig}

theorem World.Attests.backs {w : World} {p : Payment} (h : w.Attests p) (event_id : UUID) (ts : ℤ) :
    w.Backs d (d.container.webhook_service.request p event_id ts) where
  body := rfl
  final := by
    have hs := h.1
    show p.status = .SUCCEEDED ∨ p.status = .FAILED
    cases hp : p.status with
    | PENDING => exact absurd hp hs
    | SUCCEEDED => exact .inl rfl
    | FAILED => exact .inr rfl
  committed := h.2

theorem reachable_attested (h : Reachable d A c) : Attested d c.world :=
  ((outcomes_sound d A).inv c h).2

theorem Attested.backs (h : Attested d c.world) {post : Post} (hp : post ∈ c.world.log.posts) :
    c.world.Backs d post.request := by
  obtain ⟨p, event_id, ts, hr, ha⟩ := h.posts post hp
  rw [hr]
  exact ha.backs event_id ts

-- A request that is about to be made could be answered next, and what is then
-- committed is committed already.
theorem backed_before_post (h : Reachable d unrestricted c) {pid : Pid} {request : HttpRequest}
    {k : Except Exn HttpResponse → Async Unit} (hk : c.prog pid = some (.call (.post request) k)) :
    c.world.Backs d request := by
  let timeout : Exn := .RequestError "ConnectTimeout" ""
  let c' : SystemConfig := ⟨c.world.post pid request none none,
    Function.update c.prog pid (some (k (.error timeout)))⟩
  have hstep : Step (machine d) unrestricted c c' := by
    refine ⟨.call pid (.reply (.dropped none timeout)), fun _ _ _ => trivial, ?_⟩
    simp only [Config.exec, hk]
    rfl
  have hmem : ⟨pid, request, none, none⟩ ∈ c'.world.log.posts :=
    List.mem_append_right _ (List.mem_singleton_self _)
  obtain ⟨hb, hf, hc⟩ := (reachable_attested (h.tail hstep)).backs hmem
  exact ⟨hb, hf, hc⟩

-- Whatever fails and in whatever order, every webhook that is made or about to
-- be made tells of an outcome that is committed by then.
theorem webhooks_tell_committed_outcomes (h : Reachable d unrestricted c) :
    (∀ pid request k, c.prog pid = some (.call (.post request) k) → c.world.Backs d request) ∧
      ∀ post ∈ c.world.log.posts, c.world.Backs d post.request :=
  ⟨fun _ _ _ hk => backed_before_post h hk, fun _ hp => (reachable_attested h).backs hp⟩

end Backed

namespace Scenario

-- A batch publishes the one pending row.
def batch (p : Pid) : Labels :=
  .launch p (.batch deployment.container.outbox_dispatcher_config) ::
    replies p [.done, .done, .time 10, .executed 10 [7], .executed 10 [], .done, .time 11,
      .executed 11 [], .done, .done, .done]

def deliver (p : Pid) : Labels :=
  .launch p (.deliver 0) :: replies p [.done, .done, .done, .done, .executed 12 []]

-- A payment is processed with this draw, at this time.
def process (p : Pid) (x : PyFloat) (time : DateTime) : Labels :=
  replies p [.float (.finite 3), .done, .float x, .time time, .executed time [], .done]

-- The client resolves the host itself and connects to this address.
def send_to (p : Pid) (peer : IPAddress) : Labels :=
  replies p [.infos public_infos, .uuid 8, .time 14, .response peer 200]

-- 8.8.8.8
def public_peer : IPAddress := .v4 0x08080808

def send (p : Pid) : Labels := send_to p public_peer

def settle (p : Pid) : Labels := replies p [.done, .done]

def delivery (p : Pid) : Labels :=
  deliver p ++ process p (.finite 0) 13 ++ send p ++ settle p

end Scenario

theorem delivered_outcome_is_committed : ∃ c, Reachable Scenario.deployment unrestricted c ∧
    c.world.log.posts.length = 1 ∧
      (∀ pid request k, c.prog pid = some (.call (.post request) k) →
        c.world.Backs Scenario.deployment request) ∧
      ∀ post ∈ c.world.log.posts, c.world.Backs Scenario.deployment post.request := by
  obtain ⟨c, hc, hf⟩ := Scenario.reaches_any
    (Scenario.create 0 ++ Scenario.batch 1 ++ Scenario.delivery 2)
    (fun c => c.world.log.posts.length = 1) (by decide +kernel)
  exact ⟨c, hc, of_decide_eq_true hf, webhooks_tell_committed_outcomes hc⟩

section Final

variable {d : Deployment} {c : SystemConfig}

-- An outcome is final: no later step changes it, and all webhooks for one
-- payment tell of the same one.
structure OutcomesFinal (d : Deployment) (A : Assumption Pid World Effect Answer)
    (c : SystemConfig) : Prop where
  kept : ∀ c', Run (machine d) A c c' → c.world.store.contents.Keeps c'.world.store.contents
  told : ∀ post ∈ c.world.log.posts, ∀ post' ∈ c.world.log.posts,
    post.request.content.payload.payment_id = post'.request.content.payload.payment_id →
      post.request.content.payload.status = post'.request.content.payload.status ∧
        post.request.content.payload.processed_at = post'.request.content.payload.processed_at

-- Every webhook tells what the committed payment shows.
theorem webhook_shows (h : Reachable d updates_pending c) {post : Post}
    (hp : post ∈ c.world.log.posts) : ∃ p,
      c.world.store.contents.payments.find? post.request.content.payload.payment_id = some p ∧
        post.request.content.payload.status = p.status ∧
        post.request.content.payload.processed_at = p.processed_at := by
  have hn := ((finality_sound d).inv c h).2
  obtain ⟨t, ht, hwrote⟩ := ((reachable_attested h).backs hp).committed
  obtain ⟨_, p, hp, hs, hpt⟩ := hn.shown _ _ _ hwrote
  exact ⟨p, hp, hs.symm, ht.trans hpt.symm⟩

-- It is as long as no handling updates a payment that another has processed
-- since the handling has read it.
theorem outcomes_are_final (h : Reachable d updates_pending c) :
    OutcomesFinal d updates_pending c where
  kept c' hr := (finality_sound d).run
    (R := fun w w' => w.store.contents.Keeps w'.store.contents) (fun _ => .refl _)
    (fun _ _ _ => .trans) (fun _ _ _ hr => hr.2) exists_idle h hr
  told post hp post' hp' hid := by
    obtain ⟨q, hq, hs, ht⟩ := webhook_shows h hp
    obtain ⟨q', hq', hs', ht'⟩ := webhook_shows h hp'
    rw [hid, hq'] at hq
    cases hq
    exact ⟨hs.trans hs'.symm, ht.trans ht'.symm⟩

end Final

namespace Scenario

def finds_pending : Test := fun _ e _ w =>
  match e with
  | .execute (.update_processing_outcome id ..) =>
      ((w.store.contents.payments.find? id).map (·.status)).all (· = .PENDING)
  | _ => true

theorem pending_of_test (pid : Pid) (e : Effect) (a : Answer) (w : World)
    (h : finds_pending pid e a w) : updates_pending pid e a w := by
  rintro id status t rfl _ p hp
  simpa [finds_pending, hp] using h

-- The message is delivered again while its first handling is still going on.
-- Both handlings read a pending payment, and the second overwrites the outcome
-- that the first has committed and told of.
def overwritten : Labels :=
  create 0 ++ batch 1 ++ deliver 2 ++ [.tick (.channel_lost 2)] ++ deliver 3 ++
    process 2 (.finite 0) 13 ++ send 2 ++ process 3 (.finite (19 / 20)) 15 ++ send 3

def told_twice (w : World) : Bool :=
  match w.log.posts.map (·.request.content.payload) with
  | [first, second] => first.payment_id = second.payment_id ∧ first.status ≠ second.status
  | _ => false

end Scenario

theorem redelivered_outcome_is_final : ∃ c, Reachable Scenario.deployment updates_pending c ∧
    c.world.log.posts.length = 2 ∧ OutcomesFinal Scenario.deployment updates_pending c := by
  obtain ⟨c, hc, hf⟩ := Scenario.reaches Scenario.pending_of_test
    (Scenario.create 0 ++ Scenario.batch 1 ++ Scenario.deliver 2 ++
      Scenario.process 2 (.finite 0) 13 ++ Scenario.send 2 ++ [.tick (.channel_lost 2)] ++
      Scenario.deliver 3 ++ Scenario.send 3)
    (fun c => c.world.log.posts.length = 2) (by decide +kernel)
  exact ⟨c, hc, of_decide_eq_true hf, outcomes_are_final hc⟩

theorem overwritten_outcome : ∃ c, Reachable Scenario.deployment unrestricted c ∧
    ¬OutcomesFinal Scenario.deployment unrestricted c := by
  obtain ⟨c, hc, hf⟩ := Scenario.reaches_any Scenario.overwritten
    (fun c => Scenario.told_twice c.world) (by decide +kernel)
  refine ⟨c, hc, fun hfinal => ?_⟩
  unfold Scenario.told_twice at hf
  split at hf
  · rename_i first second hposts
    obtain ⟨hid, hs⟩ := of_decide_eq_true hf
    obtain ⟨post, hpost, rfl⟩ := List.mem_map.mp (hposts ▸ List.mem_cons_self)
    obtain ⟨post', hpost', rfl⟩ := List.mem_map.mp
      (hposts ▸ List.mem_cons_of_mem _ (List.mem_singleton_self _))
    exact hs (hfinal.told post hpost post' hpost' hid).1
  · cases hf

end PaymentsProcessor
