import PaymentsProcessor.System.Integrity

namespace PaymentsProcessor

open Python Storage Concurrency PaymentsConstants

-- What a reader of the committed tables can rely on.
structure World.InOrder (w : World) : Prop where
  event : ∀ p ∈ w.store.contents.payments.rows, ∃ row,
    w.store.contents.outbox.rows.filter (fun row => row.aggregate_id = p.id) = [row] ∧
      row.Announces p
  payment : ∀ row ∈ w.store.contents.outbox.rows,
    ∃ p ∈ w.store.contents.payments.rows, row.Announces p
  keys : (w.store.contents.payments.rows.map (·.idempotency_key)).Nodup
  origin : ∀ p ∈ w.store.contents.payments.rows,
    ∃ pid r, w.jobs pid = some (.request r) ∧ r.Inserts p
  processed : ∀ p ∈ w.store.contents.payments.rows,
    p.status = .PENDING ↔ p.processed_at = none
  published : ∀ row ∈ w.store.contents.outbox.rows,
    (row.status = .PENDING ∧ row.published_at = none) ∨
      (row.status = .PUBLISHED ∧ row.published_at.isSome)

section Order

variable {d : Deployment} {A : Assumption Pid World Effect Answer} {w : World}

-- Rows that are equal as soon as they agree in a field number at most one.
private theorem filter_unique {α : Type} {rows : List α} (hn : rows.Nodup) {f : α → Bool} {r : α}
    (hr : r ∈ rows) (hf : f r) (h : ∀ r' ∈ rows, f r' → r' = r) : rows.filter f = [r] := by
  have hmem : ∀ r', r' ∈ rows.filter f ↔ r' = r := by
    intro r'
    rw [List.mem_filter]
    exact ⟨fun ⟨hr', hf'⟩ => h r' hr' hf', fun he => he ▸ ⟨hr, hf⟩⟩
  exact List.perm_singleton.mp ((List.perm_ext_iff_of_nodup (hn.filter _)
    (List.nodup_singleton r)).mpr (by simpa using hmem))

theorem Tables.Consistent.one_event {c : Tables} (h : c.Consistent) {p : Payment}
    (hp : p ∈ c.payments.rows) : ∃ row,
      c.outbox.rows.filter (fun row => row.aggregate_id = p.id) = [row] ∧ row.Announces p := by
  obtain ⟨row, hr, ha⟩ := h.announced p hp
  refine ⟨row, filter_unique (List.Nodup.of_map _ c.outbox.nodup) hr ?_ ?_, ha⟩
  · simpa using ha.aggregate_id
  · intro row' hr' hf
    exact h.aggregates row' hr' row hr ((of_decide_eq_true hf).trans ha.aggregate_id.symm)

theorem Tables.Consistent.one_payment {c : Tables} (h : c.Consistent) {p : Payment}
    (hp : p ∈ c.payments.rows) : c.with_key p.idempotency_key = [p] := by
  refine filter_unique (List.Nodup.of_map _ c.payments.nodup) hp (by simp) ?_
  exact fun q hq hf => h.keys q hq p hp (of_decide_eq_true hf)

theorem Recorded.in_order (h : Recorded d A w) : w.InOrder where
  event p hp := h.consistent.one_event hp
  payment := h.consistent.announces
  keys := by
    refine List.Nodup.map_on ?_ (List.Nodup.of_map _ w.store.contents.payments.nodup)
    exact fun p hp q hq he => h.consistent.keys p hp q hq he
  origin := h.origin
  processed p hp := (h.consistent.payments p hp).processed
  published := h.consistent.outbox

end Order

theorem reachable_recorded {d : Deployment} {A : Assumption Pid World Effect Answer}
    {c : SystemConfig} (h : Reachable d A c) : Recorded d A c.world :=
  ((records_sound d A).inv c h).2

theorem exists_idle (actor : Option Pid) : ∃ other, actor ≠ some other := by
  cases actor with
  | none => exact ⟨0, by simp⟩
  | some pid => exact ⟨pid + 1, by simp⟩

theorem run_evolves {d : Deployment} {A : Assumption Pid World Effect Answer}
    {c c' : SystemConfig} (h : Reachable d A c) (hr : Run (machine d) A c c') :
    c.world.store.contents.Evolves c'.world.store.contents :=
  (records_sound d A).run (R := fun w w' => w.store.contents.Evolves w'.store.contents)
    (fun _ => .refl _) (fun _ _ _ => .trans) (fun _ _ _ hr => hr.2.1) exists_idle h hr

-- Payments and their events are in bijection in every run: with whatever
-- requests, batches and deliveries, and whatever fails. No later step changes
-- what a payment was inserted with, nor takes back that an event is published.
theorem payments_and_events_in_order {d : Deployment} {A : Assumption Pid World Effect Answer}
    {c : SystemConfig} (h : Reachable d A c) :
    c.world.InOrder ∧ ∀ c', Run (machine d) A c c' →
      c.world.store.contents.Evolves c'.world.store.contents :=
  ⟨(reachable_recorded h).in_order, fun _ hr => run_evolves h hr⟩

namespace Scenario

def deployment : Deployment where
  container :=
    { consumer_config := ⟨3, .finite 2, .finite 5, .finite (9 / 10)⟩
      outbox_dispatcher_config := ⟨100, .finite 1, .finite 2, .finite 60⟩
      webhook_config := ⟨"secret", .finite 10, false⟩
      lib := ⟨⟨id, id⟩, fun _ => .ok [], by simp, fun _ _ => ""⟩ }
  ttls := [2000, 8000, 32000]

def request : CreateRequest where
  idempotency_key := "order-1"
  payload :=
    { amount := ⟨false, 10, 0⟩
      currency := .RUB
      description := none
      meta_ := none
      webhook_url := "https://shop.example/hook"
      amount_fits := ⟨⟨100000⟩, by decide, by decide, by decide +kernel⟩ }

def public_infos : List AddrInfo := [⟨.str "8.8.8.8"⟩]

abbrev Labels := List (Label Pid World.Launch Answer World.Tick)

def replies (p : Pid) (rs : List Reply) : Labels := rs.map fun r => .call p (.reply r)

-- A request looks its key up, inserts and commits a payment, and responds.
def lookup (p : Pid) : Labels :=
  .launch p (.request request) :: replies p [.done, .infos public_infos, .executed 0 []]

def insert (p : Pid) : Labels :=
  replies p [.uuid 7, .executed 5 [], .uuid 7, .executed 5 [], .done, .done]

def respond (p : Pid) : Labels := replies p [.done, .done]

def create (p : Pid) : Labels := lookup p ++ insert p ++ respond p

abbrev Test := Pid → Effect → Answer → World → Bool

def run (test : Test) (ls : Labels) : Option SystemConfig :=
  SystemConfig.init.execAll (machine deployment) test ls

theorem reaches {A : Assumption Pid World Effect Answer} {test : Test}
    (hA : ∀ pid e a w, test pid e a w → A pid e a w) (ls : Labels) (f : SystemConfig → Bool)
    (h : (run test ls).any f) : ∃ c, Reachable deployment A c ∧ f c := by
  cases hr : run test ls with
  | none =>
      rw [hr] at h
      cases h
  | some c =>
      rw [hr] at h
      exact ⟨c, run_of_execAll hA hr, h⟩

def asked (w : World) (pid : Pid) : Option CreateRequest :=
  match w.jobs pid with
  | some (.request r) => some r
  | _ => none

theorem job_of_asked {w : World} {pid : Pid} {r : CreateRequest} (h : asked w pid = some r) :
    w.jobs pid = some (.request r) := by
  unfold asked at h
  split at h <;> cases h
  assumption

def any : Test := fun _ _ _ _ => true

theorem reaches_any (ls : Labels) (f : SystemConfig → Bool) (h : (run any ls).any f) :
    ∃ c, Reachable deployment unrestricted c ∧ f c :=
  reaches (fun _ _ _ _ _ => trivial) ls f h

end Scenario

theorem created_payment_in_order : ∃ c, Reachable Scenario.deployment unrestricted c ∧
    c.world.store.contents.payments.rows.length = 1 ∧ c.world.InOrder ∧
      ∀ c', Run (machine Scenario.deployment) unrestricted c c' →
        c.world.store.contents.Evolves c'.world.store.contents := by
  obtain ⟨c, hc, hf⟩ := Scenario.reaches_any (Scenario.create 0)
    (fun c => c.world.store.contents.payments.rows.length = 1) (by decide +kernel)
  exact ⟨c, hc, of_decide_eq_true hf, payments_and_events_in_order hc⟩

section Idempotency

variable {d : Deployment} {A : Assumption Pid World Effect Answer} {c : SystemConfig}

-- The process has answered this request with 202 and this id.
def World.Accepts (w : World) (pid : Pid) (r : CreateRequest) (id : UUID) : Prop :=
  w.jobs pid = some (.request r) ∧
    ∃ status created_at, (pid, .accepted id status created_at) ∈ w.log.responses

theorem Recorded.settled {w : World} (h : Recorded d A w) {pid : Pid} {r : CreateRequest}
    {id : UUID} (ha : w.Accepts pid r id) : Settled r id w := by
  obtain ⟨hj, status, created_at, hmem⟩ := ha
  obtain ⟨r', hj', hans⟩ := h.responses _ hmem
  rw [hj] at hj'
  cases hj'
  exact hans

-- A step either adds no response or leaves the committed tables alone.
theorem responses_or_contents {l : Label Pid World.Launch Answer World.Tick} {c' : SystemConfig}
    (h : c.exec (machine d) l = some c') :
    c'.world.log.responses = c.world.log.responses ∨
      c'.world.store.contents = c.world.store.contents := by
  obtain ⟨pid, l₁, p, _, hl⟩ | ⟨pid, a, e, k, r, _, _, hp⟩ | ⟨pid, _, hw⟩ | ⟨t, _, ht⟩ :=
    Config.exec_cases h
  · exact .inl (congrArg Log.responses (launch_same hl).2.2)
  · cases he : e.quiet with
    | true => exact .inr (quiet_perform he hp).contents
    | false =>
        cases e with
        | execute stmt =>
            left
            obtain ⟨_, _, _, _, _, _, _, _, hw⟩ | ⟨_, _, _, _, _, _, _, hw⟩ | ⟨_, _, _, ha, hw⟩ :=
              perform_execute hp
            · rw [hw]; rfl
            · rw [hw]; rfl
            · rw [hw]; exact ha.facts.2.2.1
        | commit =>
            left
            obtain ⟨_, hw⟩ | ⟨_, _, hw | hw⟩ := perform_commit hp
            all_goals rw [hw]
            · exact commit_responses
            · rfl
            · exact commit_responses
        | respond response =>
            right
            obtain hw | hw | hw := perform_respond hp
            all_goals rw [hw]; rfl
        | _ => cases he
  · rw [hw]
    exact .inl ((quiet_rollback.trans quiet_requeue).trans ⟨rfl, fun _ h => h, rfl, rfl⟩ :
      Quiet pid c.world (c.world.crash pid)).responses
  · obtain ⟨_, _, _, _, _, _, _, _, hw⟩ | ⟨pid, hw⟩ := tick_cases ht
    · rw [hw]; exact .inl rfl
    · rw [hw]; exact .inl (quiet_requeue (p := pid)).responses

theorem step_started (h : Reachable d A c) {c' : SystemConfig} (hs : Step (machine d) A c c')
    {pid : Pid} {job : Job} (hj : c.world.jobs pid = some job) : c'.world.jobs pid = some job := by
  obtain ⟨l, hl, he⟩ := hs
  obtain ⟨other, hne⟩ := exists_idle l.actor
  exact ((frame_sound d A).rely c h l c' hl he other hne).started pid job hj

-- What a response names was committed before the response was given.
theorem Recorded.settled_before (h : Reachable d A c) {c' : SystemConfig}
    (hs : Step (machine d) A c c') {pid : Pid} {r : CreateRequest} {id : UUID}
    (ha : c'.world.Accepts pid r id) : Settled r id c.world := by
  obtain ⟨l, hl, he⟩ := hs
  rcases responses_or_contents he with hr | hc
  · obtain ⟨hj, status, created_at, hmem⟩ := ha
    rw [hr] at hmem
    obtain ⟨r', hj', hans⟩ := (reachable_recorded h).responses _ hmem
    rw [step_started h ⟨l, hl, he⟩ hj'] at hj
    cases hj
    exact hans
  · have hset := (reachable_recorded (h.tail ⟨l, hl, he⟩)).settled ha
    unfold Settled at hset ⊢
    rw [← hc]
    exact hset

-- All requests with one key that are accepted are told of the same payment, the
-- only one under that key, which is committed by then and is what they asked for.
theorem acceptances_agree (h : Reachable d A c) :
    (∀ pid₁ r₁ id₁ pid₂ r₂ id₂, c.world.Accepts pid₁ r₁ id₁ → c.world.Accepts pid₂ r₂ id₂ →
      r₁.idempotency_key = r₂.idempotency_key →
        id₁ = id₂ ∧ ∃ p row, p.id = id₁ ∧ r₁.Agrees p ∧ r₂.Agrees p ∧
          c.world.store.contents.with_key r₁.idempotency_key = [p] ∧
          c.world.store.contents.outbox.rows.filter (fun row => row.aggregate_id = id₁) = [row]) ∧
    ∀ c', Step (machine d) A c c' → ∀ pid r id, c'.world.Accepts pid r id →
      Settled r id c.world := by
  have hrec := reachable_recorded h
  refine ⟨?_, fun c' hs pid r id ha => Recorded.settled_before h hs ha⟩
  intro pid₁ r₁ id₁ pid₂ r₂ id₂ ha₁ ha₂ hkey
  obtain ⟨p, hp, rfl, hk₁, hag₁⟩ := hrec.settled ha₁
  obtain ⟨q, hq, rfl, hk₂, hag₂⟩ := hrec.settled ha₂
  have he : q = p := hrec.consistent.keys q hq p hp (hk₂.trans (hkey.symm.trans hk₁.symm))
  subst he
  obtain ⟨row, hrow, _⟩ := hrec.consistent.one_event hq
  exact ⟨rfl, q, row, rfl, hag₁, hag₂, hk₁ ▸ hrec.consistent.one_payment hq, hrow⟩

namespace Scenario

def accepted (w : World) (pid : Pid) : Option UUID :=
  w.log.responses.findSome? fun
    | (q, .accepted id _ _) => if q = pid then some id else none
    | _ => none

theorem accepts_of_accepted {w : World} {pid : Pid} {r : CreateRequest} {id : UUID}
    (hr : asked w pid = some r) (h : accepted w pid = some id) : w.Accepts pid r id := by
  obtain ⟨x, hx, hf⟩ := List.exists_of_findSome?_eq_some h
  refine ⟨job_of_asked hr, ?_⟩
  split at hf
  · split at hf <;> cases hf
    subst pid
    exact ⟨_, _, hx⟩
  · cases hf

-- The second request finds what the first one has committed.
def replay : Labels := create 0 ++ lookup 1 ++ respond 1

end Scenario

theorem replay_agrees : ∃ c, Reachable Scenario.deployment unrestricted c ∧
    ∃ r₁ r₂ id₁ id₂ p row, c.world.Accepts 0 r₁ id₁ ∧ c.world.Accepts 1 r₂ id₂ ∧
      id₁ = id₂ ∧ p.id = id₁ ∧ r₁.Agrees p ∧ r₂.Agrees p ∧
      c.world.store.contents.with_key r₁.idempotency_key = [p] ∧
      c.world.store.contents.outbox.rows.filter (fun row => row.aggregate_id = id₁) = [row] := by
  obtain ⟨c, hc, hf⟩ := Scenario.reaches_any Scenario.replay
    (fun c => (Scenario.accepted c.world 0).isSome ∧ (Scenario.accepted c.world 1).isSome ∧
      (Scenario.asked c.world 0).any fun r₁ => (Scenario.asked c.world 1).any fun r₂ =>
        r₁.idempotency_key = r₂.idempotency_key) (by decide +kernel)
  simp only [decide_eq_true_eq, Option.isSome_iff_exists, Option.any_eq_true] at hf
  obtain ⟨⟨id₁, h₁⟩, ⟨id₂, h₂⟩, r₁, hr₁, r₂, hr₂, hkey⟩ := hf
  have ha₁ := Scenario.accepts_of_accepted hr₁ h₁
  have ha₂ := Scenario.accepts_of_accepted hr₂ h₂
  obtain ⟨he, p, row, hp⟩ := (acceptances_agree hc).1 _ _ _ _ _ _ ha₁ ha₂ hkey
  exact ⟨c, hc, r₁, r₂, id₁, id₂, p, row, ha₁, ha₂, he, hp⟩

-- What a request may be told that meets no failure, and whose address is accepted.
def World.Fair (w : World) (r : CreateRequest) : Response → Prop
  | .accepted id _ _ => Settled r id w
  | response => response = conflict_response r ∧ ∃ p ∈ w.store.contents.payments.rows,
      p.idempotency_key = r.idempotency_key ∧ ¬r.Agrees p

-- A conflict is reported only for a real conflict, and every other request is
-- answered with the payment.
def ConflictsAreReal (d : Deployment) (c : SystemConfig) : Prop :=
  ∀ pid r, c.world.jobs pid = some (.request r) → pid ∉ c.world.log.failures →
    GuardAccepts d c.world pid r.payload.webhook_url →
      (∀ response, (pid, response) ∈ c.world.log.responses → c.world.Fair r response) ∧
        ∀ result, c.prog pid = some (.ret result) →
          ∃ response, (pid, response) ∈ c.world.log.responses

-- No payment is inserted while an equal one is committed under its key. The
-- lookup makes it so, unless the equal one is committed after it.
def conflicting_inserts : Assumption Pid World Effect Answer := fun _ e a w =>
  ∀ v time ids, e = .execute (.insert_payment v) → a = .reply (.executed time ids) →
    ∀ p ∈ w.store.contents.payments.rows, p.idempotency_key = v.idempotency_key →
      ¬(p.amount.toRat = v.amount.toRat ∧ p.currency = v.currency ∧ p.webhook_url = v.webhook_url)

theorem conflicts_are_real (h : Reachable d conflicting_inserts c) : ConflictsAreReal d c := by
  have hreal : RealConflicts conflicting_inserts :=
    fun pid v time ids w hA p hp => hA v time ids rfl rfl p hp
  intro pid r hj hf hg
  refine ⟨fun response hmem => ?_, fun result hend => ?_⟩
  · obtain ⟨r', hj', hans⟩ := (reachable_recorded h).responses _ hmem
    rw [hj] at hj'
    cases hj'
    cases response with
    | accepted id status created_at => exact hans
    | error status content =>
        obtain hfail | hguard | ⟨hconflict, hp⟩ := hans
        · exact absurd hfail hf
        · exact absurd hg hguard
        · exact ⟨hconflict, hp hreal⟩
  · exact ((records_sound d _).done c h pid result hend).2 r hj |>.resolve_left hf

end Idempotency

namespace Scenario

def inserts_apart : Test := fun _ e _ w =>
  match e with
  | .execute (.insert_payment v) => w.store.contents.payments.rows.all fun p =>
      p.idempotency_key ≠ v.idempotency_key
  | _ => true

end Scenario

theorem replay_is_answered : ∃ c, Reachable Scenario.deployment conflicting_inserts c ∧
    c.world.log.responses.length = 2 ∧ ConflictsAreReal Scenario.deployment c := by
  have htest : ∀ pid e a w, Scenario.inserts_apart pid e a w → conflicting_inserts pid e a w := by
    rintro pid e a w h v time ids rfl _ p hp hk
    exact absurd hk (of_decide_eq_true (List.all_eq_true.mp h p hp))
  obtain ⟨c, hc, hf⟩ := Scenario.reaches htest Scenario.replay
    (fun c => c.world.log.responses.length = 2) (by decide +kernel)
  exact ⟨c, hc, of_decide_eq_true hf, conflicts_are_real hc⟩

namespace Scenario

-- Two equal requests look the key up before either of them has inserted.
def late_insert : Labels :=
  lookup 0 ++ lookup 1 ++ insert 0 ++ respond 0 ++
    replies 1 [.uuid 8, .executed 6 [], .done, .done]

def refused (w : World) (pid : Pid) : Bool :=
  w.log.responses.any fun
    | (q, .error ..) => q = pid
    | _ => false

def guard_accepts (w : World) (url : String) : Bool :=
  (deployment.container.ssrf_guard.parse_host url).toOption.any (fun x => x.1.port.isOk) &&
    w.log.lookups.all fun x => SSRFGuard.check_infos url x.2 = .ok ()

theorem accepts_of_guard {w : World} {pid : Pid} {url : String} (h : guard_accepts w url) :
    GuardAccepts deployment w pid url := by
  obtain ⟨hp, hl⟩ := Bool.and_eq_true_iff.mp h
  cases hparse : deployment.container.ssrf_guard.parse_host url with
  | error x =>
      rw [hparse] at hp
      cases hp
  | ok parsed_host =>
      rw [hparse] at hp
      refine ⟨parsed_host.1, parsed_host.2, hparse, .inr ⟨?_, fun infos hi => ?_⟩⟩
      · cases hport : parsed_host.1.port with
        | ok port => exact ⟨port, rfl⟩
        | error e => simp [Except.toOption, Except.isOk, Except.toBool, hport] at hp
      · exact of_decide_eq_true (List.all_eq_true.mp hl _ hi)

def agrees (r : CreateRequest) (p : Payment) : Bool :=
  p.amount.toRat = r.payload.amount.toRat ∧ p.currency = r.payload.currency ∧
    p.webhook_url = r.payload.webhook_url

end Scenario

theorem late_insert_conflicts : ∃ c, Reachable Scenario.deployment unrestricted c ∧
    ¬ConflictsAreReal Scenario.deployment c := by
  obtain ⟨c, hc, hf⟩ := Scenario.reaches_any Scenario.late_insert
    (fun c => (Scenario.asked c.world 1).any fun r =>
      1 ∉ c.world.log.failures ∧ Scenario.guard_accepts c.world r.payload.webhook_url ∧
        Scenario.refused c.world 1 ∧
          c.world.store.contents.payments.rows.all (Scenario.agrees r)) (by decide +kernel)
  simp only [Option.any_eq_true, decide_eq_true_eq, List.all_eq_true] at hf
  obtain ⟨r, hr, hfail, hguard, href, hall⟩ := hf
  refine ⟨c, hc, fun hreal => ?_⟩
  have hfair := (hreal 1 r (Scenario.job_of_asked hr) hfail (Scenario.accepts_of_guard hguard)).1
  obtain ⟨⟨pid, response⟩, hx, hpid⟩ := List.any_eq_true.mp href
  cases response with
  | accepted => cases hpid
  | error status content =>
      have hone : pid = 1 := of_decide_eq_true hpid
      subst hone
      obtain ⟨_, p, hp, _, hne⟩ := hfair _ hx
      obtain ⟨ha, hcur, hurl⟩ := of_decide_eq_true (hall p hp)
      exact hne ⟨ha, hcur, hurl⟩

end PaymentsProcessor
