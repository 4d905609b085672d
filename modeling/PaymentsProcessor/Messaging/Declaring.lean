import PaymentsProcessor.Concurrency.Discipline
import PaymentsProcessor.Messaging.Bootstrap
import PaymentsProcessor.Messaging.Topology

namespace PaymentsProcessor

open Amqp Concurrency PaymentsConstants

-- What a version of the service declares, in order.
def declarations (ttls : List ℕ) : List Declaration :=
  [.exchange _make_payments_exchange, .exchange _make_dlx_exchange,
    .queue _make_main_queue.durably,
    .binding ⟨QUEUE_PAYMENTS_NEW, EXCHANGE_PAYMENTS, PAYMENT_CREATED_ROUTING_KEY⟩] ++
  (((retry_queues ttls).map Queue.durably).map .queue ++
    [.queue _make_dlq.durably,
      .binding ⟨QUEUE_PAYMENTS_DLQ, EXCHANGE_PAYMENTS_DLX, PAYMENT_SAFETY_NET_ROUTING_KEY⟩,
      .binding ⟨QUEUE_PAYMENTS_DLQ, EXCHANGE_PAYMENTS_DLX, PAYMENT_FAILED_ROUTING_KEY⟩])

def BrokerJob.declarations : BrokerJob → List Declaration
  | .bootstrap ttls => PaymentsProcessor.declarations ttls
  | .consumer => [.queue Bootstrap.subscriber_queue]

-- Two versions give the same attempt different TTLs.
def BrokerJob.Disagrees : BrokerJob → BrokerJob → Prop
  | .bootstrap ttls, .bootstrap ttls' => ∃ (n ttl_ms ttl_ms' : ℕ), ttls[n]? = some ttl_ms ∧
      ttls'[n]? = some ttl_ms' ∧ ttl_ms ≠ ttl_ms'
  | _, _ => False

-- How far a process has come, and what it was refused.
structure Progress where
  before : List Declaration
  rest : List Declaration
  refused : Option (BrokerCall × Refusal)

namespace Progress

-- The declarations are made in their order.
def may (s : Progress) : BrokerCall → Prop
  | .declare x => s.rest.head? = some x
  | .connect | .stop => True

def next (s : Progress) (e : BrokerCall) : Except BrokerError Unit → Progress
  | .ok _ =>
      match e with
      | .declare x => { s with before := s.before ++ [x], rest := s.rest.tail }
      | .connect | .stop => s
  | .error (.refused refusal) => { s with refused := some (e, refusal) }
  | .error .lost => s

def discipline : Discipline BrokerCall.Result BrokerError Progress := ⟨may, next⟩

-- A process ends well when everything is declared, and is refused in a call.
def Ends {α : Type} (r : Except BrokerError α) (s : Progress) : Prop :=
  match r with
  | .ok _ => s.rest = []
  | .error (.refused refusal) => ∃ e, s.refused = some (e, refusal)
  | .error .lost => True

variable {α : Type}

theorem ends_next_error (s : Progress) (e : BrokerCall) (x : BrokerError) :
    Ends (.error x : Except BrokerError α) (s.next e (.error x)) := by
  cases x with
  | refused refusal => exact ⟨e, rfl⟩
  | lost => trivial

end Progress

section Programs

open Progress

variable {before rest : List Declaration} {x : Declaration} {α : Type}

-- The next declaration, and what comes after it.
theorem follows_declare {k : Except BrokerError Unit → Bootstrap α}
    (hx : ∀ y, k (.error y) = .ret (.error y))
    (hk : discipline.Follows Ends ⟨before ++ [x], rest, none⟩ (k (.ok ()))) :
    discipline.Follows Ends ⟨before, x :: rest, none⟩
      (.call (.declare x) k) := by
  refine .call rfl fun r => ?_
  cases r with
  | ok _ => exact hk
  | error y =>
      rw [hx]
      exact .ret (ends_next_error _ _ y)

theorem follows_retry_queues {f : Unit → Bootstrap α} (rows : List (ℕ × ℕ))
    (hf : discipline.Follows Ends
      ⟨before ++ rows.map fun row => .queue (_make_retry_queue row.2 row.1).durably, rest, none⟩
      (f ())) :
    discipline.Follows Ends
      ⟨before, (rows.map fun row => .queue (_make_retry_queue row.2 row.1).durably) ++ rest, none⟩
      ((Bootstrap.declare_retry_queues rows).bind f) := by
  induction rows generalizing before with
  | nil =>
      rw [List.map_nil, List.append_nil] at hf
      exact hf
  | cons row rows ih =>
      refine follows_declare (fun _ => rfl) (ih ?_)
      rw [List.append_assoc]
      exact hf

theorem declare_topology_follows (ttls : List ℕ) :
    discipline.Follows Ends ⟨[], declarations ttls, none⟩
      (Bootstrap.declare_topology ttls) := by
  have hretry : ((retry_queues ttls).map Queue.durably).map Declaration.queue =
      (ttls.zipIdx 1).map fun row => .queue (_make_retry_queue row.2 row.1).durably := by
    simp [retry_queues]
  unfold declarations
  rw [hretry]
  refine follows_declare (fun _ => rfl) (follows_declare (fun _ => rfl)
    (follows_declare (fun _ => rfl) (follows_declare (fun _ => rfl) ?_)))
  refine follows_retry_queues _ ?_
  refine follows_declare (fun _ => rfl) (follows_declare (fun _ => rfl)
    (follows_declare (fun _ => rfl) ?_))
  exact .ret rfl

theorem main_follows (ttls : List ℕ) :
    discipline.Follows Ends ⟨[], declarations ttls, none⟩
      (Bootstrap.main ttls) := by
  refine .call trivial fun r => ?_
  cases r with
  | ok _ =>
      refine .andThen (declare_topology_follows ttls) fun r s hs => ?_
      refine .call trivial fun r' => ?_
      cases r' with
      | ok _ => exact .ret hs
      | error x => exact .ret (ends_next_error _ _ x)
  | error x => exact .ret (ends_next_error _ _ x)

theorem start_consumer_follows :
    discipline.Follows Ends ⟨[], BrokerJob.declarations .consumer, none⟩
      Bootstrap.start_consumer := by
  refine .call trivial fun r => ?_
  cases r with
  | ok _ => exact follows_declare (fun _ => rfl) (.ret rfl)
  | error x => exact .ret (ends_next_error _ _ x)

end Programs

section Declarations

variable {ttls : List ℕ} {x y : Declaration} {job job' : BrokerJob}

theorem prepared_declarations (job : BrokerJob) : Prepared [] job.declarations := by
  cases job with
  | bootstrap ttls =>
      refine ⟨rfl, rfl, rfl, ⟨⟨_make_payments_exchange, by simp, rfl⟩,
        _make_main_queue.durably, by simp, rfl⟩, .queues (fun q hq => ?_)
          ⟨rfl, ⟨⟨_make_dlx_exchange, by simp, rfl⟩, _make_dlq.durably, by simp, rfl⟩,
            ⟨⟨_make_dlx_exchange, by simp, rfl⟩, _make_dlq.durably, by simp, rfl⟩, trivial⟩⟩
      obtain ⟨_, _, rfl⟩ := List.mem_map.mp hq
      rfl
  | consumer => exact ⟨rfl, trivial⟩

-- Of the declarations only those of the retry queues depend on the version.
theorem queue_declared {q : QueueDeclaration} (h : .queue q ∈ job.declarations) :
    q = _make_main_queue.durably ∨ q = _make_dlq.durably ∨ ∃ ttls, job = .bootstrap ttls ∧
      ∃ n ttl_ms, ttls[n]? = some ttl_ms ∧ q = (_make_retry_queue (n + 1) ttl_ms).durably := by
  cases job with
  | bootstrap ttls =>
      simp only [BrokerJob.declarations, declarations, List.mem_append, List.mem_cons,
        Declaration.queue.injEq, List.mem_map, reduceCtorEq, List.not_mem_nil, or_false,
        false_or] at h
      obtain rfl | ⟨_, ⟨q', hq, rfl⟩, rfl⟩ | rfl := h
      · exact .inl rfl
      · obtain ⟨⟨ttl_ms, attempt⟩, hrow, rfl⟩ := List.mem_map.mp hq
        rw [List.mk_mem_zipIdx_iff_le_and_getElem?_sub] at hrow
        refine .inr (.inr ⟨ttls, rfl, attempt - 1, ttl_ms, hrow.2, ?_⟩)
        rw [Nat.sub_add_cancel hrow.1]
      · exact .inr (.inl rfl)
  | consumer =>
      obtain rfl : q = Bootstrap.subscriber_queue := by simpa [BrokerJob.declarations] using h
      exact .inl rfl

theorem exchange_declared {e : Exchange} (h : .exchange e ∈ job.declarations) :
    e = _make_payments_exchange ∨ e = _make_dlx_exchange := by
  cases job with
  | bootstrap ttls => simpa [BrokerJob.declarations, declarations] using h
  | consumer => simp [BrokerJob.declarations] at h

-- Declarations of one name differ only in the TTL of a retry queue.
theorem declared_conflict (hx : x ∈ job.declarations) (hy : y ∈ job'.declarations)
    (h : x.Conflicts y) : job.Disagrees job' := by
  cases x with
  | exchange e =>
      cases y with
      | exchange e' =>
          obtain ⟨hname, hne⟩ := h
          rcases exchange_declared hx with rfl | rfl <;>
            rcases exchange_declared hy with rfl | rfl <;>
              first | exact absurd rfl hne | exact absurd hname (by decide)
      | queue | binding => exact h.elim
  | queue q =>
      cases y with
      | queue q' =>
          obtain ⟨hname, hne⟩ := h
          obtain rfl | rfl | ⟨ttls, rfl, n, ttl_ms, hn, rfl⟩ := queue_declared hx <;>
            obtain rfl | rfl | ⟨ttls', rfl, n', ttl_ms', hn', rfl⟩ := queue_declared hy
          · exact absurd rfl hne
          · exact absurd hname (by decide)
          · exact absurd hname.symm retry_queue_name_ne.1
          · exact absurd hname (by decide)
          · exact absurd rfl hne
          · exact absurd hname.symm retry_queue_name_ne.2
          · exact absurd hname retry_queue_name_ne.1
          · exact absurd hname retry_queue_name_ne.2
          · obtain rfl : n = n' := by
              have hsame := retry_queue_name_inj hname
              omega
            refine ⟨n, ttl_ms, ttl_ms', hn, hn', fun he => hne ?_⟩
            rw [he]
      | exchange | binding => exact h.elim
  | binding b => cases y <;> exact h.elim

end Declarations

section Worlds

namespace BrokerWorld

variable {b b' : BrokerWorld} {pid : Pid} {s : Progress}

-- Some process was started that declares this.
def Declares (b : BrokerWorld) (x : Declaration) : Prop :=
  ∃ pid job, b.jobs pid = some job ∧ x ∈ job.declarations

def Sourced (b : BrokerWorld) : Prop := ∀ x, b.definitions.Has x → b.Declares x

structure Grows (b b' : BrokerWorld) : Prop where
  kept : ∀ x, b.definitions.Keeps x → b'.definitions.Keeps x
  jobs : ∀ pid job, b.jobs pid = some job → b'.jobs pid = some job
  crashes : ∀ pid ∈ b.crashes, pid ∈ b'.crashes

theorem Grows.declares (h : b.Grows b') {x : Declaration} (hx : b.Declares x) : b'.Declares x := by
  obtain ⟨pid, job, hj, hx⟩ := hx
  exact ⟨pid, job, h.jobs pid job hj, hx⟩

-- Where a process that has not crashed can be.
structure Standing (b : BrokerWorld) (job : BrokerJob) (s : Progress) : Prop where
  order : s.before ++ s.rest = job.declarations
  kept : ∀ x ∈ s.before, b.definitions.Keeps x
  prepared : Prepared s.before s.rest
  refused : ∀ e refusal, s.refused = some (e, refusal) → refusal = .PRECONDITION_FAILED ∧
    ∃ x y, x ∈ job.declarations ∧ x.Conflicts y ∧ b.Declares y

-- A process that has crashed declares nothing more.
def Stands (pid : Pid) (s : Progress) (b : BrokerWorld) : Prop :=
  ∃ job, b.jobs pid = some job ∧ (b.Standing job s ∨ pid ∈ b.crashes ∧ s.rest = [])

theorem Standing.grows {job : BrokerJob} (hs : b.Standing job s) (h : b.Grows b') :
    b'.Standing job s := by
  refine ⟨hs.order, fun x hx => h.kept x (hs.kept x hx), hs.prepared, fun e refusal he => ?_⟩
  obtain ⟨hrefusal, x, y, hx, hconflict, hy⟩ := hs.refused e refusal he
  exact ⟨hrefusal, x, y, hx, hconflict, h.declares hy⟩

theorem Stands.grows (hs : Stands pid s b) (h : b.Grows b') : Stands pid s b' := by
  obtain ⟨job, hj, hs⟩ := hs
  exact ⟨job, h.jobs pid job hj, hs.imp (·.grows h) fun hc => ⟨h.crashes pid hc.1, hc.2⟩⟩

-- Without anything left to declare it stays so.
theorem rest_next {e : BrokerCall} (h : s.rest = []) (he : s.may e)
    (r : Except BrokerError Unit) : (∀ x, e ≠ .declare x) ∧ (s.next e r).rest = [] := by
  cases e with
  | declare x =>
      have hx : s.rest.head? = some x := he
      rw [h] at hx
      cases hx
  | connect | stop =>
      refine ⟨nofun, ?_⟩
      rcases r with (_ | _) | _ <;> exact h

theorem Grows.refl (b : BrokerWorld) : b.Grows b :=
  ⟨fun _ h => h, fun _ _ h => h, fun _ h => h⟩

theorem Grows.trans {b'' : BrokerWorld} (h : b.Grows b') (h' : b'.Grows b'') : b.Grows b'' :=
  ⟨fun x hx => h'.kept x (h.kept x hx), fun pid job hj => h'.jobs pid job (h.jobs pid job hj),
    fun pid hc => h'.crashes pid (h.crashes pid hc)⟩

-- What a call does: nothing, or it adds a definition, or it is refused.
theorem carry_out_cases (b : BrokerWorld) (e : BrokerCall) :
    b.carry_out e = (.ok (), b) ∧ (e = .connect ∨ e = .stop) ∨
      ∃ x, e = .declare x ∧
        ((∃ d, b.definitions.declare x = .ok d ∧
            b.carry_out e = (.ok (), { b with definitions := d })) ∨
          ∃ refusal, b.definitions.declare x = .error refusal ∧
            b.carry_out e = (.error (.refused refusal), b)) := by
  cases e with
  | connect => exact .inl ⟨rfl, .inl rfl⟩
  | stop => exact .inl ⟨rfl, .inr rfl⟩
  | declare x =>
      refine .inr ⟨x, rfl, ?_⟩
      cases hx : b.definitions.declare x with
      | ok d => exact .inl ⟨d, rfl, by simp [carry_out, hx]⟩
      | error refusal => exact .inr ⟨refusal, rfl, by simp [carry_out, hx]⟩

theorem grows_carry_out (b : BrokerWorld) (e : BrokerCall) : b.Grows (b.carry_out e).2 := by
  obtain ⟨he, _⟩ | ⟨x, _, ⟨d, hx, he⟩ | ⟨_, _, he⟩⟩ := b.carry_out_cases e <;> rw [he]
  · exact .refl b
  · exact ⟨fun y hy => hy.declare hx, fun _ _ h => h, fun _ h => h⟩
  · exact .refl b

theorem sourced_carry_out {e : BrokerCall} (h : b.Sourced)
    (he : ∀ x, e = .declare x → b.Declares x) : (b.carry_out e).2.Sourced := by
  obtain ⟨hb, _⟩ | ⟨x, rfl, ⟨d, hx, hb⟩ | ⟨_, _, hb⟩⟩ := b.carry_out_cases e <;> rw [hb]
  · exact h
  · intro y hy
    obtain hold | rfl := Definitions.Has.of_declare hy hx
    · exact h y hold
    · exact he y rfl
  · exact h

theorem standing_start {job : BrokerJob} :
    b.Standing job ⟨[], job.declarations, none⟩ :=
  ⟨rfl, nofun, prepared_declarations job, nofun⟩

-- What a call brings a process to that has not crashed.
theorem Standing.carry_out {job : BrokerJob} {e : BrokerCall} (hs : b.Standing job s)
    (hb : b.Sourced) (he : s.may e) :
    (b.carry_out e).2.Standing job (s.next e (b.carry_out e).1) := by
  have hgrows := hs.grows (b.grows_carry_out e)
  obtain ⟨hb', hidle⟩ | ⟨x, rfl, hx⟩ := b.carry_out_cases e
  · rw [hb']
    rcases hidle with rfl | rfl <;> exact hs
  obtain ⟨before, rest, refused⟩ := s
  cases rest with
  | nil => cases he
  | cons y rest =>
      obtain rfl : y = x := Option.some.inj he
      have hmem : y ∈ job.declarations := by
        rw [← hs.order]
        exact List.mem_append_right _ List.mem_cons_self
      rcases hx with ⟨d, hd, hb'⟩ | ⟨refusal, hd, hb'⟩
      · rw [hb'] at hgrows ⊢
        refine ⟨?_, hs.prepared.declared hs.kept hd, hs.prepared.tail, hgrows.refused⟩
        rw [← hs.order]
        simp [Progress.next]
      · rw [hb']
        refine ⟨hs.order, hs.kept, hs.prepared, fun e refusal' he' => ?_⟩
        cases he'
        obtain ⟨hrefusal, z, hconflict, hz⟩ := hs.prepared.refused hs.kept hd
        exact ⟨hrefusal, y, z, hmem, hconflict, hb z hz⟩

theorem perform_cases {pid : Pid} {e : BrokerCall} {a : BrokerAnswer} {r : Except BrokerError Unit}
    (h : bringUp.perform pid e a b = some (r, b')) :
    b.carry_out e = (r, b') ∨ r = .error .lost ∧ (b' = b ∨ b' = (b.carry_out e).2) := by
  cases a with
  | reply => exact .inl (Option.some.inj h)
  | lost carried_out =>
      obtain ⟨rfl, rfl⟩ := Prod.mk.inj (Option.some.inj h)
      refine .inr ⟨rfl, ?_⟩
      cases carried_out with
      | true => exact .inr rfl
      | false => exact .inl rfl

theorem launch_cases {job : BrokerJob} {p : Bootstrap Unit} (h : b.launch pid job = some (p, b')) :
    b.jobs pid = none ∧ b' = { b with jobs := Function.update b.jobs pid (some job) } ∧
      Progress.discipline.Follows Progress.Ends ⟨[], job.declarations, none⟩ p := by
  cases hj : b.jobs pid with
  | some _ => simp [launch, hj] at h
  | none =>
      cases job with
      | bootstrap ttls =>
          simp only [launch, hj, Option.some.injEq, Prod.mk.injEq] at h
          obtain ⟨rfl, rfl⟩ := h
          exact ⟨rfl, rfl, main_follows ttls⟩
      | consumer =>
          simp only [launch, hj, Option.some.injEq, Prod.mk.injEq] at h
          obtain ⟨rfl, rfl⟩ := h
          exact ⟨rfl, rfl, start_consumer_follows⟩

end BrokerWorld

open BrokerWorld

theorem bringUp_grows : bringUp.Grows BrokerWorld.Grows where
  refl := .refl
  trans _ _ _ := .trans
  launch pid job b p b' h := by
    obtain ⟨hnone, rfl, _⟩ := launch_cases h
    refine ⟨fun _ h => h, fun q job' hj => ?_, fun _ h => h⟩
    have hne : q ≠ pid := fun he => by rw [he, hnone] at hj; cases hj
    exact (Function.update_of_ne hne _ _).trans hj
  perform pid e a b r b' h := by
    have hgrows := b.grows_carry_out e
    obtain he | ⟨_, rfl | rfl⟩ := perform_cases h
    · rwa [he] at hgrows
    · exact .refl _
    · exact hgrows
  crash pid b := ⟨fun _ h => h, fun _ _ h => h, fun _ h => List.mem_cons_of_mem _ h⟩
  tick _ b b' h := by
    cases h
    exact ⟨fun x hx => hx.restart, fun _ _ h => h, fun _ h => h⟩

theorem bringUp_disciplined : Progress.discipline.Interprets bringUp unrestricted
    bringUp_grows.logic Sourced Progress.Ends Stands where
  launch pid job b p b' _ hI h := by
    have hgrows := bringUp_grows.launch pid job b p b' h
    obtain ⟨hnone, rfl, hf⟩ := launch_cases h
    refine ⟨fun x hx => hgrows.declares (hI x hx), _, ⟨job, ?_, .inl standing_start⟩, hf⟩
    exact Function.update_self ..
  call pid e a b r b' s _ _ _ hI _ h hs he := by
    have hgrows := bringUp_grows.perform pid e a b r b' h
    obtain ⟨job, hj, hs⟩ := hs
    replace he : s.may e := he
    have hdeclares : ∀ x, e = .declare x → b.Declares x := by
      rintro x rfl
      rcases hs with hs | ⟨_, hrest⟩
      · refine ⟨pid, job, hj, ?_⟩
        rw [← hs.order]
        exact List.mem_append_right _ (List.mem_of_head? he)
      · exact absurd rfl ((rest_next hrest he (.ok ())).1 x)
    have hsourced := sourced_carry_out hI hdeclares
    have hj' := hgrows.jobs pid job hj
    rcases hs with hs | ⟨hc, hrest⟩
    · have hstanding := hs.carry_out hI he
      obtain hb | ⟨rfl, rfl | rfl⟩ := perform_cases h
      · rw [hb] at hsourced hstanding
        exact ⟨hsourced, job, hj', .inl hstanding⟩
      · exact ⟨hI, job, hj', .inl hs⟩
      · exact ⟨hsourced, job, hj', .inl (hs.grows hgrows)⟩
    · refine ⟨?_, job, hj', .inr ⟨hgrows.crashes pid hc, (rest_next hrest he r).2⟩⟩
      obtain hb | ⟨_, rfl | rfl⟩ := perform_cases h
      · rwa [hb] at hsourced
      · exact hI
      · exact hsourced
  crash pid b s _ hI hs := by
    obtain ⟨job, hj, _⟩ := hs
    exact ⟨hI, ⟨[], [], none⟩, ⟨job, hj, .inr ⟨List.mem_cons_self, rfl⟩⟩, rfl⟩
  tick _ b b' _ hI h := by
    cases h
    exact fun x hx => hI x hx.of_restart
  rely pid b b' s hr hs := hs.grows hr

end Worlds

end PaymentsProcessor
