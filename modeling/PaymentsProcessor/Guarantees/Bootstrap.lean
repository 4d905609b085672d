import PaymentsProcessor.Messaging.Declaring

namespace PaymentsProcessor

open Amqp Concurrency PaymentsConstants

-- A broker that does for a version what its topology says: it has the queues of the
-- version with their TTLs and dead letters, and takes messages from its exchanges to
-- where the topology does.
structure BrokerWorld.Serves (b : BrokerWorld) (ttls : List ℕ) : Prop where
  queues : ∀ q ∈ (declare_topology ttls).queues, b.definitions.topology.queue? q.name = some q
  routes : ∀ exchange routing_key name, exchange ≠ "" →
    (name ∈ b.definitions.topology.route exchange routing_key ↔
      name ∈ (declare_topology ttls).route exchange routing_key)

section Bootstrap

variable {b : BrokerWorld} {ttls : List ℕ}

theorem mem_declarations_queue {q : Queue} (h : q ∈ (declare_topology ttls).queues) :
    .queue q.durably ∈ declarations ttls := by
  simp only [declare_topology, List.mem_cons, List.mem_append, List.not_mem_nil, or_false] at h
  obtain rfl | h | rfl := h
  · simp [declarations]
  · exact List.mem_append_right _ (List.mem_append_left _
      (List.mem_map_of_mem (List.mem_map_of_mem h)))
  · simp [declarations]

-- All versions bind the same queues in the same way.
theorem mem_declarations_binding {x : Binding} :
    .binding x ∈ declarations ttls ↔ x ∈ (declare_topology ttls).bindings := by
  simp [declarations, declare_topology, _make_main_queue, _make_dlq]

theorem serves_of_keeps (hk : ∀ x ∈ declarations ttls, b.definitions.Keeps x)
    (hs : b.Sourced) : b.Serves ttls where
  queues q hq := by
    have hkept := (hk _ (mem_declarations_queue hq)).1
    rw [Definitions.topology_queue?, show q.name = q.durably.name from rfl, hkept]
    rfl
  routes exchange routing_key name hne := by
    rw [Definitions.mem_route hne, Definitions.mem_route hne]
    refine exists_congr fun x => and_congr_left fun _ => ⟨fun hx => ?_, fun hx => ?_⟩
    · obtain ⟨pid, job, _, hdeclared⟩ := hs (.binding x) hx
      cases job with
      | bootstrap ttls' =>
          have hbound : x ∈ (declare_topology ttls').bindings :=
            mem_declarations_binding.mp hdeclared
          exact hbound
      | consumer => simp [BrokerJob.declarations] at hdeclared
    · exact (hk _ (mem_declarations_binding.mpr hx)).1

variable {c c' : BrokerConfig} {pid : Pid} {job : BrokerJob}

theorem sourced_init : BrokerWorld.init.Sourced := fun x hx => by cases x <;> cases hx

-- Where a process stands that has ended without a crash.
theorem ended_standing (h : Run bringUp unrestricted BrokerConfig.init c)
    {r : Except BrokerError Unit} (hj : c.world.jobs pid = some job)
    (hp : c.prog pid = some (.ret r)) (hc : pid ∉ c.world.crashes) :
    c.world.Sourced ∧ ∃ s, c.world.Standing job s ∧ Progress.Ends r s := by
  obtain ⟨hsourced, hd⟩ := bringUp_grows.sound.disciplined bringUp_disciplined
    sourced_init (fun _ => rfl) h
  obtain ⟨s, ⟨job', hj', hs⟩, hends⟩ := hd.ended hp
  obtain rfl : job = job' := Option.some.inj (hj.symm.trans hj')
  exact ⟨hsourced, s, hs.resolve_right fun hcrash => hc hcrash.1, hends⟩

-- Once a bootstrap has come to its end, its topology is in place for good: whatever
-- starts, fails or is started again besides it or after it, of any version, and
-- however often the broker is restarted.
theorem bootstrapped_broker_serves (h : Run bringUp unrestricted BrokerConfig.init c)
    (hj : c.world.jobs pid = some (.bootstrap ttls)) (hp : c.prog pid = some (.ret (.ok ())))
    (hc : pid ∉ c.world.crashes) (h' : Run bringUp unrestricted c c') :
    c'.world.Serves ttls := by
  obtain ⟨_, s, hs, hrest⟩ := ended_standing h hj hp hc
  obtain ⟨hsourced, _⟩ := bringUp_grows.sound.disciplined bringUp_disciplined
    sourced_init (fun _ => rfl) (h.trans h')
  have horder : s.before = declarations ttls := by
    have horder := hs.order
    rwa [show s.rest = [] from hrest, List.append_nil] at horder
  refine serves_of_keeps (fun x hx => ?_) hsourced
  exact (bringUp_grows.run h').kept x (hs.kept x (horder ▸ hx))

end Bootstrap

namespace Scenario

abbrev BrokerLabels := List (Label Pid BrokerJob BrokerAnswer Unit)

def carried_out (p : Pid) (calls : ℕ) : BrokerLabels := List.replicate calls (.call p .reply)

-- A bootstrap is cut off by a lost connection and another one comes to its end.
def bootstrapped : BrokerLabels :=
  .launch 0 (.bootstrap RETRY_TTL_MS_BY_ATTEMPT) :: carried_out 0 4 ++
    [.call 0 (.lost true), .call 0 .reply, .tick (),
      .launch 1 (.bootstrap RETRY_TTL_MS_BY_ATTEMPT)] ++ carried_out 1 12

-- The next version retries later.
def upgraded : BrokerLabels :=
  bootstrapped ++ .launch 2 (.bootstrap [2000, 16000]) :: carried_out 2 8

def bring_up (ls : BrokerLabels) : Option BrokerConfig :=
  BrokerConfig.init.execAll bringUp (fun _ _ _ _ => true) ls

theorem brings_up (ls : BrokerLabels) (f : BrokerConfig → Bool) (h : (bring_up ls).any f) :
    ∃ c, Run bringUp unrestricted BrokerConfig.init c ∧ f c := by
  obtain ⟨c, hr, hf⟩ := (Option.any_eq_true _ _).mp h
  exact ⟨c, run_of_execAll (fun _ _ _ _ _ => trivial) hr, hf⟩

-- What a process has ended with that has not crashed.
def outcome (c : BrokerConfig) (p : Pid) : Option (BrokerJob × Option BrokerError) :=
  if p ∈ c.world.crashes then none
  else
    match c.world.jobs p, c.prog p with
    | some job, some (.ret (.ok _)) => some (job, none)
    | some job, some (.ret (.error x)) => some (job, some x)
    | _, _ => none

theorem of_outcome {c : BrokerConfig} {p : Pid} {job : BrokerJob} {x : Option BrokerError}
    (h : outcome c p = some (job, x)) : c.world.jobs p = some job ∧
      c.prog p = some (.ret (x.elim (.ok ()) .error)) ∧ p ∉ c.world.crashes := by
  unfold outcome at h
  split at h
  · cases h
  · split at h <;> cases h
    · exact ⟨‹_›, ‹_›, ‹_›⟩
    · exact ⟨‹_›, ‹_›, ‹_›⟩

end Scenario

theorem payments_broker_serves : ∃ c, Run bringUp unrestricted BrokerConfig.init c ∧
    ∀ c', Run bringUp unrestricted c c' → c'.world.Serves RETRY_TTL_MS_BY_ATTEMPT := by
  obtain ⟨c, hc, hf⟩ := Scenario.brings_up Scenario.bootstrapped (fun c => Scenario.outcome c 1 =
    some (.bootstrap RETRY_TTL_MS_BY_ATTEMPT, none)) (by decide +kernel)
  obtain ⟨hj, hp, hcrash⟩ := Scenario.of_outcome (of_decide_eq_true hf)
  exact ⟨c, hc, fun c' h' => bootstrapped_broker_serves hc hj hp hcrash h'⟩

-- A process is refused only when another version was started that gives the same
-- attempt another TTL, and never for what it had not declared before.
theorem bootstraps_are_refused_for_their_ttls
    {c : BrokerConfig} {pid : Pid} {job : BrokerJob}
    {refusal : Refusal} (h : Run bringUp unrestricted BrokerConfig.init c)
    (hj : c.world.jobs pid = some job) (hp : c.prog pid = some (.ret (.error (.refused refusal))))
    (hc : pid ∉ c.world.crashes) :
    refusal = .PRECONDITION_FAILED ∧
      ∃ pid' job', c.world.jobs pid' = some job' ∧ job.Disagrees job' := by
  obtain ⟨_, s, hs, e, he⟩ := ended_standing h hj hp hc
  obtain ⟨hrefusal, x, y, hx, hconflict, pid', job', hj', hy⟩ := hs.refused e refusal he
  exact ⟨hrefusal, pid', job', hj', declared_conflict hx hy hconflict⟩

theorem upgrade_is_refused : ∃ c, Run bringUp unrestricted BrokerConfig.init c ∧
    ∃ pid' job', c.world.jobs pid' = some job' ∧
      (BrokerJob.bootstrap [2000, 16000]).Disagrees job' := by
  obtain ⟨c, hc, hf⟩ := Scenario.brings_up Scenario.upgraded (fun c => Scenario.outcome c 2 =
    some (.bootstrap [2000, 16000], some (.refused .PRECONDITION_FAILED))) (by decide +kernel)
  obtain ⟨hj, hp, hcrash⟩ := Scenario.of_outcome (of_decide_eq_true hf)
  exact ⟨c, hc, (bootstraps_are_refused_for_their_ttls hc hj hp hcrash).2⟩

end PaymentsProcessor
