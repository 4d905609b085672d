import PaymentsProcessor.Database.Scans
import PaymentsProcessor.Guarantees.Outcomes
import PaymentsProcessor.System.Locks

namespace PaymentsProcessor

open Python Storage Concurrency PaymentsConstants

-- What a statement waits for while another transaction has it. A scan and a lock
-- that skips wait for nothing.
def Statement.awaits : Statement → List Resource
  | .insert_payment v => [.payment v.id, .idempotency_key v.idempotency_key]
  | .insert_outbox v => [.outbox v.id]
  | .update_processing_outcome id .. => [.payment id]
  | .mark_published id _ | .bump_attempt id .. => [.outbox id]
  | .get_by_id _ | .get_by_idempotency_key _ | .scan_pending .. | .lock_pending .. => []

section Server

variable {s : Store} {pid : Pid} {time : DateTime} {ids : List UUID}

theorem isFree_iff {k : Resource} :
    s.isFree pid k = true ↔ ∀ q, s.owner k = some q → q = pid := by
  unfold LockStore.isFree
  cases h : s.owner k with
  | none => simp
  | some q => simp

-- A statement that finds free what it asks for is answered.
theorem verdict_answered (stmt : Statement) (time : DateTime)
    (hfree : ∀ k ∈ stmt.awaits, s.isFree pid k) :
    ∃ ids, stmt.verdict s pid time ids ≠ .waits := by
  cases stmt with
  | scan_pending limit now =>
      by_cases hlimit : limit < 0
      · exact ⟨[], by simp [Statement.verdict, scan_verdict, hlimit]⟩
      · refine ⟨((s.visible pid).due now).map (·.id), ?_⟩
        rw [Statement.verdict, scan_answered s pid (not_lt.mp hlimit)]
        simp
  | _ =>
      refine ⟨[], ?_⟩
      simp only [Statement.awaits, List.mem_cons, List.not_mem_nil, or_false, forall_eq_or_imp,
        forall_eq] at hfree
      simp only [Statement.verdict, insert_payment_verdict, insert_outbox_verdict,
        update_payment_verdict, lock_verdict, mark_verdict, bump_verdict]
      repeat' split
      all_goals simp_all

end Server

-- `p` cannot go on before `q` gives something up.
def WaitsFor (c : SystemConfig) (p q : Pid) : Prop :=
  ∃ stmt k, c.prog p = some (.call (.execute stmt) k) ∧
    ∃ r ∈ stmt.awaits, c.world.store.owner r = some q ∧ q ≠ p

-- The pending call of `p` can be answered, and without a failure on the way. A
-- message that the broker has taken back cannot be settled any more.
def Able (d : Deployment) (c : SystemConfig) (p : Pid) : Prop :=
  ∃ e k, c.prog p = some (.call e k) ∧ (e.kind = .settle ∧ c.world.unacked p = none ∨
    ∃ r result w', c.world.perform d p e (.reply r) = some (result, w'))

-- Every close is carried out, and every settlement of a message that is still held.
def releasing : Assumption Pid World Effect Answer := fun p e a w => orderly p e a w

section Waits

variable {d : Deployment} {A : Assumption Pid World Effect Answer} {c : SystemConfig}
variable {o p q r : Pid}

theorem WaitsFor.owns (h : WaitsFor c p q) : ¬Released q c.world := by
  obtain ⟨_, _, _, k, _, hk, _⟩ := h
  exact fun hr => hr.owner k hk

-- Who waits holds nothing, or holds no row of the outbox and waits for one.
theorem waits_cases (h : Reachable d A c) (hw : WaitsFor c p q) : Released p c.world ∨
    (∀ id, c.world.store.owner (.outbox id) ≠ some p) ∧
      ∃ id, c.world.store.owner (.outbox id) = some q := by
  obtain ⟨stmt, k, hp, r, hr, hown, hne⟩ := hw
  obtain ⟨s, hs, hmay⟩ :=
    (reachable_disciplined (o := False) (fun hf => hf.elim) h).pending hp
  have hgrip := hs.grip
  have hheld : ∀ id ∈ s.rows, r ≠ .outbox id := by
    intro id hid he
    rw [he, hs.rows id hid] at hown
    exact hne (Option.some.inj hown).symm
  cases stmt with
  | insert_payment | update_processing_outcome =>
      rw [show s.grip = .nothing from hmay] at hgrip
      exact .inl hgrip
  | insert_outbox values =>
      have hgrip' : ∀ id, c.world.store.owner (.outbox id) ≠ some p := by
        rcases (hmay : s.grip = .nothing ∨ s.grip = .payment) with hg | hg
        · rw [hg] at hgrip
          exact fun id => hgrip.owner _
        · rw [hg] at hgrip
          exact hgrip
      exact .inr ⟨hgrip', values.id, List.mem_singleton.mp hr ▸ hown⟩
  | mark_published id _ | bump_attempt id _ _ =>
      exact absurd (List.mem_singleton.mp hr) (hheld id hmay)
  | _ => cases hr

-- Nobody waits for a process that waits for a process that waits.
theorem no_third_wait (h : Reachable d A c) (ho : WaitsFor c o p) (hp : WaitsFor c p q) :
    ¬WaitsFor c q r := by
  intro hq
  obtain ⟨_, id, hid⟩ := (waits_cases h hp).resolve_left ho.owns
  obtain ⟨hnone, _⟩ := (waits_cases h hq).resolve_left hp.owns
  exact hnone id hid

-- Processes never wait for each other in a circle: whatever requests, batches
-- and deliveries run, in whatever order, and whatever fails.
theorem waits_are_acyclic (h : Reachable d A c) (p : Pid) :
    ¬Relation.TransGen (WaitsFor c) p p := by
  intro hcycle
  obtain ⟨o, _, ho⟩ := Relation.TransGen.tail'_iff.mp hcycle
  obtain ⟨q, hp, hq⟩ := Relation.TransGen.head'_iff.mp hcycle
  obtain rfl | ⟨r, hr, _⟩ := hq.cases_head
  · exact no_third_wait h ho hp hp
  · exact no_third_wait h ho hp hr

-- A process that has ended holds nothing in the tables. It has no message either,
-- unless what ended it is an exception that the consumer does not catch.
theorem ended_processes_hold_nothing (h : Reachable d releasing c) {result : Except Exn Unit}
    (hp : c.prog p = some (.ret result)) : Released p c.world ∧
      (c.world.unacked p = none ∨
        ∃ x, result = .error x ∧ x.isinstance .Exception = false) := by
  obtain ⟨s, hs, hclosed, hmsg⟩ :=
    (reachable_disciplined (o := True) (fun _ _ _ _ _ ha => ha) h).ended hp
  have hgrip := hs.grip
  refine ⟨?_, hmsg.imp_left fun hm => hs.message trivial hm⟩
  rcases hclosed with hg | hg
  · rw [hg] at hgrip
    exact hgrip
  · rw [hg] at hgrip
    exact hgrip trivial

theorem answered_of_carried {w : World} {e : Effect} (r : Reply)
    (h : (w.carry_out d p e r).isSome) :
    ∃ r result w', w.perform d p e (.reply r) = some (result, w') := by
  obtain ⟨⟨result, w'⟩, hc⟩ := Option.isSome_iff_exists.mp h
  exact ⟨r, result, _, by rw [World.perform, hc]; rfl⟩

theorem execute_answered {w : World} {stmt : Statement}
    (hfree : ∀ k ∈ stmt.awaits, w.store.isFree p k) :
    ∃ r result w', w.perform d p (.execute stmt) (.reply r) = some (result, w') := by
  obtain ⟨ids, hv⟩ := verdict_answered stmt 0 hfree
  refine answered_of_carried (.executed 0 ids) ?_
  simp only [World.carry_out, World.execute]
  split
  · rfl
  · split
    · exact absurd ‹_› hv
    all_goals rfl

theorem able_or_waits {e : Effect} {k : Except Exn e.Result → Async Unit}
    (hp : c.prog p = some (.call e k)) : Able d c p ∨ ∃ q, WaitsFor c p q := by
  have able : (e.kind = .settle ∧ c.world.unacked p = none ∨
      ∃ r result w', c.world.perform d p e (.reply r) = some (result, w')) →
        Able d c p ∨ ∃ q, WaitsFor c p q := fun ha => .inl ⟨e, k, hp, ha⟩
  have settles : e.kind = .settle → (c.world.unacked p ≠ none →
      ∃ r, (c.world.carry_out d p e r).isSome) → Able d c p ∨ ∃ q, WaitsFor c p q := by
    intro hk hc
    by_cases hu : c.world.unacked p = none
    · exact able (.inl ⟨hk, hu⟩)
    · obtain ⟨r, hr⟩ := hc hu
      exact able (.inr (answered_of_carried r hr))
  have message : c.world.unacked p ≠ none → (c.world.unacked p).isSome :=
    Option.isSome_iff_ne_none.mpr
  cases e with
  | execute stmt =>
      by_cases hw : ∃ q, WaitsFor c p q
      · exact .inr hw
      · refine able (.inr (execute_answered fun r hr => isFree_iff.mpr fun q hq => ?_))
        by_contra hne
        exact hw ⟨q, stmt, k, hp, r, hr, hq, hne⟩
  | container_get | flush | sleep | commit | close | publish | respond =>
      exact able (.inr (answered_of_carried .done rfl))
  | ack => exact settles rfl fun hu => ⟨.done, by simpa [World.carry_out] using message hu⟩
  | nack requeue =>
      exact settles rfl fun hu => ⟨.dead .none, by simpa [World.carry_out] using message hu⟩
  | reject requeue =>
      exact settles rfl fun hu => ⟨.dead .none, by simpa [World.carry_out] using message hu⟩
  | now => exact able (.inr (answered_of_carried (.time 0) rfl))
  | uuid7 => exact able (.inr (answered_of_carried (.uuid 0) rfl))
  | uniform | random => exact able (.inr (answered_of_carried (.float .nan) rfl))
  | getaddrinfo => exact able (.inr (answered_of_carried (.infos []) rfl))
  | post request => exact able (.inr (answered_of_carried (.response (.v4 0) 200) rfl))

-- Who is waited for has not ended.
theorem WaitsFor.pending (h : Reachable d releasing c) (hw : WaitsFor c p q) :
    ∃ e k, c.prog q = some (.call e k) := by
  obtain ⟨_, _, _, k, _, hk, _⟩ := id hw
  obtain ⟨prog, hprog⟩ := Option.ne_none_iff_exists'.mp (reachable_owned h _ _ hk)
  cases prog with
  | ret result => exact absurd (ended_processes_hold_nothing h hprog).1 hw.owns
  | call e k => exact ⟨e, k, hprog⟩

-- A process that has not ended can go on, or it waits for one that can.
theorem someone_can_go_on (h : Reachable d releasing c) {e : Effect}
    {k : Except Exn e.Result → Async Unit} (hp : c.prog p = some (.call e k)) :
    ∃ q, Relation.ReflTransGen (WaitsFor c) p q ∧ Able d c q := by
  obtain hable | ⟨q, hq⟩ := able_or_waits (d := d) hp
  · exact ⟨p, .refl, hable⟩
  obtain ⟨_, _, hprog⟩ := hq.pending h
  obtain hable | ⟨r, hr⟩ := able_or_waits (d := d) hprog
  · exact ⟨q, .single hq, hable⟩
  obtain ⟨_, _, hprog'⟩ := hr.pending h
  obtain hable | ⟨o, ho⟩ := able_or_waits (d := d) hprog'
  · exact ⟨r, .head hq (.single hr), hable⟩
  · exact absurd ho (no_third_wait h hq hr)

end Waits

namespace Scenario

theorem releasing_of_orderly (pid : Pid) (e : Effect) (a : Answer) (w : World)
    (h : orderly pid e a w) : releasing pid e a w := h

def waits (c : SystemConfig) (p q : Pid) : Bool :=
  match c.prog p with
  | some (.call (.execute stmt) _) =>
      (q ≠ p) && stmt.awaits.any fun r => c.world.store.owner r = some q
  | _ => false

theorem waits_of_waits {c : SystemConfig} {p q : Pid} (h : waits c p q) : WaitsFor c p q := by
  unfold waits at h
  split at h
  · rename_i stmt k hp
    obtain ⟨hne, hany⟩ := Bool.and_eq_true_iff.mp h
    obtain ⟨r, hr, hown⟩ := List.any_eq_true.mp hany
    exact ⟨stmt, k, hp, r, hr, of_decide_eq_true hown, of_decide_eq_true hne⟩
  · cases h

-- Two requests with one key have looked it up, and one of them has inserted.
def same_key : Labels :=
  lookup 0 ++ lookup 1 ++ replies 0 [.uuid 7, .executed 5 []] ++ replies 1 [.uuid 8]

end Scenario

theorem second_insert_waits : ∃ c, Reachable Scenario.deployment unrestricted c ∧
    WaitsFor c 1 0 ∧ ¬Relation.TransGen (WaitsFor c) 1 1 := by
  obtain ⟨c, hc, hf⟩ := Scenario.reaches_any Scenario.same_key (fun c => Scenario.waits c 1 0)
    (by decide +kernel)
  exact ⟨c, hc, Scenario.waits_of_waits hf, waits_are_acyclic hc 1⟩

theorem first_insert_goes_on : ∃ c, Reachable Scenario.deployment releasing c ∧
    WaitsFor c 1 0 ∧ ∃ q, Relation.ReflTransGen (WaitsFor c) 1 q ∧
      Able Scenario.deployment c q := by
  obtain ⟨c, hc, hf⟩ := Scenario.reaches Scenario.releasing_of_orderly Scenario.same_key
    (fun c => Scenario.waits c 1 0) (by decide +kernel)
  obtain ⟨stmt, k, hp, hr⟩ := Scenario.waits_of_waits hf
  exact ⟨c, hc, ⟨stmt, k, hp, hr⟩, someone_can_go_on hc hp⟩

namespace Scenario

def ended (c : SystemConfig) (p : Pid) : Bool :=
  match c.prog p with
  | some (.ret _) => true
  | _ => false

theorem ret_of_ended {c : SystemConfig} {p : Pid} (h : ended c p) :
    ∃ result, c.prog p = some (.ret result) := by
  unfold ended at h
  split at h
  · exact ⟨_, ‹_›⟩
  · cases h

def connection_lost : Exn := .OSError "connection lost"

-- The session of a request is closed, and the close raises nevertheless.
def failed_close : Labels :=
  lookup 0 ++ insert 0 ++ replies 0 [.done] ++ [.call 0 (.raised connection_lost (some .done))]

end Scenario

theorem failed_close_releases : ∃ c result, Reachable Scenario.deployment releasing c ∧
    c.prog 0 = some (.ret result) ∧ Released 0 c.world ∧
      (c.world.unacked 0 = none ∨
        ∃ x, result = .error x ∧ x.isinstance .Exception = false) := by
  obtain ⟨c, hc, hf⟩ := Scenario.reaches Scenario.releasing_of_orderly Scenario.failed_close
    (fun c => Scenario.ended c 0) (by decide +kernel)
  obtain ⟨result, hp⟩ := Scenario.ret_of_ended hf
  exact ⟨c, result, hc, hp, ended_processes_hold_nothing hc hp⟩

end PaymentsProcessor
