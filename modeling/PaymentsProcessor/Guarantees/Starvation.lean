import PaymentsProcessor.Guarantees.Backoff
import PaymentsProcessor.Guarantees.Payments
import PaymentsProcessor.System.Advancing

namespace PaymentsProcessor

open Python Storage Concurrency PaymentsConstants

-- A delay of so many seconds is at least a microsecond, the unit of the clock.
def LastsMicrosecond : PyFloat → Prop
  | .finite seconds => 1 ≤ roundHalfEven (seconds * 1000000)
  | .inf negative => negative = false
  | .nan => False

instance : DecidablePred LastsMicrosecond
  | .finite seconds => inferInstanceAs (Decidable (1 ≤ roundHalfEven (seconds * 1000000)))
  | .inf negative => inferInstanceAs (Decidable (negative = false))
  | .nan => inferInstanceAs (Decidable False)

section Backoff

variable {service : OutboxService} {attempts : ℕ} {now t : DateTime}

theorem one_le_roundHalfEven_iff (q : ℚ) : 1 ≤ roundHalfEven q ↔ 1 / 2 < q := by
  have hlow := Int.floor_le q
  have hhigh := Int.lt_floor_add_one q
  unfold roundHalfEven
  simp only
  by_cases hfloor : ⌊q⌋ = 0
  · rw [hfloor] at hlow hhigh ⊢
    norm_num at hlow hhigh ⊢
    by_cases hlt : q < 1 / 2
    · rw [if_pos (by linarith)]
      constructor
      · intro h
        omega
      · intro h
        linarith
    · by_cases hgt : 1 / 2 < q
      · rw [if_neg (by linarith), if_pos (by linarith)]
        simpa using hgt
      · rw [if_neg (by linarith), if_neg (by linarith)]
        simpa using hgt
  · by_cases hneg : ⌊q⌋ < 0
    · have hq : q < 0 := by
        have := Int.floor_lt.mp hneg
        simpa using this
      constructor
      · intro h
        exfalso
        split at h
        · omega
        · split at h
          · omega
          · split at h <;> omega
      · intro h
        linarith
    · have hone : 1 ≤ ⌊q⌋ := by omega
      have hq : (1 : ℚ) ≤ q := by
        have := Int.le_floor.mp hone
        simpa using this
      constructor
      · intro _
        linarith
      · intro _
        split
        · omega
        · split
          · omega
          · split <;> omega

theorem LastsMicrosecond.positive {x : PyFloat} (h : LastsMicrosecond x) : Positive x := by
  rw [positive_iff]
  cases x with
  | finite seconds =>
      have hhalf := (one_le_roundHalfEven_iff _).mp h
      exact .inl ⟨seconds, rfl, by linarith⟩
  | inf negative => exact .inr (congrArg PyFloat.inf h)
  | nan => exact h.elim

-- Not even the first of all backoffs is rounded to nothing.
theorem next_attempt_later
    (hinitial : LastsMicrosecond service.outbox_dispatcher_config.OUTBOX_BACKOFF_INITIAL_SECONDS)
    (hcap : LastsMicrosecond service.outbox_dispatcher_config.OUTBOX_BACKOFF_MAX_SECONDS)
    (h : next_attempt service attempts now = .ok t) : now < t := by
  obtain ⟨_, seconds, hexact, _, rfl⟩ :=
    (next_attempt_eq_iff hinitial.positive hcap.positive).mp h
  have hround : 1 ≤ roundHalfEven (seconds * 1000000) := by
    unfold exact_backoff at hexact
    rcases min_choice (extended service.outbox_dispatcher_config.OUTBOX_BACKOFF_MAX_SECONDS)
      ((extended service.outbox_dispatcher_config.OUTBOX_BACKOFF_INITIAL_SECONDS).map
        fun q => q * 2 ^ attempts) with hm | hm
    · rw [hm] at hexact
      cases hc : service.outbox_dispatcher_config.OUTBOX_BACKOFF_MAX_SECONDS with
      | finite cap =>
          rw [hc] at hexact hcap
          obtain rfl : cap = seconds := WithTop.coe_inj.mp hexact
          exact hcap
      | _ =>
          rw [hc] at hexact
          cases hexact
    · rw [hm] at hexact
      cases hc : service.outbox_dispatcher_config.OUTBOX_BACKOFF_INITIAL_SECONDS with
      | finite initial =>
          rw [hc] at hexact hinitial
          obtain rfl : initial * 2 ^ attempts = seconds := WithTop.coe_inj.mp hexact
          have hhalf := (one_le_roundHalfEven_iff _).mp hinitial
          have hpow : (1 : ℚ) ≤ 2 ^ attempts := one_le_pow₀ (by norm_num)
          refine (one_le_roundHalfEven_iff _).mpr ?_
          nlinarith
      | _ =>
          rw [hc] at hexact
          cases hexact
  exact lt_add_of_pos_right now (zero_lt_one.trans_le hround)

end Backoff

section Waiting

variable {d : Deployment} {config : OutboxDispatcherConfig} {now : DateTime} {r : Outbox}
variable {c : SystemConfig}

-- What a commit adds to the log are the writes of the transaction.
theorem committed_writes {c c' : SystemConfig} {l : Label Pid World.Launch Answer World.Tick}
    (h : c.exec (machine d) l = some c') {p : Pid} {ws : List Write}
    (hc : c'.world.log.commits = c.world.log.commits ++ [(p, ws)]) :
    ws = c.world.store.writes p ∧ c'.world.jobs = c.world.jobs := by
  have hgrown : c.world.log.commits ++ [(p, ws)] ≠ c.world.log.commits := fun he => by
    have hlength := congrArg List.length he
    simp at hlength
  have hsame : c'.world.log.commits ≠ c.world.log.commits := hc ▸ hgrown
  obtain ⟨q, l₁, prog, _, hl⟩ | ⟨q, a, e, k, result, _, _, hp⟩ | ⟨q, _, hw⟩ | ⟨t, _, ht⟩ :=
    Config.exec_cases h
  · exact absurd (congrArg Log.commits (launch_same hl).2.2) hsame
  · refine ⟨?_, (scope_perform hp).jobs⟩
    have hcommit : ∀ w' : World, w'.log.commits = (c.world.commit q).log.commits →
        w'.log.commits = c.world.log.commits ++ [(p, ws)] → ws = c.world.store.writes p := by
      intro w' hw' hc'
      rw [hw'] at hc'
      unfold World.commit at hc'
      split at hc'
      · exact absurd hc'.symm hgrown
      · have hlast := List.append_cancel_left hc'
        simp only [List.cons.injEq, Prod.mk.injEq, and_true] at hlast
        rw [← hlast.2, hlast.1]
    cases e with
    | commit =>
        obtain ⟨_, hw⟩ | ⟨_, _, hw | hw⟩ := perform_commit hp
        · exact hcommit c'.world (by rw [hw]) hc
        · exact absurd (by rw [hw]; rfl) hsame
        · exact hcommit c'.world (by rw [hw]; rfl) hc
    | _ => exact absurd ((scope_perform hp).commits nofun) hsame
  · rw [hw] at hsame
    exact absurd (congrArg Log.commits (@crash_same q c.world).2.2.2) hsame
  · exact absurd (congrArg Log.commits (tick_same ht).2.2.2) hsame

-- A row that is due waits for the rows ahead of it and for no others: whatever
-- publish calls fail, a batch that does not contain it removes as many rows as it
-- takes from those ahead, and it is handed to the publisher when none is left.
theorem failing_rows_do_not_starve
    (hsize : 1 ≤ config.OUTBOX_BATCH_SIZE)
    (hinitial : LastsMicrosecond config.OUTBOX_BACKOFF_INITIAL_SECONDS)
    (hcap : LastsMicrosecond config.OUTBOX_BACKOFF_MAX_SECONDS)
    (h : Reachable d unrestricted c) (hbetween : c.BetweenBatches)
    (hr : r ∈ c.world.store.contents.outbox.rows) (hpending : r.status = .PENDING)
    (hdue : r.next_attempt_at ≤ now) :
    (∀ c₁ c₂, Run (machine d) (SingleDispatcher config now r) c c₁ →
      Step (machine d) (SingleDispatcher config now r) c₁ c₂ →
        r ∈ c₁.world.store.contents.outbox.rows →
          ∀ p ws, c₂.world.log.commits = c₁.world.log.commits ++ [(p, ws)] →
            c₁.world.dispatches p → r.id ∉ c₁.world.fetched p →
              c₂.world.store.contents.ahead r ⊆ c₁.world.store.contents.ahead r ∧
                (c₁.world.store.contents.ahead r).length =
                  (c₂.world.store.contents.ahead r).length + config.size) ∧
      ∀ c', Run (machine d) (SingleDispatcher config now r) c c' →
        c.world.batches + ((c.world.store.contents.ahead r).length / config.size + 1) ≤
            c'.world.batches →
          c'.world.HandedSince c.world.log.publishes.length r := by
  have hlater : ∀ attempts now t, next_attempt ⟨config⟩ attempts now = .ok t → now < t :=
    fun _ _ _ => next_attempt_later hinitial hcap
  have hsound := waiting_sound h hbetween hr hpending hdue hlater
  constructor
  · rintro c₁ c₂ hrun ⟨l, hl, he⟩ hr₁ p ws hc hbatch hout
    obtain ⟨hwrites, hjobs⟩ := committed_writes he hc
    obtain ⟨other, hother⟩ := exists_idle l.actor
    have hadv := (hsound.rely c₁ hrun l c₂ hl he other hother).2.1
    rcases hadv.row hr₁ with ⟨e, hmem, wr, hwr, hmoves⟩ | ⟨_, hsub, hstanding⟩
    · rw [hc, List.drop_left, List.mem_singleton] at hmem
      subst hmem
      have hhand := (hsound.inv c₁ hrun).1.1.1.2
      exact absurd (hhand.moved p wr (hwrites ▸ hwr) r.id hmoves) hout
    · refine ⟨hsub, ?_⟩
      have hbatches : c₂.world.batches = c₁.world.batches + 1 := by
        have hsame : c₂.world.dispatches = c₁.world.dispatches := by
          funext q
          unfold World.dispatches
          rw [hjobs]
        unfold World.batches
        rw [hc, hsame, List.countP_append, List.countP_singleton, if_pos hbatch]
      unfold World.standing at hstanding
      rw [hbatches, Nat.mul_add, Nat.mul_one] at hstanding
      omega
  · intro c' hrun hbatches
    rcases (hsound.inv c' hrun).2.handed_or with hhanded | ⟨_, hstanding⟩
    · exact hhanded
    · have hpos : 0 < config.size := by
        unfold OutboxDispatcherConfig.size
        omega
      have hmul := Nat.mul_le_mul_left config.size hbatches
      have hdiv := Nat.lt_mul_div_succ (c.world.store.contents.ahead r).length hpos
      unfold World.standing at hstanding
      rw [Nat.mul_add] at hmul
      omega

end Waiting

namespace Scenario

def one_at_a_time : OutboxDispatcherConfig := ⟨1, .finite 1, .finite 2, .finite 60⟩

-- A payment is created, and its row is due from this time on.
def enqueue (p : Pid) (key : String) (id : ℕ) (time : DateTime) : Labels :=
  .launch p (.request { request with idempotency_key := key }) ::
    replies p [.done, .infos public_infos, .executed 0 [], .uuid id, .executed time [], .uuid id,
      .executed time [], .done, .done, .done, .done]

-- The broker refuses the first row, which is tried again later.
def refused_batch (p : Pid) : Labels :=
  .launch p (.batch one_at_a_time) ::
    (replies p [.done, .done, .time 10, .executed 10 [7, 8], .executed 10 []] ++
      .call p (.raised broker_down none) ::
        replies p [.time 11, .executed 11 [], .done, .done])

def accepted_batch (p : Pid) : Labels :=
  .launch p (.batch one_at_a_time) ::
    replies p [.done, .done, .time 12, .executed 12 [8], .executed 12 [], .done, .time 13,
      .executed 13 [], .done, .done]

def underway (w : World) (p : Pid) : Bool :=
  w.dispatches p && (w.log.commits.all fun e => e.1 ≠ p) && w.log.rollbacks.all fun e => e.1 ≠ p

def clock_from (now : DateTime) : Effect → Answer → Bool
  | .now, .reply (.time t) => now ≤ t
  | _, _ => true

def inserts_later (time : DateTime) : Write → Bool
  | .insert_outbox row => time < row.next_attempt_at
  | _ => true

def is_one_at_a_time (config : OutboxDispatcherConfig) : Bool :=
  config.OUTBOX_BATCH_SIZE = 1 ∧ config.OUTBOX_POLL_INTERVAL_SECONDS = .finite 1 ∧
    config.OUTBOX_BACKOFF_INITIAL_SECONDS = .finite 2 ∧
      config.OUTBOX_BACKOFF_MAX_SECONDS = .finite 60

def dispatched_alone : Test := fun p e a w =>
  (match w.jobs p with
    | some (.batch config) => is_one_at_a_time config &&
        ((List.range 4).all fun q => q = p || !underway w q) && clock_from 10 e a
    | _ => true) && (e.kind ≠ .commit || (w.store.writes p).all (inserts_later 6))

theorem underway_of_batching {w : World} {p : Pid} (h : w.Batching p) : underway w p = true := by
  obtain ⟨⟨config, hjob⟩, hcommits, hrollbacks⟩ := h
  simp only [underway, World.dispatches, hjob, Bool.true_and, Bool.and_eq_true, List.all_eq_true,
    decide_eq_true_eq]
  exact ⟨hcommits, hrollbacks⟩

theorem single_of_test (p : Pid) (e : Effect) (a : Answer) (w : World)
    {r : Outbox} (hr : r.next_attempt_at = 6) (hnone : ∀ q, 4 ≤ q → w.jobs q = none)
    (h : dispatched_alone p e a w) : SingleDispatcher one_at_a_time 10 r p e a w := by
  obtain ⟨hbatch, hlater⟩ := Bool.and_eq_true_iff.mp h
  have batch : ∀ config, w.jobs p = some (.batch config) → is_one_at_a_time config = true ∧
      ((List.range 4).all fun q => q = p || !underway w q) = true ∧ clock_from 10 e a = true := by
    intro config hjob
    rw [hjob] at hbatch
    simpa [Bool.and_eq_true, and_assoc] using hbatch
  constructor
  · intro config hjob
    obtain ⟨h₁, h₂, h₃, h₄⟩ := of_decide_eq_true (batch config hjob).1
    cases config
    cases h₁
    cases h₂
    cases h₃
    cases h₄
    rfl
  · intro config hjob q hq hunder
    have hlt : q < 4 := by
      by_contra hge
      obtain ⟨config', hjob'⟩ := hunder.job
      rw [hnone q (Nat.le_of_not_lt hge)] at hjob'
      cases hjob'
    have hquiet := List.all_eq_true.mp (batch config hjob).2.1 q (List.mem_range.mpr hlt)
    rw [underway_of_batching hunder] at hquiet
    simp [hq] at hquiet
  · rintro config hjob rfl t rfl
    exact of_decide_eq_true (batch config hjob).2.2
  · rintro rfl row hrow
    have hall : (w.store.writes p).all (inserts_later 6) = true := by
      simpa [Effect.kind] using hlater
    rw [hr]
    exact of_decide_eq_true (List.all_eq_true.mp hall _ hrow)

-- A run of a few processes, in which the others have no job.
theorem run_within {A : Assumption Pid World Effect Answer} {test : Test} {n : ℕ}
    (hA : ∀ pid e a w, (∀ q, n ≤ q → w.jobs q = none) → test pid e a w → A pid e a w)
    {ls : Labels} (hls : ls.all fun l => l.actor.all (· < n)) {c c' : SystemConfig}
    (hc : ∀ q, n ≤ q → c.world.jobs q = none)
    (h : c.execAll (machine deployment) test ls = some c') :
    Run (machine deployment) A c c' ∧ ∀ q, n ≤ q → c'.world.jobs q = none := by
  induction ls generalizing c with
  | nil =>
      cases h
      exact ⟨.refl, hc⟩
  | cons l ls ih =>
      unfold Config.execAll at h
      split at h
      · rename_i hallows
        obtain ⟨next, hn, hr⟩ := Option.bind_eq_some_iff.mp h
        rw [List.all_cons, Bool.and_eq_true] at hls
        have hnext : ∀ q, n ≤ q → next.world.jobs q = none := by
          intro q hq
          have hactor : l.actor ≠ some q := by
            intro he
            rw [he] at hls
            have hlt := of_decide_eq_true hls.1
            omega
          rw [jobs_of_exec hn hactor]
          exact hc q hq
        obtain ⟨hrun, hjobs⟩ := ih hls.2 hnext hr
        refine ⟨.head ⟨l, ?_, hn⟩ hrun, hjobs⟩
        cases l with
        | call pid a =>
            intro e k hp
            simp only [Config.allows, hp] at hallows
            exact hA pid e a c.world hc hallows
        | launch | crash | tick => trivial
      · cases h

end Scenario

-- The first row fails, and the second one is handed over by the second batch.
theorem second_row_is_handed_over : ∃ c c' r, Reachable Scenario.deployment unrestricted c ∧
    Run (machine Scenario.deployment) (SingleDispatcher Scenario.one_at_a_time 10 r) c c' ∧
    r ∈ c.world.store.contents.outbox.rows ∧ (c.world.store.contents.ahead r).length = 1 ∧
    c'.world.HandedSince c.world.log.publishes.length r := by
  have hrun : ((SystemConfig.init.execAll (machine Scenario.deployment) Scenario.any
      (Scenario.enqueue 0 "order-1" 7 5 ++ Scenario.enqueue 1 "order-2" 8 6)).bind fun c =>
        (c.execAll (machine Scenario.deployment) Scenario.dispatched_alone
          (Scenario.refused_batch 2 ++ Scenario.accepted_batch 3)).bind fun c' =>
            c.world.store.contents.outbox.rows.getLast?.map fun r =>
              decide (r.status = .PENDING ∧ r.next_attempt_at = 6 ∧
                (c.world.store.contents.ahead r).length = 1 ∧
                c.world.batches = 0 ∧ c'.world.batches = 2 ∧
                ((List.range 2).all fun q => !c.world.dispatches q) = true)) = some true := by
    decide +kernel
  obtain ⟨c, hc, hrun⟩ := Option.bind_eq_some_iff.mp hrun
  obtain ⟨c', hc', hrun⟩ := Option.bind_eq_some_iff.mp hrun
  obtain ⟨r, hr, hfacts⟩ := Option.map_eq_some_iff.mp hrun
  obtain ⟨hpending, htime, hahead, hbefore, hafter, hjobs⟩ := of_decide_eq_true hfacts
  obtain ⟨hreach, hnone⟩ := Scenario.run_within (A := unrestricted) (n := 2)
    (fun _ _ _ _ _ _ => trivial) (by decide) (fun _ _ => rfl) hc
  obtain ⟨hsingle, _⟩ := Scenario.run_within (n := 4)
    (fun p e a w => Scenario.single_of_test p e a w htime) (by decide)
    (fun q hq => hnone q (Nat.le_trans (by decide) hq)) hc'
  have hbetween : SystemConfig.BetweenBatches c := by
    intro p config hjob
    have hlt : p < 2 := by
      by_contra hge
      rw [hnone p (Nat.le_of_not_lt hge)] at hjob
      cases hjob
    have hidle := List.all_eq_true.mp hjobs p (List.mem_range.mpr hlt)
    simp [World.dispatches, hjob] at hidle
  have hmem := List.mem_of_getLast? hr
  have hdue : r.next_attempt_at ≤ 10 := by
    rw [htime]
    decide
  have hinitial : LastsMicrosecond Scenario.one_at_a_time.OUTBOX_BACKOFF_INITIAL_SECONDS := by
    decide +kernel
  have hcap : LastsMicrosecond Scenario.one_at_a_time.OUTBOX_BACKOFF_MAX_SECONDS := by
    decide +kernel
  have hall := failing_rows_do_not_starve (d := Scenario.deployment) (by decide) hinitial hcap
    hreach hbetween hmem hpending hdue
  refine ⟨c, c', r, hreach, hsingle, hmem, hahead, hall.2 c' hsingle ?_⟩
  rw [hahead, hbefore, hafter]
  decide

end PaymentsProcessor
