import PaymentsProcessor.System.Alphabets
import PaymentsProcessor.System.Scope

namespace PaymentsProcessor

open Python Storage Concurrency PaymentsConstants

-- The calls of a process, by its job.
def Job.alphabet : Job → Effect → Prop
  | .request _ => Effect.ofRequest
  | .batch _ => Effect.ofDispatcher
  | .delivery .. => Effect.ofConsumer

-- Only a process that was started has ended a transaction.
structure Fresh (w : World) : Prop where
  commits : ∀ e ∈ w.log.commits, w.jobs e.1 ≠ none
  rollbacks : ∀ e ∈ w.log.rollbacks, w.jobs e.1 ≠ none

-- Every program is that of a started process, and makes only the calls of its job.
structure Manned (c : SystemConfig) : Prop where
  programs : ∀ p prog, c.prog p = some prog →
    ∃ job, c.world.jobs p = some job ∧ prog.Only job.alphabet
  fresh : Fresh c.world

section Ends

variable {d : Deployment} {p : Pid} {w w' : World}

-- The commits and rollbacks that a step of `p` adds are its own.
structure Ending (p : Pid) (w w' : World) : Prop where
  commits : ∀ e ∈ w'.log.commits, e ∈ w.log.commits ∨ e.1 = p
  rollbacks : ∀ e ∈ w'.log.rollbacks, e ∈ w.log.rollbacks ∨ e.1 = p

theorem ending_of_same (hc : w'.log.commits = w.log.commits)
    (hr : w'.log.rollbacks = w.log.rollbacks) : Ending p w w' :=
  ⟨fun _ he => .inl (hc ▸ he), fun _ he => .inl (hr ▸ he)⟩

theorem ending_rollback : Ending p w (w.rollback p) := by
  refine ⟨fun _ he => .inl he, fun e he => ?_⟩
  rw [World.rollback_log_rollbacks, List.mem_append, List.mem_singleton] at he
  exact he.imp_right (congrArg Prod.fst)

theorem ending_commit : Ending p w (w.commit p) := by
  unfold World.commit
  split
  · exact ending_rollback
  · refine ⟨fun e he => ?_, fun _ he => .inl he⟩
    exact (List.mem_append.mp he).imp_right fun he => by rw [List.mem_singleton.mp he]

theorem ending_perform {e : Effect} {a : Answer} {result : Except Exn e.Result}
    (h : World.perform d p e a w = some (result, w')) : Ending p w w' := by
  have hs := scope_perform h
  cases e with
  | commit =>
      obtain ⟨_, rfl⟩ | ⟨_, _, rfl | rfl⟩ := perform_commit h
      · exact ending_commit
      · exact ending_of_same rfl rfl
      · exact ⟨(ending_commit (p := p) (w := w)).commits, ending_commit.rollbacks⟩
  | close =>
      obtain ⟨_, rfl⟩ | ⟨_, _, rfl | rfl⟩ := perform_close h
      · exact ending_rollback
      · exact ending_of_same rfl rfl
      · exact ⟨(ending_rollback (p := p) (w := w)).commits, ending_rollback.rollbacks⟩
  | _ => exact ending_of_same (hs.commits nofun) (hs.rollbacks nofun nofun)

theorem Fresh.step (h : Fresh w) (he : Ending p w w')
    (hj : ∀ q job, w.jobs q = some job → w'.jobs q = some job) (hp : w'.jobs p ≠ none) :
    Fresh w' := by
  have hstarted : ∀ q, w.jobs q ≠ none → w'.jobs q ≠ none := by
    intro q hq
    obtain ⟨job, hjob⟩ := Option.ne_none_iff_exists'.mp hq
    rw [hj q job hjob]
    exact Option.some_ne_none job
  constructor
  · intro e hmem
    rcases he.commits e hmem with hold | rfl
    · exact hstarted _ (h.commits e hold)
    · exact hp
  · intro e hmem
    rcases he.rollbacks e hmem with hold | rfl
    · exact hstarted _ (h.rollbacks e hold)
    · exact hp

end Ends

section Runs

variable {d : Deployment} {A : Assumption Pid World Effect Answer} {c c' : SystemConfig}

-- A step that lets `p` go on with this program.
theorem Manned.update (h : Manned c) {p : Pid} {prog : Async Unit} {w : World} {job : Job}
    (hj : ∀ q job, c.world.jobs q = some job → w.jobs q = some job) (hjob : w.jobs p = some job)
    (ho : prog.Only job.alphabet) (he : Ending p c.world w) :
    Manned ⟨w, Function.update c.prog p (some prog)⟩ := by
  constructor
  · intro q r hr
    replace hr : Function.update c.prog p (some prog) q = some r := hr
    by_cases hq : q = p
    · subst hq
      rw [Function.update_self, Option.some.injEq] at hr
      subst hr
      exact ⟨job, hjob, ho⟩
    · rw [Function.update_of_ne hq] at hr
      obtain ⟨j, hjq, hr⟩ := h.programs q r hr
      exact ⟨j, hj q j hjq, hr⟩
  · apply h.fresh.step he hj
    rw [hjob]
    exact Option.some_ne_none job

theorem launched_only {p : Pid} {l : World.Launch} {w w' : World} {prog : Async Unit}
    (hl : World.launch d p l w = some (prog, w')) : ∃ job, w.jobs p = none ∧
      w'.jobs = Function.update w.jobs p (some job) ∧ prog.Only job.alphabet ∧
      w'.log = w.log := by
  obtain ⟨hj, ⟨request, rfl, rfl⟩ | ⟨config, rfl, rfl⟩ | ⟨_, msg, event, _, _, rfl, rfl⟩⟩ :=
    launch_cases hl
  · exact ⟨.request request, hj, rfl, create_payment_only request, rfl⟩
  · exact ⟨.batch config, hj, rfl, run_iteration_only, rfl⟩
  · exact ⟨.delivery event msg, hj, rfl, entrypoint_only event msg, rfl⟩

theorem Manned.step {l : Label Pid World.Launch Answer World.Tick} (h : Manned c)
    (he : c.exec (machine d) l = some c') : Manned c' := by
  cases l with
  | launch p l =>
      simp only [Config.exec] at he
      split at he
      · cases he
      obtain ⟨⟨prog, w'⟩, hl, rfl⟩ := Option.map_eq_some_iff.mp he
      obtain ⟨job, hj, hjobs, ho, hlog⟩ := launched_only hl
      refine h.update (fun q j hq => ?_) ?_ ho (ending_of_same (by rw [hlog]) (by rw [hlog]))
      · have hne : q ≠ p := fun he => by
          rw [he, hj] at hq
          cases hq
        rw [hjobs, Function.update_of_ne hne, hq]
      · rw [hjobs, Function.update_self]
  | call p a =>
      simp only [Config.exec] at he
      split at he
      · rename_i e k hp
        obtain ⟨⟨result, w'⟩, hw, rfl⟩ := Option.map_eq_some_iff.mp he
        obtain ⟨job, hjob, ho⟩ := h.programs p _ hp
        cases ho with
        | call _ hk =>
            have hj := (scope_perform hw).jobs
            exact h.update (fun q j hq => hj ▸ hq) (hj ▸ hjob) (hk result) (ending_perform hw)
      · cases he
  | crash p =>
      simp only [Config.exec] at he
      split at he
      · cases he
      · rename_i prog hp
        cases he
        obtain ⟨job, hjob, _⟩ := h.programs p _ hp
        obtain ⟨_, _, hj, hlog⟩ := @crash_same p c.world
        have hends : Ending p c.world (c.world.crash p) := by
          have hback := @ending_rollback p c.world
          exact ⟨by rw [hlog]; exact hback.commits, by rw [hlog]; exact hback.rollbacks⟩
        exact h.update (fun q j hq => hj ▸ hq) (hj ▸ hjob) (.ret _) hends
  | tick t =>
      obtain ⟨w', ht, rfl⟩ := Option.map_eq_some_iff.mp he
      obtain ⟨_, _, hj, hlog⟩ := tick_same ht
      refine ⟨fun p prog hp => ?_, ?_⟩
      · rw [hj]
        exact h.programs p prog hp
      · exact ⟨by rw [hj, hlog]; exact h.fresh.commits, by rw [hj, hlog]; exact h.fresh.rollbacks⟩

theorem reachable_manned (h : Reachable d A c) : Manned c := by
  induction h with
  | refl => exact ⟨nofun, ⟨nofun, nofun⟩⟩
  | tail _ hstep ih =>
      obtain ⟨l, _, he⟩ := hstep
      exact ih.step he

-- A step gives a job to its own process at most.
theorem jobs_of_exec {l : Label Pid World.Launch Answer World.Tick}
    (h : c.exec (machine d) l = some c') {q : Pid} (hq : l.actor ≠ some q) :
    c'.world.jobs q = c.world.jobs q := by
  obtain ⟨p, l₁, prog, rfl, hl⟩ | ⟨p, a, e, k, r, _, _, hp⟩ | ⟨p, _, hw⟩ | ⟨t, _, ht⟩ :=
    Config.exec_cases h
  · obtain ⟨job, _, hjobs, _⟩ := launched_only hl
    rw [hjobs, Function.update_of_ne fun he => hq (congrArg some he.symm)]
  · rw [(scope_perform hp).jobs]
  · rw [hw]
    exact congrFun (@crash_same p c.world).2.2.1 q
  · rw [(tick_same ht).2.2.1]

end Runs

def freshLogic : Logic Pid World where
  inv := Fresh
  rely _ _ _ := True
  done _ _ := True
  rely_refl _ _ := trivial
  rely_trans _ _ _ _ _ _ := trivial
  done_stable _ _ _ _ _ := trivial

theorem fresh_sound (d : Deployment) (A : Assumption Pid World Effect Answer) :
    Sound (machine d) A freshLogic SystemConfig.init where
  inv _ h := (reachable_manned h).fresh
  rely _ _ _ _ _ _ _ _ := trivial
  done _ _ _ _ _ := trivial

end PaymentsProcessor
