import Mathlib.Data.Set.Finite.Basic
import PaymentsProcessor.Concurrency.Machine

namespace Concurrency

section RunBy

variable {Pid Launch Ans Tick W E X : Type} {Res : E → Type} [DecidableEq Pid]

-- The runs all of whose steps are allowed. A restriction on the answers, as of
-- `Run`, says nothing of what is launched.
def RunBy (M : Machine Pid Launch Ans Tick W Res X) (P : Label Pid Launch Ans Tick → Prop) :
    Config Pid W Res X → Config Pid W Res X → Prop :=
  Relation.ReflTransGen fun c c' => ∃ l, P l ∧ c.exec M l = some c'

variable {M : Machine Pid Launch Ans Tick W Res X} {P : Label Pid Launch Ans Tick → Prop}
variable {A : Assumption Pid W E Ans} {c c' : Config Pid W Res X}

theorem RunBy.step {l : Label Pid Launch Ans Tick} (hP : P l) (h : c.exec M l = some c') :
    RunBy M P c c' := .single ⟨l, hP, h⟩

theorem RunBy.run (h : RunBy M P c c') : Run M unrestricted c c' := by
  refine Relation.ReflTransGen.mono ?_ _ _ h
  rintro c c' ⟨l, _, he⟩
  refine ⟨l, ?_, he⟩
  cases l with
  | call pid a => exact fun _ _ _ => trivial
  | launch | crash | tick => trivial

-- A step leaves a process idle if it was idle, and the step is not its own.
theorem Config.exec_idle_iff {l : Label Pid Launch Ans Tick} (h : c.exec M l = some c')
    (pid : Pid) : c'.prog pid = none ↔ c.prog pid = none ∧ l.actor ≠ some pid := by
  have updated : ∀ {q : Pid} {p : Prog Res X Unit} {w : W}, l.actor = some q →
      c' = ⟨w, Function.update c.prog q (some p)⟩ →
        (c'.prog pid = none ↔ c.prog pid = none ∧ l.actor ≠ some pid) := by
    rintro q p w hl rfl
    rw [hl]
    show Function.update c.prog q (some p) pid = none ↔ _
    by_cases hq : pid = q
    · simp [hq]
    · simp [hq, Ne.symm hq]
  cases l with
  | launch q l =>
      simp only [Config.exec] at h
      split at h
      · cases h
      obtain ⟨_, _, hc'⟩ := Option.map_eq_some_iff.mp h
      exact updated rfl hc'.symm
  | call q a =>
      simp only [Config.exec] at h
      split at h
      · obtain ⟨_, _, hc'⟩ := Option.map_eq_some_iff.mp h
        exact updated rfl hc'.symm
      · cases h
  | crash q =>
      simp only [Config.exec] at h
      split at h
      · cases h
      exact updated rfl (Option.some.inj h).symm
  | tick t =>
      obtain ⟨_, _, rfl⟩ := Option.map_eq_some_iff.mp h
      simp [Label.actor]

-- However long a run has been, only finitely many programs were started in it.
theorem Run.finite (h : Run M A c c') (hc : {pid | c.prog pid ≠ none}.Finite) :
    {pid | c'.prog pid ≠ none}.Finite := by
  induction h with
  | refl => exact hc
  | tail _ hstep ih =>
      obtain ⟨l, _, he⟩ := hstep
      have hactor : {pid | l.actor = some pid}.Finite := by
        refine Set.Subsingleton.finite fun p hp q hq => ?_
        exact Option.some.inj (hp.symm.trans hq)
      refine (ih.union hactor).subset fun pid hpid => ?_
      by_contra hnot
      obtain ⟨hidle, hother⟩ := not_or.mp hnot
      exact hpid ((Config.exec_idle_iff he pid).mpr ⟨not_not.mp hidle, hother⟩)

end RunBy

section Possible

variable {Pid Launch Ans Tick W E X : Type} {Res : E → Type}

-- The program of `pid` can run to its end by itself, on some answers that are
-- allowed, and end in a world with `Q`. Where `wp` speaks of every run, this
-- speaks of one.
inductive Possible (M : Machine Pid Launch Ans Tick W Res X) (P : Label Pid Launch Ans Tick → Prop)
    (pid : Pid) {α : Type} (Q : Except X α → W → Prop) : Prog Res X α → W → Prop
  | ret {r : Except X α} {w : W} (h : Q r w) : Possible M P pid Q (.ret r) w
  | call {e : E} {k : Except X (Res e) → Prog Res X α} {a : Ans} {r : Except X (Res e)}
      {w w' : W} (hP : P (.call pid a)) (hp : M.perform pid e a w = some (r, w'))
      (hk : Possible M P pid Q (k r) w') : Possible M P pid Q (.call e k) w

namespace Possible

variable {M : Machine Pid Launch Ans Tick W Res X} {P : Label Pid Launch Ans Tick → Prop}
variable {pid : Pid} {α β : Type} {w w' : W}

theorem pure {a : α} {Q : Except X α → W → Prop} (h : Q (.ok a) w) :
    Possible M P pid Q (Pure.pure a : Prog Res X α) w := .ret h

theorem mono {p : Prog Res X α} {Q Q' : Except X α → W → Prop} (h : Possible M P pid Q p w)
    (hQ : ∀ r w, Q r w → Q' r w) : Possible M P pid Q' p w := by
  induction h with
  | ret h => exact .ret (hQ _ _ h)
  | call hP hp _ ih => exact .call hP hp ih

theorem perform {e : E} {a : Ans} {r : Except X (Res e)} {Q : Except X (Res e) → W → Prop}
    (hP : P (.call pid a)) (hp : M.perform pid e a w = some (r, w')) (hQ : Q r w') :
    Possible M P pid Q (Prog.perform e : Prog Res X (Res e)) w :=
  .call hP hp (.ret hQ)

theorem bind {p : Prog Res X α} {f : α → Prog Res X β} {Q : Except X β → W → Prop}
    (h : Possible M P pid (fun r w => match r with
      | .ok a => Possible M P pid Q (f a) w
      | .error x => Q (.error x) w) p w) : Possible M P pid Q (p.bind f) w := by
  induction h with
  | @ret r _ h =>
      cases r with
      | ok a => exact h
      | error x => exact .ret h
  | call hP hp _ ih => exact .call hP hp ih

theorem attempt {p : Prog Res X α} {Q : Except X (Except X α) → W → Prop}
    (h : Possible M P pid (fun r => Q (.ok r)) p w) : Possible M P pid Q p.attempt w := by
  induction h with
  | ret h => exact .ret h
  | call hP hp _ ih => exact .call hP hp ih

-- A body that can return normally never comes to its handler.
theorem tryCatch {p : Prog Res X α} {handler : X → Prog Res X α}
    {Q : Except X α → W → Prop} {R : α → W → Prop}
    (hp : Possible M P pid (fun r w => ∃ a, r = .ok a ∧ R a w) p w)
    (hQ : ∀ a w, R a w → Q (.ok a) w) :
    Possible M P pid Q (tryCatch p handler : Prog Res X α) w := by
  rw [Prog.tryCatch_eq]
  refine bind (attempt (hp.mono fun r w h => ?_))
  obtain ⟨a, rfl, hR⟩ := h
  exact .ret (hQ a w hR)

theorem andThen {p : Prog Res X α} {last : Prog Res X Unit} {Q : Except X α → W → Prop}
    (h : Possible M P pid (fun r w => Possible M P pid (fun t w => match t with
      | .ok _ => Q r w
      | .error x => Q (.error x) w) last w) p w) : Possible M P pid Q (p.andThen last) w := by
  unfold Prog.andThen
  refine bind (attempt (h.mono fun r w hr => bind (hr.mono fun t w ht => ?_)))
  cases t with
  | ok _ => exact .ret ht
  | error x => exact ht

variable [DecidableEq Pid] {c : Config Pid W Res X}

-- What a program can do alone, a run can do.
theorem run {p : Prog Res X Unit} {Q : Except X Unit → W → Prop} (hp : c.prog pid = some p)
    (h : Possible M P pid Q p c.world) : ∃ c' r, RunBy M P c c' ∧ Q r c'.world := by
  generalize hw : c.world = w at h
  induction h generalizing c with
  | @ret r w h => exact ⟨c, r, .refl, hw ▸ h⟩
  | @call e k a r w w' hP hperform _ ih =>
      subst hw
      have hstep : c.exec M (.call pid a) =
          some ⟨w', Function.update c.prog pid (some (k r))⟩ := by
        simp only [Config.exec, hp, hperform, Option.map_some]
      obtain ⟨c', r', hrun, hQ⟩ :=
        ih (c := ⟨w', Function.update c.prog pid (some (k r))⟩) (Function.update_self ..) rfl
      exact ⟨c', r', .head ⟨_, hP, hstep⟩ hrun, hQ⟩

end Possible

end Possible

end Concurrency
