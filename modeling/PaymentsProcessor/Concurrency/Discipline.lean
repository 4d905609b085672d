import PaymentsProcessor.Concurrency.Logic

namespace Concurrency

-- A discipline on the calls of a program: which calls it may make from where it
-- stands, and where an answer takes it.
structure Discipline {E : Type} (Res : E → Type) (X S : Type) where
  may : S → E → Prop
  next : S → (e : E) → Except X (Res e) → S

section Follows

variable {E X S α β : Type} {Res : E → Type}

-- From where it stands the program makes only calls that it may make, whatever
-- it is answered, and where it ends `Q` holds.
inductive Discipline.Follows (D : Discipline Res X S) {α : Type} (Q : Except X α → S → Prop) :
    S → Prog Res X α → Prop where
  | ret {s : S} {r : Except X α} (h : Q r s) : Follows D Q s (.ret r)
  | call {s : S} {e : E} {k : Except X (Res e) → Prog Res X α} (he : D.may s e)
      (hk : ∀ r, Follows D Q (D.next s e r) (k r)) : Follows D Q s (.call e k)

namespace Discipline.Follows

variable {D : Discipline Res X S} {s : S}

theorem ret_iff {Q : Except X α → S → Prop} {r : Except X α} :
    D.Follows Q s (.ret r) ↔ Q r s := by
  constructor
  · intro h
    cases h with
    | ret h => exact h
  · exact .ret

theorem call_iff {Q : Except X α → S → Prop} {e : E} {k : Except X (Res e) → Prog Res X α} :
    D.Follows Q s (.call e k) ↔ D.may s e ∧ ∀ r, D.Follows Q (D.next s e r) (k r) := by
  constructor
  · intro h
    cases h with
    | call he hk => exact ⟨he, hk⟩
  · exact fun h => .call h.1 h.2

theorem mono {Q Q' : Except X α → S → Prop} {p : Prog Res X α} (h : D.Follows Q s p)
    (hQ : ∀ r s', Q r s' → Q' r s') : D.Follows Q' s p := by
  induction h with
  | ret h => exact .ret (hQ _ _ h)
  | call he _ ih => exact .call he ih

theorem perform {e : E} {Q : Except X (Res e) → S → Prop}
    (he : D.may s e) (hQ : ∀ r, Q r (D.next s e r)) :
    D.Follows Q s (Prog.perform e : Prog Res X (Res e)) :=
  .call he fun r => .ret (hQ r)

theorem ofExcept {Q : Except X α → S → Prop} {r : Except X α} (h : Q r s) :
    D.Follows Q s (Prog.ofExcept r) := .ret h

theorem bind {R : Except X α → S → Prop} {Q : Except X β → S → Prop} {p : Prog Res X α}
    {f : α → Prog Res X β} (hp : D.Follows R s p)
    (hf : ∀ a s', R (.ok a) s' → D.Follows Q s' (f a))
    (hx : ∀ x s', R (.error x) s' → Q (.error x) s') : D.Follows Q s (p.bind f) := by
  induction hp with
  | @ret s r h =>
      cases r with
      | ok a => exact hf a s h
      | error x => exact .ret (hx x s h)
  | call he _ ih => exact .call he ih

theorem attempt {Q : Except X (Except X α) → S → Prop} {p : Prog Res X α}
    (hp : D.Follows (fun r s' => Q (.ok r) s') s p) : D.Follows Q s p.attempt := by
  induction hp with
  | ret h => exact .ret h
  | call he _ ih => exact .call he ih

theorem tryCatch {R Q : Except X α → S → Prop} {p : Prog Res X α}
    {handler : X → Prog Res X α} (hp : D.Follows R s p)
    (ho : ∀ a s', R (.ok a) s' → Q (.ok a) s')
    (hx : ∀ x s', R (.error x) s' → D.Follows Q s' (handler x)) :
    D.Follows Q s (tryCatch p handler : Prog Res X α) := by
  rw [Prog.tryCatch_eq]
  refine bind (R := fun r s' => match r with
    | .ok r => R r s'
    | .error _ => False) (attempt hp) (fun r s' h => ?_) fun _ _ h => h.elim
  cases r with
  | ok a => exact .ret (ho a s' h)
  | error x => exact hx x s' h

theorem andThen {R Q : Except X α → S → Prop} {p : Prog Res X α} {last : Prog Res X Unit}
    (hp : D.Follows R s p)
    (hl : ∀ r s', R r s' → D.Follows (fun t s'' => match t with
      | .ok _ => Q r s''
      | .error x => Q (.error x) s'') s' last) : D.Follows Q s (p.andThen last) := by
  unfold Prog.andThen
  refine bind (R := fun r s' => match r with
    | .ok r => R r s'
    | .error _ => False) (attempt hp) (fun r s' h => ?_) fun _ _ h => h.elim
  exact bind (hl r s' h) (fun _ s'' hs => .ret hs) fun _ _ hs => hs

theorem ite {Q : Except X α → S → Prop} {c : Prop} [Decidable c] {p q : Prog Res X α}
    (hp : c → D.Follows Q s p) (hq : ¬c → D.Follows Q s q) :
    D.Follows Q s (if c then p else q) := by
  split
  · exact hp ‹c›
  · exact hq ‹¬c›

-- A program all of whose calls may be made where `I` holds, and keep it, keeps it.
theorem only {I : S → Prop} {T : E → Prop} {p : Prog Res X α} (hp : p.Only T)
    (h : ∀ e, T e → ∀ s, I s → D.may s e ∧ ∀ r, I (D.next s e r)) (hs : I s) :
    D.Follows (fun _ => I) s p := by
  induction hp generalizing s with
  | ret r => exact .ret hs
  | @call e k he _ ih =>
      obtain ⟨hmay, hnext⟩ := h e he s hs
      exact .call hmay fun r => ih r (hnext r)

end Discipline.Follows

end Follows

section Sound

variable {Pid Launch Ans Tick W E X S : Type} {Res : E → Type} [DecidableEq Pid]

-- What a discipline says of the world: `Stands pid s` is true of the worlds in
-- which a process that stands at `s` can be. It is brought about by launches and
-- crashes, goes on from call to call, and does not depend on other processes. The
-- calls that the discipline allows keep the invariant `I`.
structure Discipline.Interprets (M : Machine Pid Launch Ans Tick W Res X)
    (A : Assumption Pid W E Ans) (L : Logic Pid W) (I : W → Prop) (D : Discipline Res X S)
    (Q : Except X Unit → S → Prop) (Stands : Pid → S → W → Prop) : Prop where
  launch : ∀ pid l w p w', L.inv w → I w → M.launch pid l w = some (p, w') →
    I w' ∧ ∃ s, Stands pid s w' ∧ D.Follows Q s p
  call : ∀ pid e a w r w' s, L.inv w → L.inv w' → L.Guarantee pid w w' → I w → A pid e a w →
    M.perform pid e a w = some (r, w') → Stands pid s w → D.may s e →
      I w' ∧ Stands pid (D.next s e r) w'
  crash : ∀ pid w s, L.inv w → I w → Stands pid s w →
    I (M.crash pid w) ∧ ∃ s', Stands pid s' (M.crash pid w) ∧ Q (.ok ()) s'
  tick : ∀ t w w', L.inv w → I w → M.tick t w = some w' → I w'
  rely : ∀ pid w w' s, L.rely pid w w' → Stands pid s w → Stands pid s w'

variable {M : Machine Pid Launch Ans Tick W Res X} {A : Assumption Pid W E Ans} {L : Logic Pid W}
variable {I : W → Prop} {D : Discipline Res X S} {Q : Except X Unit → S → Prop}
variable {Stands : Pid → S → W → Prop} {init c c' : Config Pid W Res X}

-- Every program stands somewhere in the discipline, and follows it from there.
def Config.Disciplined (D : Discipline Res X S) (Q : Except X Unit → S → Prop)
    (Stands : Pid → S → W → Prop) (c : Config Pid W Res X) : Prop :=
  ∀ pid p, c.prog pid = some p → ∃ s, Stands pid s c.world ∧ D.Follows Q s p

private theorem disciplined_step (hd : D.Interprets M A L I Q Stands)
    {l : Label Pid Launch Ans Tick} (hl : Permits A l c) (he : c.exec M l = some c')
    (hi : L.inv c.world) (hi' : L.inv c'.world)
    (hr : ∀ pid, l.actor ≠ some pid → L.rely pid c.world c'.world)
    (h : I c.world ∧ c.Disciplined D Q Stands) : I c'.world ∧ c'.Disciplined D Q Stands := by
  have others : ∀ pid p, l.actor ≠ some pid → c.prog pid = some p →
      ∃ s, Stands pid s c'.world ∧ D.Follows Q s p := by
    intro pid p hne hp
    obtain ⟨s, hs, hf⟩ := h.2 pid p hp
    exact ⟨s, hd.rely pid _ _ s (hr pid hne) hs, hf⟩
  -- the process that takes the step goes on with this program
  have update : ∀ {pid : Pid} {next : Prog Res X Unit} {w : W}, l.actor = some pid →
      c' = ⟨w, Function.update c.prog pid (some next)⟩ →
        (I w ∧ ∃ s, Stands pid s w ∧ D.Follows Q s next) →
          I c'.world ∧ c'.Disciplined D Q Stands := by
    intro pid next w hactor hc' hnext
    subst hc'
    refine ⟨hnext.1, fun q p hp => ?_⟩
    replace hp : Function.update c.prog pid (some next) q = some p := hp
    by_cases hq : q = pid
    · subst hq
      rw [Function.update_self, Option.some.injEq] at hp
      exact hp ▸ hnext.2
    · rw [Function.update_of_ne hq] at hp
      exact others q p (by rw [hactor]; exact fun he => hq (Option.some.inj he).symm) hp
  cases l with
  | launch pid l =>
      simp only [Config.exec] at he
      split at he
      · cases he
      obtain ⟨⟨p, w⟩, hm, hc'⟩ := Option.map_eq_some_iff.mp he
      exact update rfl hc'.symm (hd.launch pid l c.world p w hi h.1 hm)
  | call pid a =>
      simp only [Config.exec] at he
      split at he
      · rename_i e k hp
        obtain ⟨⟨r, w⟩, hm, hc'⟩ := Option.map_eq_some_iff.mp he
        obtain ⟨s, hs, hf⟩ := h.2 pid _ hp
        obtain ⟨hmay, hnext⟩ := Discipline.Follows.call_iff.mp hf
        have hw : L.inv w := by
          rw [← hc'] at hi'
          exact hi'
        have hg : L.Guarantee pid c.world w := fun other hne => by
          have hrely := hr other fun he => hne (Option.some.inj he).symm
          rwa [← hc'] at hrely
        obtain ⟨hI, hs'⟩ := hd.call pid e a c.world r w s hi hw hg h.1 (hl e k hp) hm hs hmay
        exact update rfl hc'.symm ⟨hI, D.next s e r, hs', hnext r⟩
      · cases he
  | crash pid =>
      simp only [Config.exec] at he
      split at he
      · cases he
      · rename_i p hp
        obtain ⟨s, hs, _⟩ := h.2 pid p hp
        obtain ⟨hI, s', hs', hQ⟩ := hd.crash pid c.world s hi h.1 hs
        exact update rfl (Option.some.inj he).symm ⟨hI, s', hs', .ret hQ⟩
  | tick t =>
      obtain ⟨w, ht, hc'⟩ := Option.map_eq_some_iff.mp he
      subst hc'
      exact ⟨hd.tick t c.world w hi h.1 ht,
        fun pid p hp => others pid p (by simp [Label.actor]) hp⟩

-- In every run the invariant holds, and each program follows the discipline from
-- where it stands.
theorem Sound.disciplined (hs : Sound M A L init) (hd : D.Interprets M A L I Q Stands)
    (hI : I init.world) (hinit : ∀ pid, init.prog pid = none) (h : Run M A init c) :
    I c.world ∧ c.Disciplined D Q Stands := by
  induction h with
  | refl =>
      refine ⟨hI, fun pid p hp => ?_⟩
      rw [hinit pid] at hp
      cases hp
  | @tail b c' hrun hstep ih =>
      obtain ⟨l, hl, he⟩ := id hstep
      exact disciplined_step hd hl he (hs.inv _ hrun) (hs.inv _ (hrun.tail hstep))
        (hs.rely _ hrun l _ hl he) ih

end Sound

section Growth

variable {Pid Launch Ans Tick W E X : Type} {Res : E → Type}
variable {M : Machine Pid Launch Ans Tick W Res X} {A : Assumption Pid W E Ans} {R : W → W → Prop}

-- A relation that every step of a machine keeps to.
structure Machine.Grows (M : Machine Pid Launch Ans Tick W Res X) (R : W → W → Prop) : Prop where
  refl : ∀ w, R w w
  trans : ∀ w w' w'', R w w' → R w' w'' → R w w''
  launch : ∀ pid l w p w', M.launch pid l w = some (p, w') → R w w'
  perform : ∀ pid e a w r w', M.perform pid e a w = some (r, w') → R w w'
  crash : ∀ pid w, R w (M.crash pid w)
  tick : ∀ t w w', M.tick t w = some w' → R w w'

-- All processes may rely on it.
def Machine.Grows.logic (h : M.Grows R) : Logic Pid W where
  inv _ := True
  rely _ := R
  done _ _ := True
  rely_refl _ := h.refl
  rely_trans _ := h.trans
  done_stable _ _ _ _ _ := trivial

variable [DecidableEq Pid] {init c c' : Config Pid W Res X}

theorem Machine.Grows.exec (h : M.Grows R) {l : Label Pid Launch Ans Tick}
    (he : c.exec M l = some c') : R c.world c'.world := by
  obtain ⟨_, _, _, _, hl⟩ | ⟨_, _, _, _, _, _, _, hp⟩ | ⟨pid, _, hw⟩ | ⟨_, _, ht⟩ :=
    Config.exec_cases he
  · exact h.launch _ _ _ _ _ hl
  · exact h.perform _ _ _ _ _ _ hp
  · rw [hw]
    exact h.crash pid c.world
  · exact h.tick _ _ _ ht

theorem Machine.Grows.run (h : M.Grows R) (hr : Run M A c c') : R c.world c'.world := by
  induction hr with
  | refl => exact h.refl _
  | tail _ hstep ih =>
      obtain ⟨l, _, he⟩ := hstep
      exact h.trans _ _ _ ih (h.exec he)

theorem Machine.Grows.sound (h : M.Grows R) : Sound M A h.logic init where
  inv _ _ := trivial
  rely _ _ _ _ _ he _ _ := h.exec he
  done _ _ _ _ _ := trivial

end Growth

section Ends

variable {Pid W E X S : Type} {Res : E → Type} {c : Config Pid W Res X}
variable {D : Discipline Res X S} {Q : Except X Unit → S → Prop}
variable {Stands : Pid → S → W → Prop}

-- A call that is pending is one that its program may make.
theorem Config.Disciplined.pending (h : c.Disciplined D Q Stands) {pid : Pid} {e : E}
    {k : Except X (Res e) → Prog Res X Unit} (hp : c.prog pid = some (.call e k)) :
    ∃ s, Stands pid s c.world ∧ D.may s e := by
  obtain ⟨s, hs, hf⟩ := h pid _ hp
  exact ⟨s, hs, (Discipline.Follows.call_iff.mp hf).1⟩

theorem Config.Disciplined.ended (h : c.Disciplined D Q Stands) {pid : Pid} {r : Except X Unit}
    (hp : c.prog pid = some (.ret r)) : ∃ s, Stands pid s c.world ∧ Q r s := by
  obtain ⟨s, hs, hf⟩ := h pid _ hp
  exact ⟨s, hs, Discipline.Follows.ret_iff.mp hf⟩

end Ends

end Concurrency
