import PaymentsProcessor.Concurrency.Machine

namespace Concurrency

-- An invariant of the shared world, and for each process what it may rely on
-- whatever the other processes do, and what it has brought about when it ends.
structure Logic (Pid W : Type) where
  inv : W → Prop
  rely : Pid → W → W → Prop
  done : Pid → W → Prop
  rely_refl : ∀ pid w, rely pid w w
  rely_trans : ∀ pid w w' w'', rely pid w w' → rely pid w' w'' → rely pid w w''
  done_stable : ∀ pid w w', rely pid w w' → done pid w → done pid w'

namespace Logic

variable {Pid W : Type}

def top : Logic Pid W where
  inv _ := True
  rely _ _ _ := True
  done _ _ := True
  rely_refl _ _ := trivial
  rely_trans _ _ _ _ _ _ := trivial
  done_stable _ _ _ _ _ := trivial

def inf (K N : Logic Pid W) : Logic Pid W where
  inv w := K.inv w ∧ N.inv w
  rely pid w w' := K.rely pid w w' ∧ N.rely pid w w'
  done pid w := K.done pid w ∧ N.done pid w
  rely_refl pid w := ⟨K.rely_refl pid w, N.rely_refl pid w⟩
  rely_trans pid w w' w'' h h' :=
    ⟨K.rely_trans pid w w' w'' h.1 h'.1, N.rely_trans pid w w' w'' h.2 h'.2⟩
  done_stable pid w w' h hd :=
    ⟨K.done_stable pid w w' h.1 hd.1, N.done_stable pid w w' h.2 hd.2⟩

-- What a step of `pid` owes to everyone else.
def Guarantee (L : Logic Pid W) (pid : Pid) (w w' : W) : Prop :=
  ∀ other, other ≠ pid → L.rely other w w'

def Stable (L : Logic Pid W) (pid : Pid) (P : W → Prop) : Prop :=
  ∀ w w', L.rely pid w w' → P w → P w'

theorem Stable.and {L : Logic Pid W} {pid : Pid} {P Q : W → Prop} (hP : L.Stable pid P)
    (hQ : L.Stable pid Q) : L.Stable pid fun w => P w ∧ Q w :=
  fun w w' h hw => ⟨hP w w' h hw.1, hQ w w' h hw.2⟩

theorem Stable.or {L : Logic Pid W} {pid : Pid} {P Q : W → Prop} (hP : L.Stable pid P)
    (hQ : L.Stable pid Q) : L.Stable pid fun w => P w ∨ Q w :=
  fun w w' h hw => hw.imp (hP w w' h) (hQ w w' h)

theorem Stable.const (L : Logic Pid W) (pid : Pid) (p : Prop) : L.Stable pid fun _ => p :=
  fun _ _ _ h => h

end Logic

section Sound

variable {Pid Launch Ans Tick W E X : Type} {Res : E → Type} [DecidableEq Pid]
variable (M : Machine Pid Launch Ans Tick W Res X) (A : Assumption Pid W E Ans)

-- In every configuration a run from `init` reaches, the invariant holds, every
-- step keeps what the processes that did not take it rely on, and the processes
-- that have ended have brought about what they should.
structure Sound (L : Logic Pid W) (init : Config Pid W Res X) : Prop where
  inv : ∀ c, Run M A init c → L.inv c.world
  rely : ∀ c, Run M A init c → ∀ l c', Permits A l c → c.exec M l = some c' →
    ∀ pid, l.actor ≠ some pid → L.rely pid c.world c'.world
  done : ∀ c, Run M A init c → ∀ pid r, c.prog pid = some (.ret r) → L.done pid c.world

theorem sound_top (init : Config Pid W Res X) : Sound M A Logic.top init :=
  ⟨fun _ _ => trivial, fun _ _ _ _ _ _ _ _ => trivial, fun _ _ _ _ _ => trivial⟩

omit [DecidableEq Pid] in
theorem Permits.mono {B : Assumption Pid W E Ans} (h : ∀ pid e a w, A pid e a w → B pid e a w)
    {l : Label Pid Launch Ans Tick} {c : Config Pid W Res X} (hl : Permits A l c) :
    Permits B l c := by
  cases l with
  | call pid a => exact fun e k hk => h _ _ _ _ (hl e k hk)
  | launch | crash | tick => trivial

variable {M A}

theorem Sound.mono {B : Assumption Pid W E Ans} {L : Logic Pid W} {init : Config Pid W Res X}
    (hs : Sound M B L init) (h : ∀ pid e a w, A pid e a w → B pid e a w) : Sound M A L init where
  inv c hr := hs.inv c (hr.mono h)
  rely c hr l c' hl he := hs.rely c (hr.mono h) l c' (hl.mono A h) he
  done c hr := hs.done c (hr.mono h)

theorem Sound.left {K N : Logic Pid W} {init : Config Pid W Res X}
    (hs : Sound M A (K.inf N) init) : Sound M A K init where
  inv c hr := (hs.inv c hr).1
  rely c hr l c' hl he pid hp := (hs.rely c hr l c' hl he pid hp).1
  done c hr pid r hp := (hs.done c hr pid r hp).1

theorem Sound.right {K N : Logic Pid W} {init : Config Pid W Res X}
    (hs : Sound M A (K.inf N) init) : Sound M A N init where
  inv c hr := (hs.inv c hr).2
  rely c hr l c' hl he pid hp := (hs.rely c hr l c' hl he pid hp).2
  done c hr pid r hp := (hs.done c hr pid r hp).2

theorem Sound.both {K N : Logic Pid W} {init : Config Pid W Res X} (hk : Sound M A K init)
    (hn : Sound M A N init) : Sound M A (K.inf N) init where
  inv c hr := ⟨hk.inv c hr, hn.inv c hr⟩
  rely c hr l c' hl he pid hp := ⟨hk.rely c hr l c' hl he pid hp, hn.rely c hr l c' hl he pid hp⟩
  done c hr pid r hp := ⟨hk.done c hr pid r hp, hn.done c hr pid r hp⟩

variable (M A)

-- The weakest precondition of a program of `pid`, when `K` is known to be sound
-- and `N` is being established. The other processes may act before each call,
-- and the last call's world is the one the postcondition speaks of.
def wp (K N : Logic Pid W) (pid : Pid) {α : Type} :
    Prog Res X α → (Except X α → W → Prop) → W → Prop
  | .ret r, Q, w => Q r w
  | .call e k, Q, w => ∀ w₁, (K.inf N).rely pid w w₁ → (K.inf N).inv w₁ →
      ∀ a r w₂, A pid e a w₁ → M.perform pid e a w₁ = some (r, w₂) →
        K.inv w₂ → K.Guarantee pid w₁ w₂ →
        N.inv w₂ ∧ N.Guarantee pid w₁ w₂ ∧ wp K N pid (k r) Q w₂

def Triple (K N : Logic Pid W) (pid : Pid) {α : Type} (P : W → Prop) (p : Prog Res X α)
    (Q : Except X α → W → Prop) : Prop :=
  ∀ w, (K.inf N).inv w → P w → wp M A K N pid p Q w

-- One call: `P` holds whenever it is answered, and the answer establishes `Q`.
def CallSpec (K N : Logic Pid W) (pid : Pid) (P : W → Prop) (e : E)
    (Q : Except X (Res e) → W → Prop) : Prop :=
  ∀ w a r w', (K.inf N).inv w → P w → A pid e a w → M.perform pid e a w = some (r, w') →
    K.inv w' → K.Guarantee pid w w' → N.inv w' ∧ N.Guarantee pid w w' ∧ Q r w'

end Sound

section Rules

variable {Pid Launch Ans Tick W E X : Type} {Res : E → Type}
variable {M : Machine Pid Launch Ans Tick W Res X} {A : Assumption Pid W E Ans}
variable {K N : Logic Pid W} {pid : Pid} {α β : Type}

theorem wp_ret {r : Except X α} {Q : Except X α → W → Prop} {w : W} (h : Q r w) :
    wp M A K N pid (.ret r) Q w := h

theorem wp_mono {p : Prog Res X α} {Q Q' : Except X α → W → Prop} {w : W}
    (h : wp M A K N pid p Q w) (hi : (K.inf N).inv w)
    (hQ : ∀ r w', (K.inf N).inv w' → Q r w' → Q' r w') : wp M A K N pid p Q' w := by
  induction p generalizing w with
  | ret r => exact hQ r w hi h
  | call e k ih =>
      intro w₁ hr hi₁ a r w₂ ha hp hk hg
      obtain ⟨hn, hgn, hw⟩ := h w₁ hr hi₁ a r w₂ ha hp hk hg
      exact ⟨hn, hgn, ih r hw ⟨hk, hn⟩⟩

-- What others do before the program's next call changes nothing.
theorem wp_rely {p : Prog Res X α} {w w' : W} (h : wp M A K N pid p (fun _ => N.done pid) w)
    (hr : (K.inf N).rely pid w w') : wp M A K N pid p (fun _ => N.done pid) w' := by
  cases p with
  | ret r => exact N.done_stable pid w w' hr.2 h
  | call e k =>
      intro w₁ hr₁ hi₁ a r w₂ ha hp hk hg
      exact h w₁ ((K.inf N).rely_trans _ _ _ _ hr hr₁) hi₁ a r w₂ ha hp hk hg

theorem wp_bind {p : Prog Res X α} {f : α → Prog Res X β} {Q : Except X β → W → Prop} {w : W}
    (h : wp M A K N pid p (fun r w' => match r with
      | .ok a => wp M A K N pid (f a) Q w'
      | .error x => Q (.error x) w') w) : wp M A K N pid (p.bind f) Q w := by
  induction p generalizing w with
  | ret r => cases r <;> exact h
  | call e k ih =>
      intro w₁ hr hi₁ a r w₂ ha hp hk hg
      obtain ⟨hn, hgn, hw⟩ := h w₁ hr hi₁ a r w₂ ha hp hk hg
      exact ⟨hn, hgn, ih r hw⟩

theorem wp_attempt {p : Prog Res X α} {Q : Except X (Except X α) → W → Prop} {w : W}
    (h : wp M A K N pid p (fun r w' => Q (.ok r) w') w) : wp M A K N pid p.attempt Q w := by
  induction p generalizing w with
  | ret r => exact h
  | call e k ih =>
      intro w₁ hr hi₁ a r w₂ ha hp hk hg
      obtain ⟨hn, hgn, hw⟩ := h w₁ hr hi₁ a r w₂ ha hp hk hg
      exact ⟨hn, hgn, ih r hw⟩

namespace Triple

variable {P : W → Prop}

theorem conseq {P' : W → Prop} {p : Prog Res X α} {Q Q' : Except X α → W → Prop}
    (h : Triple M A K N pid P p Q) (hP : ∀ w, (K.inf N).inv w → P' w → P w)
    (hQ : ∀ r w, (K.inf N).inv w → Q r w → Q' r w) : Triple M A K N pid P' p Q' :=
  fun w hi hw => wp_mono (h w hi (hP w hi hw)) hi hQ

theorem post {p : Prog Res X α} {Q Q' : Except X α → W → Prop}
    (h : Triple M A K N pid P p Q) (hQ : ∀ r w, Q r w → Q' r w) :
    Triple M A K N pid P p Q' :=
  h.conseq (fun _ _ hw => hw) fun r w _ => hQ r w

theorem pre {P' : W → Prop} {p : Prog Res X α} {Q : Except X α → W → Prop}
    (h : Triple M A K N pid P p Q) (hP : ∀ w, P' w → P w) : Triple M A K N pid P' p Q :=
  fun w hi hw => h w hi (hP w hw)

theorem ret {r : Except X α} {Q : Except X α → W → Prop}
    (h : ∀ w, (K.inf N).inv w → P w → Q r w) : Triple M A K N pid P (.ret r) Q := h

theorem exists_pre {ι : Type} {P : ι → W → Prop} {p : Prog Res X α}
    {Q : Except X α → W → Prop} (h : ∀ i, Triple M A K N pid (P i) p Q) :
    Triple M A K N pid (fun w => ∃ i, P i w) p Q :=
  fun w hi ⟨i, hw⟩ => h i w hi hw

theorem and_pure {c : Prop} {p : Prog Res X α} {Q : Except X α → W → Prop}
    (h : c → Triple M A K N pid P p Q) : Triple M A K N pid (fun w => c ∧ P w) p Q :=
  fun w hi hw => h hw.1 w hi hw.2

theorem perform {e : E} {Q : Except X (Res e) → W → Prop} (hP : (K.inf N).Stable pid P)
    (h : CallSpec M A K N pid P e Q) : Triple M A K N pid P (Prog.perform e) Q :=
  fun w _ hw w₁ hr hi₁ a r w₂ ha hp hk hg =>
    h w₁ a r w₂ hi₁ (hP w w₁ hr hw) ha hp hk hg

theorem bind {R : Except X α → W → Prop} {p : Prog Res X α} {f : α → Prog Res X β}
    {Q : Except X β → W → Prop} (hp : Triple M A K N pid P p R)
    (hf : ∀ a, Triple M A K N pid (R (.ok a)) (f a) Q)
    (hx : ∀ x w, (K.inf N).inv w → R (.error x) w → Q (.error x) w) :
    Triple M A K N pid P (p.bind f) Q := by
  intro w hi hw
  apply wp_bind
  apply wp_mono (hp w hi hw) hi
  intro r w' hi' hr
  cases r with
  | ok a => exact hf a w' hi' hr
  | error x => exact hx x w' hi' hr

theorem attempt {p : Prog Res X α} {Q : Except X (Except X α) → W → Prop}
    (h : Triple M A K N pid P p fun r w => Q (.ok r) w) :
    Triple M A K N pid P p.attempt Q :=
  fun w hi hw => wp_attempt (h w hi hw)

theorem tryCatch {R : Except X α → W → Prop} {p : Prog Res X α} {handler : X → Prog Res X α}
    {Q : Except X α → W → Prop} (hp : Triple M A K N pid P p R)
    (ho : ∀ a w, (K.inf N).inv w → R (.ok a) w → Q (.ok a) w)
    (hx : ∀ x, Triple M A K N pid (R (.error x)) (handler x) Q) :
    Triple M A K N pid P (tryCatch p handler) Q := by
  rw [Prog.tryCatch_eq]
  apply Triple.bind (R := fun r w => match r with
    | .ok r => R r w
    | .error _ => False) (attempt hp)
  · intro r
    cases r with
    | ok a => exact ret (ho a)
    | error x => exact hx x
  · intro x w _ h
    exact False.elim h

theorem andThen {R : Except X α → W → Prop} {p : Prog Res X α} {last : Prog Res X Unit}
    {Q : Except X α → W → Prop} (hp : Triple M A K N pid P p R)
    (hl : ∀ r, Triple M A K N pid (R r) last fun s w => match s with
      | .ok _ => Q r w
      | .error x => Q (.error x) w) :
    Triple M A K N pid P (p.andThen last) Q := by
  unfold Prog.andThen
  apply Triple.bind (R := fun r w => match r with
    | .ok r => R r w
    | .error _ => False) (attempt hp)
  · intro r
    apply Triple.bind (hl r)
    · exact fun _ => ret fun _ _ h => h
    · exact fun _ _ _ h => h
  · intro x w _ h
    exact False.elim h

theorem ite {c : Prop} [Decidable c] {p q : Prog Res X α} {Q : Except X α → W → Prop}
    (hp : c → Triple M A K N pid P p Q) (hq : ¬c → Triple M A K N pid P q Q) :
    Triple M A K N pid P (if c then p else q) Q := by
  split
  · exact hp ‹c›
  · exact hq ‹¬c›

-- A program all of whose calls keep a stable assertion keeps it.
theorem only {S : E → Prop} {p : Prog Res X α} (hS : p.Only S)
    (hP : (K.inf N).Stable pid P)
    (h : ∀ e, S e → CallSpec M A K N pid P e fun _ => P) :
    Triple M A K N pid P p fun _ => P := by
  intro w hi hw
  induction hS generalizing w with
  | ret r => exact hw
  | @call e k he _ ih =>
      intro w₁ hr hi₁ a r w₂ ha hp hk hg
      obtain ⟨hn, hgn, hw₂⟩ := h e he w₁ a r w₂ hi₁ (hP w w₁ hr hw) ha hp hk hg
      exact ⟨hn, hgn, ih r w₂ ⟨hk, hn⟩ hw₂⟩

end Triple

end Rules

section Soundness

variable {Pid Launch Ans Tick W E X : Type} {Res : E → Type} [DecidableEq Pid]

-- What has to be shown of a machine, besides its calls, to establish `N` over `K`.
structure Obliged (M : Machine Pid Launch Ans Tick W Res X) (A : Assumption Pid W E Ans)
    (K N : Logic Pid W) : Prop where
  launch : ∀ pid l w p w', (K.inf N).inv w → M.launch pid l w = some (p, w') → K.inv w' →
    K.Guarantee pid w w' →
      N.inv w' ∧ N.Guarantee pid w w' ∧ wp M A K N pid p (fun _ => N.done pid) w'
  crash : ∀ pid w, (K.inf N).inv w → K.inv (M.crash pid w) →
    K.Guarantee pid w (M.crash pid w) →
      N.inv (M.crash pid w) ∧ N.Guarantee pid w (M.crash pid w) ∧ N.done pid (M.crash pid w)
  tick : ∀ t w w', (K.inf N).inv w → M.tick t w = some w' → K.inv w' →
    (∀ pid, K.rely pid w w') → N.inv w' ∧ ∀ pid, N.rely pid w w'

variable {M : Machine Pid Launch Ans Tick W Res X} {A : Assumption Pid W E Ans}
variable {K N : Logic Pid W}

private theorem wp_update {prog : Pid → Option (Prog Res X Unit)} {pid : Pid}
    {p : Prog Res X Unit} {w : W} (hp : wp M A K N pid p (fun _ => N.done pid) w)
    (others : ∀ q r, q ≠ pid → prog q = some r → wp M A K N q r (fun _ => N.done q) w) :
    ∀ q r, Function.update prog pid (some p) q = some r →
      wp M A K N q r (fun _ => N.done q) w := by
  intro q r hq
  by_cases h : q = pid
  · subst q
    rw [Function.update_self, Option.some.injEq] at hq
    exact hq ▸ hp
  · rw [Function.update_of_ne h] at hq
    exact others q r h hq

omit [DecidableEq Pid] in
private theorem actor_ne {pid q : Pid} : some pid ≠ some q ↔ q ≠ pid := by
  simp [eq_comm]

private theorem exec_obliged (ho : Obliged M A K N) {c c' : Config Pid W Res X}
    {l : Label Pid Launch Ans Tick} (hl : Permits A l c) (he : c.exec M l = some c')
    (hi : (K.inf N).inv c.world)
    (hw : ∀ pid p, c.prog pid = some p → wp M A K N pid p (fun _ => N.done pid) c.world)
    (hk : K.inv c'.world)
    (hg : ∀ pid, l.actor ≠ some pid → K.rely pid c.world c'.world) :
    N.inv c'.world ∧ (∀ pid, l.actor ≠ some pid → N.rely pid c.world c'.world) ∧
      ∀ pid p, c'.prog pid = some p → wp M A K N pid p (fun _ => N.done pid) c'.world := by
  -- the programs that did not move keep their precondition by relying
  have others : ∀ pid, N.Guarantee pid c.world c'.world →
      (∀ q, q ≠ pid → K.rely q c.world c'.world) → ∀ q p, q ≠ pid → c.prog q = some p →
        wp M A K N q p (fun _ => N.done q) c'.world :=
    fun pid hn hk q p hne hp => wp_rely (hw q p hp) ⟨hk q hne, hn q hne⟩
  cases l with
  | launch pid l =>
      simp only [Config.exec] at he
      split at he
      · cases he
      obtain ⟨⟨p, w'⟩, hm, rfl⟩ := Option.map_eq_some_iff.mp he
      have hg' : K.Guarantee pid c.world w' := fun q hq => hg q (actor_ne.mpr hq)
      obtain ⟨hn, hgn, hwp⟩ := ho.launch pid l c.world p w' hi hm hk hg'
      exact ⟨hn, fun q hq => hgn q (actor_ne.mp hq), wp_update hwp (others pid hgn hg')⟩
  | call pid a =>
      simp only [Config.exec] at he
      split at he
      · rename_i e k hp
        obtain ⟨⟨r, w'⟩, hm, rfl⟩ := Option.map_eq_some_iff.mp he
        have hg' : K.Guarantee pid c.world w' := fun q hq => hg q (actor_ne.mpr hq)
        obtain ⟨hn, hgn, hwp⟩ := hw pid _ hp c.world ((K.inf N).rely_refl _ _) hi a r w'
          (hl e k hp) hm hk hg'
        exact ⟨hn, fun q hq => hgn q (actor_ne.mp hq), wp_update hwp (others pid hgn hg')⟩
      · cases he
  | crash pid =>
      simp only [Config.exec] at he
      split at he
      · cases he
      cases he
      have hg' : K.Guarantee pid c.world (M.crash pid c.world) :=
        fun q hq => hg q (actor_ne.mpr hq)
      obtain ⟨hn, hgn, hd⟩ := ho.crash pid c.world hi hk hg'
      exact ⟨hn, fun q hq => hgn q (actor_ne.mp hq), wp_update hd (others pid hgn hg')⟩
  | tick t =>
      obtain ⟨w', hm, rfl⟩ := Option.map_eq_some_iff.mp he
      have hg' : ∀ q, K.rely q c.world w' := fun q => hg q (by simp [Label.actor])
      obtain ⟨hn, hr⟩ := ho.tick t c.world w' hi hm hk hg'
      exact ⟨hn, fun q _ => hr q, fun q p hp => wp_rely (hw q p hp) ⟨hg' q, hr q⟩⟩

-- The rely-guarantee rule in the middle of a run: from where the invariant holds,
-- and every program that is running owes what it should, it is established over
-- what is known of the runs from the start.
theorem Sound.resume {B : Assumption Pid W E Ans} {init c : Config Pid W Res X}
    (hs : Sound M B K init) (hBA : ∀ pid e a w, A pid e a w → B pid e a w) (hc : Run M B init c)
    (ho : Obliged M A K N) (hinv : N.inv c.world)
    (hprog : ∀ pid p, c.prog pid = some p → wp M A K N pid p (fun _ => N.done pid) c.world) :
    Sound M A (K.inf N) c := by
  have hreach : ∀ {c'}, Run M A c c' → Run M B init c' := fun hr => hc.trans (hr.mono hBA)
  have main : ∀ c', Run M A c c' → (K.inf N).inv c'.world ∧
      ∀ pid p, c'.prog pid = some p → wp M A K N pid p (fun _ => N.done pid) c'.world := by
    intro c' hr
    induction hr with
    | refl => exact ⟨⟨hs.inv c hc, hinv⟩, hprog⟩
    | @tail c' c'' hr hstep ih =>
        obtain ⟨l, hl, he⟩ := hstep
        have hk := hs.inv c'' (hreach (hr.tail ⟨l, hl, he⟩))
        have hg := hs.rely c' (hreach hr) l c'' (hl.mono A hBA) he
        obtain ⟨hn, _, hw⟩ := exec_obliged ho hl he ih.1 ih.2 hk hg
        exact ⟨⟨hk, hn⟩, hw⟩
  constructor
  · exact fun c' hr => (main c' hr).1
  · intro c' hr l c'' hl he pid hne
    obtain ⟨hi, hw⟩ := main c' hr
    have hk := hs.inv c'' (hreach (hr.tail ⟨l, hl, he⟩))
    have hg := hs.rely c' (hreach hr) l c'' (hl.mono A hBA) he
    exact ⟨hg pid hne, (exec_obliged ho hl he hi hw hk hg).2.1 pid hne⟩
  · intro c' hr pid r hp
    have hd : N.done pid c'.world := by
      have hw := (main c' hr).2 pid _ hp
      unfold wp at hw
      exact hw
    exact ⟨hs.done c' (hreach hr) pid r hp, hd⟩

-- And from the start: what holds there, and is owed by every program, launch,
-- crash and tick, holds in every run.
theorem Sound.extend {init : Config Pid W Res X} (hs : Sound M A K init)
    (ho : Obliged M A K N) (hinit : N.inv init.world) (hprog : ∀ pid, init.prog pid = none) :
    Sound M A (K.inf N) init :=
  hs.resume (fun _ _ _ _ h => h) .refl ho hinit fun pid p hp => by simp [hprog pid] at hp

-- A reflexive and transitive relation that every process relies on relates the
-- two ends of a run, if no step has every process for its actor.
theorem Sound.run {L : Logic Pid W} {init : Config Pid W Res X} (hs : Sound M A L init)
    {R : W → W → Prop} (hrefl : ∀ w, R w w)
    (htrans : ∀ w w' w'', R w w' → R w' w'' → R w w'')
    (hR : ∀ pid w w', L.rely pid w w' → R w w')
    (hfresh : ∀ actor : Option Pid, ∃ other, actor ≠ some other)
    {c c' : Config Pid W Res X} (hc : Run M A init c) (hr : Run M A c c') :
    R c.world c'.world := by
  induction hr with
  | refl => exact hrefl _
  | @tail d d' hd hstep ih =>
      obtain ⟨l, hl, he⟩ := hstep
      obtain ⟨pid, hpid⟩ := hfresh l.actor
      exact htrans _ _ _ ih (hR pid _ _ (hs.rely d (hc.trans hd) l d' hl he pid hpid))

end Soundness

-- From here on a triple is derived by the rules, not by evaluating the program.
attribute [irreducible] wp

end Concurrency
