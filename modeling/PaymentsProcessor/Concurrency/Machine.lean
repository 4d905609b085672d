import Mathlib.Logic.Relation
import Mathlib.Logic.Function.Basic
import PaymentsProcessor.Concurrency.Prog

namespace Concurrency

-- What a world does with programs. A partial function says which steps are
-- possible: a call that is not answered in a world waits there.
structure Machine (Pid Launch Ans Tick W : Type) {E : Type} (Res : E → Type) (X : Type) where
  launch : Pid → Launch → W → Option (Prog Res X Unit × W)
  perform : Pid → (e : E) → Ans → W → Option (Except X (Res e) × W)
  crash : Pid → W → W
  tick : Tick → W → Option W

structure Config (Pid W : Type) {E : Type} (Res : E → Type) (X : Type) where
  world : W
  prog : Pid → Option (Prog Res X Unit)

inductive Label (Pid Launch Ans Tick : Type) where
  | launch (pid : Pid) (l : Launch)
  | call (pid : Pid) (a : Ans)
  | crash (pid : Pid)
  | tick (t : Tick)

def Label.actor {Pid Launch Ans Tick : Type} : Label Pid Launch Ans Tick → Option Pid
  | .launch pid _ => some pid
  | .call pid _ => some pid
  | .crash pid => some pid
  | .tick _ => none

section Step

variable {Pid Launch Ans Tick W E X : Type} {Res : E → Type} [DecidableEq Pid]

-- A crashed program makes no further call.
def Config.exec (M : Machine Pid Launch Ans Tick W Res X) :
    Label Pid Launch Ans Tick → Config Pid W Res X → Option (Config Pid W Res X)
  | .launch pid l, c =>
      match c.prog pid with
      | some _ => none
      | none => (M.launch pid l c.world).map fun s =>
          ⟨s.2, Function.update c.prog pid (some s.1)⟩
  | .call pid a, c =>
      match c.prog pid with
      | some (.call e k) => (M.perform pid e a c.world).map fun s =>
          ⟨s.2, Function.update c.prog pid (some (k s.1))⟩
      | _ => none
  | .crash pid, c =>
      match c.prog pid with
      | none => none
      | some _ => some ⟨M.crash pid c.world, Function.update c.prog pid (some (.ret (.ok ())))⟩
  | .tick t, c => (M.tick t c.world).map fun w => ⟨w, c.prog⟩

-- How a step changes the world.
theorem Config.exec_cases {M : Machine Pid Launch Ans Tick W Res X}
    {l : Label Pid Launch Ans Tick} {c c' : Config Pid W Res X} (h : c.exec M l = some c') :
    (∃ pid l₁ p, l = .launch pid l₁ ∧ M.launch pid l₁ c.world = some (p, c'.world)) ∨
      (∃ pid a e k r, l = .call pid a ∧ c.prog pid = some (.call e k) ∧
        M.perform pid e a c.world = some (r, c'.world)) ∨
      (∃ pid, l = .crash pid ∧ c'.world = M.crash pid c.world) ∨
      ∃ t, l = .tick t ∧ M.tick t c.world = some c'.world := by
  cases l with
  | launch pid l₁ =>
      simp only [exec] at h
      split at h
      · cases h
      obtain ⟨⟨p, w⟩, hm, rfl⟩ := Option.map_eq_some_iff.mp h
      exact .inl ⟨pid, l₁, p, rfl, hm⟩
  | call pid a =>
      simp only [exec] at h
      split at h
      · rename_i e k hp
        obtain ⟨⟨r, w⟩, hm, rfl⟩ := Option.map_eq_some_iff.mp h
        exact .inr (.inl ⟨pid, a, e, k, r, rfl, hp, hm⟩)
      · cases h
  | crash pid =>
      simp only [exec] at h
      split at h
      · cases h
      cases h
      exact .inr (.inr (.inl ⟨pid, rfl, rfl⟩))
  | tick t =>
      obtain ⟨w, hm, rfl⟩ := Option.map_eq_some_iff.mp h
      exact .inr (.inr (.inr ⟨t, rfl, hm⟩))

-- A restriction on the answers that calls may get, by caller, call, answer and world.
abbrev Assumption (Pid W E Ans : Type) := Pid → E → Ans → W → Prop

def Permits (A : Assumption Pid W E Ans) (l : Label Pid Launch Ans Tick)
    (c : Config Pid W Res X) : Prop :=
  match l with
  | .call pid a => ∀ e k, c.prog pid = some (.call e k) → A pid e a c.world
  | _ => True

def Step (M : Machine Pid Launch Ans Tick W Res X) (A : Assumption Pid W E Ans)
    (c c' : Config Pid W Res X) : Prop :=
  ∃ l, Permits A l c ∧ c.exec M l = some c'

def Run (M : Machine Pid Launch Ans Tick W Res X) (A : Assumption Pid W E Ans) :
    Config Pid W Res X → Config Pid W Res X → Prop :=
  Relation.ReflTransGen (Step M A)

def unrestricted : Assumption Pid W E Ans := fun _ _ _ _ => True

def Config.allows (test : Pid → E → Ans → W → Bool) :
    Label Pid Launch Ans Tick → Config Pid W Res X → Bool
  | .call pid a, c =>
      match c.prog pid with
      | some (.call e _) => test pid e a c.world
      | _ => true
  | _, _ => true

-- Takes the steps one after the other, as long as the answers pass the test.
def Config.execAll (M : Machine Pid Launch Ans Tick W Res X) (test : Pid → E → Ans → W → Bool) :
    List (Label Pid Launch Ans Tick) → Config Pid W Res X → Option (Config Pid W Res X)
  | [], c => some c
  | l :: ls, c =>
      if c.allows test l then (c.exec M l).bind (Config.execAll M test ls) else none

omit [DecidableEq Pid] in
theorem permits_of_allows {A : Assumption Pid W E Ans} {test : Pid → E → Ans → W → Bool}
    (hA : ∀ pid e a w, test pid e a w → A pid e a w) {l : Label Pid Launch Ans Tick}
    {c : Config Pid W Res X} (h : c.allows test l) : Permits A l c := by
  cases l with
  | call pid a =>
      intro e k hp
      simp only [Config.allows, hp] at h
      exact hA pid e a c.world h
  | launch | crash | tick => trivial

theorem run_of_execAll {M : Machine Pid Launch Ans Tick W Res X} {A : Assumption Pid W E Ans}
    {test : Pid → E → Ans → W → Bool} (hA : ∀ pid e a w, test pid e a w → A pid e a w)
    {ls : List (Label Pid Launch Ans Tick)} {c c' : Config Pid W Res X}
    (h : c.execAll M test ls = some c') : Run M A c c' := by
  induction ls generalizing c with
  | nil =>
      cases h
      exact .refl
  | cons l ls ih =>
      unfold Config.execAll at h
      split at h
      · obtain ⟨next, hn, hr⟩ := Option.bind_eq_some_iff.mp h
        exact .head ⟨l, permits_of_allows hA ‹_›, hn⟩ (ih hr)
      · cases h

theorem Run.mono {M : Machine Pid Launch Ans Tick W Res X} {A B : Assumption Pid W E Ans}
    (h : ∀ pid e a w, A pid e a w → B pid e a w) {c c' : Config Pid W Res X}
    (hr : Run M A c c') : Run M B c c' := by
  refine Relation.ReflTransGen.mono ?_ _ _ hr
  rintro c c' ⟨l, hp, he⟩
  refine ⟨l, ?_, he⟩
  cases l with
  | call pid a => exact fun e k hk => h _ _ _ _ (hp e k hk)
  | launch | crash | tick => trivial

end Step

end Concurrency
