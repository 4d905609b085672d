import PaymentsProcessor.Concurrency.Machine

namespace Concurrency

-- A call together with what it was answered.
abbrev Event {E : Type} (Res : E → Type) (X : Type) := (e : E) × Except X (Res e)

-- A complete run of a program on its own: the calls it made and its result.
inductive Exec {E : Type} {Res : E → Type} {X α : Type} :
    Prog Res X α → List (Event Res X) → Except X α → Prop where
  | ret (result : Except X α) : Exec (.ret result) [] result
  | call (e : E) (k : Except X (Res e) → Prog Res X α) (answer : Except X (Res e))
      {trace : List (Event Res X)} {result : Except X α} (h : Exec (k answer) trace result) :
      Exec (.call e k) (⟨e, answer⟩ :: trace) result

namespace Exec

variable {E : Type} {Res : E → Type} {X α β : Type}
variable {trace rest : List (Event Res X)} {result : Except X α}

@[simp] theorem ret_iff {r : Except X α} :
    Exec (.ret r : Prog Res X α) trace result ↔ trace = [] ∧ result = r := by
  constructor
  · intro h
    cases h
    exact ⟨rfl, rfl⟩
  · rintro ⟨rfl, rfl⟩
    exact .ret _

theorem call_iff {e : E} {k : Except X (Res e) → Prog Res X α} :
    Exec (.call e k) trace result ↔
      ∃ answer rest, trace = ⟨e, answer⟩ :: rest ∧ Exec (k answer) rest result := by
  constructor
  · intro h
    cases h with
    | call _ _ answer h => exact ⟨answer, _, rfl, h⟩
  · rintro ⟨answer, rest, rfl, h⟩
    exact .call e k answer h

@[simp] theorem ofExcept_iff {r : Except X α} :
    Exec (Prog.ofExcept r : Prog Res X α) trace result ↔ trace = [] ∧ result = r := ret_iff

@[simp] theorem perform_iff {e : E} {result : Except X (Res e)} :
    Exec (Prog.perform e) trace result ↔ trace = [⟨e, result⟩] := by
  simp only [Prog.perform, call_iff, ret_iff]
  constructor
  · rintro ⟨answer, rest, rfl, rfl, rfl⟩
    rfl
  · rintro rfl
    exact ⟨result, [], rfl, rfl, rfl⟩

theorem bind_iff {p : Prog Res X α} {f : α → Prog Res X β} {result : Except X β} :
    Exec (p.bind f) trace result ↔ ∃ first r second, trace = first ++ second ∧
      Exec p first r ∧ match r with
        | .ok a => Exec (f a) second result
        | .error x => second = [] ∧ result = .error x := by
  induction p generalizing trace with
  | ret r =>
      constructor
      · intro h
        cases r with
        | ok a => exact ⟨[], .ok a, trace, rfl, .ret _, h⟩
        | error x =>
            obtain ⟨rfl, rfl⟩ := ret_iff.mp h
            exact ⟨[], .error x, [], rfl, .ret _, rfl, rfl⟩
      · rintro ⟨first, r', second, rfl, h, hf⟩
        obtain ⟨rfl, rfl⟩ := ret_iff.mp h
        cases r' with
        | ok a => exact hf
        | error x =>
            obtain ⟨rfl, rfl⟩ := hf
            exact .ret _
  | call e k ih =>
      simp only [Prog.call_bind, call_iff, ih]
      constructor
      · rintro ⟨answer, rest, rfl, first, r, second, rfl, h, hf⟩
        exact ⟨⟨e, answer⟩ :: first, r, second, rfl, ⟨answer, first, rfl, h⟩, hf⟩
      · rintro ⟨_, r, second, rfl, ⟨answer, first, rfl, h⟩, hf⟩
        exact ⟨answer, first ++ second, rfl, first, r, second, rfl, h, hf⟩

theorem attempt_iff {p : Prog Res X α} {result : Except X (Except X α)} :
    Exec p.attempt trace result ↔ ∃ r, result = .ok r ∧ Exec p trace r := by
  induction p generalizing trace with
  | ret r =>
      simp only [Prog.ret_attempt, ret_iff]
      constructor
      · rintro ⟨rfl, rfl⟩
        exact ⟨r, rfl, rfl, rfl⟩
      · rintro ⟨_, rfl, rfl, rfl⟩
        exact ⟨rfl, rfl⟩
  | call e k ih =>
      simp only [Prog.call_attempt, call_iff, ih]
      constructor
      · rintro ⟨answer, rest, rfl, r, rfl, h⟩
        exact ⟨r, rfl, answer, rest, rfl, h⟩
      · rintro ⟨r, rfl, answer, rest, rfl, h⟩
        exact ⟨answer, rest, rfl, r, rfl, h⟩

theorem tryCatch_iff {p : Prog Res X α} {handler : X → Prog Res X α} :
    Exec (tryCatch p handler) trace result ↔ ∃ first r second, trace = first ++ second ∧
      Exec p first r ∧ match r with
        | .ok a => second = [] ∧ result = .ok a
        | .error x => Exec (handler x) second result := by
  simp only [Prog.tryCatch_eq, bind_iff, attempt_iff]
  constructor
  · rintro ⟨first, _, second, rfl, ⟨r, rfl, h⟩, hf⟩
    refine ⟨first, r, second, rfl, h, ?_⟩
    cases r with
    | ok a => exact ret_iff.mp hf
    | error x => exact hf
  · rintro ⟨first, r, second, rfl, h, hf⟩
    refine ⟨first, .ok r, second, rfl, ⟨r, rfl, h⟩, ?_⟩
    cases r with
    | ok a => exact ret_iff.mpr hf
    | error x => exact hf

theorem andThen_iff {p : Prog Res X α} {last : Prog Res X Unit} :
    Exec (p.andThen last) trace result ↔ ∃ first r second s, trace = first ++ second ∧
      Exec p first r ∧ Exec last second s ∧ result = s.bind fun _ => r := by
  simp only [Prog.andThen, bind_iff, attempt_iff]
  constructor
  · rintro ⟨first, _, second, rfl, ⟨r, rfl, h⟩, second, s, third, rfl, hs, hr⟩
    cases s with
    | ok u =>
        obtain ⟨rfl, rfl⟩ := ret_iff.mp hr
        exact ⟨first, _, second, .ok u, by simp, h, hs, rfl⟩
    | error x =>
        obtain ⟨rfl, rfl⟩ := hr
        exact ⟨first, r, second, .error x, by simp, h, hs, rfl⟩
  · rintro ⟨first, r, second, s, rfl, h, hs, rfl⟩
    refine ⟨first, .ok r, second, rfl, ⟨r, rfl, h⟩, second, s, [], by simp, hs, ?_⟩
    cases s with
    | ok u => exact .ret _
    | error x => exact ⟨rfl, rfl⟩

theorem of_only {S : E → Prop} {p : Prog Res X α} (hp : p.Only S) (h : Exec p trace result) :
    ∀ event ∈ trace, S event.1 := by
  induction h with
  | ret r => simp
  | call e k answer _ ih =>
      cases hp with
      | call he hk => exact List.forall_mem_cons.mpr ⟨he, ih (hk answer)⟩

-- The answers determine the run: one program has no two runs of which one
-- starts with the other.
theorem prefix_unique {p : Prog Res X α} {rest' : List (Event Res X)} {result' : Except X α}
    {trace' : List (Event Res X)} (h : Exec p trace result) (h' : Exec p trace' result')
    (he : trace ++ rest = trace' ++ rest') : trace = trace' ∧ result = result' := by
  induction h generalizing trace' with
  | ret r =>
      obtain ⟨rfl, rfl⟩ := ret_iff.mp h'
      exact ⟨rfl, rfl⟩
  | call e k answer h ih =>
      obtain ⟨answer', tail, rfl, ht⟩ := call_iff.mp h'
      simp only [List.cons_append, List.cons.injEq, Sigma.mk.injEq, heq_eq_eq, true_and] at he
      obtain ⟨rfl, he⟩ := he
      obtain ⟨rfl, hr⟩ := ih ht he
      exact ⟨rfl, hr⟩

end Exec

section Threads

variable {Pid Launch Ans Tick W E X : Type} {Res : E → Type}
variable (M : Machine Pid Launch Ans Tick W Res X) (A : Assumption Pid W E Ans) (pid : Pid)

-- The calls of a process that takes its steps while no other takes any.
inductive Threads : W → List (Event Res X) → W → Prop where
  | nil (w : W) : Threads w [] w
  | cons {e : E} {a : Ans} {r : Except X (Res e)} {w w₁ w₂ : W} {rest : List (Event Res X)}
      (ha : A pid e a w) (hp : M.perform pid e a w = some (r, w₁)) (h : Threads w₁ rest w₂) :
      Threads w (⟨e, r⟩ :: rest) w₂

variable {M A pid} {w w' : W} {e : E} {r : Except X (Res e)} {first rest : List (Event Res X)}

theorem Threads.nil_iff : Threads M A pid w [] w' ↔ w' = w := by
  constructor
  · intro h
    cases h
    rfl
  · rintro rfl
    exact .nil _

theorem Threads.cons_iff : Threads M A pid w (⟨e, r⟩ :: rest) w' ↔
    ∃ a w₁, A pid e a w ∧ M.perform pid e a w = some (r, w₁) ∧ Threads M A pid w₁ rest w' := by
  constructor
  · intro h
    cases h with
    | cons ha hp h => exact ⟨_, _, ha, hp, h⟩
  · rintro ⟨a, w₁, ha, hp, h⟩
    exact .cons ha hp h

theorem Threads.append_iff : Threads M A pid w (first ++ rest) w' ↔
    ∃ w₁, Threads M A pid w first w₁ ∧ Threads M A pid w₁ rest w' := by
  induction first generalizing w with
  | nil => simp [Threads.nil_iff]
  | cons call first ih =>
      obtain ⟨e, r⟩ := call
      simp only [List.cons_append, Threads.cons_iff, ih]
      constructor
      · rintro ⟨a, w₁, ha, hp, w₂, hf, hr⟩
        exact ⟨w₂, ⟨a, w₁, ha, hp, hf⟩, hr⟩
      · rintro ⟨w₂, ⟨a, w₁, ha, hp, hf⟩, hr⟩
        exact ⟨a, w₁, ha, hp, w₂, hf, hr⟩

theorem Threads.mono {B : Assumption Pid W E Ans} {trace : List (Event Res X)}
    (h : Threads M A pid w trace w') (hAB : ∀ pid e a w, A pid e a w → B pid e a w) :
    Threads M B pid w trace w' := by
  induction h with
  | nil w => exact .nil w
  | cons ha hp _ ih => exact .cons (hAB _ _ _ _ ha) hp ih

-- Runs a program on these answers.
def Machine.solo (M : Machine Pid Launch Ans Tick W Res X) (test : Pid → E → Ans → W → Bool)
    (pid : Pid) {α : Type} : Prog Res X α → W → List Ans →
      Option (List (Event Res X) × Except X α × W)
  | .ret r, w, _ => some ([], r, w)
  | .call e k, w, a :: rest =>
      if test pid e a w then
        (M.perform pid e a w).bind fun s =>
          (solo M test pid (k s.1) s.2 rest).map fun t => (⟨e, s.1⟩ :: t.1, t.2)
      else none
  | .call _ _, _, [] => none

theorem solo_sound {α : Type} {test : Pid → E → Ans → W → Bool}
    (hA : ∀ pid e a w, test pid e a w → A pid e a w) {p : Prog Res X α} {w : W} {as : List Ans}
    {trace : List (Event Res X)} {result : Except X α} {w' : W}
    (h : M.solo test pid p w as = some (trace, result, w')) :
    Exec p trace result ∧ Threads M A pid w trace w' := by
  induction p generalizing w as trace with
  | ret r =>
      cases h
      exact ⟨.ret _, .nil _⟩
  | call e k ih =>
      cases as with
      | nil => cases h
      | cons a rest =>
          unfold Machine.solo at h
          split at h
          · rename_i ha
            obtain ⟨⟨r, w₁⟩, hp, h⟩ := Option.bind_eq_some_iff.mp h
            obtain ⟨⟨trace', result', w₂⟩, hs, he⟩ := Option.map_eq_some_iff.mp h
            cases he
            obtain ⟨hexec, hthreads⟩ := ih r hs
            exact ⟨.call e k r hexec, .cons (hA pid e a w ha) hp hthreads⟩
          · cases h

end Threads

end Concurrency
