import Mathlib.Logic.Basic

namespace Concurrency

-- A sequential asynchronous program. Every call is a point at which the
-- environment answers, and at which other programs may run first.
inductive Prog {E : Type} (Res : E → Type) (X α : Type) where
  | ret (result : Except X α)
  | call (e : E) (k : Except X (Res e) → Prog Res X α)

namespace Prog

variable {E : Type} {Res : E → Type} {X α β γ : Type}

def bind : Prog Res X α → (α → Prog Res X β) → Prog Res X β
  | .ret (.ok a), f => f a
  | .ret (.error x), _ => .ret (.error x)
  | .call e k, f => .call e fun r => (k r).bind f

-- Runs a program to its result and returns normally whatever the result is.
def attempt : Prog Res X α → Prog Res X (Except X α)
  | .ret r => .ret (.ok r)
  | .call e k => .call e fun r => (k r).attempt

instance : Monad (Prog Res X) where
  pure a := .ret (.ok a)
  bind := Prog.bind

instance : MonadExcept X (Prog Res X) where
  throw x := .ret (.error x)
  tryCatch p handler := p.attempt.bind fun
    | .ok a => .ret (.ok a)
    | .error x => handler x

def perform (e : E) : Prog Res X (Res e) := .call e .ret

def ofExcept (r : Except X α) : Prog Res X α := .ret r

-- The second program runs however the first one ends. Its own exception
-- replaces the result of the first.
def andThen (p : Prog Res X α) (last : Prog Res X Unit) : Prog Res X α :=
  p.attempt.bind fun r => last.bind fun _ => .ret r

@[simp] theorem pure_eq (a : α) : (pure a : Prog Res X α) = .ret (.ok a) := rfl

@[simp] theorem bind_eq (p : Prog Res X α) (f : α → Prog Res X β) : p >>= f = p.bind f := rfl

@[simp] theorem throw_eq (x : X) : (throw x : Prog Res X α) = .ret (.error x) := rfl

@[simp] theorem tryCatch_eq (p : Prog Res X α) (handler : X → Prog Res X α) :
    tryCatch p handler = p.attempt.bind fun
      | .ok a => .ret (.ok a)
      | .error x => handler x := rfl

@[simp] theorem ret_ok_bind (a : α) (f : α → Prog Res X β) :
    (Prog.ret (.ok a) : Prog Res X α).bind f = f a := rfl

@[simp] theorem ret_error_bind (x : X) (f : α → Prog Res X β) :
    (Prog.ret (.error x) : Prog Res X α).bind f = .ret (.error x) := rfl

@[simp] theorem call_bind (e : E) (k : Except X (Res e) → Prog Res X α)
    (f : α → Prog Res X β) : (Prog.call e k).bind f = .call e fun r => (k r).bind f := rfl

@[simp] theorem ret_attempt (r : Except X α) :
    (Prog.ret r : Prog Res X α).attempt = .ret (.ok r) := rfl

@[simp] theorem call_attempt (e : E) (k : Except X (Res e) → Prog Res X α) :
    (Prog.call e k).attempt = .call e fun r => (k r).attempt := rfl

theorem bind_assoc (p : Prog Res X α) (f : α → Prog Res X β) (g : β → Prog Res X γ) :
    (p.bind f).bind g = p.bind fun a => (f a).bind g := by
  induction p with
  | ret r => cases r <;> rfl
  | call e k ih => simp only [call_bind, ih]

-- Every call the program can ever make satisfies `S`.
inductive Only (S : E → Prop) : Prog Res X α → Prop where
  | ret (r : Except X α) : Only S (.ret r)
  | call {e : E} {k : Except X (Res e) → Prog Res X α} (he : S e) (hk : ∀ r, Only S (k r)) :
      Only S (.call e k)

section Only

variable {S : E → Prop}

theorem Only.perform {e : E} (h : S e) : (perform e : Prog Res X (Res e)).Only S :=
  .call h fun r => .ret r

theorem Only.ofExcept (r : Except X α) : (ofExcept r : Prog Res X α).Only S := .ret r

theorem Only.bind {p : Prog Res X α} {f : α → Prog Res X β} (hp : p.Only S)
    (hf : ∀ a, (f a).Only S) : (p.bind f).Only S := by
  induction hp with
  | ret r =>
      cases r with
      | ok a => exact hf a
      | error x => exact .ret _
  | call he _ ih => exact .call he ih

theorem Only.attempt {p : Prog Res X α} (hp : p.Only S) : p.attempt.Only S := by
  induction hp with
  | ret r => exact .ret _
  | call he _ ih => exact .call he ih

theorem Only.tryCatch {p : Prog Res X α} {handler : X → Prog Res X α} (hp : p.Only S)
    (hh : ∀ x, (handler x).Only S) : (tryCatch p handler : Prog Res X α).Only S := by
  rw [tryCatch_eq]
  apply hp.attempt.bind
  intro r
  cases r with
  | ok a => exact .ret _
  | error x => exact hh x

theorem Only.andThen {p : Prog Res X α} {last : Prog Res X Unit} (hp : p.Only S)
    (hl : last.Only S) : (p.andThen last).Only S :=
  hp.attempt.bind fun _ => hl.bind fun _ => .ret _

theorem Only.ite {c : Prop} [Decidable c] {p q : Prog Res X α} (hp : p.Only S)
    (hq : q.Only S) : (if c then p else q).Only S := by
  split <;> assumption

theorem Only.mono {T : E → Prop} {p : Prog Res X α} (hp : p.Only S) (h : ∀ e, S e → T e) :
    p.Only T := by
  induction hp with
  | ret r => exact .ret r
  | call he _ ih => exact .call (h _ he) ih

theorem only_true (p : Prog Res X α) : p.Only fun _ => True := by
  induction p with
  | ret r => exact .ret r
  | call e k ih => exact .call trivial ih

end Only

end Prog

end Concurrency
