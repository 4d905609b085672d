import Mathlib.Data.List.Basic

namespace Validation

-- The outcome of checking a part of some input. Faults are collected over the
-- parts, a crash ends the checking.
inductive Checked (ε χ α : Type) where
  | ok (a : α)
  | invalid (errors : List ε)
  | crashed (e : χ)

namespace Checked

variable {ε χ α β : Type}

def map (f : α → β) : Checked ε χ α → Checked ε χ β
  | .ok a => .ok (f a)
  | .invalid errors => .invalid errors
  | .crashed e => .crashed e

def seq : Checked ε χ (α → β) → Checked ε χ α → Checked ε χ β
  | .crashed e, _ => .crashed e
  | .ok f, x => x.map f
  | .invalid _, .crashed e => .crashed e
  | .invalid errors, .ok _ => .invalid errors
  | .invalid errors, .invalid more => .invalid (errors ++ more)

def errors : Checked ε χ α → List ε
  | .invalid errors => errors
  | _ => []

variable {f : Checked ε χ (α → β)} {x : Checked ε χ α}

@[simp] theorem map_eq_ok {g : α → β} {b : β} : x.map g = .ok b ↔ ∃ a, x = .ok a ∧ g a = b := by
  cases x <;> simp [map]

@[simp] theorem errors_map (g : α → β) : (x.map g).errors = x.errors := by
  cases x <;> rfl

@[simp] theorem map_eq_crashed {g : α → β} {e : χ} : x.map g = .crashed e ↔ x = .crashed e := by
  cases x <;> simp [map]

theorem seq_eq_ok {b : β} : f.seq x = .ok b ↔ ∃ g a, f = .ok g ∧ x = .ok a ∧ g a = b := by
  cases f <;> cases x <;> simp [seq, map]

theorem seq_eq_crashed {e : χ} :
    f.seq x = .crashed e ↔ f = .crashed e ∨ ((∀ e', f ≠ .crashed e') ∧ x = .crashed e) := by
  cases f <;> cases x <;> simp [seq, map]

-- Without a crash the errors of both parts are reported.
theorem errors_seq (hf : ∀ e, f ≠ .crashed e) (hx : ∀ e, x ≠ .crashed e) :
    (f.seq x).errors = f.errors ++ x.errors := by
  cases f <;> cases x <;> simp_all [seq, map, errors]

theorem seq_invalid {errors : List ε} (hf : ∀ e, f ≠ .crashed e) (hx : x = .invalid errors) :
    f.seq x = .invalid (f.errors ++ errors) := by
  subst hx
  cases f <;> simp_all [seq, map, Checked.errors]

theorem seq_ne_crashed : (∀ e, f.seq x ≠ .crashed e) ↔
    (∀ e, f ≠ .crashed e) ∧ ∀ e, x ≠ .crashed e := by
  cases f <;> cases x <;> simp [seq, map]

end Checked

end Validation
