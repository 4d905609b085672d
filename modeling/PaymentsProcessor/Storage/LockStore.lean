import Mathlib.Logic.Function.Basic
import Mathlib.Data.List.Basic

set_option linter.unusedSectionVars false

namespace Storage

-- How writes act on the contents of a store, and the resources a transaction
-- holds for as long as it has made them.
structure Writing (K C Wr : Type) where
  apply : Wr → C → C
  touches : Wr → List K

-- A view of the contents that only writes touching `k` can change.
def Writing.Frames {K C Wr α : Type} (W : Writing K C Wr) (view : C → α) (k : K) : Prop :=
  ∀ w c, k ∉ W.touches w → view (W.apply w c) = view c

-- A transactional store with exclusive locks. The owner of a resource is a
-- function, so that no resource can have two.
structure LockStore (T K C Wr : Type) where
  contents : C
  owner : K → Option T
  writes : T → List Wr
  aborted : T → Bool

namespace LockStore

variable {T K C Wr α : Type} [DecidableEq T] [DecidableEq K]

def empty (contents : C) : LockStore T K C Wr where
  contents := contents
  owner _ := none
  writes _ := []
  aborted _ := false

def applyAll (W : Writing K C Wr) (ws : List Wr) (c : C) : C :=
  ws.foldl (fun c w => W.apply w c) c

-- What the transaction itself reads: the committed contents under its own writes.
def view (W : Writing K C Wr) (s : LockStore T K C Wr) (t : T) : C :=
  applyAll W (s.writes t) s.contents

def isFree (s : LockStore T K C Wr) (t : T) (k : K) : Bool :=
  s.owner k = none ∨ s.owner k = some t

def take (s : LockStore T K C Wr) (t : T) (ks : List K) (ws : List Wr) : LockStore T K C Wr :=
  { s with
    owner := fun k => if k ∈ ks then some t else s.owner k
    writes := Function.update s.writes t (s.writes t ++ ws) }

def abort (s : LockStore T K C Wr) (t : T) : LockStore T K C Wr :=
  { s with aborted := Function.update s.aborted t true }

def rollback (s : LockStore T K C Wr) (t : T) : LockStore T K C Wr :=
  { s with
    owner := fun k => if s.owner k = some t then none else s.owner k
    writes := Function.update s.writes t []
    aborted := Function.update s.aborted t false }

-- Committing an aborted transaction rolls it back.
def commit (W : Writing K C Wr) (s : LockStore T K C Wr) (t : T) : LockStore T K C Wr :=
  if s.aborted t then s.rollback t
  else { s.rollback t with contents := s.view W t }

section Fields

variable (W : Writing K C Wr) (s : LockStore T K C Wr) (t u : T) (ks : List K) (ws : List Wr)
  (k : K)

@[simp] theorem take_aborted : (s.take t ks ws).aborted = s.aborted := rfl
@[simp] theorem abort_contents : (s.abort t).contents = s.contents := rfl
@[simp] theorem abort_owner : (s.abort t).owner = s.owner := rfl
@[simp] theorem abort_writes : (s.abort t).writes = s.writes := rfl
@[simp] theorem rollback_contents : (s.rollback t).contents = s.contents := rfl

theorem take_owner : (s.take t ks ws).owner k = if k ∈ ks then some t else s.owner k := rfl

@[simp] theorem take_writes_self : (s.take t ks ws).writes t = s.writes t ++ ws := by
  simp [take]

@[simp] theorem take_nil : s.take t [] [] = s := by
  simp [take]

@[simp] theorem rollback_writes_self : (s.rollback t).writes t = [] := by
  simp [rollback]

@[simp] theorem rollback_aborted_self : (s.rollback t).aborted t = false := by
  simp [rollback]

variable {t u}

theorem take_writes_other (h : u ≠ t) : (s.take t ks ws).writes u = s.writes u := by
  simp [take, h]

theorem abort_aborted_other (h : u ≠ t) : (s.abort t).aborted u = s.aborted u := by
  simp [abort, h]

theorem rollback_writes_other (h : u ≠ t) : (s.rollback t).writes u = s.writes u := by
  simp [rollback, h]

theorem rollback_aborted_other (h : u ≠ t) : (s.rollback t).aborted u = s.aborted u := by
  simp [rollback, h]

theorem rollback_owner_other (h : u ≠ t) :
    (s.rollback t).owner k = some u ↔ s.owner k = some u := by
  by_cases hk : s.owner k = some t <;> simp [rollback, hk, Ne.symm h]

@[simp] theorem rollback_owner_self : (s.rollback t).owner k ≠ some t := by
  by_cases hk : s.owner k = some t <;> simp [rollback, hk]

@[simp] theorem commit_owner : (s.commit W t).owner = (s.rollback t).owner := by
  unfold commit; split <;> rfl

@[simp] theorem commit_writes : (s.commit W t).writes = (s.rollback t).writes := by
  unfold commit; split <;> rfl

@[simp] theorem commit_aborted : (s.commit W t).aborted = (s.rollback t).aborted := by
  unfold commit; split <;> rfl

theorem commit_contents : (s.commit W t).contents =
    if s.aborted t then s.contents else s.view W t := by
  unfold commit; split <;> rfl

theorem take_owner_other (h : u ≠ t) (hfree : ∀ k ∈ ks, s.isFree t k) :
    (s.take t ks ws).owner k = some u ↔ s.owner k = some u := by
  rw [take_owner]
  split
  · rename_i hk
    have hf := hfree k hk
    simp only [isFree, decide_eq_true_eq] at hf
    rcases hf with hf | hf <;> simp [hf, Ne.symm h]
  · rfl

end Fields

-- Every resource a pending write touches belongs to the write's transaction.
def WellLocked (W : Writing K C Wr) (s : LockStore T K C Wr) : Prop :=
  ∀ t, ∀ w ∈ s.writes t, ∀ k ∈ W.touches w, s.owner k = some t

namespace WellLocked

variable {W : Writing K C Wr} {s : LockStore T K C Wr} {t : T}

theorem empty (c : C) : WellLocked W (LockStore.empty c : LockStore T K C Wr) := by
  intro t w hw
  simp [LockStore.empty] at hw

theorem take (h : WellLocked W s) {ks : List K} {ws : List Wr}
    (hfree : ∀ k ∈ ks, s.isFree t k) (hws : ∀ w ∈ ws, ∀ k ∈ W.touches w, k ∈ ks) :
    WellLocked W (s.take t ks ws) := by
  intro u w hw k hk
  by_cases hu : u = t
  · subst u
    rw [take_writes_self, List.mem_append] at hw
    rw [take_owner]
    split
    · rfl
    · rename_i hks
      rcases hw with hw | hw
      · exact h t w hw k hk
      · exact absurd (hws w hw k hk) hks
  · rw [take_writes_other _ _ _ hu] at hw
    exact (take_owner_other s ks ws k hu hfree).mpr (h u w hw k hk)

theorem abort (h : WellLocked W s) : WellLocked W (s.abort t) := h

theorem rollback (h : WellLocked W s) : WellLocked W (s.rollback t) := by
  intro u w hw k hk
  by_cases hu : u = t
  · subst u
    simp at hw
  · rw [rollback_writes_other s hu] at hw
    exact (rollback_owner_other s k hu).mpr (h u w hw k hk)

theorem commit (h : WellLocked W s) : WellLocked W (s.commit W t) := by
  intro u w hw k hk
  rw [commit_writes] at hw
  rw [commit_owner]
  exact h.rollback u w hw k hk

end WellLocked

theorem applyAll_frame {W : Writing K C Wr} {view : C → α} {k : K} (h : W.Frames view k)
    (ws : List Wr) (c : C) (hk : ∀ w ∈ ws, k ∉ W.touches w) :
    view (applyAll W ws c) = view c := by
  induction ws generalizing c with
  | nil => rfl
  | cons w ws ih =>
      calc
        view (applyAll W (w :: ws) c) = view (W.apply w c) :=
          ih (W.apply w c) fun v hv => hk v (List.mem_cons_of_mem _ hv)
        _ = view c := h w c (hk w List.mem_cons_self)

-- A commit leaves alone what belongs to other transactions, or to none.
theorem commit_frame {W : Writing K C Wr} {view : C → α} {k : K} (h : W.Frames view k)
    {s : LockStore T K C Wr} (hs : WellLocked W s) (t : T) (hk : s.owner k ≠ some t) :
    view (s.commit W t).contents = view s.contents := by
  rw [commit_contents]
  split
  · rfl
  · exact applyAll_frame h _ _ fun w hw hkw => hk (hs t w hw k hkw)

-- What every single write preserves, a commit preserves.
theorem commit_induction {W : Writing K C Wr} {P : C → Prop} (s : LockStore T K C Wr) (t : T)
    (h : P s.contents) (hw : ∀ w ∈ s.writes t, ∀ c, P c → P (W.apply w c)) :
    P (s.commit W t).contents := by
  rw [commit_contents]
  split
  · exact h
  · have hall : ∀ ws : List Wr, (∀ w ∈ ws, w ∈ s.writes t) → ∀ c, P c → P (applyAll W ws c) := by
      intro ws
      induction ws with
      | nil => exact fun _ c hc => hc
      | cons w ws ih =>
          intro hmem c hc
          exact ih (fun v hv => hmem v (List.mem_cons_of_mem _ hv)) _
            (hw w (hmem w List.mem_cons_self) c hc)
    exact hall _ (fun _ h => h) _ h

end LockStore

end Storage
