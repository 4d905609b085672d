import PaymentsProcessor.System.Recovery

namespace PaymentsProcessor

open Python Storage Concurrency PaymentsConstants

section Restarts

variable {d : Deployment} {A : Assumption Pid World Effect Answer} {c : SystemConfig} {p q : Pid}
variable {w w' : World}

-- A process that has nothing in hand.
structure AtRest (p : Pid) (w : World) : Prop where
  owner : ∀ k, w.store.owner k ≠ some p
  writes : w.store.writes p = []
  aborted : w.store.aborted p = false
  unacked : w.unacked p = none

theorem AtRest.frame (h : AtRest p w) (hf : Frame p w w') : AtRest p w' where
  owner k hk := h.owner k ((hf.owner k).mp hk)
  writes := hf.writes.trans h.writes
  aborted := hf.aborted.trans h.aborted
  unacked := hf.unacked.elim (fun hu => hu.trans h.unacked) id

-- What a crash leaves to those who come later.
structure Kept (w w' : World) : Prop where
  contents : w'.store.contents = w.store.contents
  queues : ∀ name, w.queues name ⊆ w'.queues name
  unacked : ∀ p m, w.unacked p = some m → w'.unacked p = some m ∨ m ∈ w'.queues QUEUE_PAYMENTS_NEW

theorem Kept.trans {w'' : World} (h : Kept w w') (h' : Kept w' w'') : Kept w w'' where
  contents := h'.contents.trans h.contents
  queues name := List.Subset.trans (h.queues name) (h'.queues name)
  unacked p m hm := (h.unacked p m hm).elim (h'.unacked p m) fun hq => .inr (h'.queues _ hq)

theorem requeue_unacked :
    (w.requeue p).unacked = Function.update w.unacked p none := by
  unfold World.requeue
  split
  · rename_i hnone
    rw [← hnone, Function.update_eq_self]
  · rfl

theorem rest_crash : AtRest p (w.crash p) where
  owner k := by
    rw [(@crash_same p w).1]
    exact LockStore.rollback_owner_self w.store k
  writes := by
    rw [(@crash_same p w).1]
    exact LockStore.rollback_writes_self ..
  aborted := by
    rw [(@crash_same p w).1]
    exact LockStore.rollback_aborted_self ..
  unacked := by
    show ((w.rollback p).requeue p).unacked p = none
    rw [requeue_unacked, Function.update_self]

theorem AtRest.crash (h : AtRest q w) : AtRest q (w.crash p) := by
  by_cases hq : q = p
  · exact hq ▸ rest_crash
  · have hs := (@crash_same p w).1
    refine ⟨fun k hk => ?_, ?_, ?_, ?_⟩
    · rw [hs] at hk
      exact h.owner k ((LockStore.rollback_owner_other _ k hq).mp hk)
    · rw [hs]
      exact (LockStore.rollback_writes_other _ hq).trans h.writes
    · rw [hs]
      exact (LockStore.rollback_aborted_other _ hq).trans h.aborted
    · show ((w.rollback p).requeue p).unacked q = none
      rw [requeue_unacked, Function.update_of_ne hq]
      exact h.unacked

theorem AtRest.unhindered (h : ∀ q, AtRest q w) (p : Pid) : Unhindered p w where
  free k := by
    have hnone : w.store.owner k = none :=
      Option.eq_none_iff_forall_ne_some.mpr fun q => (h q).owner k
    simp [LockStore.isFree, hnone]
  aborted := (h p).aborted

theorem Unhindered.started (h : Unhindered p w) (job : Job) : Unhindered p (w.start p job) :=
  ⟨h.free, h.aborted⟩

end Restarts

end PaymentsProcessor
