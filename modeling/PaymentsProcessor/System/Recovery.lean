import PaymentsProcessor.Concurrency.Possible
import PaymentsProcessor.Database.Changes
import PaymentsProcessor.Database.Scans
import PaymentsProcessor.Messaging.Topology
import PaymentsProcessor.System.Addresses
import PaymentsProcessor.System.Custody

namespace PaymentsProcessor

open Python Storage Concurrency PaymentsConstants

-- A webhook of the payment was answered with a status below 400.
def World.Notified (w : World) (id : UUID) : Prop :=
  ∃ post ∈ w.log.posts, post.request.content.payload.payment_id = id ∧
    ∃ status_code < 400, post.status_code = some status_code

section Calls

variable {d : Deployment} {cfg : OutboxDispatcherConfig} {p : Pid} {w w' : World} {α : Type}

end Calls

section Delivery

variable {d : Deployment} {cfg : OutboxDispatcherConfig} {p : Pid} {w : World}
variable {payment : Payment} {msg : Message}

end Delivery

section Batch

variable {d : Deployment} {cfg : OutboxDispatcherConfig} {p : Pid} {w : World}

-- Nobody else holds a row that the process may need.
structure Unhindered (p : Pid) (w : World) : Prop where
  free : ∀ k, w.store.isFree p k
  aborted : w.store.aborted p = false

theorem Unhindered.take (h : Unhindered p w) (locks : List Resource) (writes : List Write)
    (ids : List UUID) : Unhindered p ((w.take p locks writes).fetch p ids) where
  free k := by
    have hk := h.free k
    simp only [LockStore.isFree, decide_eq_true_eq, World.fetch_store, World.take_store,
      LockStore.take_owner] at hk ⊢
    split
    · exact .inr rfl
    · exact hk
  aborted := h.aborted

def Tables.pending (c : Tables) : ℕ := c.outbox.rows.countP fun row => row.status = .PENDING

-- What the steps of a batch leave behind for those who come later.
structure Batch (p : Pid) (w w' : World) : Prop where
  unhindered : Unhindered p w'
  contents : w'.store.contents = w.store.contents
  queues : ∀ name, w.queues name ⊆ w'.queues name

theorem Batch.trans {w₁ w₂ : World} (h : Batch p w w₁) (h' : Batch p w₁ w₂) : Batch p w w₂ where
  unhindered := h'.unhindered
  contents := h'.contents.trans h.contents
  queues name := List.Subset.trans (h.queues name) (h'.queues name)

theorem Batch.take (h : Unhindered p w) (locks : List Resource) (writes : List Write)
    (ids : List UUID) : Batch p w ((w.take p locks writes).fetch p ids) :=
  ⟨h.take .., rfl, fun _ => List.Subset.refl _⟩

end Batch

end PaymentsProcessor
