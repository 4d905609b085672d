import PaymentsProcessor.Guarantees.Custody
import PaymentsProcessor.System.Restarts

namespace PaymentsProcessor

open Python Storage Concurrency PaymentsConstants

section Phases

variable {d : Deployment} {A : Assumption Pid World Effect Answer} {c c' : SystemConfig}
variable {cfg : OutboxDispatcherConfig} {payment : Payment}

theorem World.Notified.extends {w w' : World} {id : UUID} (h : w.Notified id)
    (hl : w.log.Extends w'.log) : w'.Notified id := by
  obtain ⟨post, hpost, hid, hcode⟩ := h
  exact ⟨post, hl.posts hpost, hid, hcode⟩

end Phases

section Recovery

variable {d : Deployment} {A : Assumption Pid World Effect Answer} {c : SystemConfig}
variable {payment : Payment}

end Recovery

end PaymentsProcessor
