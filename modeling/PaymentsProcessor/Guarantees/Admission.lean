import PaymentsProcessor.Guarantees.Guard
import PaymentsProcessor.System.Addresses

namespace PaymentsProcessor

open Python Concurrency

section Admission

variable {d : Deployment} {A : Assumption Pid World Effect Answer} {c : SystemConfig}

end Admission

end PaymentsProcessor
