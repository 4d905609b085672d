import PaymentsProcessor.Guarantees.Custody
import PaymentsProcessor.System.Attempts

namespace PaymentsProcessor

open Python Storage Concurrency PaymentsConstants

section Attempts

variable {d : Deployment} {A : Assumption Pid World Effect Answer} {c : SystemConfig}

end Attempts

namespace Scenario

end Scenario

end PaymentsProcessor
