import PaymentsProcessor.Guarantees.Guard
import PaymentsProcessor.Guarantees.Outcomes
import PaymentsProcessor.System.Vetting

namespace PaymentsProcessor

open Python Concurrency

-- The form of an address that the guard checks.
def SSRFGuard.checked (ip : IPAddress) : IPAddress := ip.ipv4_mapped.getD ip

namespace World

-- The guard's own lookup in this sending has answered the address.
def Answered (w : World) (pid : Pid) (peer : IPAddress) : Prop :=
  ∃ infos raw, (pid, infos) ∈ w.log.lookups ∧ ⟨.str raw⟩ ∈ infos ∧
    SSRFGuard._normalize_ip raw = .ok (SSRFGuard.checked peer)

-- The guard has checked the address in this sending, and let it pass.
def Cleared (w : World) (pid : Pid) (peer : IPAddress) : Prop :=
  w.Answered pid peer ∧ SSRFGuard._is_disallowed (SSRFGuard.checked peer) = false

end World

section Connected

variable {d : Deployment} {c : SystemConfig}

-- The guard looks the host up and checks what it finds, but the client looks it
-- up again when it connects: the two lookups have to agree.
theorem connects_where_cleared_iff (h : Reachable d unrestricted c) :
    ∀ post ∈ c.world.log.posts, ∀ peer, post.peer = some peer →
      (c.world.Cleared post.pid peer ↔ c.world.Answered post.pid peer) := by
  intro post hp peer _
  refine ⟨fun hc => hc.1, fun ha => ⟨ha, ?_⟩⟩
  obtain ⟨infos, raw, hi, hraw, hn⟩ := ha
  have haccepted := ((vetting_sound d unrestricted).inv c h).2.accepted post hp infos hi
  obtain ⟨ip, hip, hd⟩ := SSRFGuard.check_infos_ok_iff.mp haccepted raw hraw
  rw [hn] at hip
  cases hip
  exact hd

end Connected

namespace Scenario

-- 127.0.0.1
def loopback : IPAddress := .v4 0x7f000001

-- Up to the webhook, whose client connects to this address.
def notified (peer : IPAddress) : Labels :=
  create 0 ++ batch 1 ++ deliver 2 ++ process 2 (.finite 0) 13 ++ send_to 2 peer

def connected (c : SystemConfig) (peer : IPAddress) : Bool :=
  c.world.log.posts.any fun post => post.peer = some peer

end Scenario

theorem same_answer_is_cleared : ∃ c, Reachable Scenario.deployment unrestricted c ∧
    Scenario.connected c Scenario.public_peer ∧ ∀ post ∈ c.world.log.posts, ∀ peer,
      post.peer = some peer → (c.world.Cleared post.pid peer ↔ c.world.Answered post.pid peer) := by
  obtain ⟨c, hc, hf⟩ := Scenario.reaches_any (Scenario.notified Scenario.public_peer)
    (fun c => Scenario.connected c Scenario.public_peer) (by decide +kernel)
  exact ⟨c, hc, hf, connects_where_cleared_iff hc⟩

-- The name of a public host means the loopback address by the time of the connection.
theorem rebound_host_is_connected : ∃ c, Reachable Scenario.deployment unrestricted c ∧
    Scenario.deployment.container.webhook_config.WEBHOOK_ALLOW_PRIVATE_HOSTS = false ∧
      ∃ post ∈ c.world.log.posts, ∃ peer, post.peer = some peer ∧
        ¬c.world.Cleared post.pid peer := by
  obtain ⟨c, hc, hf⟩ := Scenario.reaches_any (Scenario.notified Scenario.loopback)
    (fun c => Scenario.connected c Scenario.loopback) (by decide +kernel)
  obtain ⟨post, hp, hpeer⟩ := List.any_eq_true.mp hf
  refine ⟨c, hc, rfl, post, hp, Scenario.loopback, of_decide_eq_true hpeer, fun hcleared => ?_⟩
  have hdisallowed : SSRFGuard._is_disallowed (SSRFGuard.checked Scenario.loopback) = true := by
    decide +kernel
  rw [hcleared.2] at hdisallowed
  cases hdisallowed

end PaymentsProcessor
