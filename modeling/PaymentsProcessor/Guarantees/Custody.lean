import PaymentsProcessor.Guarantees.Outcomes
import PaymentsProcessor.System.Consumers

namespace PaymentsProcessor

open Python Storage Concurrency PaymentsConstants

-- Where the event of a payment is: still in the outbox, in a queue, or with a
-- consumer that has not acknowledged it.
inductive World.Finds (d : Deployment) (w : World) (id : UUID) : Prop where
  | outbox (row : Outbox) (h : row ∈ w.store.contents.outbox.rows) (ha : row.aggregate_id = id)
      (hs : row.status = .PENDING)
  | queue (name : String) (hk : d.Keeps name) (m : Message) (h : m ∈ w.queues name)
      (ht : m.tells id)
  | unacked (p : Pid) (m : Message) (h : w.unacked p = some m) (ht : m.tells id)

theorem World.Safe.finds {d : Deployment} {w : World} {id : UUID} (h : w.Safe d id) :
    w.Finds d id := by
  rcases h with ⟨name, hk, m, hm, ht⟩ | ⟨p, m, hm, ht, _⟩
  · exact .queue name hk m hm ht
  · exact .unacked p m hm ht

section Lost

variable {d : Deployment} {c : SystemConfig} {payment : Payment}

-- Whatever fails and in whatever order, a committed payment of which no webhook
-- was accepted has its event somewhere.
theorem events_are_not_lost
    (hN : d.container.consumer_config.CONSUMER_MAX_RETRIES ≤ d.ttls.length)
    (h : Reachable d (unsent payment.id) c)
    (hp : payment ∈ c.world.store.contents.payments.rows) : c.world.Finds d payment.id := by
  obtain ⟨⟨⟨_, hrec⟩, hn⟩, hc⟩ := (custody_sound d payment.id hN).inv c h
  obtain ⟨row, hrow, ha⟩ := hrec.consistent.announced payment hp
  obtain ⟨hs, _⟩ | ⟨hs, _⟩ := hrec.consistent.outbox row hrow
  · exact .outbox row hrow ha.aggregate_id hs
  · have hsent := hn.sent row hrow hs
    rw [ha.aggregate_id] at hsent
    exact (hc.safe hsent).finds

end Lost

namespace Scenario

def refuses_webhooks (id : UUID) : Test := fun _ e a _ =>
  match e, a with
  | .post request, .reply (.response _ status_code) =>
      request.content.payload.payment_id ≠ id || 400 ≤ status_code
  | _, _ => true

theorem unsent_of_test (id : UUID) (pid : Pid) (e : Effect) (a : Answer) (w : World)
    (h : refuses_webhooks id pid e a w) : unsent id pid e a w := by
  rintro request peer status_code rfl rfl hid
  simpa [refuses_webhooks, hid] using h

-- The webhook is answered with an error, and a copy goes to the first retry queue.
def failed_delivery (p : Pid) : Labels :=
  deliver p ++ process p (.finite 0) 13 ++
    replies p [.infos public_infos, .uuid 8, .time 14, .response public_peer 500, .done] ++ settle p

end Scenario

theorem failed_event_is_not_lost : ∃ c payment,
    Reachable Scenario.deployment (unsent payment.id) c ∧
      payment ∈ c.world.store.contents.payments.rows ∧
        (c.world.queues (retry_queue_name 1)).length = 1 ∧
          c.world.Finds Scenario.deployment payment.id := by
  obtain ⟨c, hc, hf⟩ := Scenario.reaches (Scenario.unsent_of_test 7)
    (Scenario.create 0 ++ Scenario.batch 1 ++ Scenario.failed_delivery 2)
    (fun c => (c.world.store.contents.payments.rows.any fun payment => payment.id = 7) &&
      (c.world.queues (retry_queue_name 1)).length = 1) (by decide +kernel)
  rw [Bool.and_eq_true] at hf
  obtain ⟨payment, hp, hid⟩ := List.any_eq_true.mp hf.1
  have hid : payment.id = 7 := of_decide_eq_true hid
  rw [← hid] at hc
  exact ⟨c, payment, hc, hp, of_decide_eq_true hf.2, events_are_not_lost (by decide) hc hp⟩

end PaymentsProcessor
