import PaymentsProcessor.Guarantees.Batches
import PaymentsProcessor.Guarantees.Outcomes
import PaymentsProcessor.System.Dispatchers

namespace PaymentsProcessor

open Python Storage Concurrency

section Dispatched

variable {d : Deployment} {c : SystemConfig}

-- Batches share no row. A published row is done with: no batch holds it, nothing
-- changes it and no call hands it over. And no row is handed over more than once
-- for good: the other times belong to batches that were rolled back. A payment
-- has one outbox row, which its messages are counted for.
structure HandedOverOnce (d : Deployment) (A : Assumption Pid World Effect Answer)
    (c : SystemConfig) : Prop where
  apart : ∀ p q id, id ∈ c.world.fetched p → id ∈ c.world.fetched q → p = q
  settled : ∀ row ∈ c.world.store.contents.outbox.rows, row.status = .PUBLISHED →
    ∀ c', Run (machine d) A c c' → row ∈ c'.world.store.contents.outbox.rows ∧
      (∀ p, row.id ∉ c'.world.fetched p) ∧
        c'.world.handovers row.aggregate_id = c.world.handovers row.aggregate_id
  counted : ∀ row ∈ c.world.store.contents.outbox.rows,
    c.world.copies row.aggregate_id ≤ 1 + c.world.losses row.id

theorem reachable_handover {A : Assumption Pid World Effect Answer} (h : Reachable d A c) :
    Tidy c.world ∧ Recorded d A c.world ∧ Handover A c.world := by
  obtain ⟨⟨ht, hrec⟩, hn⟩ := (handover_sound d A).inv c h
  exact ⟨ht, hrec, hn⟩

theorem run_settles {A : Assumption Pid World Effect Answer} (h : Reachable d A c)
    {c' : SystemConfig} (hr : Run (machine d) A c c') : c.world.Settles c'.world :=
  (handover_sound d A).run (fun _ => .refl _) (fun _ _ _ => .trans) (fun _ _ _ hr => hr.2.2)
    exists_idle h hr

theorem Counted.copies_le {w : World} (h : Counted w) {row : Outbox}
    (hrow : row ∈ w.store.contents.outbox.rows) (hw : row.WellFormed) :
    w.copies row.aggregate_id ≤ 1 + w.losses row.id := by
  obtain ⟨hs, _⟩ | ⟨hs, _⟩ := hw
  · by_cases hheld : ∃ p, row.id ∈ w.fetched p
    · obtain ⟨p, hp⟩ := hheld
      have hle := h.held row hrow p hp
      omega
    · have hle := h.free row hrow hs fun p hp => hheld ⟨p, hp⟩
      omega
  · have hle := h.published row hrow hs
    omega

theorem rows_are_handed_over_once (h : Reachable d failures_abort c) :
    HandedOverOnce d failures_abort c := by
  obtain ⟨ht, hrec, hn⟩ := reachable_handover h
  refine ⟨fun p q id hp hq => fetched_unique ht hp hq, fun row hrow hs c' hr => ?_,
    fun row hrow => ?_⟩
  · obtain ⟨hrow', hh⟩ := run_settles h hr row hrow hs
    obtain ⟨_, _, hn'⟩ := reachable_handover (h.trans hr)
    exact ⟨hrow', fun p => hn'.not_published hrow' hs, hh⟩
  · exact (hn.counted fun _ _ _ _ hA => hA).copies_le hrow (hrec.consistent.outbox row hrow)

end Dispatched

namespace Scenario

-- The commit fails, and the batch is rolled back.
def lost_batch (p : Pid) : Labels :=
  .launch p (.batch deployment.container.outbox_dispatcher_config) ::
    (replies p [.done, .done, .time 10, .executed 10 [7], .executed 10 [], .done, .time 11,
      .executed 11 []] ++ .call p (.raised broker_down none) :: replies p [.done, .done])

end Scenario

theorem lost_row_is_handed_over_again : ∃ c, Reachable Scenario.deployment failures_abort c ∧
    (∃ row ∈ c.world.store.contents.outbox.rows, row.status = .PUBLISHED ∧
      c.world.copies row.aggregate_id = 2 ∧ c.world.losses row.id = 1) ∧
        HandedOverOnce Scenario.deployment failures_abort c := by
  obtain ⟨c, hc, hf⟩ := Scenario.reaches
    (fun pid e a w h => (Scenario.undoes_sound pid e a w h).1)
    (Scenario.create 0 ++ Scenario.lost_batch 1 ++ Scenario.batch 2)
    (fun c => c.world.store.contents.outbox.rows.any fun row => row.status = .PUBLISHED ∧
      c.world.copies row.aggregate_id = 2 ∧ c.world.losses row.id = 1) (by decide +kernel)
  obtain ⟨row, hrow, hcounts⟩ := List.any_eq_true.mp hf
  exact ⟨c, hc, ⟨row, hrow, of_decide_eq_true hcounts⟩, rows_are_handed_over_once hc⟩

end PaymentsProcessor
