import PaymentsProcessor.System.Custody
import PaymentsProcessor.System.Telling

namespace PaymentsProcessor

open Python Storage Concurrency PaymentsConstants

-- The message names a committed payment, as the program writes it.
def World.Names (w : World) (m : Message) : Prop :=
  ∃ payment ∈ w.store.contents.payments.rows, m.payload = event_payload payment.id

structure Genuine (w : World) : Prop where
  queues : ∀ name, ∀ m ∈ w.queues name, w.Names m
  unacked : ∀ p m, w.unacked p = some m → w.Names m

-- The exception that an answer brings from the surroundings.
def Answer.exn : Answer → Option Exn
  | .raised x _ | .reply (.broken x) | .reply (.dropped _ x) => some x
  | _ => none

-- The surroundings do not raise the program's own exception.
def foreign : Assumption Pid World Effect Answer := fun _ _ a _ =>
  ∀ x, a.exn = some x → x.isinstance .PaymentNotFoundError = false

-- `o` is whether the surroundings are foreign to the program's exceptions.
structure Hears (o : Prop) (s : Told) (w : World) : Prop where
  known : ∀ id, s.id = some id → ∃ payment ∈ w.store.contents.payments.rows, payment.id = id
  found : o → s.missing = false

section Worlds

variable {d : Deployment} {A : Assumption Pid World Effect Answer} {p : Pid} {w w' : World}
variable {max_retries : ℤ}

theorem World.Names.evolves {m : Message} (h : w.Names m)
    (he : w.store.contents.Evolves w'.store.contents) : w'.Names m := by
  obtain ⟨payment, hp, hm⟩ := h
  obtain ⟨payment', hp', hsame⟩ := he.payments payment hp
  exact ⟨payment', hp', by rw [hm, as_created_id hsame]⟩

theorem Hears.evolves {o : Prop} {s : Told} (h : Hears o s w)
    (he : w.store.contents.Evolves w'.store.contents) : Hears o s w' := by
  refine ⟨fun id hid => ?_, h.found⟩
  obtain ⟨payment, hp, rfl⟩ := h.known id hid
  obtain ⟨payment', hp', hsame⟩ := he.payments payment hp
  exact ⟨payment', hp', as_created_id hsame⟩

theorem Genuine.step (h : Genuine w) (he : w.store.contents.Evolves w'.store.contents)
    (hq : ∀ name, ∀ m ∈ w'.queues name, m ∈ w.queues name ∨ w'.Names m)
    (hu : ∀ q m, w'.unacked q = some m → w.unacked q = some m ∨ w'.Names m) : Genuine w' where
  queues name m hm := (hq name m hm).elim (fun hm => (h.queues name m hm).evolves he) id
  unacked q m hm := (hu q m hm).elim (fun hm => (h.unacked q m hm).evolves he) id

theorem Genuine.same (h : Genuine w) (he : w.store.contents.Evolves w'.store.contents)
    (hq : w'.queues = w.queues) (hu : w'.unacked = w.unacked) : Genuine w' :=
  h.step he (fun _ _ hm => .inl (hq ▸ hm)) fun _ _ hm => .inl (hu ▸ hm)

theorem genuine_deliver {names : List String} {m : Message} (h : Genuine w) (hm : w.Names m) :
    Genuine (w.deliver names m) :=
  h.step (.refl _) (fun _ _ hx => (mem_enqueue.mp hx).imp_right fun ⟨_, he⟩ => he ▸ hm)
    fun _ _ hx => .inl hx

theorem genuine_settle (h : Genuine w) : Genuine (w.settle p) := by
  refine h.step (.refl _) (fun _ _ hx => .inl hx) fun q m hm => .inl ?_
  by_cases hq : q = p
  · rw [hq, World.settle_unacked, Function.update_self] at hm
    cases hm
  · rwa [World.settle_unacked, Function.update_of_ne hq] at hm

theorem genuine_requeue (h : Genuine w) : Genuine (w.requeue p) := by
  unfold World.requeue
  split
  · exact h
  · exact genuine_deliver (genuine_settle h) (h.unacked p _ ‹_›)

theorem genuine_refuse (h : Genuine w) (requeue : Bool) (x_death : HeaderValue) :
    Genuine (w.refuse d p requeue x_death) := by
  unfold World.refuse
  split
  · exact genuine_requeue h
  · split
    · exact h
    · rename_i m hm
      exact genuine_deliver (genuine_settle h) (h.unacked p m hm)

-- A payment that is committed is there for every transaction.
theorem visible_payment {s : Store} {id : UUID}
    (h : ∃ payment ∈ s.contents.payments.rows, payment.id = id) :
    (s.visible p).payments.find? id ≠ none := by
  have hall : ∀ (ws : List Write) (c : Tables),
      (∃ payment ∈ c.payments.rows, payment.id = id) →
        ∃ payment ∈ (LockStore.applyAll Write.writing ws c).payments.rows, payment.id = id := by
    intro ws
    induction ws with
    | nil => exact fun _ hc => hc
    | cons wr ws ih =>
        rintro c ⟨payment, hp, hid⟩
        refine ih _ ?_
        cases wr with
        | insert_payment new => exact ⟨payment, Table.mem_insert_of_mem hp, hid⟩
        | update_payment id' status processed_at time =>
            refine ⟨_, (Table.mem_modify (Payment.set_outcome_id status processed_at time)).mpr
              ⟨payment, hp, rfl⟩, ?_⟩
            split
            · exact hid
            · exact hid
        | insert_outbox | publish_outbox | bump_outbox => exact ⟨payment, hp, hid⟩
  intro hnone
  obtain ⟨payment, hp, hid⟩ := hall (s.writes p) s.contents h
  exact Table.find?_eq_none_iff.mp hnone payment hp hid

-- What the server raises of its own is not the program's exception.
theorem verdict_fails {s : Store} {time : DateTime} {ids : List UUID} {stmt : Statement} {x : Exn}
    (h : stmt.verdict s p time ids = .fails x) : x.isinstance .PaymentNotFoundError = false := by
  cases stmt with
  | get_by_id | get_by_idempotency_key => cases h
  | _ =>
      simp only [Statement.verdict, insert_payment_verdict, insert_outbox_verdict,
        update_payment_verdict, scan_verdict, lock_verdict, mark_verdict, bump_verdict] at h
      repeat' split at h
      all_goals cases h
      all_goals rfl

theorem perform_raises {e : Effect} {a : Answer} {x : Exn}
    (h : World.perform d p e a w = some (.error x, w')) :
    a.exn = some x ∨ x.isinstance .PaymentNotFoundError = false := by
  cases a with
  | raised y carried_out =>
      simp only [World.perform] at h
      split at h
      · cases carried_out with
        | none =>
            cases h
            exact .inl rfl
        | some r =>
            obtain ⟨_, _, he⟩ := Option.map_eq_some_iff.mp h
            cases he
            exact .inl rfl
      · cases h
  | reply r =>
      obtain ⟨⟨result, w₁⟩, hc, he⟩ := Option.map_eq_some_iff.mp h
      cases he
      cases e with
      | execute stmt =>
          cases r with
          | executed time ids =>
              simp only [World.carry_out, World.execute] at hc
              repeat' split at hc
              all_goals cases hc
              · exact .inr rfl
              · exact .inr rfl
              · exact .inr (verdict_fails ‹_›)
          | broken x =>
              cases hc
              exact .inl rfl
          | _ => cases hc
      | post request =>
          cases r <;> cases hc
          exact .inl rfl
      | ack | nack | reject =>
          cases r with
          | done | dead =>
              first
                | cases hc
                | obtain ⟨_, _, he⟩ := Option.map_eq_some_iff.mp hc
                  cases he
          | _ => cases hc
      | _ => cases r <;> cases hc

-- What is known to be committed is not denied.
theorem found_of_perform {o : Prop} {s : Told} {e : Effect} {a : Answer}
    {result : Except Exn e.Result} (hs : Hears o s w) (ha : foreign p e a w)
    (hmay : s.may max_retries e) (h : World.perform d p e a w = some (result, w')) :
    e.denies result = false := by
  cases result with
  | error x =>
      rw [denies_error]
      exact (perform_raises h).elim (ha x) id
  | ok found =>
      cases e with
      | execute stmt =>
          obtain ⟨time, ids, res, locks, writes, _, hv, he, _⟩ | ⟨_, _, _, _, _, _, he, _⟩ |
            ⟨_, _, he, _⟩ := perform_execute h
          · cases he
            cases stmt with
            | get_by_id id =>
                obtain ⟨payment, hfind⟩ := Option.ne_none_iff_exists'.mp
                  (visible_payment (p := p) (hs.known id hmay))
                simp only [Statement.verdict, hfind] at hv
                cases hv
                rfl
            | update_processing_outcome id status processed_at =>
                obtain ⟨payment, hfind⟩ := Option.ne_none_iff_exists'.mp
                  (visible_payment (p := p) (hs.known id hmay))
                simp only [Statement.verdict, update_payment_verdict, hfind] at hv
                split at hv <;> cases hv
                rfl
            | _ => rfl
          · cases he
          · cases he
      | _ => rfl

theorem publish_recorded {exchange routing_key : String} {payload : JsonDict} {headers : Headers}
    {a : Answer} {result : Except Exn Unit}
    (h : World.perform d p (.publish exchange routing_key payload headers) a w =
      some (result, w')) :
    ∃ m ∈ w'.log.publishes, m.exchange = exchange ∧ m.message = ⟨payload, headers⟩ := by
  obtain ⟨_, rfl⟩ | ⟨_, w₁, _, _, rfl⟩ := perform_publish h
  all_goals exact ⟨_, List.mem_append_right _ (List.mem_singleton_self _), rfl, rfl⟩

-- What a call that is allowed hands to the broker names a committed payment.
theorem published_names {s : Told} (hrec : Recorded d A w') (hn : Handover A w')
    (hk : ∀ id, s.id = some id →
      ∃ payment ∈ w'.store.contents.payments.rows, payment.id = id)
    {exchange routing_key : String} {payload : JsonDict} {headers : Headers}
    (hmay : s.may max_retries (.publish exchange routing_key payload headers)) {m : Publish}
    (hm : m ∈ w'.log.publishes) (hexchange : m.exchange = exchange)
    (hmessage : m.message = ⟨payload, headers⟩) : w'.Names ⟨payload, headers⟩ := by
  cases hd : s.duty with
  | some duty =>
      obtain ⟨_, hpayload, _⟩ := Told.may_publish hd hmay
      obtain ⟨payment, hp, hid⟩ := hk duty.event.payment_id (by simp [Told.id, hd])
      exact ⟨payment, hp, hid ▸ hpayload⟩
  | none =>
      simp only [Told.may, hd] at hmay
      obtain ⟨row, hrow, _, he⟩ := hn.announced m hm (hexchange.trans hmay)
      obtain ⟨payment, hp, hann⟩ := hrec.consistent.announces row hrow
      rw [hmessage] at he
      exact ⟨payment, hp, (Message.mk.inj he).1.trans hann.payload⟩

theorem Genuine.perform (h : Genuine w) (hrec : Recorded d A w') (hn : Handover A w')
    (he : w.store.contents.Evolves w'.store.contents) {o : Prop} {s : Told} (hs : Hears o s w)
    {e : Effect} {a : Answer} {result : Except Exn e.Result} (hmay : s.may max_retries e)
    (hp : World.perform d p e a w = some (result, w')) : Genuine w' := by
  have hscope := scope_perform hp
  cases e with
  | publish exchange routing_key payload headers =>
      have hnames : w'.Names ⟨payload, headers⟩ := by
        obtain ⟨m, hm, hexchange, hmessage⟩ := publish_recorded hp
        exact published_names hrec hn (hs.evolves he).known hmay hm hexchange hmessage
      obtain ⟨_, rfl⟩ | ⟨_, w₁, _, rfl | rfl, rfl⟩ := perform_publish hp
      · exact (genuine_deliver h hnames).same (.refl _) rfl rfl
      · exact h.same (.refl _) rfl rfl
      · exact (genuine_deliver h hnames).same (.refl _) rfl rfl
  | ack =>
      obtain ⟨_, rfl⟩ | ⟨_, _, rfl | rfl⟩ := perform_ack hp
      · exact genuine_settle h
      · exact h.same (.refl _) rfl rfl
      · exact (genuine_settle h).same (.refl _) rfl rfl
  | nack requeue =>
      obtain rfl | ⟨_, rfl | rfl⟩ := perform_refuse (.inl rfl) hp
      · exact h.same (.refl _) rfl rfl
      · exact genuine_refuse h requeue _
      · exact (genuine_refuse h requeue _).same (.refl _) rfl rfl
  | reject requeue =>
      obtain rfl | ⟨_, rfl | rfl⟩ := perform_refuse (.inr rfl) hp
      · exact h.same (.refl _) rfl rfl
      · exact genuine_refuse h requeue _
      · exact (genuine_refuse h requeue _).same (.refl _) rfl rfl
  | _ =>
      exact h.same he (hscope.queues (by simp [Effect.kind]) (by simp [Effect.kind]))
        (hscope.unacked (by simp [Effect.kind]))

end Worlds

section Runs

variable {d : Deployment} {A : Assumption Pid World Effect Answer} {c : SystemConfig}

theorem told_interprets {o : Prop} (hA : o → ∀ p e a w, A p e a w → foreign p e a w) :
    d.telling.Interprets (machine d) A ((frameLogic.inf (records d A)).inf (handover A))
      Genuine (fun _ _ => True) (fun _ => Hears o) where
  launch p l w prog w' hi hI hl := by
    obtain ⟨hs, _, _⟩ := launch_same hl
    have he := evolves_of_same (congrArg LockStore.contents hs)
    obtain ⟨_, hcases⟩ := launch_cases hl
    obtain ⟨request, rfl, rfl⟩ | ⟨config, rfl, rfl⟩ |
      ⟨index, msg, event, hm, hd, rfl, rfl⟩ := hcases
    · exact ⟨hI.same he rfl rfl, .idle, ⟨nofun, fun _ => rfl⟩,
        told_others rfl ((create_payment_only request).mono fun _ => .inl)⟩
    · exact ⟨hI.same he rfl rfl, .idle, ⟨nofun, fun _ => rfl⟩,
        told_others rfl (run_iteration_only.mono fun _ => .inr)⟩
    · have hmsg : w.Names msg := hI.queues _ msg (List.mem_of_getElem? hm)
      refine ⟨hI.step he (fun name m hm => .inl (of_mem_dequeue hm)) fun q m hm => ?_,
        .handed event msg, ⟨fun id hid => ?_, fun _ => rfl⟩, handed_follows d event msg⟩
      · by_cases hq : q = p
        · rw [hq, World.receive_unacked, Function.update_self, Option.some.injEq] at hm
          exact .inr (hm ▸ hmsg)
        · rw [World.receive_unacked, Function.update_of_ne hq] at hm
          exact .inl hm
      · obtain ⟨payment, hp, hpayload⟩ := hmsg
        rw [hpayload, decode_event_payload] at hd
        cases hd
        cases hid
        exact ⟨payment, hp, rfl⟩
  call p e a w r w' s hi hi' hg hI ha hp hs hmay := by
    have he : w.store.contents.Evolves w'.store.contents :=
      (hg (p + 1) (Nat.succ_ne_self p)).1.2.1
    refine ⟨hI.perform hi'.1.2 hi'.2 he hs hmay hp, ?_⟩
    have hs' := hs.evolves he
    refine ⟨fun id hid => hs'.known id ((s.next_id e r).symm.trans hid), fun ho => ?_⟩
    have hden := found_of_perform hs (hA ho p e a w ha) hmay hp
    simp [Deployment.telling, Told.discipline, Told.next, hs.found ho, hden]
  crash p w s hi hI hs := by
    obtain ⟨hstore, _, _, _⟩ := @crash_same p w
    have hsame : (w.crash p).store.contents = w.store.contents := by
      rw [hstore]
      rfl
    refine ⟨?_, s, hs.evolves (evolves_of_same hsame), trivial⟩
    have hback : Genuine (w.rollback p) := hI.same (.refl _) rfl rfl
    exact (genuine_requeue hback).same (.refl _) rfl rfl
  tick t w w' hi hI ht := by
    obtain ⟨name, index, x_death, _, msg, _, _, hm, rfl⟩ | ⟨pid, rfl⟩ := tick_cases ht
    · have hmsg : w.Names msg := hI.queues _ msg (List.mem_of_getElem? hm)
      have hrest : Genuine (w.remove name index) :=
        hI.step (.refl _) (fun _ _ hm => .inl (of_mem_dequeue hm)) fun _ _ hm => .inl hm
      exact genuine_deliver hrest hmsg
    · exact genuine_requeue hI
  rely p w w' s hr hs := hs.evolves hr.1.2.1

theorem genuine_init : Genuine World.init where
  queues _ _ hm := by cases hm
  unacked _ _ hm := by cases hm

theorem reachable_told {o : Prop} (hA : o → ∀ p e a w, A p e a w → foreign p e a w)
    (h : Reachable d A c) : Genuine c.world ∧
      c.Disciplined d.telling (fun _ _ => True) (fun _ => Hears o) :=
  (handover_sound d A).disciplined (told_interprets hA)
    genuine_init (fun _ => rfl) h

end Runs

end PaymentsProcessor
