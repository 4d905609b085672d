import PaymentsProcessor.Consumer.Handling
import PaymentsProcessor.Messaging.Topology
import PaymentsProcessor.System.Dispatchers

namespace PaymentsProcessor

open Python Storage Concurrency PaymentsConstants

-- The message carries the event of this payment.
def Message.tells (m : Message) (id : UUID) : Prop :=
  PaymentCreatedEvent.decode m.payload = some ⟨id⟩

-- A retry count can be read from the headers, or has been written to them.
def Message.HasCount (m : Message) : Prop :=
  ∃ count : ℤ, 0 ≤ count ∧ get_retry_count (some m.headers) = .ok count

def Message.CarriesCount (m : Message) : Prop :=
  ∃ count : ℤ, 0 ≤ count ∧ m.headers.lookup RETRY_COUNT_HEADER = some (.int count)

-- What the headers of a message have to tell in this queue.
structure Message.Fits (name : String) (m : Message) : Prop where
  new : name = QUEUE_PAYMENTS_NEW → m.HasCount
  retry : ∀ attempt : ℤ, name = retry_queue_name attempt → m.CarriesCount

-- The declared queues.
inductive Deployment.Keeps (d : Deployment) : String → Prop where
  | new : Keeps d QUEUE_PAYMENTS_NEW
  | retry {attempt : ℤ} (hlo : 1 ≤ attempt) (hhi : attempt ≤ d.ttls.length) :
      Keeps d (retry_queue_name attempt)
  | dlq : Keeps d QUEUE_PAYMENTS_DLQ

namespace World

def Queued (d : Deployment) (w : World) (id : UUID) : Prop :=
  ∃ name, d.Keeps name ∧ ∃ m ∈ w.queues name, m.tells id

-- The process has passed its message on.
def Spent (w : World) (p : Pid) : Prop := ∃ m ∈ w.own p, m.returned

def Held (w : World) (id : UUID) : Prop :=
  ∃ p m, w.unacked p = some m ∧ m.tells id ∧ ¬w.Spent p

-- The event is in a queue, or with a consumer that has not passed it on.
def Safe (d : Deployment) (w : World) (id : UUID) : Prop := w.Queued d id ∨ w.Held id

end World

-- No webhook of this payment has been accepted.
def unsent (id : UUID) : Assumption Pid World Effect Answer := fun _ e a _ =>
  ∀ request peer status_code, e = .post request → a = .reply (.response peer status_code) →
    request.content.payload.payment_id = id → 400 ≤ status_code

-- Consumers hold messages that they can count the retries of, and what was handed
-- over for the payment is safe.
structure InCustody (d : Deployment) (id : UUID) (w : World) : Prop where
  queues : ∀ name, ∀ m ∈ w.queues name, m.Fits name
  unacked : ∀ p m, w.unacked p = some m → m.HasCount ∧ ∃ event,
    w.jobs p = some (.delivery event m) ∧ PaymentCreatedEvent.decode m.payload = some event
  safe : 0 < w.copies id → w.Safe d id

def custody (d : Deployment) (id : UUID) : Logic Pid World where
  inv := InCustody d id
  rely _ _ _ := True
  done _ _ := True
  rely_refl _ _ := trivial
  rely_trans _ _ _ _ _ _ := trivial
  done_stable _ _ _ _ _ := trivial

section Messages

variable {m : Message} {names : List String} {queues : String → List Message} {name : String}

theorem mem_enqueue {x : Message} :
    m ∈ enqueue names x queues name ↔ m ∈ queues name ∨ name ∈ names ∧ m = x := by
  unfold enqueue
  by_cases h : name ∈ names
  · simp [h]
  · simp [h]

theorem of_mem_dequeue {name' : String} {index : ℕ} (h : m ∈ dequeue name' index queues name) :
    m ∈ queues name := by
  unfold dequeue at h
  by_cases hn : name = name'
  · subst hn
    rw [Function.update_self] at h
    exact List.mem_of_mem_eraseIdx h
  · rwa [Function.update_of_ne hn] at h

-- Taking a message out leaves the others.
theorem mem_dequeue {name' : String} {index : ℕ} {x : Message}
    (hx : (queues name')[index]? = some x) (h : m ∈ queues name) :
    m ∈ dequeue name' index queues name ∨ m = x := by
  unfold dequeue
  by_cases hn : name = name'
  · subst hn
    rw [Function.update_self, List.mem_eraseIdx_iff_getElem?]
    obtain ⟨i, hi⟩ := List.getElem?_of_mem h
    by_cases he : i = index
    · subst he
      rw [hi] at hx
      exact .inr (Option.some.inj hx)
    · exact .inl ⟨i, he, hi⟩
  · rw [Function.update_of_ne hn]
    exact .inl h

theorem Message.tells_with_x_death {id : UUID} {x_death : HeaderValue} (h : m.tells id) :
    (m.with_x_death x_death).tells id := h

-- The broker's own header comes first, and replaces none but its own.
theorem lookup_with_x_death (x_death : HeaderValue) :
    (m.with_x_death x_death).headers.lookup RETRY_COUNT_HEADER =
      m.headers.lookup RETRY_COUNT_HEADER := by
  have hfilter : ∀ headers : Headers,
      (headers.filter fun h => h.1 ≠ X_DEATH_HEADER).lookup RETRY_COUNT_HEADER =
        headers.lookup RETRY_COUNT_HEADER := by
    intro headers
    induction headers with
    | nil => rfl
    | cons h headers ih =>
        obtain ⟨key, value⟩ := h
        by_cases hk : key = X_DEATH_HEADER
        · subst hk
          rw [List.filter_cons_of_neg (by simp), List.lookup_cons, ih]
          rfl
        · rw [List.filter_cons_of_pos (by simpa using hk), List.lookup_cons, List.lookup_cons, ih]
  show List.lookup _ (_ :: _) = _
  rw [List.lookup_cons, hfilter]
  rfl

theorem Message.CarriesCount.hasCount (h : m.CarriesCount) : m.HasCount := by
  obtain ⟨count, h0, hl⟩ := h
  refine ⟨count, h0, ?_⟩
  simp [get_retry_count, hl, HeaderValue.toInt]

theorem Message.CarriesCount.with_x_death (h : m.CarriesCount) (x_death : HeaderValue) :
    (m.with_x_death x_death).CarriesCount := by
  obtain ⟨count, h0, hl⟩ := h
  exact ⟨count, h0, (lookup_with_x_death x_death).trans hl⟩

theorem fits_new (h : m.HasCount) : m.Fits QUEUE_PAYMENTS_NEW :=
  ⟨fun _ => h, fun _ hn => absurd hn.symm retry_queue_name_ne.1⟩

theorem fits_retry {attempt : ℤ} (h : m.CarriesCount) : m.Fits (retry_queue_name attempt) :=
  ⟨fun hn => absurd hn retry_queue_name_ne.1, fun _ _ => h⟩

theorem fits_dlq : m.Fits QUEUE_PAYMENTS_DLQ :=
  ⟨fun hn => absurd hn (by decide), fun _ hn => absurd hn.symm retry_queue_name_ne.2⟩

end Messages

section Steps

variable {d : Deployment} {id : UUID} {p : Pid} {w w' : World}

theorem World.Queued.mono (h : w.Queued d id)
    (hq : ∀ name, ∀ m ∈ w.queues name, m ∈ w'.queues name) : w'.Queued d id := by
  obtain ⟨name, hk, m, hm, ht⟩ := h
  exact ⟨name, hk, m, hq name m hm, ht⟩

theorem queued_deliver {names : List String} {name : String} {m : Message} (hn : name ∈ names)
    (hk : d.Keeps name) (ht : m.tells id) : (w.deliver names m).Queued d id :=
  ⟨name, hk, m, mem_enqueue.mpr (.inr ⟨hn, rfl⟩), ht⟩

theorem spent_record {r : Publish} {q : Pid} :
    (w.record r).Spent q ↔ w.Spent q ∨ r.pid = q ∧ r.returned = true := by
  by_cases hq : r.pid = q
  · simp [World.Spent, World.own, List.filter_append, hq, or_and_right, exists_or]
  · simp [World.Spent, World.own, List.filter_append, hq]

theorem InCustody.step (h : InCustody d id w)
    (hj : ∀ q j, w.jobs q = some j → w'.jobs q = some j)
    (hq : ∀ name, ∀ m ∈ w'.queues name, m ∈ w.queues name ∨ m.Fits name)
    (hu : ∀ q m, w'.unacked q = some m → w.unacked q = some m ∨ m.HasCount ∧ ∃ event,
      w'.jobs q = some (.delivery event m) ∧ PaymentCreatedEvent.decode m.payload = some event)
    (hs : 0 < w'.copies id → w'.Safe d id) : InCustody d id w' where
  queues name m hm := (hq name m hm).elim (h.queues name m) fun hf => hf
  unacked q m hm := by
    rcases hu q m hm with hm | hm
    · obtain ⟨hc, event, hjob, hd⟩ := h.unacked q m hm
      exact ⟨hc, event, hj q _ hjob, hd⟩
    · exact hm
  safe := hs

-- A step that moves no message and is no publish call.
theorem InCustody.same (h : InCustody d id w)
    (hj : ∀ q j, w.jobs q = some j → w'.jobs q = some j) (hq : w'.queues = w.queues)
    (hu : w'.unacked = w.unacked) (hp : w'.log.publishes = w.log.publishes) :
    InCustody d id w' := by
  refine h.step hj (fun name m hm => .inl (hq ▸ hm)) (fun q m hm => .inl (hu ▸ hm)) fun hc => ?_
  rw [copies_of_same hp] at hc
  refine (h.safe hc).imp (fun hs => hs.mono fun name m hm => by rw [hq]; exact hm) ?_
  rintro ⟨q, m, hm, ht, hn⟩
  refine ⟨q, m, by rw [hu]; exact hm, ht, ?_⟩
  unfold World.Spent at hn ⊢
  rw [own_of_same hp]
  exact hn

-- What a consumer holds is safe with it as long as it keeps it.
theorem held_settle {q : Pid} {m : Message} (hm : w.unacked q = some m) (ht : m.tells id)
    (hn : ¬w.Spent q) (hq : q ≠ p) : (w.settle p).Held id := by
  refine ⟨q, m, ?_, ht, hn⟩
  rw [World.settle_unacked, Function.update_of_ne hq]
  exact hm

theorem unacked_settle {q : Pid} {m : Message} (h : (w.settle p).unacked q = some m) :
    w.unacked q = some m := by
  by_cases hq : q = p
  · simp [hq] at h
  · rwa [World.settle_unacked, Function.update_of_ne hq] at h

-- A message is settled that was passed on, or that is of no concern.
theorem InCustody.settle (h : InCustody d id w)
    (hm : ∀ m, w.unacked p = some m → m.tells id → w.Spent p) : InCustody d id (w.settle p) := by
  refine h.step (fun _ _ hj => hj) (fun _ _ hm => .inl hm) (fun q m hq => .inl (unacked_settle hq))
    fun hc => (h.safe hc).imp_right ?_
  rintro ⟨q, m, hq, ht, hn⟩
  refine held_settle hq ht hn ?_
  rintro rfl
  exact hn (hm m hq ht)

-- A message goes back to a queue.
theorem InCustody.put_back (h : InCustody d id w) {m m' : Message} (hm : w.unacked p = some m)
    (hp : m'.payload = m.payload) {name : String} (hk : d.Keeps name) (hf : m'.Fits name) :
    InCustody d id ((w.settle p).deliver [name] m') := by
  refine h.step (fun _ _ hj => hj) (fun name' x hx => ?_)
    (fun q m hq => .inl (unacked_settle hq)) fun hc => ?_
  · rcases mem_enqueue.mp hx with hx | ⟨hn, rfl⟩
    · exact .inl hx
    · rw [List.mem_singleton] at hn
      exact .inr (hn ▸ hf)
  · rcases h.safe hc with hs | ⟨q, x, hq, ht, hn⟩
    · exact .inl (hs.mono fun _ _ hx => mem_enqueue.mpr (.inl hx))
    · by_cases hqp : q = p
      · subst hqp
        cases hm.symm.trans hq
        refine .inl (queued_deliver (List.mem_singleton_self _) hk ?_)
        unfold Message.tells
        rw [hp]
        exact ht
      · exact .inr (held_settle hq ht hn hqp)

theorem InCustody.requeue (h : InCustody d id w) : InCustody d id (w.requeue p) := by
  unfold World.requeue
  split
  · exact h
  · rename_i m hm
    exact h.put_back hm rfl .new (fits_new (h.unacked p m hm).1)

theorem InCustody.refuse (h : InCustody d id w) (x_death : HeaderValue) :
    InCustody d id (w.refuse d p false x_death) := by
  unfold World.refuse
  rw [if_neg (by decide)]
  split
  · exact h
  · rename_i m hm
    rw [Deployment.topology, dead_letters_of_new]
    exact h.put_back hm (rfl : (m.with_x_death x_death).payload = m.payload) .dlq fits_dlq

theorem InCustody.expire (h : InCustody d id w) {name : String} {index : ℕ} {m : Message}
    (hm : (w.queues name)[index]? = some m) (x_death : HeaderValue)
    (hname : ∃ attempt : ℤ, name = retry_queue_name attempt) :
    InCustody d id ((w.remove name index).deliver [QUEUE_PAYMENTS_NEW] (m.with_x_death x_death)) := by
  have hcount : m.CarriesCount := by
    obtain ⟨attempt, hname⟩ := hname
    exact (h.queues name m (List.mem_of_getElem? hm)).retry attempt hname
  refine h.step (fun _ _ hj => hj) (fun name' x hx => ?_) (fun _ _ hq => .inl hq) fun hc => ?_
  · rcases mem_enqueue.mp hx with hx | ⟨hn, rfl⟩
    · exact .inl (of_mem_dequeue hx)
    · rw [List.mem_singleton] at hn
      exact .inr (hn ▸ fits_new (hcount.with_x_death x_death).hasCount)
  · refine (h.safe hc).imp_left ?_
    rintro ⟨name', hk, x, hx, ht⟩
    rcases mem_dequeue hm hx with hx | rfl
    · exact ⟨name', hk, x, mem_enqueue.mpr (.inl hx), ht⟩
    · exact queued_deliver (List.mem_singleton_self _) .new (Message.tells_with_x_death ht)

-- A message is handed to a process that has done nothing yet.
theorem InCustody.receive (h : InCustody d id w) {index : ℕ} {m : Message}
    {event : PaymentCreatedEvent} (hm : (w.queues QUEUE_PAYMENTS_NEW)[index]? = some m)
    (hd : PaymentCreatedEvent.decode m.payload = some event) (hj : w.jobs p = none)
    (hu : w.unacked p = none) (ho : w.own p = []) :
    InCustody d id (((w.start p (.delivery event m)).remove QUEUE_PAYMENTS_NEW index).receive p
      m) := by
  have hcount := (h.queues _ m (List.mem_of_getElem? hm)).new rfl
  refine h.step (fun q j hq => ?_) (fun _ _ hx => .inl (of_mem_dequeue hx)) (fun q x hq => ?_)
    fun hc => ?_
  · have hne : q ≠ p := by
      rintro rfl
      rw [hj] at hq
      cases hq
    simpa [hne] using hq
  · by_cases hqp : q = p
    · subst hqp
      have hx : m = x := by simpa using hq
      subst hx
      exact .inr ⟨hcount, event, by simp, hd⟩
    · exact .inl (by simpa [hqp] using hq)
  · rcases h.safe hc with ⟨name, hk, x, hx, ht⟩ | ⟨q, x, hq, ht, hn⟩
    · rcases mem_dequeue hm hx with hx | rfl
      · exact .inl ⟨name, hk, x, hx, ht⟩
      · refine .inr ⟨p, x, by simp, ht, ?_⟩
        rintro ⟨r, hr, _⟩
        have hr : r ∈ w.own p := hr
        rw [ho] at hr
        cases hr
    · have hne : q ≠ p := by
        rintro rfl
        rw [hu] at hq
        cases hq
      exact .inr ⟨q, x, by simpa [hne] using hq, ht, hn⟩

-- A message is published to one declared queue. If it is the copy of the one that
-- the process holds, it takes its place.
theorem InCustody.publish (h : InCustody d id w) {exchange routing_key : String}
    {payload : JsonDict} {headers : Headers} {a : Answer} {result : Except Exn Unit}
    (hp : World.perform d p (.publish exchange routing_key payload headers) a w =
      some (result, w')) {name : String}
    (hroute : d.topology.route exchange routing_key = [name]) (hk : d.Keeps name)
    (hf : Message.Fits name ⟨payload, headers⟩)
    (hcopy : ∀ m, w.unacked p = some m → m.tells id → Message.tells ⟨payload, headers⟩ id) :
    InCustody d id w' ∧ (result = .ok () → w'.Spent p) := by
  have hdeliver : ∀ name', ∀ x ∈ (w.deliver [name] ⟨payload, headers⟩).queues name',
      x ∈ w.queues name' ∨ x.Fits name' := by
    intro name' x hx
    rcases mem_enqueue.mp hx with hx | ⟨hn, rfl⟩
    · exact .inl hx
    · rw [List.mem_singleton] at hn
      exact .inr (hn ▸ hf)
  obtain ⟨rfl, rfl⟩ | ⟨x, w₁, rfl, hw₁, rfl⟩ := perform_publish hp
  · rw [hroute]
    refine ⟨h.step (fun _ _ hj => hj) hdeliver (fun _ _ hq => .inl hq) fun hc => ?_,
      fun _ => spent_record.mpr (.inr ⟨rfl, rfl⟩)⟩
    by_cases ht : Message.tells ⟨payload, headers⟩ id
    · exact .inl (queued_deliver (List.mem_singleton_self _) hk ht)
    · rw [copies_record, if_neg] at hc
      · rcases h.safe hc with hs | ⟨q, m, hq, hm, hn⟩
        · exact .inl (hs.mono fun _ _ hx => mem_enqueue.mpr (.inl hx))
        · refine .inr ⟨q, m, hq, hm, fun hspent => ?_⟩
          rcases spent_record.mp hspent with hspent | ⟨rfl, _⟩
          · exact hn hspent
          · exact ht (hcopy m hq hm)
      · intro hh
        exact ht (of_decide_eq_true (Bool.and_eq_true_iff.mp hh).1).2
  · have hqueues : (∀ name', ∀ x ∈ w₁.queues name', x ∈ w.queues name' ∨ x.Fits name') ∧
        ∀ name', ∀ x ∈ w.queues name', x ∈ w₁.queues name' := by
      rcases hw₁ with rfl | rfl
      · exact ⟨fun _ _ hx => .inl hx, fun _ _ hx => hx⟩
      · rw [hroute]
        exact ⟨hdeliver, fun _ _ hx => mem_enqueue.mpr (.inl hx)⟩
    have hsame : w₁.jobs = w.jobs ∧ w₁.unacked = w.unacked ∧
        w₁.log.publishes = w.log.publishes := by
      rcases hw₁ with rfl | rfl <;> exact ⟨rfl, rfl, rfl⟩
    obtain ⟨hjobs, hunacked, hpub⟩ := hsame
    refine ⟨h.step (fun _ _ hj => hjobs ▸ hj) hqueues.1 (fun _ _ hq => .inl (hunacked ▸ hq))
      fun hc => ?_, nofun⟩
    rw [copies_record, if_neg (by simp [Publish.handed])] at hc
    have hcopies : (w₁.fail p).copies id = w.copies id := copies_of_same hpub id
    have hc : 0 < w.copies id := hcopies ▸ hc
    refine (h.safe hc).imp (fun hs => hs.mono hqueues.2) ?_
    rintro ⟨q, m, hq, ht, hn⟩
    refine ⟨q, m, hunacked ▸ hq, ht, fun hspent => ?_⟩
    rcases spent_record.mp hspent with hspent | ⟨_, hret⟩
    · have hown : (w₁.fail p).own q = w.own q := own_of_same hpub q
      unfold World.Spent at hspent
      rw [hown] at hspent
      exact hn hspent
    · cases hret

end Steps

end PaymentsProcessor
