import PaymentsProcessor.Concurrency.Logic
import PaymentsProcessor.System.Steps

namespace PaymentsProcessor

open Python Storage Concurrency PaymentsConstants

structure Log.Extends (l l' : Log) : Prop where
  responses : l.responses ⊆ l'.responses
  publishes : l.publishes ⊆ l'.publishes
  lookups : l.lookups ⊆ l'.lookups
  posts : l.posts ⊆ l'.posts
  commits : l.commits ⊆ l'.commits
  failures : l.failures ⊆ l'.failures

theorem Log.Extends.refl (l : Log) : l.Extends l := by
  constructor <;> exact List.Subset.refl _

theorem Log.Extends.trans {l l' l'' : Log} (h : l.Extends l') (h' : l'.Extends l'') :
    l.Extends l'' where
  responses := List.Subset.trans h.responses h'.responses
  publishes := List.Subset.trans h.publishes h'.publishes
  lookups := List.Subset.trans h.lookups h'.lookups
  posts := List.Subset.trans h.posts h'.posts
  commits := List.Subset.trans h.commits h'.commits
  failures := List.Subset.trans h.failures h'.failures

-- What a process still knows after steps that it did not take itself.
structure Frame (pid : Pid) (w w' : World) : Prop where
  started : ∀ q j, w.jobs q = some j → w'.jobs q = some j
  job : w'.jobs pid = w.jobs pid
  writes : w'.store.writes pid = w.store.writes pid
  aborted : w'.store.aborted pid = w.store.aborted pid
  fetched : w'.fetched pid = w.fetched pid
  owner : ∀ k, w'.store.owner k = some pid ↔ w.store.owner k = some pid
  payment : ∀ id, w.store.owner (.payment id) = some pid →
    w'.store.contents.payments.find? id = w.store.contents.payments.find? id
  key : ∀ key, w.store.owner (.idempotency_key key) = some pid →
    w'.store.contents.has_key key = w.store.contents.has_key key
  outbox : ∀ id, w.store.owner (.outbox id) = some pid →
    w'.store.contents.outbox.find? id = w.store.contents.outbox.find? id
  unacked : w'.unacked pid = w.unacked pid ∨ w'.unacked pid = none
  lookups : ∀ infos, (pid, infos) ∈ w'.log.lookups ↔ (pid, infos) ∈ w.log.lookups
  log : w.log.Extends w'.log

namespace Frame

variable {pid p : Pid} {w w' w'' : World}

theorem refl (pid : Pid) (w : World) : Frame pid w w where
  started _ _ h := h
  job := rfl
  writes := rfl
  aborted := rfl
  fetched := rfl
  owner _ := Iff.rfl
  payment _ _ := rfl
  key _ _ := rfl
  outbox _ _ := rfl
  unacked := .inl rfl
  lookups _ := Iff.rfl
  log := .refl _

theorem trans (h : Frame pid w w') (h' : Frame pid w' w'') : Frame pid w w'' where
  started q j hj := h'.started q j (h.started q j hj)
  job := h'.job.trans h.job
  writes := h'.writes.trans h.writes
  aborted := h'.aborted.trans h.aborted
  fetched := h'.fetched.trans h.fetched
  owner k := (h'.owner k).trans (h.owner k)
  payment id ho := (h'.payment id ((h.owner _).mpr ho)).trans (h.payment id ho)
  key k ho := (h'.key k ((h.owner _).mpr ho)).trans (h.key k ho)
  outbox id ho := (h'.outbox id ((h.owner _).mpr ho)).trans (h.outbox id ho)
  unacked := by
    rcases h'.unacked with h₂ | h₂
    · rw [h₂]; exact h.unacked
    · exact .inr h₂
  lookups infos := (h'.lookups infos).trans (h.lookups infos)
  log := h.log.trans h'.log

end Frame

-- The store is well locked, a batch holds the rows it fetched, and a process
-- that has not been started has nothing.
structure Tidy (w : World) : Prop where
  locked : LockStore.WellLocked Write.writing w.store
  fetched : ∀ pid, ∀ id ∈ w.fetched pid, w.store.owner (.outbox id) = some pid
  fresh_writes : ∀ pid, w.jobs pid = none → w.store.writes pid = []
  fresh_unacked : ∀ pid, w.jobs pid = none → w.unacked pid = none
  fresh_log : ∀ pid, w.jobs pid = none → ∀ infos, (pid, infos) ∉ w.log.lookups

section Primitives

variable {pid p : Pid} {w : World}

theorem frame_fail (p : Pid) : Frame pid w (w.fail p) where
  __ := Frame.refl pid w
  log := { Log.Extends.refl w.log with failures := by simp }

theorem frame_record (r : Publish) : Frame pid w (w.record r) where
  __ := Frame.refl pid w
  log := { Log.Extends.refl w.log with publishes := by simp }

theorem frame_post (p : Pid) (request : HttpRequest) (peer : Option IPAddress)
    (status_code : Option ℕ) : Frame pid w (w.post p request peer status_code) where
  __ := Frame.refl pid w
  log := { Log.Extends.refl w.log with posts := by simp }

theorem frame_respond (p : Pid) (response : Response) : Frame pid w (w.respond p response) where
  __ := Frame.refl pid w
  log := { Log.Extends.refl w.log with responses := by simp }

theorem frame_deliver (names : List String) (m : Message) : Frame pid w (w.deliver names m) where
  __ := Frame.refl pid w

theorem frame_remove (name : String) (index : ℕ) : Frame pid w (w.remove name index) where
  __ := Frame.refl pid w

theorem frame_settle (p : Pid) : Frame pid w (w.settle p) where
  __ := Frame.refl pid w
  unacked := by
    by_cases h : pid = p
    · simp [h]
    · simp [h]

theorem frame_requeue (p : Pid) : Frame pid w (w.requeue p) := by
  unfold World.requeue
  split
  · exact .refl pid w
  · exact (frame_settle p).trans (frame_deliver _ _)

variable (hne : pid ≠ p)
include hne

theorem frame_lookup (infos : List AddrInfo) : Frame pid w (w.lookup p infos) where
  __ := Frame.refl pid w
  lookups := by simp [hne]
  log := { Log.Extends.refl w.log with lookups := by simp }

theorem frame_receive (msg : Message) : Frame pid w (w.receive p msg) where
  __ := Frame.refl pid w
  unacked := by simp [hne]

theorem frame_fetch (ids : List UUID) : Frame pid w (w.fetch p ids) where
  __ := Frame.refl pid w
  fetched := by simp [hne]

theorem frame_abort : Frame pid w (w.abort p) where
  __ := Frame.refl pid w
  aborted := LockStore.abort_aborted_other _ hne

theorem frame_take {locks : List Resource} {writes : List Write}
    (hfree : ∀ k ∈ locks, w.store.isFree p k) : Frame pid w (w.take p locks writes) where
  __ := Frame.refl pid w
  writes := LockStore.take_writes_other _ _ _ hne
  owner k := LockStore.take_owner_other _ _ _ k hne hfree

theorem frame_rollback : Frame pid w (w.rollback p) where
  __ := Frame.refl pid w
  writes := LockStore.rollback_writes_other _ hne
  aborted := LockStore.rollback_aborted_other _ hne
  fetched := by simp [hne]
  owner k := LockStore.rollback_owner_other _ k hne
  log := { Log.Extends.refl w.log with }

theorem frame_commit (hs : LockStore.WellLocked Write.writing w.store) :
    Frame pid w (w.commit p) := by
  have hfree : ∀ k, w.store.owner k = some pid → w.store.owner k ≠ some p := by
    intro k hk hp
    rw [hk] at hp
    exact hne (Option.some.inj hp)
  unfold World.commit
  split
  · exact frame_rollback hne
  · exact {
      Frame.refl pid w with
      writes := by simpa using LockStore.rollback_writes_other _ hne
      aborted := by simpa using LockStore.rollback_aborted_other _ hne
      fetched := by simp [hne]
      owner := fun k => by simpa using LockStore.rollback_owner_other _ k hne
      payment := fun id ho => LockStore.commit_frame (payment_frames id) hs p (hfree _ ho)
      key := fun key ho => LockStore.commit_frame (key_frames key) hs p (hfree _ ho)
      outbox := fun id ho => LockStore.commit_frame (outbox_frames id) hs p (hfree _ ho)
      log := { Log.Extends.refl w.log with commits := by simp } }

theorem frame_start (job : Job) (hjob : w.jobs p = none) : Frame pid w (w.start p job) where
  __ := Frame.refl pid w
  started q j hq := by
    by_cases h : q = p
    · rw [h, hjob] at hq
      cases hq
    · simpa [h] using hq
  job := by simp [hne]

end Primitives

-- A step of `p` that it may take: others can frame it, and it keeps the world tidy.
structure Owns (p : Pid) (w w' : World) : Prop where
  tidy : Tidy w'
  frame : ∀ pid, pid ≠ p → Frame pid w w'
  jobs : w'.jobs = w.jobs

theorem Owns.refl {p : Pid} {w : World} (h : Tidy w) : Owns p w w := ⟨h, fun _ _ => .refl _ _, rfl⟩

theorem Owns.trans {p : Pid} {w w' w'' : World} (h : Owns p w w') (h' : Owns p w' w'') :
    Owns p w w'' :=
  ⟨h'.tidy, fun pid hne => (h.frame pid hne).trans (h'.frame pid hne), h'.jobs.trans h.jobs⟩

section Owned

variable {p : Pid} {w : World} (h : Tidy w)
include h

theorem owns_fail : Owns p w (w.fail p) := ⟨{ h with }, fun _ _ => frame_fail p, rfl⟩

theorem owns_record (r : Publish) : Owns p w (w.record r) :=
  ⟨{ h with }, fun _ _ => frame_record r, rfl⟩

theorem owns_post (request : HttpRequest) (peer : Option IPAddress) (status_code : Option ℕ) :
    Owns p w (w.post p request peer status_code) :=
  ⟨{ h with }, fun _ _ => frame_post p request peer status_code, rfl⟩

theorem owns_respond (response : Response) : Owns p w (w.respond p response) :=
  ⟨{ h with }, fun _ _ => frame_respond p response, rfl⟩

theorem owns_deliver (names : List String) (m : Message) : Owns p w (w.deliver names m) :=
  ⟨{ h with }, fun _ _ => frame_deliver names m, rfl⟩

theorem tidy_settle (p : Pid) : Tidy (w.settle p) where
  __ := h
  fresh_unacked pid hj := by
    by_cases hp : pid = p
    · simp [hp]
    · simpa [hp] using h.fresh_unacked pid hj

theorem tidy_requeue (p : Pid) : Tidy (w.requeue p) := by
  unfold World.requeue
  split
  · exact h
  · exact { tidy_settle h p with }

theorem owns_settle : Owns p w (w.settle p) := ⟨tidy_settle h p, fun _ _ => frame_settle p, rfl⟩

theorem owns_requeue : Owns p w (w.requeue p) := by
  refine ⟨tidy_requeue h p, fun _ _ => frame_requeue p, ?_⟩
  unfold World.requeue
  split <;> rfl

theorem owns_refuse (d : Deployment) (requeue : Bool) (x_death : HeaderValue) :
    Owns p w (w.refuse d p requeue x_death) := by
  unfold World.refuse
  split
  · exact owns_requeue h
  · split
    · exact .refl h
    · exact (owns_settle h).trans (owns_deliver (tidy_settle h p) _ _)

theorem owns_abort : Owns p w (w.abort p) :=
  ⟨{ h with }, fun _ hne => frame_abort hne, rfl⟩

theorem owns_rollback : Owns p w (w.rollback p) := by
  refine ⟨{ h with locked := h.locked.rollback, fetched := ?_, fresh_writes := ?_ },
    fun _ hne => frame_rollback hne, rfl⟩
  · intro pid id hid
    by_cases hp : pid = p
    · simp [hp] at hid
    · rw [World.rollback_fetched, Function.update_of_ne hp] at hid
      exact (LockStore.rollback_owner_other _ _ hp).mpr (h.fetched pid id hid)
  · intro pid hj
    by_cases hp : pid = p
    · simp [hp]
    · simpa [LockStore.rollback_writes_other _ hp] using h.fresh_writes pid hj

theorem owns_commit : Owns p w (w.commit p) := by
  refine ⟨?_, fun _ hne => frame_commit hne h.locked, by unfold World.commit; split <;> rfl⟩
  have hr := (owns_rollback (p := p) h).tidy
  unfold World.commit
  split
  · exact hr
  · exact {
      hr with
      locked := h.locked.commit
      fetched := by simpa using hr.fetched
      fresh_writes := by simpa using hr.fresh_writes }

variable (hj : w.jobs p ≠ none)
include hj

theorem owns_lookup (infos : List AddrInfo) : Owns p w (w.lookup p infos) := by
  refine ⟨{ h with fresh_log := ?_ }, fun _ hne => frame_lookup hne infos, rfl⟩
  intro pid hpid infos'
  have hne : pid ≠ p := fun he => hj (he ▸ hpid)
  simpa [hne] using h.fresh_log pid hpid infos'

theorem owns_fetch {ids : List UUID} (hids : ∀ id ∈ ids, w.store.owner (.outbox id) = some p) :
    Owns p w (w.fetch p ids) := by
  refine ⟨{ h with fetched := ?_ }, fun _ hne => frame_fetch hne ids, rfl⟩
  intro pid id hid
  by_cases hp : pid = p
  · subst hp
    rw [World.fetch_fetched, Function.update_self, List.mem_append] at hid
    exact hid.elim (h.fetched _ id) (hids id)
  · rw [World.fetch_fetched, Function.update_of_ne hp] at hid
    exact h.fetched pid id hid

theorem owns_take {locks : List Resource} {writes : List Write}
    (hc : Covers w.store p locks writes) : Owns p w (w.take p locks writes) := by
  refine ⟨{ h with
    locked := h.locked.take hc.free hc.touched, fetched := ?_, fresh_writes := ?_ },
    fun _ hne => frame_take hne hc.free, rfl⟩
  · intro pid id hid
    have ho := h.fetched pid id hid
    by_cases hp : pid = p
    · subst hp
      rw [World.take_store, LockStore.take_owner]
      split <;> simp [ho]
    · exact (LockStore.take_owner_other _ _ _ _ hp hc.free).mpr ho
  · intro pid hpid
    have hne : pid ≠ p := fun he => hj (he ▸ hpid)
    simpa [LockStore.take_writes_other _ _ _ hne] using h.fresh_writes pid hpid

end Owned

section Steps

variable {d : Deployment} {p : Pid} {w w' : World}

theorem owns_attempted {stmt : Statement} (h : Tidy w) (hj : w.jobs p ≠ none)
    (ha : Attempted p stmt w w') : Owns p w w' := by
  induction ha with
  | untouched => exact .refl h
  | aborted _ ih => exact ih.trans (owns_abort ih.tidy)
  | failed _ ih => exact ih.trans (owns_fail ih.tidy)
  | carried_out _ hv => exact owns_take h hj (verdict_covers hv)

theorem owns_execute {stmt : Statement} {a : Answer} {result : Except Exn stmt.Result}
    (h : Tidy w) (hj : w.jobs p ≠ none)
    (he : World.perform d p (.execute stmt) a w = some (result, w')) : Owns p w w' := by
  obtain ⟨time, ids, res, locks, writes, _, hv, rfl, rfl⟩ | ⟨_, _, error, _, _, _, rfl, rfl⟩ |
    ⟨x, w₁, rfl, ha, rfl⟩ := perform_execute he
  · have ht := owns_take h hj (verdict_covers hv)
    refine ht.trans (owns_fetch ht.tidy hj ?_)
    intro id hid
    cases stmt with
    | lock_pending rowId now =>
        obtain ⟨_, ⟨rfl, _⟩ | ⟨row, hrow, rfl, _, _, rfl⟩⟩ := lock_succeeds hv
        · simp [World.fetches] at hid
        · simp only [World.fetches, List.mem_singleton] at hid
          subst hid
          simp [LockStore.take_owner, Table.key_of_find? hrow]
    | _ => simp [World.fetches] at hid
  · exact owns_abort h
  · have ho := owns_attempted h hj ha
    exact ho.trans (owns_fail ho.tidy)

-- Whatever a process calls, it disturbs nothing that belongs to another.
theorem owns_perform {e : Effect} {a : Answer} {result : Except Exn e.Result} (h : Tidy w)
    (hj : w.jobs p ≠ none) (he : World.perform d p e a w = some (result, w')) : Owns p w w' := by
  have failed : ∀ {w₁}, Owns p w w₁ → Owns p w (w₁.fail p) :=
    fun ho => ho.trans (owns_fail ho.tidy)
  cases e with
  | container_get | flush | sleep | now | uuid7 | uniform | random =>
      obtain ⟨_, rfl⟩ | ⟨_, rfl⟩ := perform_idle rfl he
      · exact .refl h
      · exact owns_fail h
  | execute stmt => exact owns_execute h hj he
  | commit =>
      obtain ⟨_, rfl⟩ | ⟨x, _, rfl | rfl⟩ := perform_commit he
      · exact owns_commit h
      · exact owns_fail h
      · exact failed (owns_commit h)
  | close =>
      obtain ⟨_, rfl⟩ | ⟨x, _, rfl | rfl⟩ := perform_close he
      · exact owns_rollback h
      · exact owns_fail h
      · exact failed (owns_rollback h)
  | publish exchange routing_key payload headers =>
      obtain ⟨_, rfl⟩ | ⟨x, w₁, _, hw, rfl⟩ := perform_publish he
      · have ho := owns_deliver (p := p) h (d.topology.route exchange routing_key)
          ⟨payload, headers⟩
        exact ho.trans (owns_record ho.tidy _)
      · have ho : Owns p w w₁ := by
          rcases hw with rfl | rfl
          · exact .refl h
          · exact owns_deliver h _ _
        exact (failed ho).trans (owns_record (failed ho).tidy _)
  | ack =>
      obtain ⟨_, rfl⟩ | ⟨x, _, rfl | rfl⟩ := perform_ack he
      · exact owns_settle h
      · exact owns_fail h
      · exact failed (owns_settle h)
  | nack requeue =>
      obtain rfl | ⟨x_death, rfl | rfl⟩ := perform_refuse (.inl rfl) he
      · exact owns_fail h
      · exact owns_refuse h d requeue x_death
      · exact failed (owns_refuse h d requeue x_death)
  | reject requeue =>
      obtain rfl | ⟨x_death, rfl | rfl⟩ := perform_refuse (.inr rfl) he
      · exact owns_fail h
      · exact owns_refuse h d requeue x_death
      · exact failed (owns_refuse h d requeue x_death)
  | getaddrinfo host port =>
      obtain ⟨infos, _, rfl⟩ | ⟨x, _, rfl | ⟨infos, rfl⟩⟩ := perform_getaddrinfo he
      · exact owns_lookup h hj infos
      · exact owns_fail h
      · exact failed (owns_lookup h hj infos)
  | post request =>
      obtain ⟨peer, status_code, _, rfl⟩ | ⟨x, _, rfl | ⟨peer, status_code, rfl | rfl⟩⟩ :=
        perform_post he
      · exact owns_post h request _ _
      · exact owns_fail h
      · exact owns_post h request _ _
      · exact failed (owns_post h request _ _)
  | respond response =>
      obtain rfl | rfl | rfl := perform_respond he
      · exact owns_respond h response
      · exact owns_fail h
      · exact failed (owns_respond h response)

theorem owns_crash (h : Tidy w) : Owns p w (w.crash p) := by
  have hr := owns_rollback (p := p) h
  have hq := hr.trans (owns_requeue hr.tidy)
  exact hq.trans (owns_fail hq.tidy)

theorem tidy_start {job : Job} (h : Tidy w) (hj : w.jobs p = none) : Tidy (w.start p job) := by
  have hne : ∀ pid, (w.start p job).jobs pid = none → w.jobs pid = none := by
    intro pid hpid
    by_cases hp : pid = p
    · rw [hp, hj]
    · simpa [hp] using hpid
  exact {
    h with
    fresh_writes := fun pid hpid => h.fresh_writes pid (hne pid hpid)
    fresh_unacked := fun pid hpid => h.fresh_unacked pid (hne pid hpid)
    fresh_log := fun pid hpid => h.fresh_log pid (hne pid hpid) }

theorem tidy_receive {msg : Message} (h : Tidy w) (hj : w.jobs p ≠ none) :
    Tidy (w.receive p msg) where
  __ := h
  fresh_unacked pid hpid := by
    have hne : pid ≠ p := fun he => hj (he ▸ hpid)
    simpa [hne] using h.fresh_unacked pid hpid

-- A launch is the start of its own process, and for a delivery the removal of
-- a message that others cannot hold.
theorem launch_frame {l : World.Launch} {prog : Async Unit} (h : Tidy w)
    (hl : World.launch d p l w = some (prog, w')) :
    Tidy w' ∧ (∀ pid, pid ≠ p → Frame pid w w') ∧ w'.jobs p ≠ none := by
  obtain ⟨hj, ⟨request, rfl, rfl⟩ | ⟨config, rfl, rfl⟩ | ⟨index, msg, event, _, _, rfl, rfl⟩⟩ :=
    launch_cases hl
  · exact ⟨tidy_start h hj, fun _ hne => frame_start hne _ hj, by simp⟩
  · exact ⟨tidy_start h hj, fun _ hne => frame_start hne _ hj, by simp⟩
  · have hs : Tidy (w.start p (.delivery event msg)) := tidy_start h hj
    refine ⟨tidy_receive { hs with } (by simp), fun pid hne => ?_, by simp⟩
    exact ((frame_start hne _ hj).trans (frame_remove _ _)).trans (frame_receive hne msg)

theorem tick_frame {t : World.Tick} (h : Tidy w) (ht : World.tick d t w = some w') :
    Tidy w' ∧ ∀ pid, Frame pid w w' := by
  obtain ⟨name, index, x_death, queue, msg, _, _, _, rfl⟩ | ⟨pid, rfl⟩ := tick_cases ht
  · exact ⟨{ h with }, fun pid => (frame_remove _ _).trans (frame_deliver _ _)⟩
  · exact ⟨tidy_requeue h pid, fun _ => frame_requeue pid⟩

end Steps

def frameLogic : Logic Pid World where
  inv := Tidy
  rely := Frame
  done _ _ := True
  rely_refl := Frame.refl
  rely_trans _ _ _ _ := Frame.trans
  done_stable _ _ _ _ _ := trivial

theorem tidy_init : Tidy World.init where
  locked := LockStore.WellLocked.empty _
  fetched := by simp
  fresh_writes _ _ := rfl
  fresh_unacked _ _ := rfl
  fresh_log := by simp

theorem frame_obliged (d : Deployment) (A : Assumption Pid World Effect Answer) :
    Obliged (machine d) A .top frameLogic where
  launch pid l w p w' hi hl _ _ := by
    obtain ⟨ht, hf, hj⟩ := launch_frame hi.2 hl
    refine ⟨ht, hf, ?_⟩
    -- any program of a started process will do
    have hp : Triple (machine d) A .top frameLogic pid (fun w => w.jobs pid ≠ none) p
        fun _ w => w.jobs pid ≠ none := by
      apply Triple.only p.only_true
      · exact fun w w' hr hw => hr.2.job ▸ hw
      · intro e _ w a r w' hi hw _ he _ _
        have ho := owns_perform hi.2 hw he
        exact ⟨ho.tidy, ho.frame, fun h => hw (by rw [← ho.jobs]; exact h)⟩
    exact wp_mono (hp w' ⟨trivial, ht⟩ hj) ⟨trivial, ht⟩ fun _ _ _ _ => trivial
  crash pid w hi _ _ := by
    have ho := owns_crash (p := pid) hi.2
    exact ⟨ho.tidy, ho.frame, trivial⟩
  tick t w w' hi ht _ _ := tick_frame hi.2 ht

theorem frame_sound (d : Deployment) (A : Assumption Pid World Effect Answer) :
    Sound (machine d) A frameLogic SystemConfig.init :=
  ((sound_top (machine d) A SystemConfig.init).extend (frame_obliged d A) tidy_init
    fun _ => rfl).right

end PaymentsProcessor
