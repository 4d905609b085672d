import PaymentsProcessor.System.Frame

namespace PaymentsProcessor

open Python Storage Concurrency PaymentsConstants

-- The parts of the world that a call is about.
inductive Effect.Kind where
  | idle
  | execute
  | commit
  | close
  | publish
  | settle
  | lookup
  | post
  | respond
deriving DecidableEq

def Effect.kind : Effect → Kind
  | .execute _ => .execute
  | .commit => .commit
  | .close => .close
  | .publish .. => .publish
  | .ack | .nack _ | .reject _ => .settle
  | .getaddrinfo .. => .lookup
  | .post _ => .post
  | .respond _ => .respond
  | .container_get _ | .flush | .sleep _ | .now | .uuid7 | .uniform .. | .random => .idle

-- What a call of this kind leaves as it is, whatever becomes of the call.
structure Scope (k : Effect.Kind) (w w' : World) : Prop where
  jobs : w'.jobs = w.jobs
  contents : k ≠ .commit → w'.store.contents = w.store.contents
  commits : k ≠ .commit → w'.log.commits = w.log.commits
  writes : k ≠ .execute → ∀ p, w'.store.writes p = [] ∨ w'.store.writes p = w.store.writes p
  store : k ≠ .execute → k ≠ .commit → k ≠ .close → w'.store = w.store
  fetched : k ≠ .execute → k ≠ .commit → k ≠ .close → w'.fetched = w.fetched
  rollbacks : k ≠ .commit → k ≠ .close → w'.log.rollbacks = w.log.rollbacks
  publishes : k ≠ .publish → w'.log.publishes = w.log.publishes
  lookups : k ≠ .lookup → w'.log.lookups = w.log.lookups
  posts : k ≠ .post → w'.log.posts = w.log.posts
  queues : k ≠ .publish → k ≠ .settle → w'.queues = w.queues
  unacked : k ≠ .settle → w'.unacked = w.unacked

namespace Scope

variable {k : Effect.Kind} {p : Pid} {w w' w'' : World}

theorem refl (k : Effect.Kind) (w : World) : Scope k w w := by
  constructor <;> intros <;> first | rfl | exact .inr rfl

theorem trans (h : Scope k w w') (h' : Scope k w' w'') : Scope k w w'' where
  jobs := h'.jobs.trans h.jobs
  contents hk := (h'.contents hk).trans (h.contents hk)
  commits hk := (h'.commits hk).trans (h.commits hk)
  writes hk q := by
    rcases h'.writes hk q with h₂ | h₂
    · exact .inl h₂
    · rw [h₂]
      exact h.writes hk q
  store h₁ h₂ h₃ := (h'.store h₁ h₂ h₃).trans (h.store h₁ h₂ h₃)
  fetched h₁ h₂ h₃ := (h'.fetched h₁ h₂ h₃).trans (h.fetched h₁ h₂ h₃)
  rollbacks h₁ h₂ := (h'.rollbacks h₁ h₂).trans (h.rollbacks h₁ h₂)
  publishes hk := (h'.publishes hk).trans (h.publishes hk)
  lookups hk := (h'.lookups hk).trans (h.lookups hk)
  posts hk := (h'.posts hk).trans (h.posts hk)
  queues h₁ h₂ := (h'.queues h₁ h₂).trans (h.queues h₁ h₂)
  unacked hk := (h'.unacked hk).trans (h.unacked hk)

theorem fail (h : Scope k w w') : Scope k w (w'.fail p) := { h with }

end Scope

section Primitives

variable {p : Pid} {w : World}

theorem scope_take (locks : List Resource) (writes : List Write) :
    Scope .execute w (w.take p locks writes) where
  __ := Scope.refl .execute w
  writes hk := absurd rfl hk
  store hk := absurd rfl hk

theorem scope_abort : Scope .execute w (w.abort p) where
  __ := Scope.refl .execute w
  store hk := absurd rfl hk

theorem scope_fetch (ids : List UUID) : Scope .execute w (w.fetch p ids) where
  __ := Scope.refl .execute w
  fetched hk := absurd rfl hk

theorem writes_rollback (q : Pid) :
    (w.rollback p).store.writes q = [] ∨ (w.rollback p).store.writes q = w.store.writes q := by
  by_cases hq : q = p
  · subst hq
    exact .inl (LockStore.rollback_writes_self _ _)
  · exact .inr (LockStore.rollback_writes_other _ hq)

theorem scope_rollback {k : Effect.Kind} (hk : k = .close ∨ k = .commit) :
    Scope k w (w.rollback p) where
  __ := Scope.refl k w
  writes _ := writes_rollback
  store _ hc hr := (hk.elim hr hc).elim
  fetched _ hc hr := (hk.elim hr hc).elim
  rollbacks hc hr := (hk.elim hr hc).elim

theorem scope_commit : Scope .commit w (w.commit p) := by
  unfold World.commit
  split
  · exact scope_rollback (.inr rfl)
  · exact {
      Scope.refl .commit w with
      contents := fun hk => absurd rfl hk
      commits := fun hk => absurd rfl hk
      writes := fun _ q => by simpa using writes_rollback q
      store := fun _ hk => absurd rfl hk
      fetched := fun _ hk => absurd rfl hk }

theorem scope_settle : Scope .settle w (w.settle p) where
  __ := Scope.refl .settle w
  unacked hk := absurd rfl hk

theorem scope_deliver {k : Effect.Kind} (hk : k = .publish ∨ k = .settle) (names : List String)
    (m : Message) : Scope k w (w.deliver names m) where
  __ := Scope.refl k w
  queues hp hs := (hk.elim hp hs).elim

theorem scope_requeue : Scope .settle w (w.requeue p) := by
  unfold World.requeue
  split
  · exact .refl _ w
  · exact scope_settle.trans (scope_deliver (.inr rfl) _ _)

theorem scope_refuse (d : Deployment) (requeue : Bool) (x_death : HeaderValue) :
    Scope .settle w (w.refuse d p requeue x_death) := by
  unfold World.refuse
  split
  · exact scope_requeue
  · split
    · exact .refl _ w
    · exact scope_settle.trans (scope_deliver (.inr rfl) _ _)

theorem scope_record (r : Publish) : Scope .publish w (w.record r) where
  __ := Scope.refl .publish w
  publishes hk := absurd rfl hk

theorem scope_lookup (infos : List AddrInfo) : Scope .lookup w (w.lookup p infos) where
  __ := Scope.refl .lookup w
  lookups hk := absurd rfl hk

theorem scope_post (request : HttpRequest) (peer : Option IPAddress) (status_code : Option ℕ) :
    Scope .post w (w.post p request peer status_code) where
  __ := Scope.refl .post w
  posts hk := absurd rfl hk

theorem scope_respond (response : Response) : Scope .respond w (w.respond p response) where
  __ := Scope.refl .respond w

end Primitives

section Calls

variable {d : Deployment} {p : Pid} {w w' : World}

theorem scope_attempted {stmt : Statement} (h : Attempted p stmt w w') : Scope .execute w w' := by
  induction h with
  | untouched => exact .refl _ _
  | aborted _ ih => exact ih.trans scope_abort
  | failed _ ih => exact ih.fail
  | carried_out _ _ => exact scope_take _ _

theorem scope_perform {e : Effect} {a : Answer} {result : Except Exn e.Result}
    (h : World.perform d p e a w = some (result, w')) : Scope e.kind w w' := by
  cases e with
  | container_get | flush | sleep | now | uuid7 | uniform | random =>
      obtain ⟨_, rfl⟩ | ⟨_, rfl⟩ := perform_idle rfl h
      · exact .refl _ _
      · exact (Scope.refl _ w).fail
  | execute stmt =>
      obtain ⟨_, _, _, _, _, _, _, _, rfl⟩ | ⟨_, _, _, _, _, _, _, rfl⟩ | ⟨_, _, _, ha, rfl⟩ :=
        perform_execute h
      · exact (scope_take _ _).trans (scope_fetch _)
      · exact scope_abort
      · exact (scope_attempted ha).fail
  | commit =>
      obtain ⟨_, rfl⟩ | ⟨_, _, rfl | rfl⟩ := perform_commit h
      · exact scope_commit
      · exact (Scope.refl _ w).fail
      · exact scope_commit.fail
  | close =>
      obtain ⟨_, rfl⟩ | ⟨_, _, rfl | rfl⟩ := perform_close h
      · exact scope_rollback (.inl rfl)
      · exact (Scope.refl _ w).fail
      · exact (scope_rollback (.inl rfl)).fail
  | publish exchange routing_key payload headers =>
      obtain ⟨_, rfl⟩ | ⟨_, w₁, _, rfl | rfl, rfl⟩ := perform_publish h
      · exact (scope_deliver (.inl rfl) _ _).trans (scope_record _)
      · exact (Scope.refl _ w₁).fail.trans (scope_record _)
      · exact (scope_deliver (.inl rfl) _ _).fail.trans (scope_record _)
  | ack =>
      obtain ⟨_, rfl⟩ | ⟨_, _, rfl | rfl⟩ := perform_ack h
      · exact scope_settle
      · exact (Scope.refl _ w).fail
      · exact scope_settle.fail
  | nack requeue =>
      obtain rfl | ⟨_, rfl | rfl⟩ := perform_refuse (.inl rfl) h
      · exact (Scope.refl _ w).fail
      · exact scope_refuse d requeue _
      · exact (scope_refuse d requeue _).fail
  | reject requeue =>
      obtain rfl | ⟨_, rfl | rfl⟩ := perform_refuse (.inr rfl) h
      · exact (Scope.refl _ w).fail
      · exact scope_refuse d requeue _
      · exact (scope_refuse d requeue _).fail
  | getaddrinfo host port =>
      obtain ⟨_, _, rfl⟩ | ⟨_, _, rfl | ⟨_, rfl⟩⟩ := perform_getaddrinfo h
      · exact scope_lookup _
      · exact (Scope.refl _ w).fail
      · exact (scope_lookup _).fail
  | post request =>
      obtain ⟨_, _, _, rfl⟩ | ⟨_, _, rfl | ⟨_, _, rfl | rfl⟩⟩ := perform_post h
      · exact scope_post _ _ _
      · exact (Scope.refl _ w).fail
      · exact scope_post _ _ _
      · exact (scope_post _ _ _).fail
  | respond response =>
      obtain rfl | rfl | rfl := perform_respond h
      · exact scope_respond _
      · exact (Scope.refl _ w).fail
      · exact (scope_respond _).fail

theorem Attempted.writes {stmt : Statement} (h : Attempted p stmt w w') :
    w'.store.writes p = w.store.writes p ∨ ∃ time ids result locks writes,
      stmt.verdict w.store p time ids = .succeeds result locks writes ∧
        w'.store.writes p = w.store.writes p ++ writes := by
  induction h with
  | untouched => exact .inl rfl
  | aborted _ ih => exact ih
  | failed _ ih => exact ih
  | carried_out _ hv => exact .inr ⟨_, _, _, _, _, hv, LockStore.take_writes_self ..⟩

-- A statement adds its own writes, or none.
theorem execute_writes {stmt : Statement} {a : Answer} {result : Except Exn stmt.Result}
    (h : World.perform d p (.execute stmt) a w = some (result, w')) :
    w'.store.writes p = w.store.writes p ∨ ∃ time ids result locks writes,
      stmt.verdict w.store p time ids = .succeeds result locks writes ∧
        w'.store.writes p = w.store.writes p ++ writes := by
  obtain ⟨_, _, _, _, _, _, hv, _, rfl⟩ | ⟨_, _, _, _, _, _, _, rfl⟩ | ⟨_, _, _, ha, rfl⟩ :=
    perform_execute h
  · exact .inr ⟨_, _, _, _, _, hv, LockStore.take_writes_self ..⟩
  · exact .inl rfl
  · exact ha.writes

-- A statement takes its own locks, or none.
theorem execute_owner {stmt : Statement} {a : Answer} {result : Except Exn stmt.Result}
    (h : World.perform d p (.execute stmt) a w = some (result, w')) {k : Resource}
    (hk : w'.store.owner k = some p) : w.store.owner k = some p ∨
      ∃ time ids result locks writes,
        stmt.verdict w.store p time ids = .succeeds result locks writes ∧ k ∈ locks := by
  have take : ∀ {locks writes}, (w.store.take p locks writes).owner k = some p →
      w.store.owner k = some p ∨ k ∈ locks := by
    intro locks writes hk
    rw [LockStore.take_owner] at hk
    by_cases hmem : k ∈ locks
    · exact .inr hmem
    · rw [if_neg hmem] at hk
      exact .inl hk
  have attempted : ∀ {w₁ : World}, Attempted p stmt w w₁ → w₁.store.owner k = some p →
      w.store.owner k = some p ∨ ∃ time ids result locks writes,
        stmt.verdict w.store p time ids = .succeeds result locks writes ∧ k ∈ locks := by
    intro w₁ ha hk
    induction ha with
    | untouched => exact .inl hk
    | aborted _ ih => exact ih hk
    | failed _ ih => exact ih hk
    | carried_out _ hv => exact (take hk).imp_right fun hmem => ⟨_, _, _, _, _, hv, hmem⟩
  obtain ⟨_, _, _, _, _, _, hv, _, rfl⟩ | ⟨_, _, _, _, _, _, _, rfl⟩ | ⟨_, _, _, ha, rfl⟩ :=
    perform_execute h
  · exact (take hk).imp_right fun hmem => ⟨_, _, _, _, _, hv, hmem⟩
  · exact .inl hk
  · exact attempted ha hk

theorem execute_fetched {stmt : Statement} {a : Answer} {result : Except Exn stmt.Result}
    (h : World.perform d p (.execute stmt) a w = some (result, w')) :
    w'.fetched = Function.update w.fetched p (w.fetched p ++ World.fetches stmt result) := by
  have attempted : ∀ {w₁ : World}, Attempted p stmt w w₁ → w₁.fetched = w.fetched := by
    intro w₁ ha
    induction ha with
    | untouched => rfl
    | aborted _ ih => exact ih
    | failed _ ih => exact ih
    | carried_out => rfl
  have hnil : ∀ x, World.fetches stmt (.error x) = [] := fun x => by cases stmt <;> rfl
  obtain ⟨_, _, res, _, _, _, _, rfl, rfl⟩ | ⟨_, _, _, _, _, _, rfl, rfl⟩ |
    ⟨_, _, rfl, ha, rfl⟩ := perform_execute h
  · rfl
  · rw [hnil, List.append_nil, Function.update_eq_self]
    rfl
  · have hsame := attempted ha
    rw [hnil, List.append_nil, Function.update_eq_self]
    exact hsame

-- Only a lock hands rows over.
theorem execute_fetches_none {stmt : Statement} {a : Answer} {result : Except Exn stmt.Result}
    (hstmt : ∀ id now, stmt ≠ .lock_pending id now)
    (h : World.perform d p (.execute stmt) a w = some (result, w')) : w'.fetched = w.fetched := by
  have hnil : World.fetches stmt result = [] := by
    cases stmt with
    | lock_pending id now => exact absurd rfl (hstmt id now)
    | _ => cases result <;> rfl
  rw [execute_fetched h, hnil, List.append_nil, Function.update_eq_self]

end Calls

end PaymentsProcessor
