import PaymentsProcessor.Guarantees.Delivery

namespace PaymentsProcessor

open Python Concurrency

namespace SSRFGuard

-- A target that the guard has the resolver look up.
structure Target (guard : SSRFGuard) (url : String) (parsed : ParsedUrl) (host : String) :
    Prop where
  parses : UrlParse.urlparse guard.unicode url = .ok parsed
  scheme : String.ofList (parsed.scheme.map UrlParse.lowerAscii) ∈ _ALLOWED_SCHEMES
  hostname : parsed.hostname guard.unicode = some host
  nonempty : host ≠ ""

section Inversion

variable {guard : SSRFGuard} {url : String} {trace : List Call} {result : Except Exn Unit}

theorem parse_host_ok_iff {parsed : ParsedUrl} {host : String} :
    guard.parse_host url = .ok (parsed, host) ↔ guard.Target url parsed host := by
  constructor
  · intro h
    unfold parse_host at h
    cases hp : UrlParse.urlparse guard.unicode url with
    | error e =>
        rw [hp] at h
        cases h
    | ok parsed' =>
        rw [hp] at h
        simp only [Except.mapError, bind, Except.bind] at h
        split at h
        · cases h
        · rename_i hscheme
          split at h
          · cases h
          · rename_i host' hhost
            split at h
            · cases h
            · rename_i hne
              cases h
              exact ⟨hp, not_not.mp hscheme, hhost, hne⟩
  · rintro ⟨hp, hscheme, hhost, hne⟩
    unfold parse_host
    rw [hp]
    simp only [Except.mapError, bind, Except.bind]
    rw [if_neg (not_not.mpr hscheme), hhost]
    simp only [if_neg hne]
    rfl

-- The parser's own exception, or a refusal.
theorem parse_host_raises {x : Exn} (h : guard.parse_host url = .error x) :
    (∃ e, x = .python e ∧ UrlParse.urlparse guard.unicode url = .error e) ∨
      ∃ reason, x = .WebhookUrlNotAllowedError url reason none := by
  unfold parse_host at h
  cases hp : UrlParse.urlparse guard.unicode url with
  | error e =>
      rw [hp] at h
      cases h
      exact .inl ⟨e, rfl, rfl⟩
  | ok parsed =>
      rw [hp] at h
      simp only [Except.mapError, bind, Except.bind] at h
      right
      split at h
      · cases h
        exact ⟨_, rfl⟩
      · split at h
        · cases h
          exact ⟨_, rfl⟩
        · split at h <;> cases h
          exact ⟨_, rfl⟩

theorem exec_resolve {parsed : ParsedUrl} {host : String} {r : Except Exn (List AddrInfo)}
    (h : Exec (resolve url parsed host) trace r) :
    (∃ e, parsed.port = .error e ∧ trace = [] ∧ r = .error (.python e)) ∨
      ∃ port answer, parsed.port = .ok port ∧ trace = [⟨.getaddrinfo host port, answer⟩] ∧
        r.bind (check_infos url) = outcome url answer := by
  have hpython : ∀ e : PyError, (Exn.python e).isinstance .OSError = false := by
    intro e
    cases e <;> rfl
  unfold resolve at h
  simp only [Prog.bind_eq, ofPython] at h
  obtain ⟨first, looked, rest, rfl, hl, hr⟩ := Exec.tryCatch_iff.mp h
  cases hport : parsed.port with
  | error e =>
      rw [hport] at hl
      obtain ⟨rfl, rfl⟩ := Exec.ret_iff.mp hl
      left
      simp only [hpython, Bool.false_eq_true, if_false] at hr
      obtain ⟨rfl, rfl⟩ := Exec.ret_iff.mp hr
      exact ⟨e, rfl, rfl, rfl⟩
  | ok port =>
      rw [hport] at hl
      obtain rfl := Exec.perform_iff.mp hl
      refine .inr ⟨port, looked, rfl, ?_⟩
      cases looked with
      | ok infos =>
          obtain ⟨rfl, rfl⟩ := hr
          exact ⟨rfl, rfl⟩
      | error x =>
          simp only at hr
          unfold outcome
          split at hr
          all_goals
            obtain ⟨rfl, rfl⟩ := Exec.ret_iff.mp hr
            simp [*, Except.bind]

-- A run of the guard: it ends before the lookup, or with what the answer to its
-- only call amounts to.
theorem exec_guard (h : Exec (guard.validate_url url) trace result) :
    (∃ x, guard.parse_host url = .error x ∧ trace = [] ∧ result = .error x) ∨
      ∃ parsed host, guard.Target url parsed host ∧
        ((guard.allow_private_hosts = true ∧ trace = [] ∧ result = .ok ()) ∨
          guard.allow_private_hosts = false ∧
            ((∃ e, parsed.port = .error e ∧ trace = [] ∧ result = .error (.python e)) ∨
              ∃ port answer, parsed.port = .ok port ∧
                trace = [⟨.getaddrinfo host port, answer⟩] ∧ result = outcome url answer)) := by
  unfold validate_url at h
  simp only [Prog.bind_eq] at h
  obtain ⟨first, r, rest, rfl, hp, hr⟩ := Exec.bind_iff.mp h
  obtain ⟨rfl, rfl⟩ := Exec.ofExcept_iff.mp hp
  cases hparse : guard.parse_host url with
  | error x =>
      rw [hparse] at hr
      obtain ⟨rfl, rfl⟩ := hr
      exact .inl ⟨x, rfl, rfl, rfl⟩
  | ok parsed_host =>
      obtain ⟨parsed, host⟩ := parsed_host
      rw [hparse] at hr
      refine .inr ⟨parsed, host, parse_host_ok_iff.mp hparse, ?_⟩
      simp only at hr
      split at hr
      · obtain ⟨rfl, rfl⟩ := Exec.ret_iff.mp hr
        exact .inl ⟨‹_›, rfl, rfl⟩
      · rename_i hprivate
        refine .inr ⟨by simpa using hprivate, ?_⟩
        obtain ⟨looked, r, checked, rfl, hl, hc⟩ := Exec.bind_iff.mp hr
        obtain ⟨e, hport, rfl, rfl⟩ | ⟨port, answer, hport, rfl, ho⟩ := exec_resolve hl
        · obtain ⟨rfl, rfl⟩ := hc
          exact .inl ⟨e, hport, rfl, rfl⟩
        · refine .inr ⟨port, answer, hport, ?_⟩
          rw [← ho]
          cases r with
          | ok infos =>
              obtain ⟨rfl, rfl⟩ := Exec.ofExcept_iff.mp hc
              exact ⟨rfl, rfl⟩
          | error x =>
              obtain ⟨rfl, rfl⟩ := hc
              exact ⟨rfl, rfl⟩

end Inversion

section Answers

variable {url raw : String} {infos : List AddrInfo} {info : AddrInfo}

def Refused (url : String) (result : Except Exn Unit) : Prop :=
  ∃ reason resolved_ip, result = .error (.WebhookUrlNotAllowedError url reason resolved_ip)

-- Every text up to the first address that is not allowed is an address.
def Legible (infos : List AddrInfo) : Prop :=
  ∀ before raw after, infos = before ++ ⟨.str raw⟩ :: after →
    (∀ info ∈ before, ∀ raw' ip, info.host = .str raw' → _normalize_ip raw' = .ok ip →
      _is_disallowed ip = false) → ∃ ip, _normalize_ip raw = .ok ip

theorem legible_nil : Legible [] := by
  intro before raw after h
  simp at h

theorem legible_other : Legible (⟨.other⟩ :: infos) ↔ Legible infos := by
  constructor
  · rintro h before raw after rfl hbefore
    refine h (⟨.other⟩ :: before) raw after rfl (List.forall_mem_cons.mpr ⟨?_, hbefore⟩)
    intro raw' ip hraw
    cases hraw
  · intro h before raw after he hbefore
    cases before with
    | nil => cases he
    | cons first before =>
        obtain ⟨rfl, rfl⟩ := List.cons.inj he
        exact h before raw after rfl (List.forall_mem_cons.mp hbefore).2

theorem legible_str : Legible (⟨.str raw⟩ :: infos) ↔
    ∃ ip, _normalize_ip raw = .ok ip ∧ (_is_disallowed ip = false → Legible infos) := by
  constructor
  · intro h
    obtain ⟨ip, hip⟩ := h [] raw infos rfl (by simp)
    refine ⟨ip, hip, ?_⟩
    rintro hallowed before raw' after rfl hbefore
    refine h (⟨.str raw⟩ :: before) raw' after rfl (List.forall_mem_cons.mpr ⟨?_, hbefore⟩)
    rintro raw'' ip' hraw hip'
    cases hraw
    cases hip.symm.trans hip'
    exact hallowed
  · rintro ⟨ip, hip, h⟩ before raw' after he hbefore
    cases before with
    | nil =>
        cases he
        exact ⟨ip, hip⟩
    | cons first before =>
        obtain ⟨rfl, rfl⟩ := List.cons.inj he
        obtain ⟨hfirst, hbefore⟩ := List.forall_mem_cons.mp hbefore
        exact h (hfirst raw ip rfl hip) before raw' after rfl hbefore

theorem check_infos_str : check_infos url (⟨.str raw⟩ :: infos) = match _normalize_ip raw with
    | .error e => .error (.python e)
    | .ok ip =>
        if _is_disallowed ip then
          .error (.WebhookUrlNotAllowedError url "address_disallowed" (some ip.str))
        else check_infos url infos := by
  simp only [check_infos]
  cases _normalize_ip raw <;> rfl

-- The loop comes to a verdict of its own on exactly the legible answers.
theorem check_infos_settles_iff :
    check_infos url infos = .ok () ∨ Refused url (check_infos url infos) ↔ Legible infos := by
  induction infos with
  | nil => exact iff_of_true (.inl rfl) legible_nil
  | cons info infos ih =>
      obtain ⟨host⟩ := info
      cases host with
      | other =>
          rw [legible_other, ← ih]
          rfl
      | str raw =>
          rw [legible_str, check_infos_str]
          cases _normalize_ip raw with
          | error e => simp [Refused]
          | ok ip =>
              by_cases hip : _is_disallowed ip = true
              · simp [hip, Refused]
              · simp [Bool.eq_false_of_not_eq_true hip, ih]

-- The loop returns on exactly the answers all of whose texts are allowed addresses.
theorem check_infos_ok_iff : check_infos url infos = .ok () ↔
    ∀ raw, ⟨.str raw⟩ ∈ infos → ∃ ip, _normalize_ip raw = .ok ip ∧ _is_disallowed ip = false := by
  induction infos with
  | nil => simp [check_infos]
  | cons info infos ih =>
      obtain ⟨host⟩ := info
      cases host with
      | other =>
          rw [show check_infos url (⟨.other⟩ :: infos) = check_infos url infos from rfl, ih]
          simp
      | str raw =>
          simp only [List.mem_cons, AddrInfo.mk.injEq, SockHost.str.injEq, forall_eq_or_imp, ← ih]
          rw [check_infos_str]
          cases _normalize_ip raw with
          | error e => simp
          | ok ip => by_cases hip : _is_disallowed ip = true <;> simp [hip]

end Answers

section Targets

variable {guard : SSRFGuard} {url : String} {trace : List Call}

-- An address that the guard is there to let through.
structure Routable (ip : IPAddress) : Prop where
  is_global : ip.is_global = true
  is_private : ip.is_private = false
  is_shared : ip.is_shared = false
  is_loopback : ip.is_loopback = false
  is_link_local : ip.is_link_local = false
  is_site_local : ip.is_site_local = false
  is_multicast : ip.is_multicast = false
  is_reserved : ip.is_reserved = false
  is_unspecified : ip.is_unspecified = false

-- The guard's six predicates leave out two ranges.
theorem routable_iff {ip : IPAddress} : Routable ip ↔
    _is_disallowed ip = false ∧ ip.is_shared = false ∧ ip.is_site_local = false := by
  simp only [_is_disallowed, Bool.or_eq_false_iff]
  constructor
  · intro h
    exact ⟨⟨⟨⟨⟨⟨h.is_private, h.is_loopback⟩, h.is_link_local⟩, h.is_multicast⟩, h.is_reserved⟩,
      h.is_unspecified⟩, h.is_shared, h.is_site_local⟩
  · rintro ⟨⟨⟨⟨⟨⟨hprivate, hloop⟩, hlink⟩, hmulti⟩, hreserved⟩, hunspec⟩, hshared, hsite⟩
    refine ⟨?_, hprivate, hshared, hloop, hlink, hsite, hmulti, hreserved, hunspec⟩
    simp [IPAddress.is_global, hprivate, hshared]

-- The guard has looked the host up and has seen nothing but public addresses.
def OnlyPublic (trace : List Call) : Prop :=
  ∃ host port infos, trace = [⟨.getaddrinfo host port, .ok infos⟩] ∧ infos ≠ [] ∧
    ∀ info ∈ infos, ∃ raw ip, info.host = .str raw ∧ _normalize_ip raw = .ok ip ∧ Routable ip

-- The guard lets pass an answer without addresses, shared address space and the
-- old site-local addresses, and nothing else that is not public.
theorem accepted_is_public_iff (h : Exec (guard.validate_url url) trace (.ok ()))
    (hprivate : guard.allow_private_hosts = false) :
    OnlyPublic trace ↔ ∀ host port infos, ⟨.getaddrinfo host port, .ok infos⟩ ∈ trace →
      infos ≠ [] ∧ ∀ info ∈ infos, ∃ raw, info.host = .str raw ∧
        ∀ ip, _normalize_ip raw = .ok ip → ip.is_shared = false ∧ ip.is_site_local = false := by
  obtain ⟨host, port, infos, rfl, hchecked⟩ : ∃ host port infos,
      trace = [⟨.getaddrinfo host port, .ok infos⟩] ∧ check_infos url infos = .ok () := by
    obtain ⟨x, _, _, he⟩ | ⟨parsed, host, _, ⟨hallow, _⟩ | ⟨_, ⟨e, _, _, he⟩ |
      ⟨port, answer, _, rfl, ho⟩⟩⟩ := exec_guard h
    · cases he
    · cases hprivate.symm.trans hallow
    · cases he
    · cases answer with
      | ok infos => exact ⟨host, port, infos, rfl, ho.symm⟩
      | error x =>
          simp only [outcome] at ho
          split at ho <;> cases ho
  have hall := check_infos_ok_iff.mp hchecked
  constructor
  · rintro ⟨_, _, infos', he, hne, hpublic⟩ _ _ infos'' hmem
    cases he
    obtain ⟨⟩ := List.mem_singleton.mp hmem
    refine ⟨hne, fun info hinfo => ?_⟩
    obtain ⟨raw, ip, hraw, hip, hroutable⟩ := hpublic info hinfo
    refine ⟨raw, hraw, fun ip' hip' => ?_⟩
    cases hip.symm.trans hip'
    exact (routable_iff.mp hroutable).2
  · intro hcond
    obtain ⟨hne, htexts⟩ := hcond host port infos List.mem_cons_self
    refine ⟨host, port, infos, rfl, hne, fun info hinfo => ?_⟩
    obtain ⟨raw, hraw, hrange⟩ := htexts info hinfo
    obtain ⟨ip, hip, hallowed⟩ := hall raw (by rw [← hraw]; exact hinfo)
    exact ⟨raw, ip, hraw, hip, routable_iff.mpr ⟨hallowed, hrange ip hip⟩⟩

end Targets

section Failures

variable {guard : SSRFGuard} {url : String} {trace : List Call} {result : Except Exn Unit}

-- The answers of a resolver: addresses, an `OSError`, or what the idna codec
-- raises for a host that has an empty label or one of more than 63 characters.
def Resolver (trace : List Call) : Prop :=
  ∀ host port answer, ⟨.getaddrinfo host port, answer⟩ ∈ trace →
    (∃ infos, answer = .ok infos) ∨ (∃ text, answer = .error (.OSError text)) ∨
      answer = .error (.python .UnicodeError)

-- The library can parse the URL, and for a target that is looked up also its
-- port, its host's labels and the addresses that come back.
def Workable (guard : SSRFGuard) (url : String) (trace : List Call) : Prop :=
  (∃ parsed, UrlParse.urlparse guard.unicode url = .ok parsed) ∧
    ∀ parsed host, guard.Target url parsed host → guard.allow_private_hosts = false →
      (∃ port, parsed.port = .ok port) ∧
        ∀ port answer, ⟨.getaddrinfo host port, answer⟩ ∈ trace →
          answer ≠ .error (.python .UnicodeError) ∧ ∀ infos, answer = .ok infos → Legible infos

theorem Target.unique {parsed parsed' : ParsedUrl} {host host' : String}
    (h : guard.Target url parsed host) (h' : guard.Target url parsed' host') :
    parsed = parsed' ∧ host = host' := by
  cases h.parses.symm.trans h'.parses
  cases h.hostname.symm.trans h'.hostname
  exact ⟨rfl, rfl⟩

theorem settles_iff (h : Exec (guard.validate_url url) trace result) (hresolver : Resolver trace) :
    result = .ok () ∨ Refused url result ↔ Workable guard url trace := by
  have hpython : ∀ e : PyError, ¬((Except.error (Exn.python e) : Except Exn Unit) = .ok () ∨
      Refused url (.error (.python e))) := by
    intro e
    simp [Refused]
  obtain ⟨x, hparse, rfl, rfl⟩ | ⟨parsed, host, ht, ⟨hallow, rfl, rfl⟩ | ⟨hprivate,
    ⟨e, hport, rfl, rfl⟩ | ⟨port, answer, hport, rfl, rfl⟩⟩⟩ := exec_guard h
  · obtain ⟨e, rfl, hraises⟩ | ⟨reason, rfl⟩ := parse_host_raises hparse
    · refine iff_of_false (hpython e) ?_
      rintro ⟨⟨parsed, hp⟩, _⟩
      cases hp.symm.trans hraises
    · refine iff_of_true (.inr ⟨reason, none, rfl⟩) ⟨?_, fun parsed host ht => ?_⟩
      · cases hp : UrlParse.urlparse guard.unicode url with
        | ok parsed => exact ⟨parsed, rfl⟩
        | error e =>
            unfold parse_host at hparse
            rw [hp] at hparse
            cases hparse
      · cases hparse.symm.trans (parse_host_ok_iff.mpr ht)
  · refine iff_of_true (.inl rfl) ⟨⟨parsed, ht.parses⟩, fun _ _ _ hprivate => ?_⟩
    cases hprivate.symm.trans hallow
  · refine iff_of_false (hpython e) ?_
    rintro ⟨_, hwork⟩
    obtain ⟨⟨port, hport'⟩, _⟩ := hwork parsed host ht hprivate
    cases hport.symm.trans hport'
  · have hw : Workable guard url [⟨.getaddrinfo host port, answer⟩] ↔
        answer ≠ .error (.python .UnicodeError) ∧ ∀ infos, answer = .ok infos → Legible infos := by
      constructor
      · rintro ⟨_, hwork⟩
        exact (hwork parsed host ht hprivate).2 port answer List.mem_cons_self
      · intro hanswer
        refine ⟨⟨parsed, ht.parses⟩, fun parsed' host' ht' _ => ?_⟩
        obtain ⟨rfl, rfl⟩ := ht.unique ht'
        refine ⟨⟨port, hport⟩, fun port' answer' hmem => ?_⟩
        obtain ⟨⟩ := List.mem_singleton.mp hmem
        exact hanswer
    rw [hw]
    obtain ⟨infos, rfl⟩ | ⟨text, rfl⟩ | rfl := hresolver host port answer List.mem_cons_self
    · simpa [outcome] using check_infos_settles_iff
    · refine iff_of_true (.inr ⟨_, _, rfl⟩) ⟨by simp, by simp⟩
    · exact iff_of_false (hpython _) fun h => h.1 rfl

end Failures

end SSRFGuard

section Responses

variable {c : Container} {request : CreateRequest} {first rest : List Call} {x : Exn}

theorem exec_unhandled
    (hguard : Exec (c.ssrf_guard.validate_url request.payload.webhook_url) first (.error x)) :
    Exec (request.handle c) (⟨.container_get .PaymentAction, .ok ()⟩ :: first) (.error x) := by
  refine Exec.bind_iff.mpr ⟨[_], .ok (), first, rfl, Exec.perform_iff.mpr rfl, ?_⟩
  refine Exec.bind_iff.mpr ⟨first, .error x, [], (List.append_nil _).symm, ?_, rfl, rfl⟩
  exact Exec.bind_iff.mpr ⟨first, .error x, [], (List.append_nil _).symm, hguard, rfl, rfl⟩

-- What the guard raises in a request is what its error response is made of.
theorem exec_unaccepted {result : Except Exn Unit}
    (hguard : Exec (c.ssrf_guard.validate_url request.payload.webhook_url) first (.error x))
    (h : Exec (create_payment c request) (⟨.container_get .PaymentAction, .ok ()⟩ ::
      (first ++ ⟨.close, .ok ()⟩ :: rest)) result) : Exec (respond_error x) rest result := by
  unfold create_payment at h
  simp only [Prog.bind_eq] at h
  obtain ⟨handled, attempted, tail, he, hattempt, ht⟩ := Exec.bind_iff.mp h
  obtain ⟨r, rfl, hhandle⟩ := Exec.attempt_iff.mp hattempt
  obtain ⟨rfl, rfl⟩ := Exec.prefix_unique hhandle (exec_unhandled hguard) he.symm
  obtain rfl : ⟨.close, .ok ()⟩ :: rest = tail := by simpa using he
  obtain ⟨closing, closed, last, he, hc, hl⟩ := Exec.tryCatch_iff.mp ht
  obtain ⟨first, r, second, s, rfl, hr, hs, rfl⟩ := Exec.andThen_iff.mp hc
  obtain ⟨rfl, rfl⟩ := Exec.ofExcept_iff.mp hr
  obtain rfl := Exec.perform_iff.mp hs
  cases he
  exact hl

-- After the request's container is closed there is one response left, with this status.
def AnsweredWith (status : ℕ) (c : Container) (request : CreateRequest) (first : List Call) : Prop :=
  ∀ rest result, Exec (create_payment c request) (⟨.container_get .PaymentAction, .ok ()⟩ ::
    (first ++ ⟨.close, .ok ()⟩ :: rest)) result →
      ∃ content answer, rest = [⟨.respond (.error status content), answer⟩]

theorem answered_with {status : ℕ} {content : Exn.Content}
    (hguard : Exec (c.ssrf_guard.validate_url request.payload.webhook_url) first (.error x))
    (hexception : x.isinstance .Exception) (hx : handle_all_errors x = .error status content) :
    AnsweredWith status c request first := by
  intro rest result h
  have hrespond := exec_unaccepted hguard h
  unfold respond_error at hrespond
  rw [if_pos hexception, hx] at hrespond
  obtain ⟨responded, answer, tail, rfl, hr, ht⟩ := Exec.bind_iff.mp hrespond
  obtain rfl := Exec.perform_iff.mp hr
  refine ⟨content, answer, ?_⟩
  cases answer with
  | ok _ =>
      obtain ⟨rfl, _⟩ := Exec.ret_iff.mp ht
      rfl
  | error _ =>
      obtain ⟨rfl, _⟩ := ht
      rfl

end Responses

section Guard

variable {guard : SSRFGuard} {url : String} {trace : List Call} {result : Except Exn Unit}

-- Unless a library call gets a URL, a port, a host or an address that it cannot
-- read, the guard accepts or refuses, and whoever is refused is told so with 400.
theorem guard_fails_in_its_own_way_iff (h : Exec (guard.validate_url url) trace result)
    (hresolver : SSRFGuard.Resolver trace) :
    ((result = .ok () ∨ SSRFGuard.Refused url result) ∧ (result ≠ .ok () → ∀ c request,
      c.ssrf_guard = guard → request.payload.webhook_url = url → AnsweredWith 400 c request trace)) ↔
        SSRFGuard.Workable guard url trace := by
  rw [← SSRFGuard.settles_iff h hresolver]
  refine ⟨fun hsettles => hsettles.1, fun hsettles => ⟨hsettles, ?_⟩⟩
  rintro hne c request rfl rfl
  obtain rfl | ⟨reason, resolved_ip, rfl⟩ := hsettles
  · exact absurd rfl hne
  · exact answered_with h rfl rfl

end Guard

namespace Scenario

-- The resolver answers the lookup that the guard makes for a payment's address.
theorem looked_up (answer : Except Exn (List AddrInfo)) : ∃ host port,
    Exec (deployment.container.ssrf_guard.validate_url processed.webhook_url)
      [⟨.getaddrinfo host port, answer⟩] (SSRFGuard.outcome processed.webhook_url answer) := by
  obtain ⟨parsed, host, port, hparse, hport⟩ := target
  exact ⟨host, port, exec_looked_up hparse hport rfl answer⟩

end Scenario

theorem public_answer_is_accepted : ∃ trace,
    Exec (Scenario.deployment.container.ssrf_guard.validate_url Scenario.processed.webhook_url)
      trace (.ok ()) ∧ SSRFGuard.OnlyPublic trace := by
  obtain ⟨host, port, h⟩ := Scenario.looked_up (.ok Scenario.public_infos)
  have hcheck : SSRFGuard.check_infos Scenario.processed.webhook_url Scenario.public_infos =
      .ok () := by
    decide +kernel
  rw [SSRFGuard.outcome, hcheck] at h
  refine ⟨_, h, (SSRFGuard.accepted_is_public_iff h rfl).mpr ?_⟩
  intro host' port' infos hmem
  obtain ⟨⟩ := List.mem_singleton.mp hmem
  refine ⟨by decide, ?_⟩
  simp only [Scenario.public_infos, List.mem_singleton, forall_eq]
  refine ⟨"8.8.8.8", rfl, fun ip hip => ?_⟩
  have h8 : SSRFGuard._normalize_ip "8.8.8.8" = .ok (.v4 0x08080808) := by decide +kernel
  cases h8.symm.trans hip
  decide +kernel

-- 100.64.0.1 is shared address space of carriers.
theorem shared_address_is_accepted : ∃ trace,
    Exec (Scenario.deployment.container.ssrf_guard.validate_url Scenario.processed.webhook_url)
      trace (.ok ()) ∧ ¬SSRFGuard.OnlyPublic trace := by
  obtain ⟨host, port, h⟩ := Scenario.looked_up (.ok [⟨.str "100.64.0.1"⟩])
  have hcheck : SSRFGuard.check_infos Scenario.processed.webhook_url [⟨.str "100.64.0.1"⟩] =
      .ok () := by
    decide +kernel
  rw [SSRFGuard.outcome, hcheck] at h
  refine ⟨_, h, ?_⟩
  rintro ⟨host', port', infos, he, _, hpublic⟩
  cases he
  obtain ⟨raw, ip, hraw, hip, hroutable⟩ := hpublic _ List.mem_cons_self
  cases hraw
  have hshared : SSRFGuard._normalize_ip "100.64.0.1" = .ok (.v4 0x64400001) := by decide +kernel
  cases hshared.symm.trans hip
  exact absurd hroutable.is_shared (by decide +kernel)

theorem unresolved_host_is_refused : ∃ trace result,
    Exec (Scenario.deployment.container.ssrf_guard.validate_url Scenario.processed.webhook_url)
      trace result ∧ result ≠ .ok () ∧ SSRFGuard.Refused Scenario.processed.webhook_url result := by
  obtain ⟨parsed, host, port, hparse, hport⟩ := Scenario.target
  have h := exec_looked_up hparse hport rfl (.error (.OSError "Name or service not known"))
  have hne : SSRFGuard.outcome Scenario.processed.webhook_url
      (.error (.OSError "Name or service not known")) ≠ .ok () := nofun
  refine ⟨_, _, h, hne, ?_⟩
  have hresolver : SSRFGuard.Resolver
      [⟨.getaddrinfo host port, .error (.OSError "Name or service not known")⟩] := by
    intro host' port' answer hmem
    obtain ⟨⟩ := List.mem_singleton.mp hmem
    exact .inr (.inl ⟨_, rfl⟩)
  have hwork : SSRFGuard.Workable Scenario.deployment.container.ssrf_guard
      Scenario.processed.webhook_url
      [⟨.getaddrinfo host port, .error (.OSError "Name or service not known")⟩] := by
    have ht := SSRFGuard.parse_host_ok_iff.mp hparse
    refine ⟨⟨parsed, ht.parses⟩, fun parsed' host' ht' _ => ?_⟩
    obtain ⟨rfl, rfl⟩ := ht.unique ht'
    refine ⟨⟨port, hport⟩, fun port' answer hmem => ?_⟩
    obtain ⟨⟩ := List.mem_singleton.mp hmem
    exact ⟨by simp, by simp⟩
  exact ((guard_fails_in_its_own_way_iff h hresolver).mpr hwork).1.resolve_left hne

namespace Scenario

-- A host with a label of 64 characters, which the idna codec refuses.
def overlong_url : String :=
  "https://" ++ String.ofList (List.replicate 64 'a') ++ ".example/hook"

end Scenario

theorem overlong_label_escapes : ∃ trace result,
    Exec (Scenario.deployment.container.ssrf_guard.validate_url Scenario.overlong_url)
      trace result ∧ SSRFGuard.Resolver trace ∧
        ¬(result = .ok () ∨ SSRFGuard.Refused Scenario.overlong_url result) := by
  obtain ⟨parsed, host, port, hparse, hport⟩ := @Scenario.target_of
    Scenario.deployment.container.ssrf_guard Scenario.overlong_url (by decide +kernel)
  refine ⟨_, _, exec_looked_up hparse hport rfl (.error (.python .UnicodeError)), ?_, ?_⟩
  · intro host' port' answer hmem
    obtain ⟨⟩ := List.mem_singleton.mp hmem
    exact .inr (.inr rfl)
  · rintro (he | ⟨reason, ip, he⟩) <;> cases he

end PaymentsProcessor
