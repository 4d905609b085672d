import PaymentsProcessor.Effects
import PaymentsProcessor.Python.Notation
import PaymentsProcessor.Python.UrlParse

namespace PaymentsProcessor

open Python Concurrency

theorem python_isinstance (e : PyError) : (Exn.python e).isinstance .Exception := by
  cases e <;> decide

structure SSRFGuard where
  allow_private_hosts : Bool
  unicode : Unicode

namespace SSRFGuard

def _ALLOWED_SCHEMES : List String := ["https"]

def _normalize_ip (raw : String) : Except PyError IPAddress := do
  let ip ← IPAddress.ip_address (partition '%' raw.toList).1
  return ip.ipv4_mapped.getD ip

def _is_disallowed (ip : IPAddress) : Bool :=
  ip.is_private || ip.is_loopback || ip.is_link_local || ip.is_multicast || ip.is_reserved ||
    ip.is_unspecified

-- The loop over the answers of `getaddrinfo`.
def check_infos (url : String) : List AddrInfo → Except Exn Unit
  | [] => .ok ()
  | info :: infos =>
      match info.host with
      | .other => check_infos url infos
      | .str raw_ip => do
          let ip ← (_normalize_ip raw_ip).mapError .python
          if _is_disallowed ip then
            throw (.WebhookUrlNotAllowedError url "address_disallowed" (some ip.str))
          else check_infos url infos

-- What `validate_url` settles before it asks the resolver: the host to look up.
def parse_host (self : SSRFGuard) (url : String) : Except Exn (ParsedUrl × String) := do
  let parsed ← (UrlParse.urlparse self.unicode url).mapError .python
  if String.ofList (parsed.scheme.map UrlParse.lowerAscii) ∉ _ALLOWED_SCHEMES then
    throw (.WebhookUrlNotAllowedError url "scheme_not_allowed" none)
  else
    match parsed.hostname self.unicode with
    | none => throw (.WebhookUrlNotAllowedError url "missing_host" none)
    | some host =>
        if host = "" then throw (.WebhookUrlNotAllowedError url "missing_host" none)
        else return (parsed, host)

def resolve (url : String) (parsed : ParsedUrl) (host : String) : Async (List AddrInfo) :=
  tryCatch (do
    let port ← ofPython parsed.port
    Async.getaddrinfo host port) fun e =>
      if e.isinstance .OSError then
        throw (.WebhookUrlNotAllowedError url "resolution_failed" none)
      else throw e

def validate_url (self : SSRFGuard) (url : String) : Async Unit := do
  let (parsed, host) ← Prog.ofExcept (self.parse_host url)
  if self.allow_private_hosts then pure ()
  else
    let infos ← resolve url parsed host
    Prog.ofExcept (check_infos url infos)

-- What the guard raises of its own accord is an `Exception`.
theorem parse_host_error {guard : SSRFGuard} {url : String} {x : Exn}
    (h : guard.parse_host url = .error x) : x.isinstance .Exception := by
  unfold parse_host at h
  cases hp : UrlParse.urlparse guard.unicode url with
  | error e =>
      rw [hp] at h
      cases h
      exact python_isinstance e
  | ok parsed =>
      rw [hp] at h
      simp only [Except.mapError, bind, Except.bind] at h
      split at h
      · cases h
        rfl
      · split at h
        · cases h
          rfl
        · split at h <;> cases h
          rfl

theorem check_infos_error {url : String} {infos : List AddrInfo} {x : Exn}
    (h : check_infos url infos = .error x) : x.isinstance .Exception := by
  induction infos with
  | nil => cases h
  | cons info infos ih =>
      unfold check_infos at h
      split at h
      · exact ih h
      · rename_i raw _
        cases hn : _normalize_ip raw with
        | error e =>
            rw [hn] at h
            cases h
            exact python_isinstance e
        | ok ip =>
            rw [hn] at h
            simp only [Except.mapError, bind, Except.bind] at h
            split at h
            · cases h
              rfl
            · exact ih h

end SSRFGuard

-- `s.encode()`
def encode (s : String) : List UInt8 := s.toUTF8.data.toList

-- The library functions that the program's bytes go through.
structure Libraries where
  unicode : Unicode
  to_json : WebhookPayload → Except PyError (List UInt8)
  -- The assumption that the payload of every payment is written. A `meta` that is
  -- nested too deeply for the serializer is left aside.
  serializes : ∀ payload e, to_json payload ≠ .error e
  hmac_sha256 : List UInt8 → List UInt8 → String

-- `payload.model_dump_json().encode()`
def Libraries.model_dump_json (self : Libraries) (payload : WebhookPayload) : List UInt8 :=
  match h : self.to_json payload with
  | .ok body => body
  | .error e => absurd h (self.serializes payload e)

-- The bytes that `sign_webhook` signs.
def signed_message (body : List UInt8) (ts : ℤ) : List UInt8 := encode (toString ts ++ ".") ++ body

def sign_webhook (lib : Libraries) (body : List UInt8) (secret : String) (ts : ℤ) : String :=
  lib.hmac_sha256 (encode secret) (signed_message body ts)

theorem encode_append (s t : String) : encode (s ++ t) = encode s ++ encode t := utf8_append s t

theorem encode_inj {s t : String} (h : encode s = encode t) : s = t := utf8_inj h

theorem signed_message_eq (body : List UInt8) (ts : ℤ) :
    signed_message body ts = encode (toString ts) ++ '.'.val.toUInt8 :: body := by
  unfold signed_message
  rw [encode_append, List.append_assoc]
  rfl

-- The point after the time is the first one, whatever the body starts with.
theorem signed_message_inj {body body' : List UInt8} {ts ts' : ℤ}
    (h : signed_message body ts = signed_message body' ts') : ts = ts' ∧ body = body' := by
  have hpoint : ∀ n : ℤ, '.'.val.toUInt8 ∉ encode (toString n) := fun n hmem =>
    point_notMem_toString n (mem_utf8_of_ascii (fun _ => ascii_of_mem_toString) (by decide) hmem)
  rw [signed_message_eq, signed_message_eq] at h
  obtain ⟨hts, hbody⟩ := append_separator_inj (hpoint ts) (hpoint ts') h
  exact ⟨toString_int_inj (encode_inj hts), hbody⟩

end PaymentsProcessor
