import PaymentsProcessor.Guarantees.Outcomes

namespace PaymentsProcessor

open Python Concurrency PaymentsConstants

-- A receiver who shares the secret accepts this time and body.
def HttpRequest.verifies (lib : Libraries) (secret : String) (request : HttpRequest) (ts : ℤ)
    (body : List UInt8) : Prop :=
  request.headers.lookup WEBHOOK_SIGNATURE_HEADER =
    some (WEBHOOK_SIGNATURE_PREFIX ++ sign_webhook lib body secret ts)

-- The time in the header, a point and the body are what is signed, and if the
-- digest has no collisions the signature is good for nothing else.
structure SignedFor (lib : Libraries) (secret : String) (request : HttpRequest) (ts : ℤ) : Prop where
  timestamp : request.headers.lookup WEBHOOK_TIMESTAMP_HEADER = some (toString ts)
  message : encode (toString ts) ++ encode "." ++ request.content.bytes =
    signed_message request.content.bytes ts
  signature : request.headers.lookup WEBHOOK_SIGNATURE_HEADER = some (WEBHOOK_SIGNATURE_PREFIX ++
    lib.hmac_sha256 (encode secret) (encode (toString ts) ++ encode "." ++ request.content.bytes))
  verifies : Function.Injective (lib.hmac_sha256 (encode secret)) → ∀ ts' body',
    request.verifies lib secret ts' body' ↔ ts' = ts ∧ body' = request.content.bytes

section Signed

variable {lib : Libraries} {secret : String}

theorem sign_webhook_inj (hinj : Function.Injective (lib.hmac_sha256 (encode secret)))
    {body body' : List UInt8} {ts ts' : ℤ}
    (h : sign_webhook lib body secret ts = sign_webhook lib body' secret ts') :
    ts = ts' ∧ body = body' := signed_message_inj (hinj h)

theorem request_signed (service : WebhookService) (payment : Payment) (event_id : UUID) (ts : ℤ) :
    SignedFor service.lib service.webhook_config.WEBHOOK_SECRET
      (service.request payment event_id ts) ts := by
  have hmessage : ∀ body, encode (toString ts) ++ encode "." ++ body = signed_message body ts := by
    intro body
    rw [signed_message, encode_append]
  refine ⟨rfl, hmessage _, ?_, fun hinj ts' body' => ⟨fun h => ?_, ?_⟩⟩
  · rw [hmessage]
    rfl
  · have hsign := (String.append_right_inj _).mp (Option.some.inj h)
    obtain ⟨rfl, rfl⟩ := sign_webhook_inj hinj hsign
    exact ⟨rfl, rfl⟩
  · rintro ⟨rfl, rfl⟩
    rfl

-- What is signed determines the time and the body, and every webhook that is
-- sent is signed for the time that its header tells and the body that it has.
theorem signatures_bind_time_and_body :
    (∀ ts₁ ts₂ b₁ b₂, signed_message b₁ ts₁ = signed_message b₂ ts₂ → ts₁ = ts₂ ∧ b₁ = b₂) ∧
      ∀ (d : Deployment) (c : SystemConfig), Reachable d unrestricted c →
        ∀ post ∈ c.world.log.posts, ∃ ts, SignedFor d.container.lib
          d.container.webhook_config.WEBHOOK_SECRET post.request ts := by
  refine ⟨fun _ _ _ _ h => signed_message_inj h, fun d c h post hpost => ?_⟩
  obtain ⟨payment, event_id, ts, hrequest, _⟩ := (reachable_attested h).posts post hpost
  rw [hrequest]
  exact ⟨ts, request_signed d.container.webhook_service payment event_id ts⟩

end Signed

namespace Scenario

-- The body of the one webhook that is sent below.
def sent_body : String :=
  "\x7b\"event_id\":\"00000000-0000-0000-0000-000000000008\"," ++
    "\"payment_id\":\"00000000-0000-0000-0000-000000000007\",\"status\":\"SUCCEEDED\"," ++
    "\"amount\":\"10.0000\",\"currency\":\"RUB\"," ++
    "\"processed_at\":\"1970-01-01T00:00:00.000013Z\",\"metadata\":null\x7d"

-- The HMAC-SHA256 of what is signed below.
def real_digest : String := "d50a48ca4f1354fd34d1a66e1cd4d84073b46907d8eb9d05f318ff1a67e1dc66"

-- On any other message this is some function without collisions.
def digest (message : List UInt8) : String :=
  if message = signed_message (encode sent_body) 0 then
    real_digest
  else String.ofList ('-' :: message.map Char.ofUInt8)

def signing : Deployment :=
  { deployment with
    container := { deployment.container with
      lib := ⟨deployment.container.lib.unicode, fun _ => .ok (encode sent_body), by simp,
        fun _ => digest⟩ } }

theorem digest_injective : Function.Injective digest := by
  have hfirst : ∀ message : List Char, real_digest ≠ String.ofList ('-' :: message) := by
    intro message h
    have hhead := congrArg (fun s => s.toList.head?) h
    simp only [String.toList_ofList, List.head?_cons] at hhead
    exact absurd hhead (by decide)
  have hchar : Function.Injective Char.ofUInt8 := by
    intro a b h
    have hval : a.toUInt32.toNat = b.toUInt32.toNat := congrArg (fun c => c.val.toNat) h
    exact UInt8.toNat_inj.mp (by simpa using hval)
  intro a b h
  unfold digest at h
  by_cases ha : a = signed_message (encode sent_body) 0
  · by_cases hb : b = signed_message (encode sent_body) 0
    · rw [ha, hb]
    · rw [if_pos ha, if_neg hb] at h
      exact absurd h (hfirst _)
  · by_cases hb : b = signed_message (encode sent_body) 0
    · rw [if_neg ha, if_pos hb] at h
      exact absurd h.symm (hfirst _)
    · rw [if_neg ha, if_neg hb] at h
      have h := congrArg String.toList h
      rw [String.toList_ofList, String.toList_ofList, List.cons.injEq] at h
      exact List.map_injective_iff.mpr hchar h.2

end Scenario

theorem sent_webhook_is_signed : ∃ c post, Reachable Scenario.signing unrestricted c ∧
    post ∈ c.world.log.posts ∧ ∃ ts, ∀ ts' body',
      post.request.verifies Scenario.signing.container.lib "secret" ts' body' ↔
        ts' = ts ∧ body' = post.request.content.bytes := by
  have hrun : (SystemConfig.init.execAll (machine Scenario.signing) Scenario.any
      (Scenario.create 0 ++ Scenario.batch 1 ++ Scenario.delivery 2)).any
        fun c => c.world.log.posts.length = 1 := by decide +kernel
  obtain ⟨c, hc, hf⟩ := (Option.any_eq_true _ _).mp hrun
  have hr : Reachable Scenario.signing unrestricted c := run_of_execAll (fun _ _ _ _ _ => trivial) hc
  obtain ⟨post, hpost⟩ := List.exists_mem_of_length_pos (Nat.lt_of_sub_eq_succ (of_decide_eq_true hf))
  obtain ⟨ts, hsigned⟩ := signatures_bind_time_and_body.2 Scenario.signing c hr post hpost
  exact ⟨c, post, hr, hpost, ts, hsigned.verifies Scenario.digest_injective⟩

end PaymentsProcessor
