import PaymentsProcessor.Routers
import PaymentsProcessor.Schemas.Validation

namespace PaymentsProcessor

open Python Validation PaymentsConstants

-- What an error's echo of a number can be written as.
def PyDecimal.echoable : PyDecimal → Bool
  | .finite d =>
      if 0 ≤ d.exponent then fewDigits (d.signed * 10 ^ d.exponent.toNat)
      else |d.toRat| < overflow
  | _ => false

-- And a JSON value, without what the encoder leaves out of it.
def echoes (v : Json) : Bool := (sqlalchemy_safe v).renderable

def PyValue.echoable : PyValue → Bool
  | .json v => echoes v
  | .decimal d => PyDecimal.echoable d
  | _ => true

@[simp] theorem renderable_literal (s : String) : (literal s).renderable = true := by
  simp [literal, Json.renderable, Json.all]

@[simp] theorem echoes_null : echoes .null = true := rfl

@[simp] theorem echoes_str (s : Text) : echoes (.str s) = s.encodable := rfl

theorem renderable_obj (fields : List (Text × Json)) : (Json.obj fields).renderable =
    fields.all fun field => field.1.encodable && field.2.renderable := by
  simp [Json.renderable, Json.all]

theorem renderable_arr (items : List Json) :
    (Json.arr items).renderable = items.all Json.renderable := by
  rw [Json.renderable, Json.all, Json.allItems_eq]
  rfl

-- Whether a value is there and can be written.
def writes : Except PyError Json → Bool
  | .ok v => v.renderable
  | .error _ => false

theorem writes_decimal_encoder (d : PyDecimal) :
    writes (decimal_encoder d) = PyDecimal.echoable d := by
  cases d with
  | finite d =>
      simp only [decimal_encoder, PyDecimal.echoable]
      split_ifs with hint hsmall
      · simp [writes, Json.renderable, Json.all]
      · simp [writes, Json.renderable, Json.all, PyFloat.isFinite, hsmall]
      · simp [writes, Json.renderable, Json.all, PyFloat.isFinite, hsmall]
  | inf negative => rfl
  | nan negative signaling payload => cases signaling <;> rfl

section Rendering

variable {fw : Framework} (hfw : fw.Encodes)

include hfw

theorem writes_input (v : PyValue) : writes (fw.jsonable_encoder v) = v.echoable := by
  cases v with
  | json v => rw [hfw.encoder_json]; rfl
  | decimal d => rw [hfw.encoder_decimal]; exact writes_decimal_encoder d
  | currency c =>
      rw [hfw.encoder_currency]
      simp [writes, PyValue.echoable, Json.renderable, Json.all]
  | object => rw [hfw.encoder_object]; rfl

def Ctx.json : Ctx → Json
  | .size n => .int n.toNat
  | .text s => literal s
  | .gt => .int 0
  | .exception => .obj []

omit hfw in
theorem renderable_ctx (c : Ctx) : c.json.renderable = true := by
  cases c with
  | size n =>
      have hn : n.toNat < 10 ^ maxStrDigits :=
        lt_of_lt_of_le n.toNat_lt (le_trans (by norm_num : 2 ^ 64 ≤ 10 ^ 20)
          (Nat.pow_le_pow_right (by norm_num) (by decide)))
      simp [Ctx.json, Json.renderable, Json.all, fewDigits, hn]
  | text s => exact renderable_literal s
  | gt => simp [Ctx.json, Json.renderable, Json.all, fewDigits]
  | exception => rfl

theorem encode_ctx_eq (c : Ctx) : ErrorDetails.encode_ctx fw c = .ok c.json := by
  cases c with
  | size n => exact hfw.encoder_json _
  | text s => exact hfw.encoder_json _
  | gt => rw [ErrorDetails.encode_ctx, hfw.encoder_decimal]; rfl
  | exception => exact hfw.encoder_object

theorem encode_fields_eq (ctx : List (String × Ctx)) : ErrorDetails.encode_fields fw ctx =
    .ok (ctx.map fun field => (Text.ofString field.1, field.2.json)) := by
  induction ctx with
  | nil => rfl
  | cons field ctx ih =>
      obtain ⟨k, v⟩ := field
      simp [ErrorDetails.encode_fields, encode_ctx_eq hfw, ih, Bind.bind, Except.bind, Pure.pure,
        Except.pure]

-- Of an error only the echo can fail to be written.
theorem writes_encode (error : ErrorDetails) :
    writes (error.encode fw) = error.input.echoable := by
  rw [← writes_input hfw]
  unfold ErrorDetails.encode
  cases fw.jsonable_encoder error.input with
  | error e => rfl
  | ok input =>
      simp only [encode_fields_eq hfw, Bind.bind, Except.bind, writes]
      have hctx : (if error.ctx = [] then [] else [(Text.ofString "ctx", Json.obj
          (error.ctx.map fun field => (Text.ofString field.1, field.2.json)))]).all
          (fun field => field.1.encodable && field.2.renderable) = true := by
        split
        · rfl
        · simp [renderable_obj, renderable_ctx]
      show (Json.obj _).renderable = input.renderable
      rw [renderable_obj, List.all_append, hctx]
      simp [renderable_arr]

theorem encode_all_writes (errors : List ErrorDetails) :
    (match ErrorDetails.encode_all fw errors with
      | .ok details => details.all Json.renderable
      | .error _ => false) = errors.all fun error => error.input.echoable := by
  induction errors with
  | nil => rfl
  | cons error errors ih =>
      rw [List.all_cons, ← ih, ← writes_encode hfw]
      simp only [ErrorDetails.encode_all]
      cases error.encode fw with
      | error e => simp [writes, Bind.bind, Except.bind]
      | ok detail =>
          cases ErrorDetails.encode_all fw errors with
          | error e => simp [writes, Bind.bind, Except.bind]
          | ok details => simp [writes, Bind.bind, Except.bind, Pure.pure, Except.pure]

theorem handler_ok_iff (errors : List ErrorDetails) :
    (∃ bytes, validation_exception_handler fw (.RequestValidationError errors) =
        .ok (.rendered 422 bytes)) ↔ ∀ error ∈ errors, error.input.echoable := by
  have hall := encode_all_writes hfw errors
  rw [← List.all_eq_true, ← hall]
  cases hd : ErrorDetails.encode_all fw errors with
  | error e => simp [validation_exception_handler, hd, Bind.bind, Except.bind]
  | ok details =>
      have hr := Json.render_ok_iff fw.float_repr (validation_content details)
      have hcontent : (validation_content details).renderable = details.all Json.renderable := by
        simp [validation_content, renderable_obj, renderable_arr]
      rw [hcontent] at hr
      rw [← hr]
      cases hb : (validation_content details).render fw.float_repr <;>
        simp [validation_exception_handler, hd, hfw.render, hb, Bind.bind, Except.bind, Pure.pure,
          Except.pure]

end Rendering

-- The inputs that the errors of a check echo can be written.
def Checked.Legible {α : Type} (r : Result α) : Prop := ∀ error ∈ r.errors, error.input.echoable

def Refused {α : Type} (r : Except Fault α) : Prop := ∃ fault, r = .error fault

section Fields

variable {fw : Framework} {α : Type} {source : Source} {name : String}
  {validate : List String → PyValue → Result α} {loc : List String} {v : PyValue}

theorem legible_check {r : Except Fault α} :
    Checked.Legible (check loc v r) ↔ (Refused r → v.echoable) := by
  cases r with
  | ok a => simp [Checked.Legible, check, Checked.errors, Refused]
  | error fault => simp [Checked.Legible, check, Checked.errors, Refused, Fault.at]

theorem legible_map {β : Type} {f : α → β} {r : Result α} :
    Checked.Legible (r.map f) ↔ Checked.Legible r := by
  simp [Checked.Legible]

theorem legible_required : Checked.Legible (source.required fw name validate) ↔
    (source.get name = none → source.whole.echoable) ∧
      ∀ v, source.get name = some v → Checked.Legible (validate (source.loc ++ [name]) v) := by
  unfold Source.required
  cases source.get name with
  | none => simp [Checked.Legible, Checked.errors, Fault.at]
  | some v => simp

theorem legible_optional : Checked.Legible (source.optional name validate) ↔
    ∀ v, source.get name = some v → v ≠ .json .null →
      Checked.Legible (validate (source.loc ++ [name]) v) := by
  unfold Source.optional
  split
  · next h => simp [h, Checked.Legible, Checked.errors]
  · next h => simp [h, Checked.Legible, Checked.errors]
  · next v hnull h =>
      rw [legible_map]
      constructor
      · intro hv w hw _
        exact Option.some.inj (h.symm.trans hw) ▸ hv
      · exact fun hv => hv v h hnull

theorem legible_amount_text (s : Text) :
    Checked.Legible (PaymentBase.amount_field fw loc (.json (.str s))) ↔
      ∀ d, PyDecimal.ofText s = some d →
        (fw.decimal AMOUNT_GT AMOUNT_MAX_DIGITS AMOUNT_DECIMAL_PLACES d).isSome →
          PyDecimal.echoable d := by
  cases hs : PyDecimal.ofText s with
  | none =>
      simp [Checked.Legible, PaymentBase.amount_field, PaymentBase._prevent_float_precision_loss,
        hs, run_validator, Checked.errors]
  | some d =>
      simp only [PaymentBase.amount_field, PaymentBase._prevent_float_precision_loss, hs,
        run_validator, PaymentBase.check_amount, Option.some.injEq, forall_eq']
      cases fw.decimal AMOUNT_GT AMOUNT_MAX_DIGITS AMOUNT_DECIMAL_PLACES d with
      | none => simp [Checked.Legible, Checked.errors]
      | some fault => simp [Checked.Legible, Checked.errors, Fault.at, PyValue.echoable]

theorem legible_amount_other {j : Json} (h : ∀ s, j ≠ .str s) :
    Checked.Legible (PaymentBase.amount_field fw loc (.json j)) ↔ echoes j := by
  cases j with
  | str s => exact absurd rfl (h s)
  | _ =>
      simp [Checked.Legible, PaymentBase.amount_field, PaymentBase._prevent_float_precision_loss,
        run_validator, Checked.errors, PyValue.echoable]

theorem legible_webhook_url : Checked.Legible (PaymentBase.webhook_url_field fw loc v) ↔
    (Refused (fw.http_url v) ∨
      (∃ url, fw.http_url v = .ok url ∧ WEBHOOK_URL_MAX_LEN < url.length) → v.echoable) := by
  cases h : fw.http_url v with
  | error fault =>
      simp [PaymentBase.webhook_url_field, h, check, Checked.Legible, Checked.errors, Refused,
        Fault.at]
  | ok url =>
      by_cases hlong : WEBHOOK_URL_MAX_LEN < url.length
      · simp [PaymentBase.webhook_url_field, h, check, PaymentBase._check_webhook_url_length,
          hlong, run_validator, Checked.Legible, Checked.errors, Refused]
      · simp [PaymentBase.webhook_url_field, h, check, PaymentBase._check_webhook_url_length,
          hlong, run_validator, Checked.Legible, Checked.errors, Refused]

end Fields

-- A refused amount is echoed as it came, or as the number it was read as.
def AmountLegible (fw : Framework) : Json → Prop
  | .str s => ∀ d, PyDecimal.ofText s = some d →
      (fw.decimal AMOUNT_GT AMOUNT_MAX_DIGITS AMOUNT_DECIMAL_PLACES d).isSome →
        PyDecimal.echoable d
  | v => echoes v

-- What a refused body echoes can be written: each value that is refused, and
-- the whole body where a required field is missing.
structure FieldsLegible (fw : Framework) (fields : List (Text × Json)) : Prop where
  body : (∃ name ∈ ["amount", "currency", "webhook_url"],
    fields.lookup (Text.ofString name) = none) → echoes (.obj fields)
  amount : ∀ v, fields.lookup (Text.ofString "amount") = some v → AmountLegible fw v
  currency : ∀ v, fields.lookup (Text.ofString "currency") = some v →
    Refused (fw.currency_enum (.json v)) → echoes v
  description : ∀ v, fields.lookup (Text.ofString "description") = some v → v ≠ .null →
    Refused (fw.string 0 DESCRIPTION_MAX_LEN (.json v)) → echoes v
  meta_ : ∀ v, fields.lookup (Text.ofString "meta") = some v → v ≠ .null →
    Refused (fw.json_dict (.json v)) → echoes v
  webhook_url : ∀ v, fields.lookup (Text.ofString "webhook_url") = some v →
    (Refused (fw.http_url (.json v)) ∨
      ∃ url, fw.http_url (.json v) = .ok url ∧ WEBHOOK_URL_MAX_LEN < url.length) → echoes v

def BodyLegible (fw : Framework) : Json → Prop
  | .obj fields => FieldsLegible fw fields
  | body => echoes body

section Requests

variable {fw : Framework}

theorem legible_amount {loc : List String} {v : Json} :
    Checked.Legible (PaymentBase.amount_field fw loc (.json v)) ↔ AmountLegible fw v := by
  cases v with
  | str s => exact legible_amount_text s
  | _ => exact legible_amount_other (by simp)

theorem legible_errors {source : Source} {errors : List ErrorDetails}
    (h : PaymentBase.validate fw source = .invalid errors) :
    (∀ error ∈ errors, error.input.echoable) ↔
      Checked.Legible (source.required fw "amount" (PaymentBase.amount_field fw)) ∧
      Checked.Legible (source.required fw "currency" (PaymentBase.currency_field fw)) ∧
      Checked.Legible (source.optional "description" (PaymentBase.description_field fw)) ∧
      Checked.Legible (source.optional "meta" (PaymentBase.meta_field fw)) ∧
      Checked.Legible (source.required fw "webhook_url" (PaymentBase.webhook_url_field fw)) := by
  rw [PaymentBase.validate_errors h]
  simp only [List.mem_append, or_imp, forall_and, Checked.Legible, and_assoc]

variable {fields : List (Text × Json)} {loc : List String} {name : String} {α : Type}
  {validate : List String → PyValue → Result α}

theorem legible_required_field :
    Checked.Legible ((Source.of loc fields).required fw name validate) ↔
      (fields.lookup (Text.ofString name) = none → echoes (.obj fields)) ∧
        ∀ v, fields.lookup (Text.ofString name) = some v →
          Checked.Legible (validate (loc ++ [name]) (.json v)) := by
  rw [legible_required]
  cases h : fields.lookup (Text.ofString name) <;> simp [Source.of, h, PyValue.echoable]

theorem legible_optional_field :
    Checked.Legible ((Source.of loc fields).optional name validate) ↔
      ∀ v, fields.lookup (Text.ofString name) = some v → v ≠ .null →
        Checked.Legible (validate (loc ++ [name]) (.json v)) := by
  rw [legible_optional]
  cases h : fields.lookup (Text.ofString name) <;> simp [Source.of, h]

-- A body without a refused value can be echoed.
theorem legible_source_iff :
    (Checked.Legible ((Source.of loc fields).required fw "amount" (PaymentBase.amount_field fw)) ∧
      Checked.Legible
        ((Source.of loc fields).required fw "currency" (PaymentBase.currency_field fw)) ∧
      Checked.Legible
        ((Source.of loc fields).optional "description" (PaymentBase.description_field fw)) ∧
      Checked.Legible ((Source.of loc fields).optional "meta" (PaymentBase.meta_field fw)) ∧
      Checked.Legible
        ((Source.of loc fields).required fw "webhook_url" (PaymentBase.webhook_url_field fw))) ↔
      FieldsLegible fw fields := by
  simp only [legible_required_field, legible_optional_field, legible_amount,
    PaymentBase.currency_field, PaymentBase.description_field, PaymentBase.meta_field,
    legible_check, legible_webhook_url]
  constructor
  · rintro ⟨⟨hnone, hamount⟩, ⟨hnone', hcurrency⟩, hdescription, hmeta, hnone'', hurl⟩
    refine ⟨?_, hamount, hcurrency, hdescription, hmeta, hurl⟩
    simp only [List.mem_cons, List.not_mem_nil, or_false]
    rintro ⟨name, rfl | rfl | rfl, hname⟩
    · exact hnone hname
    · exact hnone' hname
    · exact hnone'' hname
  · intro hl
    exact ⟨⟨fun hname => hl.body ⟨_, by simp, hname⟩, hl.amount⟩,
      ⟨fun hname => hl.body ⟨_, by simp, hname⟩, hl.currency⟩, hl.description, hl.meta_,
      fun hname => hl.body ⟨_, by simp, hname⟩, hl.webhook_url⟩

-- The errors of a refused body can be written if and only if its refused values can.
theorem legible_refused {body : Json} {errors : List ErrorDetails}
    (h : PaymentCreate.model_validate fw loc body = .invalid errors) :
    (∀ error ∈ errors, error.input.echoable) ↔ BodyLegible fw body := by
  cases body with
  | obj fields => exact (legible_errors h).trans legible_source_iff
  | _ =>
      obtain rfl : errors = _ := (Checked.invalid.inj h).symm
      simp [Fault.at, PyValue.echoable, BodyLegible]

theorem legible_accepted {body : Json} {p : PaymentBase}
    (h : PaymentCreate.model_validate fw loc body = .ok p) : BodyLegible fw body := by
  cases body with
  | obj fields =>
      obtain ⟨hamount, hcurrency, hdescription, hmeta, hurl⟩ := PaymentBase.validate_eq_ok h
      apply legible_source_iff.mp
      rw [hamount, hcurrency, hdescription, hmeta, hurl]
      simp [Checked.Legible, Checked.errors]
  | _ => cases h

theorem encodable_header (value : FieldValue) : value.text.encodable = true := by
  simp only [FieldValue.text, Text.encodable, List.all_map, List.all_eq_true]
  intro b _
  have hb : b.toNat < 0xd800 := lt_trans b.toNat_lt (by norm_num)
  have hc := CodePoint.isSurrogate_of_lt (c := ⟨b.toNat, lt_trans b.toNat_lt (by decide)⟩) hb
  simp only [Function.comp_apply, hc, Bool.not_false]

-- What an error of a header echoes can always be written.
theorem legible_header {name : String} {value : Option FieldValue}
    {validate : List String → PyValue → Result Text}
    (h : ∀ loc s, s.encodable → Checked.Legible (validate loc (.json (.str s)))) :
    Checked.Legible (required_header fw name value validate) := by
  cases value with
  | none =>
      simp [required_header, Checked.Legible, Checked.errors, Fault.at, PyValue.echoable]
  | some value => exact h _ _ (encodable_header value)

theorem legible_headers (headers : RequestHeaders) :
    Checked.Legible (track_api_key_header fw headers) ∧
      Checked.Legible (idempotency_key_header fw headers) := by
  constructor
  · exact legible_header fun loc s _ => by simp [Checked.Legible, Checked.errors]
  · refine legible_header fun loc s hs => legible_check.mpr fun _ => ?_
    simp [PyValue.echoable, hs]

theorem header_ne_crashed {name : String} {value : Option FieldValue}
    {validate : List String → PyValue → Result Text}
    (h : ∀ loc v e, validate loc v ≠ .crashed e) (e : Exn) :
    required_header fw name value validate ≠ .crashed e := by
  cases value with
  | none => simp [required_header]
  | some value => exact h _ _ e

theorem headers_ne_crashed (headers : RequestHeaders) :
    (∀ e, track_api_key_header fw headers ≠ .crashed e) ∧
      ∀ e, idempotency_key_header fw headers ≠ .crashed e := by
  constructor
  · apply header_ne_crashed
    intro loc v e
    split <;> simp
  · exact header_ne_crashed fun loc v e => check_ne_crashed

theorem legible_payload {body : Json} (h : ∀ e, validate_payload fw body ≠ .crashed e) :
    Checked.Legible (validate_payload fw body) ↔ BodyLegible fw body := by
  cases body with
  | null =>
      simp [validate_payload, Checked.Legible, Checked.errors, Fault.at, PyValue.echoable,
        BodyLegible]
  | _ =>
      simp only [validate_payload] at h ⊢
      cases hm : PaymentCreate.model_validate fw ["body"] _ with
      | ok p => simp [Checked.Legible, Checked.errors, legible_accepted hm]
      | invalid errors => exact legible_refused hm
      | crashed e => exact absurd hm (h e)

theorem legible_request {headers : RequestHeaders} {body : Json} {errors : List ErrorDetails}
    (h : validate_request fw headers body = .invalid errors) :
    (∀ error ∈ errors, error.input.echoable) ↔ BodyLegible fw body := by
  obtain ⟨hapi, hkey⟩ := @headers_ne_crashed fw headers
  obtain ⟨lapi, lkey⟩ := @legible_headers fw headers
  have hcrash : ∀ e, validate_request fw headers body ≠ .crashed e := fun e hc =>
    nomatch h.symm.trans hc
  obtain ⟨hfirst, hpayload⟩ := Checked.seq_ne_crashed.mp hcrash
  obtain ⟨hmap, -⟩ := Checked.seq_ne_crashed.mp hfirst
  have he : errors = (validate_request fw headers body).errors := h ▸ rfl
  rw [he, validate_request, Checked.errors_seq hfirst hpayload, Checked.errors_seq hmap hkey,
    Checked.errors_map, ← legible_payload hpayload]
  simp only [List.mem_append, or_imp, forall_and]
  exact ⟨fun hl => hl.2, fun hl => ⟨⟨lapi, lkey⟩, hl⟩⟩

-- The response to a refused request can be rendered if and only if every value
-- that its body is refused for can be written.
theorem rendered_iff (hfw : fw.Encodes) (headers : RequestHeaders) (body : Json)
    (errors : List ErrorDetails)
    (h : validated_parameters fw headers body = .error (.RequestValidationError errors)) :
    (∃ bytes, validation_exception_handler fw (.RequestValidationError errors) =
        .ok (.rendered 422 bytes)) ↔ BodyLegible fw body := by
  rw [handler_ok_iff hfw]
  unfold validated_parameters at h
  cases hv : validate_request fw headers body with
  | ok parameters => simp [hv] at h
  | crashed e => simp [hv] at h
  | invalid errors' =>
      obtain rfl : errors' = errors := by simpa [hv] using h
      exact legible_request hv

-- An amount that is a string is one that `Decimal` reads.
def AmountReadable : Json → Prop
  | .obj fields => ∀ s, fields.lookup (Text.ofString "amount") = some (.str s) →
      PyDecimal.ofText s ≠ none
  | _ => True

theorem readable_iff {body : Json} : AmountReadable body ↔
    ∀ e, PaymentCreate.model_validate fw loc body ≠ .crashed e := by
  cases body with
  | obj fields =>
      simp only [AmountReadable, PaymentCreate.model_validate, ne_eq,
        PaymentBase.validate_eq_crashed, not_and, not_exists]
      constructor
      · rintro hs e rfl s hget hnone
        obtain ⟨v, hv, hj⟩ := Option.map_eq_some_iff.mp hget
        exact hs s (by rw [hv, PyValue.json.inj hj]) hnone
      · intro hs s hget hnone
        exact hs InvalidOperation rfl s (by simp [Source.of, hget]) hnone
  | _ => simp [AmountReadable, PaymentCreate.model_validate]

-- An accepted amount has passed the check of its digits.
theorem accepted_amount_checked {source : Source} {p : PaymentBase}
    (h : PaymentBase.validate fw source = .ok p) :
    fw.decimal AMOUNT_GT AMOUNT_MAX_DIGITS AMOUNT_DECIMAL_PLACES p.amount = none ∧
      ∃ v, source.get "amount" = some v ∧
        (v = .decimal p.amount ∨ ∃ s, v = .json (.str s) ∧ PyDecimal.ofText s = some p.amount) := by
  obtain ⟨v, hget, hv⟩ := Source.required_eq_ok.mp (PaymentBase.validate_eq_ok h).1
  obtain ⟨hnone, hread⟩ := PaymentBase.amount_field_eq_ok.mp hv
  exact ⟨hnone, v, hget, hread⟩

theorem accepted_amount_positive (hfw : fw.CountsDigits) {source : Source} {p : PaymentBase}
    (h : PaymentBase.validate fw source = .ok p) :
    ∃ d, p.amount = .finite d ∧ 0 < d.toRat := by
  obtain ⟨d, hd, hgt⟩ := hfw.greater _ _ _ _ (accepted_amount_checked h).1
  exact ⟨d, hd, by simpa [AMOUNT_GT, Decimal.toRat] using hgt⟩

theorem accepted_amount (hfw : fw.BoundsDigits) {source : Source} {p : PaymentBase}
    (h : PaymentBase.validate fw source = .ok p) :
    ∃ d, p.amount = .finite d ∧ 0 < d.toRat ∧ FitsDigits 16 4 d.toRat := by
  obtain ⟨d, hd, hpos⟩ := accepted_amount_positive hfw.toCountsDigits h
  exact ⟨d, hd, hpos, hfw.bounded _ (hd ▸ (accepted_amount_checked h).1)⟩

-- A refused body is refused with the headers, whatever these are.
theorem validated_parameters_refused {headers : RequestHeaders} {body : Json}
    {errors : List ErrorDetails}
    (h : PaymentCreate.model_validate fw ["body"] body = .invalid errors) :
    ∃ errors, validated_parameters fw headers body = .error (.RequestValidationError errors) := by
  obtain ⟨hapi, hkey⟩ := @headers_ne_crashed fw headers
  have hpayload : ∃ errors, validate_payload fw body = .invalid errors := by
    cases body with
    | null => exact ⟨_, rfl⟩
    | _ => exact ⟨errors, h⟩
  obtain ⟨more, hmore⟩ := hpayload
  have hrequest : ∃ all, validate_request fw headers body = .invalid all :=
    ⟨_, Checked.seq_invalid (Checked.seq_ne_crashed.mpr
      ⟨fun e => mt Checked.map_eq_crashed.mp (hapi e), hkey⟩) hmore⟩
  obtain ⟨all, hall⟩ := hrequest
  exact ⟨all, by simp [validated_parameters, hall]⟩

end Requests

namespace Scenario

-- Libraries that do what is documented. The only URLs they know are those of one shop.
def fault (type msg : String) : Fault := ⟨type, msg, []⟩

def shop : Text := Text.ofString "https://shop.example/"

def isShopUrl (s : Text) : Bool :=
  s.take shop.length = shop ∧ s.length ≤ 2083 ∧
    (s.drop shop.length).all fun c => 0x61 ≤ c.val ∧ c.val ≤ 0x7a

-- The exact decimal expansion of a double: what `repr` prints where it has few digits.
def expansion (q : ℚ) : String :=
  let places := q.den.log2
  let units := q.num.natAbs * 5 ^ places
  let fraction := toString (units % 10 ^ places)
  (if q < 0 then "-" else "") ++ toString (units / 10 ^ places) ++ "." ++
    "".pushn '0' (places - fraction.length) ++ fraction

example : expansion (3 / 2) = "1.5" := by decide +kernel

def framework : Framework where
  decimal gt max_digits decimal_places
    | .finite x =>
        if x.normalized.WithinDigits max_digits decimal_places then
          if gt.toRat < x.toRat then none
          else some (fault "greater_than" "Input should be greater than 0")
        else some (fault "decimal_max_digits"
          "Decimal input should have no more than 20 digits in total")
    | _ => some (fault "finite_number" "Input should be a finite number")
  string min_length max_length
    | .json (.str s) =>
        if s.encodable ∧ min_length ≤ s.length ∧ s.length ≤ max_length then .ok s
        else .error (fault "string_unicode" "Input should be a valid string")
    | _ => .error (fault "string_type" "Input should be a valid string")
  currency_enum
    | .currency c => .ok c
    | .json (.str s) =>
        match [CurrencyEnum.RUB, .USD, .EUR].find? fun c => s = Text.ofString c.value with
        | some c => .ok c
        | none => .error (fault "enum" "Input should be 'RUB', 'USD' or 'EUR'")
    | _ => .error (fault "enum" "Input should be 'RUB', 'USD' or 'EUR'")
  json_dict
    | .json (.obj fields) => .ok fields
    | _ => .error (fault "dict_type" "Input should be a valid dictionary")
  http_url
    | .json (.str s) =>
        if isShopUrl s then .ok s else .error (fault "url_parsing" "Input should be a valid URL")
    | _ => .error (fault "url_type" "URL input should be a string or URL")
  missing := fault "missing" "Field required"
  model_attributes_type := fault "model_attributes_type"
    "Input should be a valid dictionary or object to extract fields from"
  jsonable_encoder
    | .json v => .ok (sqlalchemy_safe v)
    | .decimal d => decimal_encoder d
    | .currency c => .ok (.str (Text.ofString c.value))
    | .object => .ok (.obj [])
  float_repr := expansion
  render v := v.render expansion

theorem shop_ascii : ∀ c ∈ shop, 0x20 < c.val ∧ c.val < 0x7f := by
  have hall : (shop.all fun c => decide (0x20 < c.val ∧ c.val < 0x7f)) = true := by decide +kernel
  exact fun c hc => of_decide_eq_true (List.all_eq_true.mp hall c hc)

theorem ofString_value_inj {c c' : CurrencyEnum}
    (h : Text.ofString c.value = Text.ofString c'.value) : c = c' := by
  have hvalue := Text.ofString_inj.mp h
  revert hvalue
  cases c <;> cases c' <;> decide

theorem framework_http_url {v : PyValue} {url : Text} (h : framework.http_url v = .ok url) :
    v = .json (.str url) ∧ isShopUrl url := by
  simp only [framework] at h
  split at h
  · split at h
    · next hurl => exact ⟨by rw [Except.ok.inj h], Except.ok.inj h ▸ hurl⟩
    · cases h
  · cases h

theorem framework_decimal {gt : Decimal} {max_digits decimal_places : ℕ} {d : PyDecimal} :
    framework.decimal gt max_digits decimal_places d = none ↔
      ∃ x, d = .finite x ∧ gt.toRat < x.toRat ∧
        x.normalized.WithinDigits max_digits decimal_places := by
  cases d with
  | finite x =>
      simp only [framework, PyDecimal.finite.injEq, exists_eq_left']
      split_ifs with hdigits hgt
      · exact iff_of_true rfl ⟨hgt, hdigits⟩
      · exact iff_of_false nofun fun h => hgt h.1
      · exact iff_of_false nofun fun h => hdigits h.2
  | _ => simp [framework]

theorem framework_texts : framework.ChecksTexts where
  string min_length max_length v s := by
    simp only [framework]
    split
    · next s' =>
        split
        · next h =>
            simp only [Except.ok.injEq, PyValue.json.injEq, Json.str.injEq]
            exact ⟨fun he => he ▸ ⟨rfl, h⟩, fun he => he.1⟩
        · next h =>
            simp only [reduceCtorEq, PyValue.json.injEq, Json.str.injEq, false_iff]
            exact fun he => h (he.1 ▸ he.2)
    · next hother =>
        simp only [reduceCtorEq, false_iff]
        exact fun he => hother s he.1
  json_dict v fields := by
    simp only [framework]
    split <;> simp_all

theorem framework_urls : framework.PrintsUrls := by
  intro v url h c hc
  obtain ⟨-, hurl⟩ := framework_http_url h
  simp only [isShopUrl, decide_eq_true_eq] at hurl
  rw [← List.take_append_drop shop.length url, List.mem_append, hurl.1] at hc
  rcases hc with hc | hc
  · exact shop_ascii c hc
  · have hletter := List.all_eq_true.mp hurl.2.2 c hc
    simp only [decide_eq_true_eq, Bool.decide_and, Bool.and_eq_true] at hletter
    omega

theorem framework_back : framework.ReadsBack where
  currency_enum v c := by
    simp only [framework]
    split
    · next c' => simp
    · next s =>
        simp only [reduceCtorEq, PyValue.json.injEq, Json.str.injEq, false_or]
        split
        · next c' hfind =>
            have hs : s = Text.ofString c'.value := by simpa using List.find?_some hfind
            rw [hs, Except.ok.injEq]
            exact ⟨fun h => h ▸ rfl, fun h => ofString_value_inj h⟩
        · next hfind =>
            simp only [reduceCtorEq, false_iff]
            rintro rfl
            exact List.find?_eq_none.mp hfind c (by cases c <;> simp) (by simp)
    · next h1 h2 =>
        simp only [reduceCtorEq, false_iff, not_or]
        exact ⟨h1 c, h2 _⟩
  http_url_again v url h _ := by
    obtain ⟨-, hurl⟩ := framework_http_url h
    simp [framework, hurl]

theorem framework_digits : framework.BoundsDigits where
  greater gt max_digits decimal_places d h := by
    obtain ⟨x, hx, hgt, _⟩ := framework_decimal.mp h
    exact ⟨x, hx, hgt⟩
  counted gt max_digits decimal_places x _ hgt := by
    rw [framework_decimal]
    simp only [PyDecimal.finite.injEq, exists_eq_left', hgt, true_and]
  bounded x h := by
    obtain ⟨_, hx, _, hdigits⟩ := framework_decimal.mp h
    obtain rfl := PyDecimal.finite.inj hx
    exact Decimal.fits_of_withinDigits hdigits

theorem framework_encoder : framework.Encodes where
  encoder_json _ := rfl
  encoder_decimal _ := rfl
  encoder_currency _ := rfl
  encoder_object := rfl
  render _ := rfl

theorem framework_documented : framework.Documented :=
  ⟨framework_texts, framework_urls, framework_back, framework_digits, framework_encoder⟩

-- A body with a shop's URL and this amount.
def body_fields (amount : Json) : List (Text × Json) :=
  [(Text.ofString "amount", amount), (Text.ofString "currency", .str (Text.ofString "USD")),
   (Text.ofString "webhook_url", .str shop)]

def body (amount : Json) : Json := .obj (body_fields amount)

theorem lookup_amount (amount : Json) :
    (body_fields amount).lookup (Text.ofString "amount") = some amount := by
  simp [body_fields]

theorem shop_is_url : framework.http_url (.json (.str shop)) = .ok shop := by
  have hurl : isShopUrl shop = true := by decide +kernel
  simp [framework, hurl]

theorem body_legible {amount : Json} (h : AmountLegible framework amount) :
    BodyLegible framework (body amount) := by
  constructor
  · simp [body_fields, List.lookup_cons]
  · intro v hv
    exact Option.some.inj ((lookup_amount amount).symm.trans hv) ▸ h
  · rintro v hv ⟨fault, hfault⟩
    have hok := (framework_back.currency_enum _ .USD).mpr (Or.inr rfl)
    obtain rfl : Json.str (Text.ofString "USD") = v := by
      simpa [body_fields, List.lookup_cons] using hv
    cases hok.symm.trans hfault
  · simp [body_fields, List.lookup_cons]
  · simp [body_fields, List.lookup_cons]
  · intro v hv hrefused
    obtain rfl : Json.str shop = v := by simpa [body_fields, List.lookup_cons] using hv
    rcases hrefused with ⟨fault, hfault⟩ | ⟨url, hurl, hlong⟩
    · cases shop_is_url.symm.trans hfault
    · obtain rfl : shop = url := Except.ok.inj (shop_is_url.symm.trans hurl)
      exact absurd hlong (by decide +kernel)

-- A float is refused as an amount.
theorem float_is_refused (x : PyFloat) (loc : List String) : ∃ errors,
    PaymentCreate.model_validate framework loc (body (.float x)) = .invalid errors := by
  cases hv : PaymentCreate.model_validate framework loc (body (.float x)) with
  | invalid errors => exact ⟨errors, rfl⟩
  | ok p =>
      obtain ⟨v, hget, hamount⟩ := Source.required_eq_ok.mp (PaymentBase.validate_eq_ok hv).1
      simp only [Source.of, lookup_amount, Option.map_some, Option.some.injEq] at hget
      subst hget
      simp [PaymentBase.amount_field_eq_ok] at hamount
  | crashed e =>
      refine absurd hv (readable_iff.mp ?_ e)
      intro s hs
      simp [lookup_amount] at hs

end Scenario

-- A request whose body is refused is answered with 422 if and only if every
-- value that the body is refused for can be written.
theorem refusal_is_answered_iff {fw : Framework} (hfw : fw.Encodes) (headers : RequestHeaders)
    (body : Json) (hrefused : ∃ errors, PaymentCreate.model_validate fw ["body"] body =
      .invalid errors) (exc : RequestExn) (h : validated_parameters fw headers body = .error exc) :
    (∃ bytes, validation_exception_handler fw exc = .ok (.rendered 422 bytes)) ↔
      BodyLegible fw body := by
  obtain ⟨errors, herrors⟩ := hrefused
  obtain ⟨all, hall⟩ := @validated_parameters_refused fw headers body errors herrors
  obtain rfl : exc = .RequestValidationError all := Except.error.inj (h.symm.trans hall)
  exact rendered_iff hfw headers body all hall

theorem float_amount_is_answered : ∃ exc,
    validated_parameters Scenario.framework ⟨none, none⟩
      (Scenario.body (.float (.finite (3 / 2)))) = .error exc ∧
      ∃ bytes, validation_exception_handler Scenario.framework exc = .ok (.rendered 422 bytes) := by
  obtain ⟨errors, herrors⟩ := Scenario.float_is_refused (.finite (3 / 2)) ["body"]
  obtain ⟨all, hall⟩ := @validated_parameters_refused _ ⟨none, none⟩ _ _ herrors
  exact ⟨_, hall, (refusal_is_answered_iff Scenario.framework_encoder ⟨none, none⟩ _
    ⟨errors, herrors⟩ _ hall).mpr (Scenario.body_legible (by rfl))⟩

-- `NaN` is read, echoed and then not written.
theorem nan_amount_is_not_answered :
    ¬∀ fw : Framework, fw.Documented → ∀ headers body,
      (∃ errors, PaymentCreate.model_validate fw ["body"] body = .invalid errors) →
        ∀ exc, validated_parameters fw headers body = .error exc →
          ∃ bytes, validation_exception_handler fw exc = .ok (.rendered 422 bytes) := by
  intro h
  obtain ⟨errors, herrors⟩ := Scenario.float_is_refused .nan ["body"]
  obtain ⟨all, hall⟩ := @validated_parameters_refused _ ⟨none, none⟩ _ _ herrors
  have hbytes := h _ Scenario.framework_documented _ _ ⟨errors, herrors⟩ _ hall
  have hlegible := (rendered_iff Scenario.framework_encoder _ _ _ hall).mp hbytes
  have hnan : (Json.float .nan).renderable = true :=
    hlegible.amount _ (Scenario.lookup_amount _)
  exact absurd hnan (by decide)

end PaymentsProcessor
