import PaymentsProcessor.Python.Digits
import PaymentsProcessor.Schemas

namespace PaymentsProcessor

open Python Validation PaymentsConstants

-- From this magnitude on the nearest double is infinite.
def overflow : ℚ := 2 ^ 1024 - 2 ^ 970

-- What `jsonable_encoder` makes of a `Decimal`: an int, or a float.
def decimal_encoder : PyDecimal → Except PyError Json
  | .finite d =>
      if 0 ≤ d.exponent then .ok (.int (d.signed * 10 ^ d.exponent.toNat))
      else if |d.toRat| < overflow then .ok (.float (.finite d.toRat))
      else .ok (.float (.inf d.negative))
  | .inf negative => .ok (.float (.inf negative))
  | .nan _ signaling _ => if signaling then .error .ValueError else .ok (.float .nan)

-- The keys that `jsonable_encoder` takes for attributes of SQLAlchemy.
def isSqlalchemyKey (k : Text) : Bool := k.take 3 = Text.ofString "_sa"

-- What `jsonable_encoder(v, sqlalchemy_safe=True)` makes of a JSON value: at every
-- depth the fields with such a key are left out, with all that is in them.
mutual

def sqlalchemy_safe : Json → Json
  | .arr items => .arr (sqlalchemy_safe_items items)
  | .obj fields => .obj (sqlalchemy_safe_fields fields)
  | v => v

def sqlalchemy_safe_items : List Json → List Json
  | [] => []
  | v :: items => sqlalchemy_safe v :: sqlalchemy_safe_items items

def sqlalchemy_safe_fields : List (Text × Json) → List (Text × Json)
  | [] => []
  | (k, v) :: fields =>
      if isSqlalchemyKey k then sqlalchemy_safe_fields fields
      else (k, sqlalchemy_safe v) :: sqlalchemy_safe_fields fields

end

namespace Framework

-- What the libraries document of the values that the program hands to them, in
-- parts. A string and a dictionary are checked as they are.
structure ChecksTexts (fw : Framework) : Prop where
  string : ∀ min_length max_length v s, fw.string min_length max_length v = .ok s ↔
    v = .json (.str s) ∧ s.encodable ∧ min_length ≤ s.length ∧ s.length ≤ max_length
  json_dict : ∀ v fields, fw.json_dict v = .ok fields ↔ v = .json (.obj fields)

-- A URL is printed in ASCII.
def PrintsUrls (fw : Framework) : Prop :=
  ∀ v url, fw.http_url v = .ok url → ∀ c ∈ url, 0x20 < c.val ∧ c.val < 0x7f

-- A currency and a URL are accepted again as what they were validated to. A
-- printed URL may be too long to be one.
structure ReadsBack (fw : Framework) : Prop where
  currency_enum : ∀ v c, fw.currency_enum v = .ok c ↔
    v = .currency c ∨ v = .json (.str (Text.ofString c.value))
  http_url_again : ∀ v url, fw.http_url v = .ok url → url.length ≤ 2083 →
    fw.http_url (.json (.str url)) = .ok url

-- A decimal has to be finite and greater than the bound, whatever its length. Its
-- digits are counted without trailing zeros as `Decimal.normalize` strips them, and
-- that rounds what the context does not hold: of such a number nothing is assumed.
structure CountsDigits (fw : Framework) : Prop where
  greater : ∀ gt max_digits decimal_places d, fw.decimal gt max_digits decimal_places d = none →
    ∃ x, d = .finite x ∧ gt.toRat < x.toRat
  counted : ∀ gt max_digits decimal_places x, x.Exact → gt.toRat < x.toRat →
    (fw.decimal gt max_digits decimal_places (.finite x) = none ↔
      x.normalized.WithinDigits max_digits decimal_places)

-- The bound that `max_digits` and `decimal_places` are documented to be, for an amount
-- of any length: that no amount is rounded into it. It is assumed only where an accepted
-- amount is followed to its column.
structure BoundsDigits (fw : Framework) : Prop extends CountsDigits fw where
  bounded : ∀ x, fw.decimal AMOUNT_GT AMOUNT_MAX_DIGITS AMOUNT_DECIMAL_PLACES (.finite x) = none →
    FitsDigits 16 4 x.toRat

-- How the echo of an error is encoded, and a response written.
structure Encodes (fw : Framework) : Prop where
  encoder_json : ∀ v, fw.jsonable_encoder (.json v) = .ok (sqlalchemy_safe v)
  encoder_decimal : ∀ d, fw.jsonable_encoder (.decimal d) = decimal_encoder d
  encoder_currency : ∀ c, fw.jsonable_encoder (.currency c) = .ok (.str (Text.ofString c.value))
  encoder_object : fw.jsonable_encoder .object = .ok (.obj [])
  render : ∀ v, fw.render v = v.render fw.float_repr

structure Documented (fw : Framework) : Prop where
  texts : fw.ChecksTexts
  urls : fw.PrintsUrls
  back : fw.ReadsBack
  digits : fw.BoundsDigits
  encoder : fw.Encodes

end Framework

variable {fw : Framework} {α : Type}

@[simp] theorem check_eq_ok {loc : List String} {v : PyValue} {r : Except Fault α} {a : α} :
    check loc v r = .ok a ↔ r = .ok a := by
  cases r <;> simp [check]

@[simp] theorem check_ne_crashed {loc : List String} {v : PyValue} {r : Except Fault α} {e : Exn} :
    check loc v r ≠ .crashed e := by
  cases r <;> simp [check]

namespace Source

variable {source : Source} {name : String} {validate : List String → PyValue → Result α}

theorem required_eq_ok {a : α} : source.required fw name validate = .ok a ↔
    ∃ v, source.get name = some v ∧ validate (source.loc ++ [name]) v = .ok a := by
  unfold required
  cases source.get name <;> simp

theorem required_eq_crashed {e : Exn} : source.required fw name validate = .crashed e ↔
    ∃ v, source.get name = some v ∧ validate (source.loc ++ [name]) v = .crashed e := by
  unfold required
  cases source.get name <;> simp

theorem optional_eq_some {a : α} (h : source.optional name validate = .ok (some a)) :
    ∃ v, source.get name = some v ∧ validate (source.loc ++ [name]) v = .ok a := by
  unfold optional at h
  split at h
  · cases h
  · cases h
  · next v _ hv =>
      obtain ⟨b, hb, hba⟩ := Checked.map_eq_ok.mp h
      exact ⟨v, hv, Option.some.inj hba ▸ hb⟩

theorem optional_null (h : source.get name = some (.json .null)) :
    source.optional name validate = .ok none := by
  simp [optional, h]

theorem optional_intro {v : PyValue} {a : α} (h : source.get name = some v)
    (hnull : v ≠ .json .null) (ha : validate (source.loc ++ [name]) v = .ok a) :
    source.optional name validate = .ok (some a) := by
  unfold optional
  rw [h]
  split
  · next hnone => cases hnone
  · next hsome => exact absurd (Option.some.inj hsome) hnull
  · next w _ hsome =>
      obtain rfl : v = w := Option.some.inj hsome
      exact Checked.map_eq_ok.mpr ⟨a, ha, rfl⟩

theorem optional_of_some {o : Option α} {v : PyValue} (h : source.optional name validate = .ok o)
    (hv : source.get name = some v) (hnull : v ≠ .json .null) :
    ∃ a, o = some a ∧ validate (source.loc ++ [name]) v = .ok a := by
  unfold optional at h
  rw [hv] at h
  split at h
  · next hnone => cases hnone
  · next hsome => exact absurd (Option.some.inj hsome) hnull
  · next w _ hsome =>
      obtain rfl : v = w := Option.some.inj hsome
      obtain ⟨a, ha, hao⟩ := Checked.map_eq_ok.mp h
      exact ⟨a, hao.symm, ha⟩

theorem optional_ne_crashed (h : ∀ loc v e, validate loc v ≠ .crashed e) {e : Exn} :
    source.optional name validate ≠ .crashed e := by
  unfold optional
  split
  · simp
  · simp
  · exact fun hc => h _ _ _ (Checked.map_eq_crashed.mp hc)

end Source

namespace PaymentBase

variable {source : Source}

theorem validate_eq_ok {p : PaymentBase} (h : validate fw source = .ok p) :
    source.required fw "amount" (amount_field fw) = .ok p.amount ∧
      source.required fw "currency" (currency_field fw) = .ok p.currency ∧
      source.optional "description" (description_field fw) = .ok p.description ∧
      source.optional "meta" (meta_field fw) = .ok p.meta_ ∧
      source.required fw "webhook_url" (webhook_url_field fw) = .ok p.webhook_url := by
  unfold validate at h
  obtain ⟨f4, url, h4, hurl, he4⟩ := Checked.seq_eq_ok.mp h
  obtain ⟨f3, fields, h3, hmeta, he3⟩ := Checked.seq_eq_ok.mp h4
  obtain ⟨f2, description, h2, hdescription, he2⟩ := Checked.seq_eq_ok.mp h3
  obtain ⟨f1, currency, h1, hcurrency, he1⟩ := Checked.seq_eq_ok.mp h2
  obtain ⟨amount, hamount, he0⟩ := Checked.map_eq_ok.mp h1
  subst he0 he1 he2 he3 he4
  exact ⟨hamount, hcurrency, hdescription, hmeta, hurl⟩

theorem validate_ok {d : PyDecimal} {c : CurrencyEnum} {description : Option Text}
    {fields : Option (List (Text × Json))} {url : Text}
    (h1 : source.required fw "amount" (amount_field fw) = .ok d)
    (h2 : source.required fw "currency" (currency_field fw) = .ok c)
    (h3 : source.optional "description" (description_field fw) = .ok description)
    (h4 : source.optional "meta" (meta_field fw) = .ok fields)
    (h5 : source.required fw "webhook_url" (webhook_url_field fw) = .ok url) :
    validate fw source = .ok ⟨d, c, description, fields, url⟩ := by
  simp [validate, h1, h2, h3, h4, h5, Checked.seq, Checked.map]

theorem webhook_url_field_eq_ok {loc : List String} {v : PyValue} {url : Text} :
    webhook_url_field fw loc v = .ok url ↔
      fw.http_url v = .ok url ∧ url.length ≤ WEBHOOK_URL_MAX_LEN := by
  unfold webhook_url_field
  cases hv : fw.http_url v with
  | error fault => simp [check]
  | ok url' =>
      by_cases hlong : WEBHOOK_URL_MAX_LEN < url'.length
      · simp only [check, _check_webhook_url_length, hlong, if_true, run_validator, reduceCtorEq,
          Except.ok.injEq, false_iff, not_and, not_le]
        exact fun h => h ▸ hlong
      · simp only [check, _check_webhook_url_length, hlong, if_false, run_validator,
          Checked.ok.injEq, Except.ok.injEq]
        exact ⟨fun h => ⟨h, h ▸ not_lt.mp hlong⟩, fun h => h.1⟩

-- An accepted amount has been read from a string, or is a decimal already.
theorem amount_field_eq_ok {loc : List String} {v : PyValue} {d : PyDecimal} :
    amount_field fw loc v = .ok d ↔
      fw.decimal AMOUNT_GT AMOUNT_MAX_DIGITS AMOUNT_DECIMAL_PLACES d = none ∧
        (v = .decimal d ∨ ∃ s, v = .json (.str s) ∧ PyDecimal.ofText s = some d) := by
  have hchecked : ∀ d', check_amount fw loc d' = .ok d ↔
      fw.decimal AMOUNT_GT AMOUNT_MAX_DIGITS AMOUNT_DECIMAL_PLACES d = none ∧ d' = d := by
    intro d'
    unfold check_amount
    cases hd : fw.decimal AMOUNT_GT AMOUNT_MAX_DIGITS AMOUNT_DECIMAL_PLACES d' with
    | none => exact ⟨fun h => Checked.ok.inj h ▸ ⟨hd, rfl⟩, fun h => h.2 ▸ rfl⟩
    | some fault =>
        refine ⟨nofun, ?_⟩
        rintro ⟨hnone, rfl⟩
        exact nomatch hd.symm.trans hnone
  cases v with
  | json v =>
      cases v with
      | str s =>
          cases hs : PyDecimal.ofText s with
          | none => simp [amount_field, _prevent_float_precision_loss, hs, run_validator]
          | some d =>
              simp [amount_field, _prevent_float_precision_loss, hs, run_validator, hchecked]
      | _ => simp [amount_field, _prevent_float_precision_loss, run_validator]
  | decimal d => simp [amount_field, _prevent_float_precision_loss, run_validator, hchecked]
  | currency c => simp [amount_field, _prevent_float_precision_loss, run_validator]
  | object => simp [amount_field, _prevent_float_precision_loss, run_validator]

-- Only the conversion of the amount lets an exception through.
theorem amount_field_eq_crashed {loc : List String} {v : PyValue} {e : Exn} :
    amount_field fw loc v = .crashed e ↔
      e = InvalidOperation ∧ ∃ s, v = .json (.str s) ∧ PyDecimal.ofText s = none := by
  have hchecked : ∀ d, check_amount fw loc d ≠ .crashed e := by
    intro d
    unfold check_amount
    cases fw.decimal AMOUNT_GT AMOUNT_MAX_DIGITS AMOUNT_DECIMAL_PLACES d <;> simp
  cases v with
  | json v =>
      cases v with
      | str s =>
          cases hs : PyDecimal.ofText s with
          | none =>
              simp [amount_field, _prevent_float_precision_loss, hs, run_validator, eq_comm]
          | some d =>
              simp [amount_field, _prevent_float_precision_loss, hs, run_validator, hchecked]
      | _ => simp [amount_field, _prevent_float_precision_loss, run_validator]
  | decimal d => simp [amount_field, _prevent_float_precision_loss, run_validator, hchecked]
  | currency c => simp [amount_field, _prevent_float_precision_loss, run_validator]
  | object => simp [amount_field, _prevent_float_precision_loss, run_validator]

theorem webhook_url_field_ne_crashed (loc : List String) (v : PyValue) (e : Exn) :
    webhook_url_field fw loc v ≠ .crashed e := by
  unfold webhook_url_field
  cases h : check loc v (fw.http_url v) with
  | ok url =>
      simp only [_check_webhook_url_length]
      split <;> simp [run_validator]
  | invalid errors => simp
  | crashed e => exact absurd h check_ne_crashed

private theorem others_ne_crashed :
    (∀ e, source.required fw "currency" (currency_field fw) ≠ .crashed e) ∧
      (∀ e, source.optional "description" (description_field fw) ≠ .crashed e) ∧
      (∀ e, source.optional "meta" (meta_field fw) ≠ .crashed e) ∧
      (∀ e, source.required fw "webhook_url" (webhook_url_field fw) ≠ .crashed e) := by
  refine ⟨?_, ?_, ?_, ?_⟩
  · intro e h
    obtain ⟨v, -, hv⟩ := Source.required_eq_crashed.mp h
    exact check_ne_crashed hv
  · exact fun e => Source.optional_ne_crashed fun loc v e => check_ne_crashed
  · exact fun e => Source.optional_ne_crashed fun loc v e => check_ne_crashed
  · intro e h
    obtain ⟨v, -, hv⟩ := Source.required_eq_crashed.mp h
    exact webhook_url_field_ne_crashed _ v e hv

theorem validate_eq_crashed {e : Exn} : validate fw source = .crashed e ↔
    e = InvalidOperation ∧
      ∃ s, source.get "amount" = some (.json (.str s)) ∧ PyDecimal.ofText s = none := by
  obtain ⟨hcurrency, hdescription, hmeta, hurl⟩ := @others_ne_crashed fw source
  simp only [validate, Checked.seq_eq_crashed, hcurrency, hdescription, hmeta, hurl, and_false,
    or_false, Checked.map_eq_crashed, Source.required_eq_crashed, amount_field_eq_crashed]
  constructor
  · rintro ⟨v, hv, he, s, rfl, hs⟩
    exact ⟨he, s, hv, hs⟩
  · rintro ⟨he, s, hv, hs⟩
    exact ⟨_, hv, he, s, rfl, hs⟩

-- Without a crash the errors are those of the fields, in their order.
theorem validate_errors {errors : List ErrorDetails} (h : validate fw source = .invalid errors) :
    errors = (source.required fw "amount" (amount_field fw)).errors ++
      (source.required fw "currency" (currency_field fw)).errors ++
      (source.optional "description" (description_field fw)).errors ++
      (source.optional "meta" (meta_field fw)).errors ++
      (source.required fw "webhook_url" (webhook_url_field fw)).errors := by
  obtain ⟨hcurrency, hdescription, hmeta, hurl⟩ := @others_ne_crashed fw source
  have hcrash : ∀ e, validate fw source ≠ .crashed e := fun e hc => nomatch h.symm.trans hc
  have he : errors = (validate fw source).errors := h ▸ rfl
  unfold validate at hcrash he
  obtain ⟨h4, -⟩ := Checked.seq_ne_crashed.mp hcrash
  obtain ⟨h3, -⟩ := Checked.seq_ne_crashed.mp h4
  obtain ⟨h2, -⟩ := Checked.seq_ne_crashed.mp h3
  obtain ⟨h1, -⟩ := Checked.seq_ne_crashed.mp h2
  rw [he, Checked.errors_seq h4 hurl, Checked.errors_seq h3 hmeta,
    Checked.errors_seq h2 hdescription, Checked.errors_seq h1 hcurrency, Checked.errors_map]

end PaymentBase

end PaymentsProcessor
