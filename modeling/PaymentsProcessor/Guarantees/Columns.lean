import PaymentsProcessor.Storage.Column
import PaymentsProcessor.System.Records
import PaymentsProcessor.Guarantees.Validation

namespace PaymentsProcessor

open Python Storage Validation PaymentsConstants

-- The values of the INSERT of an accepted request fit their columns.
structure Storable (key : Text) (p : PaymentBase) : Prop where
  description : ∀ s, p.description = some s →
    s.length ≤ DESCRIPTION_MAX_LEN ∧ (varchar_in DESCRIPTION_MAX_LEN s).isSome
  meta_ : ∀ fields, p.meta_ = some fields → (jsonb_in (.obj fields)).isSome
  idempotency_key : key.length ≤ IDEMPOTENCY_KEY_MAX_LEN ∧
    (varchar_in IDEMPOTENCY_KEY_MAX_LEN key).isSome
  webhook_url : p.webhook_url.length ≤ WEBHOOK_URL_MAX_LEN ∧
    (varchar_in WEBHOOK_URL_MAX_LEN p.webhook_url).isSome

-- The columns of a row are what the values were stored as.
structure StoredAs (key : Text) (p : PaymentBase) (row : Payment) : Prop where
  amount : ∃ d, p.amount = .finite d ∧
    Numeric.store AMOUNT_MAX_DIGITS d.toRat = some row.amount
  currency : row.currency = p.currency
  description : match p.description with
    | none => row.description = none
    | some s => ∃ t, varchar_in DESCRIPTION_MAX_LEN s = some t ∧ row.description = some t
  meta_ : match p.meta_ with
    | none => row.meta_ = none
    | some fields => ∃ stored, jsonb_in (.obj fields) = some (.obj stored) ∧ row.meta_ = some stored
  idempotency_key : varchar_in IDEMPOTENCY_KEY_MAX_LEN key = some row.idempotency_key
  webhook_url : varchar_in WEBHOOK_URL_MAX_LEN p.webhook_url = some row.webhook_url

-- A description without U+0000, and a `meta` without U+0000, unpaired
-- surrogates, NaN and infinities at every depth.
def BodyStorable : Json → Prop
  | .obj fields =>
      (∀ s, fields.lookup (Text.ofString "description") = some (.str s) → noNul s) ∧
        ∀ m, fields.lookup (Text.ofString "meta") = some (.obj m) → jsonbValue (.obj m)
  | _ => True

theorem store_fitting {q : ℚ} (hpos : 0 < q) (hfits : FitsDigits 16 4 q) :
    ∃ units : Amount, Numeric.store AMOUNT_MAX_DIGITS q = some units ∧ 0 < units.units ∧
      units.units.natAbs < 10 ^ AMOUNT_MAX_DIGITS ∧ units.toRat = q := by
  obtain ⟨⟨n, hn⟩, hwhole⟩ := hfits
  have hq : (⟨n⟩ : Amount).toRat = q := by
    rw [Numeric.toRat_eq, ← hn]
    norm_num [AMOUNT_DECIMAL_PLACES]
  have hpos' : (0 : ℚ) < n := by
    rw [← hn]
    positivity
  have hnpos : 0 < n := by exact_mod_cast hpos'
  have hlt : (n : ℚ) < 10 ^ AMOUNT_MAX_DIGITS := by
    have hq' : q < 10 ^ 16 := lt_of_le_of_lt (le_abs_self q) hwhole
    calc (n : ℚ) = q * 10 ^ 4 := hn.symm
      _ < 10 ^ 16 * 10 ^ 4 := by gcongr
      _ = 10 ^ AMOUNT_MAX_DIGITS := by norm_num [AMOUNT_MAX_DIGITS]
  have hnat : n.natAbs < 10 ^ AMOUNT_MAX_DIGITS := by
    have hn' : n < 10 ^ AMOUNT_MAX_DIGITS := by exact_mod_cast hlt
    zify
    rwa [abs_of_pos hnpos]
  exact ⟨⟨n⟩, hq ▸ Numeric.store_exact _ _ hnat, hnpos, hnat, hq⟩

theorem read_amount_toRat (amount : Amount) : (read_amount amount).toRat = amount.toRat := by
  have hsigned : (if decide (amount.units < 0) = true then -(amount.units.natAbs : ℤ)
      else amount.units.natAbs) = amount.units := by
    split
    · next h =>
        have hneg := of_decide_eq_true h
        omega
    · next h =>
        have hpos := of_decide_eq_false (Bool.of_not_eq_true h)
        omega
  show mkRat _ (10 ^ 4) = mkRat amount.units (10 ^ 4)
  exact congrArg (mkRat · _) hsigned

section Accepted

variable {fw : Framework} (htexts : fw.ChecksTexts) {loc : List String}
  {fields : List (Text × Json)} {p : PaymentBase}
  (h : PaymentCreate.model_validate fw loc (.obj fields) = .ok p)

include htexts h

theorem accepted_description (s : Text) :
    p.description = some s ↔ fields.lookup (Text.ofString "description") = some (.str s) := by
  have hd := (PaymentBase.validate_eq_ok h).2.2.1
  constructor
  · intro hs
    obtain ⟨v, hv, hcheck⟩ := Source.optional_eq_some (hs ▸ hd)
    obtain ⟨rfl, -⟩ := (htexts.string _ _ _ _).mp (check_eq_ok.mp hcheck)
    obtain ⟨j, hj, hv'⟩ := Option.map_eq_some_iff.mp hv
    rw [hj, PyValue.json.inj hv']
  · intro hs
    have hget : (Source.of loc fields).get "description" = some (.json (.str s)) := by
      simp [Source.of, hs]
    obtain ⟨s', hs', hcheck⟩ := Source.optional_of_some hd hget (by simp)
    obtain ⟨he, -⟩ := (htexts.string _ _ _ _).mp (check_eq_ok.mp hcheck)
    rw [hs', Json.str.inj (PyValue.json.inj he)]

theorem accepted_meta (m : List (Text × Json)) :
    p.meta_ = some m ↔ fields.lookup (Text.ofString "meta") = some (.obj m) := by
  have hd := (PaymentBase.validate_eq_ok h).2.2.2.1
  constructor
  · intro hs
    obtain ⟨v, hv, hcheck⟩ := Source.optional_eq_some (hs ▸ hd)
    obtain rfl := (htexts.json_dict _ _).mp (check_eq_ok.mp hcheck)
    obtain ⟨j, hj, hv'⟩ := Option.map_eq_some_iff.mp hv
    rw [hj, PyValue.json.inj hv']
  · intro hs
    have hget : (Source.of loc fields).get "meta" = some (.json (.obj m)) := by
      simp [Source.of, hs]
    obtain ⟨m', hm', hcheck⟩ := Source.optional_of_some hd hget (by simp)
    have he := (htexts.json_dict _ _).mp (check_eq_ok.mp hcheck)
    rw [hm', Json.obj.inj (PyValue.json.inj he)]

end Accepted

section Source

variable {fw : Framework} {source : Source} {p : PaymentBase}
  (h : PaymentBase.validate fw source = .ok p)

include h

theorem accepted_text (htexts : fw.ChecksTexts) {s : Text} (hs : p.description = some s) :
    s.encodable ∧ s.length ≤ DESCRIPTION_MAX_LEN := by
  obtain ⟨v, -, hcheck⟩ := Source.optional_eq_some (hs ▸ (PaymentBase.validate_eq_ok h).2.2.1)
  obtain ⟨-, hencodable, -, hlength⟩ := (htexts.string _ _ _ _).mp (check_eq_ok.mp hcheck)
  exact ⟨hencodable, hlength⟩

theorem accepted_url : ∃ v, fw.http_url v = .ok p.webhook_url ∧
    p.webhook_url.length ≤ WEBHOOK_URL_MAX_LEN := by
  obtain ⟨v, -, hv⟩ := Source.required_eq_ok.mp (PaymentBase.validate_eq_ok h).2.2.2.2
  exact ⟨v, PaymentBase.webhook_url_field_eq_ok.mp hv⟩

-- A URL is printable ASCII, which every text column takes.
theorem accepted_url_stored (hurls : fw.PrintsUrls) :
    (varchar_in WEBHOOK_URL_MAX_LEN p.webhook_url).isSome := by
  obtain ⟨v, hv, hlength⟩ := accepted_url h
  rw [varchar_in_of_length_le hlength, text_in_isSome, Bool.and_eq_true]
  have hascii := hurls _ _ hv
  constructor
  · refine List.all_eq_true.mpr fun c hc => ?_
    have hc' := (hascii c hc).1
    simp only [decide_eq_true_eq]
    omega
  · refine List.all_eq_true.mpr fun c hc => ?_
    have hc' := (hascii c hc).2
    simp [CodePoint.isSurrogate_of_lt (show c.val < 0xd800 by omega)]

end Source

section Admitted

variable {fw : Framework} {headers : RequestHeaders} {body : Json} {key : Text}
  {p : PaymentBase} (h : validated_parameters fw headers body = .ok (key, p))

include h

theorem validated_parameters_eq_ok : idempotency_key_header fw headers = .ok key ∧
    ∃ fields, body = .obj fields ∧ PaymentCreate.model_validate fw ["body"] body = .ok p := by
  unfold validated_parameters at h
  cases hv : validate_request fw headers body with
  | invalid errors => simp [hv] at h
  | crashed e => simp [hv] at h
  | ok parameters =>
      obtain rfl : parameters = (key, p) := by simpa [hv] using h
      obtain ⟨f2, payload, h2, hpayload, he2⟩ := Checked.seq_eq_ok.mp hv
      obtain ⟨f1, key', h1, hkey, he1⟩ := Checked.seq_eq_ok.mp h2
      obtain ⟨_, -, he0⟩ := Checked.map_eq_ok.mp h1
      subst he0 he1
      obtain ⟨rfl, rfl⟩ := Prod.mk.inj he2
      refine ⟨hkey, ?_⟩
      cases body with
      | obj fields => exact ⟨fields, rfl, hpayload⟩
      | _ => cases hpayload

-- A header has neither NUL nor surrogates.
theorem admitted_key (htexts : fw.ChecksTexts) : key.length ≤ IDEMPOTENCY_KEY_MAX_LEN ∧
    (varchar_in IDEMPOTENCY_KEY_MAX_LEN key).isSome := by
  have hkey := (validated_parameters_eq_ok h).1
  unfold idempotency_key_header required_header at hkey
  split at hkey
  · cases hkey
  · next value _ =>
      obtain ⟨he, hencodable, -, hlength⟩ := (htexts.string _ _ _ _).mp (check_eq_ok.mp hkey)
      obtain rfl := Json.str.inj (PyValue.json.inj he)
      refine ⟨hlength, ?_⟩
      rw [varchar_in_of_length_le hlength, text_in_isSome, hencodable, Bool.and_true]
      simp only [FieldValue.text, noNul, List.all_map, List.all_eq_true]
      intro b hb
      have hne : b ≠ 0 := fun h0 => value.no_nul (h0 ▸ hb)
      have hnat : b.toNat ≠ 0 := fun h0 => hne (UInt8.toNat_inj.mp h0)
      exact decide_eq_true hnat

end Admitted

theorem jsonb_obj {fields : List (Text × Json)} (h : (jsonb_in (.obj fields)).isSome) :
    ∃ stored, jsonb_in (.obj fields) = some (.obj stored) := by
  cases hf : jsonb_fields fields with
  | none => simp [jsonb_in, hf] at h
  | some stored => exact ⟨keepLast stored, by simp [jsonb_in, hf]⟩

-- An accepted request whose values can be stored is one of the service's
-- requests, and the rows that this one inserts hold the values.
theorem admitted_request {fw : Framework} (hdigits : fw.BoundsDigits) {headers : RequestHeaders}
    {body : Json} {key : Text} {p : PaymentBase}
    (h : validated_parameters fw headers body = .ok (key, p))
    (hs : Storable key p) :
    ∃ request : CreateRequest, ∀ row, request.Inserts row → StoredAs key p row := by
  obtain ⟨fields, rfl, hp⟩ := (validated_parameters_eq_ok h).2
  obtain ⟨d, hd, hpos, hfits⟩ := accepted_amount hdigits hp
  obtain ⟨units, hstore, hunits, hlt, hexact⟩ := store_fitting hpos hfits
  obtain ⟨stored_key, hkey⟩ := Option.isSome_iff_exists.mp hs.idempotency_key.2
  obtain ⟨url, hurl⟩ := Option.isSome_iff_exists.mp hs.webhook_url.2
  have hdescription : ∃ o : Option String, match p.description with
      | none => o = none
      | some s => ∃ t, varchar_in DESCRIPTION_MAX_LEN s = some t ∧ o = some t := by
    cases hc : p.description with
    | none => exact ⟨none, rfl⟩
    | some s =>
        obtain ⟨t, ht⟩ := Option.isSome_iff_exists.mp (hs.description s hc).2
        exact ⟨some t, t, ht, rfl⟩
  have hmeta : ∃ o : Option JsonDict, match p.meta_ with
      | none => o = none
      | some m => ∃ stored, jsonb_in (.obj m) = some (.obj stored) ∧ o = some stored := by
    cases hc : p.meta_ with
    | none => exact ⟨none, rfl⟩
    | some m =>
        obtain ⟨stored, hstored⟩ := jsonb_obj (hs.meta_ m hc)
        exact ⟨some stored, stored, hstored, rfl⟩
  obtain ⟨description, hdescription⟩ := hdescription
  obtain ⟨stored_meta, hmeta⟩ := hmeta
  refine ⟨⟨stored_key, ⟨d, p.currency, description, stored_meta, url,
    units, hunits, hlt, hexact⟩⟩, fun row hrow => ?_⟩
  have hamount : row.amount = units := Numeric.toRat_inj.mp (hrow.amount.trans hexact.symm)
  exact ⟨⟨d, hd, hamount ▸ hstore⟩, hrow.currency, hrow.description ▸ hdescription,
    hrow.meta_ ▸ hmeta, hrow.idempotency_key ▸ hkey, hrow.webhook_url ▸ hurl⟩

namespace Scenario

-- A body that is accepted, with 100 in exponent form and with this description.
def described (description : Text) : List (Text × Json) :=
  body_fields (.str (Text.ofString "1e2")) ++ [(Text.ofString "description", .str description)]

def hundred : Decimal := ⟨false, 1, 2⟩

def described_payload (description : Text) : PaymentBase :=
  ⟨.finite hundred, .USD, some description, none, shop⟩

theorem described_accepted {description : Text} (hencodable : description.encodable)
    (hlength : description.length ≤ DESCRIPTION_MAX_LEN) (loc : List String) :
    PaymentCreate.model_validate framework loc (.obj (described description)) =
      .ok (described_payload description) := by
  have hget : ∀ name v, (described description).lookup (Text.ofString name) = some v →
      (Source.of loc (described description)).get name = some (.json v) := by
    intro name v hv
    simp [Source.of, hv]
  apply PaymentBase.validate_ok
  · refine Source.required_eq_ok.mpr ⟨_, hget _ (.str (Text.ofString "1e2"))
      (by simp [described, body_fields]), PaymentBase.amount_field_eq_ok.mpr ⟨?_, .inr
        ⟨_, rfl, by decide +kernel⟩⟩⟩
    decide +kernel
  · exact Source.required_eq_ok.mpr ⟨_, hget _ (.str (Text.ofString "USD"))
      (by simp [described, body_fields, List.lookup_cons]), check_eq_ok.mpr
        ((framework_back.currency_enum _ _).mpr (.inr rfl))⟩
  · exact Source.optional_intro (hget _ (.str description)
      (by simp [described, body_fields, List.lookup_cons])) (by simp) (check_eq_ok.mpr
        ((framework_texts.string _ _ _ _).mpr ⟨rfl, hencodable, Nat.zero_le _, hlength⟩))
  · have hnone : (described description).lookup (Text.ofString "meta") = none := by
      simp [described, body_fields, List.lookup_cons]
    simp [Source.optional, Source.of, hnone]
  · exact Source.required_eq_ok.mpr ⟨_, hget _ (.str shop)
      (by simp [described, body_fields, List.lookup_cons]), PaymentBase.webhook_url_field_eq_ok.mpr
        ⟨shop_is_url, by decide +kernel⟩⟩

def key : FieldValue := ⟨[0x6b], by decide⟩

def headers : RequestHeaders := ⟨some key, some key⟩

theorem described_admitted {description : Text} (hencodable : description.encodable)
    (hlength : description.length ≤ DESCRIPTION_MAX_LEN) :
    validated_parameters framework headers (.obj (described description)) =
      .ok (key.text, described_payload description) := by
  have hapi : track_api_key_header framework headers = .ok key.text := rfl
  have hstring : framework.string 1 IDEMPOTENCY_KEY_MAX_LEN (.json (.str key.text)) =
      .ok key.text :=
    (framework_texts.string _ _ _ _).mpr ⟨rfl, encodable_header key, by decide, by decide⟩
  have hkey : idempotency_key_header framework headers = .ok key.text := by
    simp only [idempotency_key_header, required_header, headers, check_eq_ok]
    exact hstring
  have hpayload : validate_payload framework (.obj (described description)) =
      .ok (described_payload description) := described_accepted hencodable hlength ["body"]
  simp [validated_parameters, validate_request, hapi, hkey, hpayload, Checked.seq, Checked.map]

end Scenario

-- What the schema accepts can be stored if and only if the texts of the body
-- are ones that Postgres takes.
theorem accepted_is_storable_iff {fw : Framework} (htexts : fw.ChecksTexts)
    (hurls : fw.PrintsUrls) (headers : RequestHeaders) (body : Json) (key : Text) (p : PaymentBase)
    (h : validated_parameters fw headers body = .ok (key, p)) :
    Storable key p ↔ BodyStorable body := by
  obtain ⟨fields, rfl, hp⟩ := (validated_parameters_eq_ok h).2
  constructor
  · intro hs
    constructor
    · intro s hdescription
      have hd := (accepted_description htexts hp s).mpr hdescription
      obtain ⟨hlength, hin⟩ := hs.description s hd
      rw [varchar_in_of_length_le hlength, text_in_isSome, Bool.and_eq_true] at hin
      exact hin.1
    · intro m hm
      exact jsonb_in_isSome _ ▸ hs.meta_ m ((accepted_meta htexts hp m).mpr hm)
  · rintro ⟨hdescription, hmeta⟩
    refine ⟨?_, ?_, admitted_key h htexts, (accepted_url hp).choose_spec.2,
      accepted_url_stored hp hurls⟩
    · intro s hs
      obtain ⟨hencodable, hlength⟩ := accepted_text hp htexts hs
      refine ⟨hlength, ?_⟩
      rw [varchar_in_of_length_le hlength, text_in_isSome, hencodable, Bool.and_true]
      exact hdescription s ((accepted_description htexts hp s).mp hs)
    · intro m hm
      exact (jsonb_in_isSome _).symm ▸ hmeta m ((accepted_meta htexts hp m).mp hm)


theorem plain_description_is_storable :
    Storable Scenario.key.text (Scenario.described_payload (Text.ofString "tea")) := by
  refine (accepted_is_storable_iff Scenario.framework_texts Scenario.framework_urls
    Scenario.headers _ _ _ (Scenario.described_admitted (by simp) (by decide +kernel))).mpr ⟨?_, ?_⟩
  · intro s hs
    obtain rfl : Text.ofString "tea" = s := by
      simpa [Scenario.described, Scenario.body_fields, List.lookup_cons] using hs
    decide +kernel
  · intro m hm
    simp [Scenario.described, Scenario.body_fields, List.lookup_cons] at hm

-- A description of one NUL is accepted and then refused by the table.
theorem nul_description_is_not_storable :
    ¬∀ fw : Framework, fw.Documented → ∀ headers body key p,
      validated_parameters fw headers body = .ok (key, p) → Storable key p := by
  intro h
  have hs := h _ Scenario.framework_documented _ _ _ _
    (@Scenario.described_admitted [0] (by decide) (by decide))
  exact absurd (hs.description [0] rfl).2 (by decide)

-- What the amount's column holds passes the check of the digits again.
theorem column_amount_accepted {fw : Framework} (hdigits : fw.BoundsDigits) {amount : Amount}
    (hpos : 0 < amount.units) (hfits : FitsDigits 16 4 amount.toRat) :
    fw.decimal AMOUNT_GT AMOUNT_MAX_DIGITS AMOUNT_DECIMAL_PLACES (.finite (read_amount amount)) =
      none := by
  have hne : (read_amount amount).coefficient ≠ 0 := Int.natAbs_ne_zero.mpr hpos.ne'
  have hgt : AMOUNT_GT.toRat < (read_amount amount).toRat := by
    have hunits : (0 : ℚ) < amount.units := by exact_mod_cast hpos
    rw [read_amount_toRat, Numeric.toRat_eq]
    simp only [AMOUNT_GT, Decimal.toRat]
    positivity
  rw [← read_amount_toRat] at hfits
  exact (hdigits.counted _ _ _ _ (Decimal.exact_of_fits (by decide) hne hfits) hgt).mpr
    (Decimal.withinDigits_of_fits (by decide) hne hfits)

section Rereading

variable {fw : Framework} {source : Source} {key : Text} {p : PaymentBase} {row : Payment}
variable (h : PaymentBase.validate fw source = .ok p) (hrow : StoredAs key p row)

include h hrow

-- The column has the number of the accepted amount.
theorem stored_units (hdigits : fw.BoundsDigits) : ∃ d, p.amount = .finite d ∧
    row.amount.toRat = d.toRat ∧ 0 < row.amount.units ∧ FitsDigits 16 4 row.amount.toRat := by
  obtain ⟨d, hd, hpos, hfits⟩ := accepted_amount hdigits h
  obtain ⟨units, hstore, hunits, _, hexact⟩ := store_fitting hpos hfits
  obtain ⟨d', hd', hstore'⟩ := hrow.amount
  obtain rfl := PyDecimal.finite.inj (hd.symm.trans hd')
  obtain rfl := Option.some.inj (hstore'.symm.trans hstore)
  exact ⟨d, hd, hexact, hunits, hexact ▸ hfits⟩

-- Each column passes the check of its field again.
theorem reread_amount (hdigits : fw.BoundsDigits) {loc : List String} :
    PaymentBase.amount_field fw loc (.decimal (.finite (read_amount row.amount))) =
      .ok (.finite (read_amount row.amount)) := by
  obtain ⟨d, _, _, hunits, hfits⟩ := stored_units h hrow hdigits
  exact PaymentBase.amount_field_eq_ok.mpr
    ⟨column_amount_accepted hdigits hunits hfits, .inl rfl⟩

theorem reread_description (htexts : fw.ChecksTexts) {loc : List String} {t : String}
    (ht : row.description = some t) :
    PaymentBase.description_field fw loc (.json (.str (Text.ofString t))) =
      .ok (Text.ofString t) := by
  have hdescription := hrow.description
  cases hp : p.description with
  | none =>
      rw [hp] at hdescription
      cases hdescription.symm.trans ht
  | some s =>
      rw [hp] at hdescription
      obtain ⟨t', ht', hcolumn⟩ := hdescription
      obtain rfl := Option.some.inj (hcolumn.symm.trans ht)
      obtain ⟨hencodable, hlength⟩ := accepted_text h htexts hp
      rw [varchar_in_of_length_le hlength] at ht'
      rw [text_in_eq_some ht']
      exact check_eq_ok.mpr ((htexts.string _ _ _ _).mpr
        ⟨rfl, hencodable, Nat.zero_le _, hlength⟩)

theorem reread_url (hback : fw.ReadsBack) {loc : List String} :
    PaymentBase.webhook_url_field fw loc (.json (.str (Text.ofString row.webhook_url))) =
      .ok p.webhook_url := by
  obtain ⟨v, hv, hlength⟩ := accepted_url h
  have hcolumn := hrow.webhook_url
  rw [varchar_in_of_length_le hlength] at hcolumn
  rw [text_in_eq_some hcolumn]
  exact PaymentBase.webhook_url_field_eq_ok.mpr
    ⟨hback.http_url_again v _ hv (le_trans hlength (by decide)), hlength⟩

-- A stored row passes the validation of a response, with its amount unchanged.
theorem stored_row_is_read (htexts : fw.ChecksTexts) (hback : fw.ReadsBack)
    (hdigits : fw.BoundsDigits) : ∃ read, PaymentRead.model_validate fw row = .ok read ∧
      read.amount = .finite (read_amount row.amount) := by
  set source' : Source := ⟨[], .object, PaymentRead.get row⟩
  have h1 : source'.required fw "amount" (PaymentBase.amount_field fw) =
      .ok (.finite (read_amount row.amount)) :=
    Source.required_eq_ok.mpr ⟨_, rfl, reread_amount h hrow hdigits⟩
  have h2 : source'.required fw "currency" (PaymentBase.currency_field fw) = .ok row.currency :=
    Source.required_eq_ok.mpr ⟨_, rfl, check_eq_ok.mpr
      ((hback.currency_enum _ _).mpr (.inl rfl))⟩
  have h3 : ∃ o, source'.optional "description" (PaymentBase.description_field fw) = .ok o := by
    cases hc : row.description with
    | none => exact ⟨_, Source.optional_null (by simp [source', PaymentRead.get, hc])⟩
    | some t =>
        exact ⟨_, Source.optional_intro (by simp [source', PaymentRead.get, hc]) (by simp)
          (reread_description h hrow htexts hc)⟩
  have h4 : ∃ o, source'.optional "meta" (PaymentBase.meta_field fw) = .ok o := by
    cases hc : row.meta_ with
    | none => exact ⟨_, Source.optional_null (by simp [source', PaymentRead.get, hc])⟩
    | some stored =>
        exact ⟨_, Source.optional_intro (by simp [source', PaymentRead.get, hc]; rfl) (by simp)
          (check_eq_ok.mpr ((htexts.json_dict _ _).mpr rfl))⟩
  have h5 : source'.required fw "webhook_url" (PaymentBase.webhook_url_field fw) =
      .ok p.webhook_url :=
    Source.required_eq_ok.mpr ⟨_, rfl, reread_url h hrow hback⟩
  obtain ⟨description, h3⟩ := h3
  obtain ⟨fields, h4⟩ := h4
  refine ⟨_, Checked.map_eq_ok.mpr ⟨_, PaymentBase.validate_ok h1 h2 h3 h4 h5, rfl⟩, rfl⟩

end Rereading

-- A replay is refused if and only if something of it differs.
theorem ensure_idempotent_match_iff {existing : Payment} {amount : Decimal}
    {currency : CurrencyEnum} {url key : String} :
    PaymentService._ensure_idempotent_match existing amount currency url key =
        .error (.IdempotencyKeyConflictError key) ↔
      PaymentService.conflicting existing amount currency url ≠ [] := by
  unfold PaymentService._ensure_idempotent_match
  split_ifs with h
  · exact iff_of_true rfl h
  · exact iff_of_false nofun h

-- The amount of an accepted body: its string is read as a number that the column
-- stores as it is, that a replay conflicts with only if its own number differs,
-- and that a response shows again.
theorem money_is_exact {fw : Framework} (htexts : fw.ChecksTexts) (hback : fw.ReadsBack)
    (hdigits : fw.BoundsDigits) (loc : List String) (body : Json) (p : PaymentBase)
    (h : PaymentCreate.model_validate fw loc body = .ok p) :
    ∃ fields s d, ∃ units : Numeric 4, body = .obj fields ∧
      fields.lookup (Text.ofString "amount") = some (.str s) ∧
      PyDecimal.ofText s = some (.finite d) ∧ p.amount = .finite d ∧
      Numeric.store 20 d.toRat = some units ∧ 0 < units.units ∧
      units.toRat = d.toRat ∧
      (∀ (existing : Payment) (replay : Decimal) (key : String), existing.amount = units →
        (PaymentService._ensure_idempotent_match existing replay existing.currency
            existing.webhook_url key = .error (.IdempotencyKeyConflictError key) ↔
          replay.toRat ≠ d.toRat)) ∧
      (∀ (existing : Payment) (replay : Decimal) (currency : CurrencyEnum) (url : String),
        existing.amount = units →
          ("amount" ∈ PaymentService.conflicting existing replay currency url ↔
            replay.toRat ≠ d.toRat)) ∧
      ∀ key row, StoredAs key p row → ∃ read shown, PaymentRead.model_validate fw row = .ok read ∧
        read.amount = .finite shown ∧ shown.toRat = d.toRat := by
  cases body with
  | obj fields =>
      obtain ⟨d, hd, hpos, hfits⟩ := accepted_amount hdigits h
      obtain ⟨units, hstore, hunits, hlt, hexact⟩ := store_fitting hpos hfits
      obtain ⟨v, hv, hamount⟩ := Source.required_eq_ok.mp (PaymentBase.validate_eq_ok h).1
      obtain ⟨j, hj, rfl⟩ := Option.map_eq_some_iff.mp hv
      obtain ⟨s, hs, htext⟩ := (PaymentBase.amount_field_eq_ok.mp hamount).2.resolve_left nofun
      have hne : ∀ (existing : Payment) (replay : Decimal), existing.amount = units →
          (existing.amount.toRat ≠ replay.toRat ↔ replay.toRat ≠ d.toRat) := by
        intro existing replay hexisting
        rw [hexisting, hexact, ne_comm]
      refine ⟨fields, s, d, units, rfl, PyValue.json.inj hs ▸ hj, hd ▸ htext, hd, hstore, hunits,
        hexact, ?_, ?_, ?_⟩
      · intro existing replay key hexisting
        rw [ensure_idempotent_match_iff, ← hne existing replay hexisting]
        by_cases ha : existing.amount.toRat = replay.toRat <;>
          simp [PaymentService.conflicting, ha]
      · intro existing replay currency url hexisting
        rw [← hne existing replay hexisting]
        by_cases ha : existing.amount.toRat = replay.toRat <;>
          simp [PaymentService.conflicting, ha]
      · intro key row hrow
        obtain ⟨read, hread, hshown⟩ := stored_row_is_read h hrow htexts hback hdigits
        refine ⟨read, _, hread, hshown, ?_⟩
        obtain ⟨d', hd', hstore'⟩ := hrow.amount
        obtain rfl := PyDecimal.finite.inj (hd.symm.trans hd')
        rw [read_amount_toRat, Option.some.inj (hstore'.symm.trans hstore), hexact]
  | _ => cases h

theorem hundred_is_exact : ∃ fields s d, ∃ units : Numeric 4,
    Json.obj (Scenario.described (Text.ofString "tea")) = .obj fields ∧
      fields.lookup (Text.ofString "amount") = some (.str s) ∧
      PyDecimal.ofText s = some (.finite d) ∧ PyDecimal.finite Scenario.hundred = .finite d ∧
      Numeric.store 20 d.toRat = some units ∧ 0 < units.units ∧
      units.toRat = d.toRat ∧
      (∀ (existing : Payment) (replay : Decimal) (key : String), existing.amount = units →
        (PaymentService._ensure_idempotent_match existing replay existing.currency
            existing.webhook_url key = .error (.IdempotencyKeyConflictError key) ↔
          replay.toRat ≠ d.toRat)) ∧
      (∀ (existing : Payment) (replay : Decimal) (currency : CurrencyEnum) (url : String),
        existing.amount = units →
          ("amount" ∈ PaymentService.conflicting existing replay currency url ↔
            replay.toRat ≠ d.toRat)) ∧
      ∀ key row, StoredAs key (Scenario.described_payload (Text.ofString "tea")) row →
        ∃ read shown, PaymentRead.model_validate Scenario.framework row = .ok read ∧
          read.amount = .finite shown ∧ shown.toRat = d.toRat :=
  money_is_exact Scenario.framework_texts Scenario.framework_back Scenario.framework_digits
    ["body"] _ _ (Scenario.described_accepted (by simp) (by decide +kernel) _)

end PaymentsProcessor
