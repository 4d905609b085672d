import PaymentsProcessor.Consumer.Handling
import PaymentsProcessor.Guarantees.Columns
import PaymentsProcessor.Guarantees.Payments
import PaymentsProcessor.System.Scope

namespace PaymentsProcessor

open Python Storage Concurrency Validation PaymentsConstants

-- The service's request for validated parameters.
structure CreateRequest.Admits (fw : Framework) (r : CreateRequest) (key : Text)
    (p : PaymentBase) : Prop where
  validated : ∃ headers body, validated_parameters fw headers body = .ok (key, p)
  inserts : ∀ row, r.Inserts row → StoredAs key p row

-- Every request that the service was given had been validated.
def World.Validated (fw : Framework) (w : World) : Prop :=
  ∀ pid r, w.jobs pid = some (.request r) → ∃ key p, r.Admits fw key p

-- The amounts are the same number, written in whatever way.
def PaymentBase.SameAmount (shown p : PaymentBase) : Prop :=
  ∃ d d', shown.amount = .finite d ∧ p.amount = .finite d' ∧ d.toRat = d'.toRat

-- What a response shows of parameters.
structure PaymentRead.Shows (read : PaymentRead) (key : Text) (p : PaymentBase) : Prop where
  idempotency_key : Text.ofString read.idempotency_key = key
  amount : read.SameAmount p
  currency : read.currency = p.currency
  webhook_url : read.webhook_url = p.webhook_url

-- What a response shows of the fields that a replay may change. `meta` is shown as
-- a JSONB column keeps it.
structure PaymentRead.Describes (read : PaymentRead) (p : PaymentBase) : Prop where
  description : read.description = p.description
  meta_ : match p.meta_ with
    | none => read.meta_ = none
    | some fields => ∃ stored, jsonb_in (.obj fields) = some (.obj stored) ∧
        read.meta_ = some (read_fields stored)

section Rows

variable {fw : Framework} {key : Text} {p : PaymentBase} {row : Payment}

-- A row is shown as its columns are.
theorem read_columns (htexts : fw.ChecksTexts) (hback : fw.ReadsBack) {read : PaymentRead}
    (h : PaymentRead.model_validate fw row = .ok read) :
    read.id = row.id ∧ read.idempotency_key = row.idempotency_key ∧
      read.currency = row.currency ∧ read.description = row.description.map Text.ofString ∧
        read.meta_ = row.meta_.map read_fields ∧
          fw.http_url (.json (.str (Text.ofString row.webhook_url))) = .ok read.webhook_url := by
  obtain ⟨base, hbase, rfl⟩ := Checked.map_eq_ok.mp h
  obtain ⟨_, hcurrency, hdescription, hmeta, hurl⟩ := PaymentBase.validate_eq_ok hbase
  refine ⟨rfl, rfl, ?_, ?_, ?_, ?_⟩
  · obtain ⟨v, hv, hcheck⟩ := Source.required_eq_ok.mp hcurrency
    cases hv
    obtain he | he := (hback.currency_enum _ _).mp (check_eq_ok.mp hcheck)
    · exact (PyValue.currency.inj he).symm
    · cases he
  · cases hc : row.description with
    | none =>
        rw [Source.optional_null (by simp [PaymentRead.get, hc])] at hdescription
        exact (Checked.ok.inj hdescription).symm
    | some s =>
        obtain ⟨a, ha, hcheck⟩ := Source.optional_of_some hdescription
          (v := .json (.str (Text.ofString s))) (by simp [PaymentRead.get, hc]) (by simp)
        have he := ((htexts.string _ _ _ _).mp (check_eq_ok.mp hcheck)).1
        rw [← Json.str.inj (PyValue.json.inj he)] at ha
        exact ha
  · cases hc : row.meta_ with
    | none =>
        rw [Source.optional_null (by simp [PaymentRead.get, hc])] at hmeta
        exact (Checked.ok.inj hmeta).symm
    | some stored =>
        obtain ⟨a, ha, hcheck⟩ := Source.optional_of_some hmeta
          (v := .json (.obj (read_fields stored))) (by simp [PaymentRead.get, hc]) (by simp)
        have he := (htexts.json_dict _ _).mp (check_eq_ok.mp hcheck)
        rw [← Json.obj.inj (PyValue.json.inj he)] at ha
        exact ha
  · obtain ⟨v, hv, hcheck⟩ := Source.required_eq_ok.mp hurl
    cases hv
    exact (PaymentBase.webhook_url_field_eq_ok.mp hcheck).1

variable {headers : RequestHeaders} {body : Json}

theorem validated_body (h : validated_parameters fw headers body = .ok (key, p)) :
    ∃ source, PaymentBase.validate fw source = .ok p := by
  obtain ⟨fields, rfl, hp⟩ := (validated_parameters_eq_ok h).2
  exact ⟨Source.of ["body"] fields, hp⟩

variable (h : validated_parameters fw headers body = .ok (key, p)) (hs : StoredAs key p row)
include h hs

theorem stored_key (htexts : fw.ChecksTexts) : Text.ofString row.idempotency_key = key := by
  have hkey := hs.idempotency_key
  rw [varchar_in_of_length_le (admitted_key h htexts).1] at hkey
  exact text_in_eq_some hkey

theorem stored_url : Text.ofString row.webhook_url = p.webhook_url := by
  obtain ⟨source, hp⟩ := validated_body h
  have hurl := hs.webhook_url
  rw [varchar_in_of_length_le (accepted_url hp).choose_spec.2] at hurl
  exact text_in_eq_some hurl

theorem stored_amount (hdigits : fw.BoundsDigits) :
    ∃ d, p.amount = .finite d ∧ d.toRat = row.amount.toRat := by
  obtain ⟨source, hp⟩ := validated_body h
  obtain ⟨d, hd, hexact, _⟩ := stored_units hp hs hdigits
  exact ⟨d, hd, hexact.symm⟩

theorem stored_description (htexts : fw.ChecksTexts) :
    row.description.map Text.ofString = p.description := by
  obtain ⟨source, hp⟩ := validated_body h
  have hdescription := hs.description
  cases hc : p.description with
  | none =>
      rw [hc] at hdescription
      rw [hdescription]
      rfl
  | some s =>
      rw [hc] at hdescription
      obtain ⟨t, ht, hcolumn⟩ := hdescription
      rw [varchar_in_of_length_le (accepted_text hp htexts hc).2] at ht
      rw [hcolumn, Option.map_some, text_in_eq_some ht]

-- What an accepted body was stored as is shown, and shown as the body has it.
theorem stored_is_shown (htexts : fw.ChecksTexts) (hback : fw.ReadsBack)
    (hdigits : fw.BoundsDigits) : ∃ read, PaymentRead.model_validate fw row = .ok read ∧
      read.id = row.id ∧ read.Shows key p ∧ read.Describes p := by
  obtain ⟨source, hp⟩ := validated_body h
  obtain ⟨read, hread, hamount⟩ := stored_row_is_read hp hs htexts hback hdigits
  obtain ⟨hid, hkey, hcurrency, hdescription, hmeta, hurl⟩ := read_columns htexts hback hread
  refine ⟨read, hread, hid, ⟨?_, ?_, ?_, ?_⟩, ?_, ?_⟩
  · rw [hkey]
    exact stored_key h hs htexts
  · obtain ⟨d, hd, he⟩ := stored_amount h hs hdigits
    exact ⟨_, d, hamount, hd, (read_amount_toRat _).trans he.symm⟩
  · exact hcurrency.trans hs.currency
  · obtain ⟨v, hv, hlength⟩ := accepted_url hp
    rw [stored_url h hs, hback.http_url_again v _ hv (le_trans hlength (by decide))] at hurl
    exact (Except.ok.inj hurl).symm
  · exact hdescription.trans (stored_description h hs htexts)
  · have hcolumn := hs.meta_
    cases hc : p.meta_ with
    | none =>
        rw [hc] at hcolumn
        rw [hmeta, hcolumn]
        rfl
    | some m =>
        rw [hc] at hcolumn
        obtain ⟨stored, hstored, hrow⟩ := hcolumn
        exact ⟨stored, hstored, by rw [hmeta, hrow]; rfl⟩

end Rows

section Reads

variable {d : Deployment} {A : Assumption Pid World Effect Answer} {c : SystemConfig}
variable {fw : Framework}

-- The reads of a run are answered from these tables.
def Tables.Answers (c : Tables) (trace : List Call) : Prop :=
  ∀ id found, ⟨.execute (.get_by_id id), .ok found⟩ ∈ trace → found = c.payments.find? id

-- A read finds its payment, unless a call fails.
theorem get_payment_finds {t : Tables} {row : Payment} {trace : List Call}
    {result : Except Exn Payment} (hrow : row ∈ t.payments.rows)
    (h : Exec (get_payment row.id) trace result) (ht : t.Answers trace) :
    result = .ok row ∨ ∃ e x, ⟨e, .error x⟩ ∈ trace := by
  obtain ⟨first, got, rest, rfl, hget, hrest⟩ := Exec.bind_iff.mp h
  obtain rfl := Exec.perform_iff.mp hget
  cases got with
  | error x => exact .inr ⟨_, x, List.mem_cons_self⟩
  | ok _ =>
      obtain ⟨second, found, last, rfl, hread, hlast⟩ := Exec.bind_iff.mp hrest
      obtain rfl := Exec.perform_iff.mp hread
      cases found with
      | error x => exact .inr ⟨_, x, List.mem_append_right _ List.mem_cons_self⟩
      | ok found =>
          have hfound := ht row.id found (by simp)
          rw [Table.find?_key hrow] at hfound
          subst hfound
          exact .inl (Exec.ret_iff.mp hlast).2

-- What was accepted is shown. Whatever else goes on, a payment that a request was
-- answered with is found from then on, its row passes the response model, and the
-- response shows what the request said; what a replay may differ in is shown as one
-- of the requests with this key had it.
theorem accepted_payment_is_shown (htexts : fw.ChecksTexts) (hback : fw.ReadsBack)
    (hdigits : fw.BoundsDigits) (h : Reachable d A c) (hv : c.world.Validated fw) {pid : Pid}
    {r : CreateRequest} {id : UUID} {key : Text} {p : PaymentBase}
    (ha : c.world.Accepts pid r id) (hr : r.Admits fw key p) :
    ∃ row read, PaymentRead.model_validate fw row = .ok read ∧ read.id = id ∧
      read.Shows key p ∧
      (∃ pid' r' p', c.world.jobs pid' = some (.request r') ∧ r'.Admits fw key p' ∧
        read.Describes p') ∧
      ∀ trace result, Exec (get_payment id) trace result →
        c.world.store.contents.Answers trace →
          result = .ok row ∨ ∃ e x, ⟨e, .error x⟩ ∈ trace := by
  have hrec := reachable_recorded h
  obtain ⟨row, hrow, rfl, hkey, hagrees⟩ := hrec.settled ha
  obtain ⟨pid', r', hj, hinserts⟩ := hrec.origin row hrow
  obtain ⟨key', p', hadmits⟩ := hv pid' r' hj
  obtain ⟨headers', body', hvalid'⟩ := hadmits.validated
  have hstored' := hadmits.inserts row hinserts
  obtain ⟨read, hread, hid, hshows, hdescribes⟩ := stored_is_shown hvalid' hstored' htexts hback
    hdigits
  -- the row that the request itself would have inserted
  have hown : StoredAs key p
      { row with description := r.payload.description, meta_ := r.payload.meta_ } :=
    hr.inserts _ ⟨⟨hagrees.amount, hagrees.currency, hagrees.webhook_url⟩, hkey, rfl, rfl⟩
  obtain ⟨headers, body, hvalid⟩ := hr.validated
  have hkey' := stored_key hvalid hown htexts
  have hurl := stored_url hvalid hown
  have hsame : key' = key := (stored_key hvalid' hstored' htexts).symm.trans hkey'
  subst hsame
  refine ⟨row, read, hread, hid, ⟨hshows.idempotency_key, ?_, ?_, ?_⟩,
    ⟨pid', r', p', hj, hadmits, hdescribes⟩, fun _ _ => get_payment_finds hrow⟩
  · obtain ⟨shown, d', hshown, hd', he⟩ := hshows.amount
    obtain ⟨_, hd, hrow'⟩ := stored_amount hvalid' hstored' hdigits
    obtain rfl := PyDecimal.finite.inj (hd'.symm.trans hd)
    obtain ⟨d, hd, hrow⟩ := stored_amount hvalid hown hdigits
    exact ⟨shown, d, hshown, hd, he.trans (hrow'.trans hrow.symm)⟩
  · exact hshows.currency.trans (hstored'.currency.symm.trans hown.currency)
  · exact hshows.webhook_url.trans ((stored_url hvalid' hstored').symm.trans hurl)

end Reads

namespace Scenario

-- The parameters of the described body, as its request carries them.
def tea_request : CreateRequest where
  idempotency_key := "k"
  payload :=
    { amount := hundred
      currency := .USD
      description := some "tea"
      meta_ := none
      webhook_url := "https://shop.example/"
      amount_fits := ⟨⟨1000000⟩, by decide, by decide, by decide +kernel⟩ }

theorem tea_admitted :
    tea_request.Admits framework key.text (described_payload (Text.ofString "tea")) where
  validated := ⟨_, _, described_admitted (by simp) (by decide +kernel)⟩
  inserts := by
    intro row hrow
    have hamount : row.amount = ⟨1000000⟩ :=
      Numeric.toRat_inj.mp (hrow.amount.trans (by decide +kernel))
    refine ⟨⟨hundred, rfl, ?_⟩, hrow.currency, ⟨"tea", by decide +kernel, hrow.description⟩,
      hrow.meta_, ?_, ?_⟩
    · rw [hamount]
      decide +kernel
    · rw [hrow.idempotency_key]
      decide +kernel
    · rw [hrow.webhook_url]
      decide +kernel

-- The request is the only one of its run.
def tea : Labels :=
  .launch 0 (.request tea_request) ::
    replies 0 ([.done, .infos public_infos, .executed 0 []] ++
      [.uuid 7, .executed 5 [], .uuid 7, .executed 5 [], .done, .done] ++ [.done, .done])

theorem first_step {l : Label Pid World.Launch Answer World.Tick} {ls : Labels}
    {c c' : SystemConfig} (h : c.execAll (machine deployment) any (l :: ls) = some c') :
    ∃ next, c.exec (machine deployment) l = some next ∧
      next.execAll (machine deployment) any ls = some c' := by
  rw [Config.execAll] at h
  split at h
  · exact Option.bind_eq_some_iff.mp h
  · cases h

-- A call starts nothing.
theorem jobs_of_replies {p : Pid} {rs : List Reply} {c c' : SystemConfig}
    (h : c.execAll (machine deployment) any (replies p rs) = some c') :
    c'.world.jobs = c.world.jobs := by
  induction rs generalizing c with
  | nil =>
      cases h
      rfl
  | cons r rs ih =>
      obtain ⟨next, hnext, hrest⟩ := first_step h
      refine (ih hrest).trans ?_
      rcases Config.exec_cases hnext with ⟨_, _, _, hl, _⟩ | ⟨_, _, _, _, _, _, _, hp⟩ |
        ⟨_, hl, _⟩ | ⟨_, hl, _⟩
      · cases hl
      · exact (scope_perform hp).jobs
      · cases hl
      · cases hl

theorem tea_validated {c : SystemConfig} (h : run any tea = some c) :
    c.world.Validated framework ∧ c.world.jobs 0 = some (.request tea_request) := by
  obtain ⟨started, hstarted, hrest⟩ := first_step h
  have hjobs : c.world.jobs =
      Function.update (fun _ => none) 0 (some (.request tea_request)) := by
    rw [jobs_of_replies hrest]
    cases hstarted
    rfl
  refine ⟨fun pid r hr => ?_, by rw [hjobs]; rfl⟩
  rw [hjobs] at hr
  by_cases hp : pid = 0
  · rw [hp, Function.update_self] at hr
    cases hr
    exact ⟨_, _, tea_admitted⟩
  · rw [Function.update_of_ne hp] at hr
    cases hr

end Scenario

theorem tea_is_shown : ∃ c, Reachable Scenario.deployment unrestricted c ∧
    ∃ id, c.world.Accepts 0 Scenario.tea_request id ∧ ∃ row read,
      PaymentRead.model_validate Scenario.framework row = .ok read ∧ read.id = id ∧
        read.Shows Scenario.key.text (Scenario.described_payload (Text.ofString "tea")) := by
  obtain ⟨c, hrun, hf⟩ : ∃ c, Scenario.run Scenario.any Scenario.tea = some c ∧
      (Scenario.accepted c.world 0).isSome := by
    rw [← Option.any_eq_true]
    decide +kernel
  have hc : Reachable Scenario.deployment unrestricted c :=
    run_of_execAll (fun _ _ _ _ _ => trivial) hrun
  obtain ⟨hvalidated, hjob⟩ := Scenario.tea_validated hrun
  obtain ⟨id, hid⟩ := Option.isSome_iff_exists.mp hf
  have ha : c.world.Accepts 0 Scenario.tea_request id := by
    refine Scenario.accepts_of_accepted ?_ hid
    rw [Scenario.asked, hjob]
  obtain ⟨row, read, hread, he, hshows, _⟩ := accepted_payment_is_shown
    Scenario.framework_texts Scenario.framework_back Scenario.framework_digits hc hvalidated ha
      Scenario.tea_admitted
  exact ⟨c, hc, id, ha, row, read, hread, he, hshows⟩

end PaymentsProcessor
