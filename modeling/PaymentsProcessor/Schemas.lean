import PaymentsProcessor.Errors
import PaymentsProcessor.Models
import PaymentsProcessor.Python.Json
import PaymentsProcessor.Validation.Checked

namespace PaymentsProcessor

open Python Storage Validation PaymentsConstants

-- A value that is validated or echoed by an error. The last constructor is an
-- object of any other class: a row, or an exception.
inductive PyValue where
  | json (v : Json)
  | decimal (d : PyDecimal)
  | currency (c : CurrencyEnum)
  | object

-- A value in the context of an error: a length or a number of digits, a text,
-- the bound of the amount, or the exception of a validator.
inductive Ctx where
  | size (n : UInt64)
  | text (s : String)
  | gt
  | exception

-- What is wrong with a value.
structure Fault where
  type : String
  msg : String
  ctx : List (String × Ctx)

-- An entry of `RequestValidationError.errors()`.
structure ErrorDetails where
  type : String
  loc : List String
  msg : String
  input : PyValue
  ctx : List (String × Ctx)

def Fault.at (fault : Fault) (loc : List String) (input : PyValue) : ErrorDetails :=
  ⟨fault.type, loc, fault.msg, input, fault.ctx⟩

-- The bound of `Field(gt=Decimal(0))`.
def AMOUNT_GT : Decimal := ⟨false, 0, 0⟩

-- What the program uses of the libraries that validate a request and render a
-- response.
structure Framework where
  decimal (gt : Decimal) (max_digits decimal_places : ℕ) (d : PyDecimal) : Option Fault
  string (min_length max_length : ℕ) (v : PyValue) : Except Fault Text
  currency_enum (v : PyValue) : Except Fault CurrencyEnum
  json_dict (v : PyValue) : Except Fault (List (Text × Json))
  http_url (v : PyValue) : Except Fault Text
  missing : Fault
  model_attributes_type : Fault
  jsonable_encoder (v : PyValue) : Except PyError Json
  float_repr (q : ℚ) : String
  render (content : Json) : Except PyError (List UInt8)

-- What a validator of the program raises. Only a `ValueError` becomes an error
-- of the validation.
inductive ValidatorExn where
  | ValueError (message : String)
  | other (e : Exn)

abbrev Result (α : Type) := Checked ErrorDetails Exn α

def check {α : Type} (loc : List String) (v : PyValue) : Except Fault α → Result α
  | .ok a => .ok a
  | .error fault => .invalid [fault.at loc v]

def run_validator {α : Type} (loc : List String) (v : PyValue) : Except ValidatorExn α → Result α
  | .ok a => .ok a
  | .error (.ValueError message) =>
      .invalid [⟨"value_error", loc, "Value error, " ++ message, v, [("error", .exception)]⟩]
  | .error (.other e) => .crashed e

-- The attributes of the validated object, and the object as errors echo it.
structure Source where
  loc : List String
  whole : PyValue
  get : String → Option PyValue

namespace Source

variable {α : Type} (source : Source) (fw : Framework) (name : String)
  (validate : List String → PyValue → Result α)

def required : Result α :=
  match source.get name with
  | none => .invalid [fw.missing.at (source.loc ++ [name]) source.whole]
  | some v => validate (source.loc ++ [name]) v

-- A field of a type `T | None` whose default is `None`.
def optional : Result (Option α) :=
  match source.get name with
  | none => .ok none
  | some (.json .null) => .ok none
  | some v => (validate (source.loc ++ [name]) v).map some

end Source

-- `PaymentsUnexpectedError` is what the API makes of it.
def InvalidOperation : Exn := .Exception "InvalidOperation" "[<class 'decimal.ConversionSyntax'>]"

structure PaymentBase where
  amount : PyDecimal
  currency : CurrencyEnum
  description : Option Text
  meta_ : Option (List (Text × Json))
  webhook_url : Text

namespace PaymentBase

def _prevent_float_precision_loss : PyValue → Except ValidatorExn PyDecimal
  | .decimal d => .ok d
  | .json (.str s) =>
      match PyDecimal.ofText s with
      | some d => .ok d
      | none => .error (.other InvalidOperation)
  | _ => .error (.ValueError ("Passing the amount as a anything but float is prohibited due to " ++
      "loss of precision.Please pass the amount as a string (e.g., '1111122222333334.10')"))

def _check_webhook_url_length (v : Text) : Except ValidatorExn Text :=
  if WEBHOOK_URL_MAX_LEN < v.length then
    .error (.ValueError s!"webhook_url must be at most {WEBHOOK_URL_MAX_LEN} characters")
  else .ok v

section Fields

variable (fw : Framework) (loc : List String) (v : PyValue)

def check_amount (d : PyDecimal) : Result PyDecimal :=
  match fw.decimal AMOUNT_GT AMOUNT_MAX_DIGITS AMOUNT_DECIMAL_PLACES d with
  | none => .ok d
  | some fault => .invalid [fault.at loc (.decimal d)]

-- The constraints are checked on what the validator made of the value.
def amount_field : Result PyDecimal :=
  match run_validator loc v (_prevent_float_precision_loss v) with
  | .ok d => check_amount fw loc d
  | .invalid errors => .invalid errors
  | .crashed e => .crashed e

def currency_field : Result CurrencyEnum := check loc v (fw.currency_enum v)

def description_field : Result Text := check loc v (fw.string 0 DESCRIPTION_MAX_LEN v)

def meta_field : Result (List (Text × Json)) := check loc v (fw.json_dict v)

def webhook_url_field : Result Text :=
  match check loc v (fw.http_url v) with
  | .ok url => run_validator loc v (_check_webhook_url_length url)
  | .invalid errors => .invalid errors
  | .crashed e => .crashed e

end Fields

-- The fields in their order.
def validate (fw : Framework) (source : Source) : Result PaymentBase :=
  (((((source.required fw "amount" (amount_field fw)).map mk).seq
    (source.required fw "currency" (currency_field fw))).seq
      (source.optional "description" (description_field fw))).seq
        (source.optional "meta" (meta_field fw))).seq
          (source.required fw "webhook_url" (webhook_url_field fw))

end PaymentBase

-- A JSON object at `loc`.
def Source.of (loc : List String) (fields : List (Text × Json)) : Source :=
  ⟨loc, .json (.obj fields), fun name => (fields.lookup (Text.ofString name)).map .json⟩

-- `PaymentCreate` of a JSON value at `loc`.
def PaymentCreate.model_validate (fw : Framework) (loc : List String) (body : Json) :
    Result PaymentBase :=
  match body with
  | .obj fields => PaymentBase.validate fw (Source.of loc fields)
  | _ => .invalid [fw.model_attributes_type.at loc (.json body)]

-- A stored JSON value as the driver reads it back.
mutual

def read_json : JsonValue → Json
  | .null => .null
  | .bool b => .bool b
  | .int i => .int i
  | .float x => .float x
  | .str s => .str (Text.ofString s)
  | .arr items => .arr (read_items items)
  | .obj fields => .obj (read_fields fields)

def read_items : List JsonValue → List Json
  | [] => []
  | v :: items => read_json v :: read_items items

def read_fields : List (String × JsonValue) → List (Text × Json)
  | [] => []
  | (k, v) :: fields => (Text.ofString k, read_json v) :: read_fields fields

end

-- A stored amount as the driver reads it back.
def read_amount (amount : Amount) : Decimal :=
  ⟨amount.units < 0, amount.units.natAbs, -AMOUNT_DECIMAL_PLACES⟩

structure PaymentRead extends PaymentBase where
  id : UUID
  status : PaymentStatusEnum
  idempotency_key : String
  processed_at : Option DateTime
  created_at : DateTime
  updated_at : Option DateTime

namespace PaymentRead

def get (row : Payment) : String → Option PyValue
  | "amount" => some (.decimal (.finite (read_amount row.amount)))
  | "currency" => some (.currency row.currency)
  | "description" => some (.json (row.description.elim .null fun s => .str (Text.ofString s)))
  | "meta" => some (.json (row.meta_.elim .null fun fields => .obj (read_fields fields)))
  | "webhook_url" => some (.json (.str (Text.ofString row.webhook_url)))
  | _ => none

-- `PaymentRead` of a row. Its own fields hold instances of their types.
def model_validate (fw : Framework) (row : Payment) : Result PaymentRead :=
  (PaymentBase.validate fw ⟨[], .object, get row⟩).map fun base =>
    { base with
      id := row.id
      status := row.status
      idempotency_key := row.idempotency_key
      processed_at := row.processed_at
      created_at := row.created_at
      updated_at := row.updated_at }

end PaymentRead

end PaymentsProcessor
