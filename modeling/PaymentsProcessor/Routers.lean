import PaymentsProcessor.Api
import PaymentsProcessor.Schemas

namespace PaymentsProcessor

open Python Validation PaymentsConstants

-- The octets of a header field. The server lets no NUL through.
structure FieldValue where
  octets : List UInt8
  no_nul : 0 ∉ octets

-- Headers are read as Latin-1.
def FieldValue.text (value : FieldValue) : Text :=
  value.octets.map fun b => ⟨b.toNat, lt_trans b.toNat_lt (by decide)⟩

structure RequestHeaders where
  x_api_key : Option FieldValue
  idempotency_key : Option FieldValue

section Validation

variable (fw : Framework) (headers : RequestHeaders) (body : Json)

def required_header (name : String) (value : Option FieldValue)
    (validate : List String → PyValue → Result Text) : Result Text :=
  match value with
  | none => .invalid [fw.missing.at ["header", name] (.json .null)]
  | some value => validate ["header", name] (.json (.str value.text))

-- The dependency of the router: `Header(...)` without constraints.
def track_api_key_header : Result Text :=
  required_header fw "x-api-key" headers.x_api_key fun _ v =>
    match v with
    | .json (.str s) => .ok s
    | _ => .ok []

def idempotency_key_header : Result Text :=
  required_header fw IDEMPOTENCY_KEY_HEADER headers.idempotency_key fun loc v =>
    check loc v (fw.string 1 IDEMPOTENCY_KEY_MAX_LEN v)

-- A body that is `null` counts as missing.
def validate_payload : Result PaymentBase :=
  match body with
  | .null => .invalid [fw.missing.at ["body"] (.json .null)]
  | body => PaymentCreate.model_validate fw ["body"] body

-- The parameters of `create_payment`: the key and the body.
def validate_request : Result (Text × PaymentBase) :=
  (((track_api_key_header fw headers).map fun _ key payload => (key, payload)).seq
    (idempotency_key_header fw headers)).seq (validate_payload fw body)

end Validation

-- What leaves the validation of a request.
inductive RequestExn where
  | RequestValidationError (errors : List ErrorDetails)
  | other (e : Exn)

def validated_parameters (fw : Framework) (headers : RequestHeaders) (body : Json) :
    Except RequestExn (Text × PaymentBase) :=
  match validate_request fw headers body with
  | .ok parameters => .ok parameters
  | .invalid errors => .error (.RequestValidationError errors)
  | .crashed e => .error (.other e)

-- A response of an error handler, by its content or as rendered.
inductive JSONResponse where
  | content (response : Response)
  | rendered (status_code : ℕ) (body : List UInt8)

def JSONResponse.status_code : JSONResponse → ℕ
  | .content (.accepted ..) => 202
  | .content (.error status_code _) => status_code
  | .rendered status_code _ => status_code

-- A text of the program or of a library.
def literal (s : String) : Json := .str (Text.ofString s)

namespace ErrorDetails

section Encoding

variable (fw : Framework)

def encode_ctx : Ctx → Except PyError Json
  | .size n => fw.jsonable_encoder (.json (.int n.toNat))
  | .text s => fw.jsonable_encoder (.json (literal s))
  | .gt => fw.jsonable_encoder (.decimal (.finite AMOUNT_GT))
  | .exception => fw.jsonable_encoder .object

def encode_fields : List (String × Ctx) → Except PyError (List (Text × Json))
  | [] => .ok []
  | (k, v) :: ctx => do
      let v ← encode_ctx fw v
      let fields ← encode_fields ctx
      return (Text.ofString k, v) :: fields

-- An error without a context has no such key.
def encode (error : ErrorDetails) : Except PyError Json := do
  let input ← fw.jsonable_encoder error.input
  let ctx ← encode_fields fw error.ctx
  return .obj
    ([(Text.ofString "type", literal error.type),
      (Text.ofString "loc", .arr (error.loc.map literal)),
      (Text.ofString "msg", literal error.msg),
      (Text.ofString "input", input)] ++
        if error.ctx = [] then [] else [(Text.ofString "ctx", .obj ctx)])

-- `jsonable_encoder(exc.errors())`
def encode_all : List ErrorDetails → Except PyError (List Json)
  | [] => .ok []
  | error :: errors => do
      let detail ← error.encode fw
      let details ← encode_all errors
      return detail :: details

end Encoding

end ErrorDetails

section Handlers

variable (fw : Framework)

def validation_content (details : List Json) : Json :=
  .obj
    [(Text.ofString "code", literal "VALIDATION_ERROR"),
     (Text.ofString "message", literal "Validation failed"),
     (Text.ofString "details", .arr details)]

def validation_exception_handler (exc : RequestExn) : Except PyError JSONResponse :=
  match exc with
  | .other e => .ok (.content (handle_all_errors e))
  | .RequestValidationError errors => do
      let details ← ErrorDetails.encode_all fw errors
      let body ← fw.render (validation_content details)
      return .rendered 422 body

end Handlers

end PaymentsProcessor
