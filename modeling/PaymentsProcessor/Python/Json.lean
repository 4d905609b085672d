import PaymentsProcessor.Python.Text

namespace Python

-- What `json.loads` can return. A float may be a NaN or infinite, and a string
-- may hold surrogates.
inductive Json where
  | null
  | bool (b : Bool)
  | int (i : ℤ)
  | float (x : PyFloat)
  | str (s : Text)
  | arr (items : List Json)
  | obj (fields : List (Text × Json))

def PyFloat.isFinite : PyFloat → Bool
  | .finite _ => true
  | _ => false

-- An int with more digits than this many has no `str`.
def fewDigits (i : ℤ) : Bool := i.natAbs < 10 ^ maxStrDigits

namespace Json

section All

variable (text : Text → Bool) (int : ℤ → Bool) (float : PyFloat → Bool)

-- The strings, keys among them, the ints and the floats of a value at every depth.
mutual

def all : Json → Bool
  | .null => true
  | .bool _ => true
  | .int i => int i
  | .float x => float x
  | .str s => text s
  | .arr items => allItems items
  | .obj fields => allFields fields

def allItems : List Json → Bool
  | [] => true
  | v :: items => all v && allItems items

def allFields : List (Text × Json) → Bool
  | [] => true
  | (k, v) :: fields => text k && all v && allFields fields

end

@[simp] theorem allItems_eq (items : List Json) :
    allItems text int float items = items.all fun v => v.all text int float := by
  induction items with
  | nil => rfl
  | cons v items ih => rw [allItems, ih, List.all_cons]

@[simp] theorem allFields_eq (fields : List (Text × Json)) :
    allFields text int float fields =
      fields.all fun field => text field.1 && field.2.all text int float := by
  induction fields with
  | nil => rfl
  | cons field fields ih =>
      obtain ⟨k, v⟩ := field
      rw [allFields, ih, List.all_cons]

end All

-- The escape of a character inside a string literal, where it has one.
def escape (c : CodePoint) : Text :=
  if c.val = 0x22 then Text.ofString "\\\""
  else if c.val = 0x5c then Text.ofString "\\\\"
  else if c.val = 0x0a then Text.ofString "\\n"
  else if c.val = 0x0d then Text.ofString "\\r"
  else if c.val = 0x09 then Text.ofString "\\t"
  else if c.val = 0x0c then Text.ofString "\\f"
  else if c.val = 0x08 then Text.ofString "\\b"
  else if c.val < 0x20 then
    Text.ofString "\\u00" ++ [c.val / 16, c.val % 16].flatMap fun d => Text.ofString (hexDigit d)
  else [c]
where
  hexDigit (d : ℕ) : String := String.singleton (Nat.digitChar d)

def quote (s : Text) : Text := Text.ofString "\"" ++ s.flatMap escape ++ Text.ofString "\""

def join : List Text → Text
  | [] => []
  | [part] => part
  | part :: parts => part ++ Text.ofString "," ++ join parts

section Dumps

variable (float_repr : ℚ → String)

-- `json.dumps(v, ensure_ascii=False, allow_nan=False, separators=(",", ":"))`
mutual

def dumps : Json → Except PyError Text
  | .null => .ok (Text.ofString "null")
  | .bool b => .ok (Text.ofString (if b then "true" else "false"))
  | .int i => if fewDigits i then .ok (Text.ofString (toString i)) else .error .ValueError
  | .float (.finite q) => .ok (Text.ofString (float_repr q))
  | .float _ => .error .ValueError
  | .str s => .ok (quote s)
  | .arr items => do
      let parts ← dumpsItems items
      return Text.ofString "[" ++ join parts ++ Text.ofString "]"
  | .obj fields => do
      let parts ← dumpsFields fields
      return Text.ofString "\x7b" ++ join parts ++ Text.ofString "\x7d"

def dumpsItems : List Json → Except PyError (List Text)
  | [] => .ok []
  | v :: items => do
      let part ← dumps v
      let parts ← dumpsItems items
      return part :: parts

def dumpsFields : List (Text × Json) → Except PyError (List Text)
  | [] => .ok []
  | (k, v) :: fields => do
      let part ← dumps v
      let parts ← dumpsFields fields
      return (quote k ++ Text.ofString ":" ++ part) :: parts

end

-- The bytes of the dumped value.
def render (v : Json) : Except PyError (List UInt8) := do
  let text ← dumps float_repr v
  text.encode

end Dumps

-- What can be written as JSON in UTF-8.
def renderable (v : Json) : Bool := v.all Text.encodable fewDigits PyFloat.isFinite

theorem encodable_escape (c : CodePoint) : (escape c).encodable = !c.isSurrogate := by
  by_cases hc : c.val < 0xd800
  · rw [CodePoint.isSurrogate_of_lt hc]
    simp only [escape, apply_ite Text.encodable, Text.encodable_ofString, List.flatMap_cons,
      List.flatMap_nil, List.append_nil, Text.encodable_append, Text.encodable_cons,
      CodePoint.isSurrogate_of_lt hc]
    simp
  · have hescape : escape c = [c] := by
      unfold escape
      -- what is escaped lies below the surrogates
      repeat rw [if_neg (by omega)]
    simp [hescape]

@[simp] theorem encodable_quote (s : Text) : (quote s).encodable = s.encodable := by
  have h : Text.encodable (s.flatMap escape) = s.encodable := by
    induction s with
    | nil => rfl
    | cons c s ih =>
        rw [List.flatMap_cons, Text.encodable_append, encodable_escape, ih, Text.encodable_cons]
  simp [quote, h]

@[simp] theorem encodable_join (parts : List Text) :
    (join parts).encodable = parts.all Text.encodable := by
  induction parts with
  | nil => rfl
  | cons part parts ih =>
      cases parts with
      | nil => simp [join]
      | cons next parts => simp [join, ih]

private def encodes : Except PyError Text → Bool
  | .ok text => text.encodable
  | .error _ => false

private def allEncode : Except PyError (List Text) → Bool
  | .ok parts => parts.all Text.encodable
  | .error _ => false

section

variable (float_repr : ℚ → String)

mutual

private theorem encodes_dumps : ∀ v, encodes (dumps float_repr v) = v.renderable
  | .null => by simp [dumps, encodes, renderable, all]
  | .bool b => by simp [dumps, encodes, renderable, all]
  | .int i => by
      simp only [dumps, renderable, all]
      split <;> simp_all [encodes]
  | .float (.finite q) => by simp [dumps, encodes, renderable, all, PyFloat.isFinite]
  | .float (.inf b) => by simp [dumps, encodes, renderable, all, PyFloat.isFinite]
  | .float .nan => by simp [dumps, encodes, renderable, all, PyFloat.isFinite]
  | .str s => by simp [dumps, encodes, renderable, all]
  | .arr items => by
      have ih := allEncode_dumpsItems items
      simp only [dumps, renderable, all, ← ih]
      cases dumpsItems float_repr items with
      | error e => rfl
      | ok parts => simp [encodes, allEncode, Bind.bind, Except.bind, Pure.pure, Except.pure]
  | .obj fields => by
      have ih := allEncode_dumpsFields fields
      simp only [dumps, renderable, all, ← ih]
      cases dumpsFields float_repr fields with
      | error e => rfl
      | ok parts => simp [encodes, allEncode, Bind.bind, Except.bind, Pure.pure, Except.pure]

private theorem allEncode_dumpsItems : ∀ items, allEncode (dumpsItems float_repr items) =
    allItems Text.encodable fewDigits PyFloat.isFinite items
  | [] => rfl
  | v :: items => by
      have hv := encodes_dumps v
      have ih := allEncode_dumpsItems items
      simp only [renderable] at hv
      simp only [dumpsItems, allItems, ← hv, ← ih]
      cases dumps float_repr v with
      | error e => rfl
      | ok part =>
          cases dumpsItems float_repr items with
          | error e => simp [encodes, allEncode, Bind.bind, Except.bind]
          | ok parts => simp [encodes, allEncode, Bind.bind, Except.bind, Pure.pure, Except.pure]

private theorem allEncode_dumpsFields : ∀ fields, allEncode (dumpsFields float_repr fields) =
    allFields Text.encodable fewDigits PyFloat.isFinite fields
  | [] => rfl
  | (k, v) :: fields => by
      have hv := encodes_dumps v
      have ih := allEncode_dumpsFields fields
      simp only [renderable] at hv
      simp only [dumpsFields, allFields, ← hv, ← ih]
      cases dumps float_repr v with
      | error e => simp [encodes, allEncode, Bind.bind, Except.bind]
      | ok part =>
          cases dumpsFields float_repr fields with
          | error e => simp [encodes, allEncode, Bind.bind, Except.bind]
          | ok parts => simp [encodes, allEncode, Bind.bind, Except.bind, Pure.pure, Except.pure]

end

theorem render_ok_iff (v : Json) : (∃ bytes, v.render float_repr = .ok bytes) ↔ v.renderable := by
  rw [← encodes_dumps float_repr]
  cases h : dumps float_repr v with
  | error e => simp [render, h, encodes, Bind.bind, Except.bind]
  | ok text =>
      cases he : text.encodable <;>
        simp [render, h, encodes, Text.encode, he, Bind.bind, Except.bind]

end

end Json

end Python
