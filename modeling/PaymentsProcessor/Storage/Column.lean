import PaymentsProcessor.Python.Json

namespace Storage

open Python

-- A string as a text column takes it: in UTF-8, and without U+0000.
def text_in (s : Text) : Option String :=
  if s.all fun c => c.val ≠ 0 then s.toString? else none

-- A `VARCHAR(n)` cuts blanks off that exceed its length, and refuses anything else.
def varchar_in (n : ℕ) (s : Text) : Option String :=
  if (s.drop n).all fun c => c.val = 0x20 then text_in (s.take n) else none

-- A string of a JSON text that reaches the server with `\u` escapes: it takes a
-- high surrogate and the low one behind it for one character.
def jsonb_string : Text → Option (List Char)
  | [] => some []
  | c :: s =>
      if c.val = 0 then none
      else if c.isHighSurrogate then
        match s with
        | [] => none
        | d :: s =>
            if d.isLowSurrogate then
              let n := 0x10000 + (c.val - 0xd800) * 0x400 + (d.val - 0xdc00)
              (jsonb_string s).map (Char.ofNat n :: ·)
            else none
      else c.toChar?.bind fun x => (jsonb_string s).map (x :: ·)

-- The last of several fields with one key stays.
def keepLast : List (String × JsonValue) → List (String × JsonValue)
  | [] => []
  | (k, v) :: fields =>
      if fields.any fun field => field.1 = k then keepLast fields else (k, v) :: keepLast fields

-- What a `JSONB` column makes of a value that `json.dumps` wrote.
mutual

def jsonb_in : Json → Option JsonValue
  | .null => some .null
  | .bool b => some (.bool b)
  | .int i => some (.int i)
  | .float (.finite q) => some (.float (.finite q))
  | .float _ => none
  | .str s => (jsonb_string s).map fun cs => .str (String.ofList cs)
  | .arr items => (jsonb_items items).map .arr
  | .obj fields => (jsonb_fields fields).map fun fields => .obj (keepLast fields)

def jsonb_items : List Json → Option (List JsonValue)
  | [] => some []
  | v :: items => do
      let v ← jsonb_in v
      let items ← jsonb_items items
      return v :: items

def jsonb_fields : List (Text × Json) → Option (List (String × JsonValue))
  | [] => some []
  | (k, v) :: fields => do
      let k ← jsonb_string k
      let v ← jsonb_in v
      let fields ← jsonb_fields fields
      return (String.ofList k, v) :: fields

end

-- Every surrogate of the string is in a pair of a high one and a low one.
def paired : Text → Bool
  | [] => true
  | c :: s =>
      if c.isHighSurrogate then
        match s with
        | [] => false
        | d :: s => d.isLowSurrogate && paired s
      else !c.isLowSurrogate && paired s

def noNul (s : Text) : Bool := s.all fun c => c.val ≠ 0

theorem text_in_isSome (s : Text) : (text_in s).isSome = (noNul s && s.encodable) := by
  unfold text_in
  split
  case isTrue h => rw [Text.toString?_isSome, noNul, h, Bool.true_and]
  case isFalse h => rw [noNul, Bool.of_not_eq_true h, Bool.false_and, Option.isSome_none]

theorem text_in_eq_some {s : Text} {t : String} (h : text_in s = some t) : Text.ofString t = s := by
  unfold text_in at h
  split at h
  · exact Text.toString?_eq_some h
  · cases h

-- A string that is not too long is stored as it is or refused.
theorem varchar_in_of_length_le {n : ℕ} {s : Text} (h : s.length ≤ n) :
    varchar_in n s = text_in s := by
  simp [varchar_in, List.drop_eq_nil_of_le h, List.take_of_length_le h]

@[simp] theorem noNul_cons (c : CodePoint) (s : Text) :
    noNul (c :: s) = (decide (c.val ≠ 0) && noNul s) := rfl

theorem paired_cons_of_not_high {c : CodePoint} {s : Text} (h : ¬c.isHighSurrogate) :
    paired (c :: s) = (!c.isLowSurrogate && paired s) := by
  cases s <;> simp [paired, h]

theorem jsonb_string_isSome (s : Text) :
    (jsonb_string s).isSome = (noNul s && paired s) := by
  fun_induction jsonb_string s with
  | case1 => rfl
  | case2 c s h => rw [noNul_cons, decide_eq_false (not_not.mpr h), Bool.false_and,
      Bool.false_and, Option.isSome_none]
  | case3 c h hhigh => simp [paired, hhigh]
  | case4 c h hhigh d s hlow n ih =>
      have hd : d.val ≠ 0 := by
        simp only [CodePoint.isLowSurrogate, decide_eq_true_eq] at hlow
        omega
      simp [paired, hhigh, hlow, ih, h, hd]
  | case5 c h hhigh d s hlow => simp [paired, hhigh, hlow]
  | case6 c s h hhigh ih =>
      have hc := c.toChar?_isSome
      cases hx : c.toChar? with
      | none =>
          rw [hx] at hc
          have hlow : c.isLowSurrogate = true := by
            simpa [CodePoint.isSurrogate, hhigh] using hc.symm
          simp [paired_cons_of_not_high hhigh, hlow]
      | some x =>
          rw [hx] at hc
          have hlow : c.isLowSurrogate = false := by
            simpa [CodePoint.isSurrogate, hhigh] using hc.symm
          simp [paired_cons_of_not_high hhigh, hlow, ih, h]

-- The strings a `JSONB` column takes.
def jsonbText (s : Text) : Bool := noNul s && paired s

-- The JSON values it takes.
def jsonbValue (v : Json) : Bool := v.all jsonbText (fun _ => true) PyFloat.isFinite

mutual

theorem jsonb_in_isSome : ∀ v, (jsonb_in v).isSome = jsonbValue v
  | .null => rfl
  | .bool _ => rfl
  | .int _ => rfl
  | .float (.finite _) => rfl
  | .float (.inf _) => rfl
  | .float .nan => rfl
  | .str s => by simp [jsonb_in, jsonbValue, Json.all, jsonb_string_isSome, jsonbText]
  | .arr items => by simp [jsonb_in, jsonbValue, Json.all, jsonb_items_isSome items]
  | .obj fields => by simp [jsonb_in, jsonbValue, Json.all, jsonb_fields_isSome fields]

theorem jsonb_items_isSome : ∀ items, (jsonb_items items).isSome =
    Json.allItems jsonbText (fun _ => true) PyFloat.isFinite items
  | [] => rfl
  | v :: items => by
      have hv := jsonb_in_isSome v
      simp only [jsonbValue] at hv
      simp only [jsonb_items, Json.allItems, ← hv, ← jsonb_items_isSome items]
      cases jsonb_in v <;> cases jsonb_items items <;> rfl

theorem jsonb_fields_isSome : ∀ fields, (jsonb_fields fields).isSome =
    Json.allFields jsonbText (fun _ => true) PyFloat.isFinite fields
  | [] => rfl
  | (k, v) :: fields => by
      have hk : (jsonb_string k).isSome = jsonbText k := jsonb_string_isSome k
      have hv := jsonb_in_isSome v
      simp only [jsonbValue] at hv
      simp only [jsonb_fields, Json.allFields, ← hk, ← hv, ← jsonb_fields_isSome fields]
      cases jsonb_string k <;> cases jsonb_in v <;> cases jsonb_fields fields <;> rfl

end

end Storage
