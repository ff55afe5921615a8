import FireBoxTransfer.Framework.Texts
import Mathlib.Data.Nat.Notation

/-!
# JSON values

The values of JSON that programs exchange, their text without blanks, and how long it is.
Fields are read as they were written.
-/

/-! ## §1  Values -/

inductive JsonValue where
  | null
  | str (text : String)
  | num (value : ℕ)
  | arr (values : List JsonValue)
  | obj (fields : List (String × JsonValue))

namespace JsonValue

/-! ## §2  The length of their text -/

/-- The bytes that stand for a character of a JSON string. -/
def charSize (ch : Char) : ℕ :=
  if ch = '"' || ch = '\\' then 2
  else if ch.toNat ∈ [0x08, 0x09, 0x0a, 0x0c, 0x0d] then 2
  else if ch.toNat < 0x20 then 6
  else ch.utf8Size

def stringSize (s : String) : ℕ := (s.toList.map charSize).sum + 2

mutual

/-- The bytes of a value without blanks between its parts. -/
def size : JsonValue → ℕ
  | .null => 4
  | .str text => stringSize text
  | .num value => (toString value).length
  | .arr values => sizeValues values + (values.length - 1) + 2
  | .obj fields => sizeFields fields + (fields.length - 1) + 2

def sizeValues : List JsonValue → ℕ
  | [] => 0
  | value :: values => value.size + sizeValues values

def sizeFields : List (String × JsonValue) → ℕ
  | [] => 0
  | (key, value) :: fields => stringSize key + 1 + value.size + sizeFields fields

end

theorem sizeValues_map {α : Type} (write : α → JsonValue) (as : List α) :
    sizeValues (as.map write) = (as.map fun a => (write a).size).sum := by
  induction as with
  | nil => rfl
  | cons a as ih => rw [List.map_cons, List.map_cons, List.sum_cons, sizeValues, ih]

theorem sizeFields_append (fields more : List (String × JsonValue)) :
    sizeFields (fields ++ more) = sizeFields fields + sizeFields more := by
  induction fields with
  | nil => rw [List.nil_append, sizeFields, Nat.zero_add]
  | cons field fields ih =>
      obtain ⟨key, value⟩ := field
      rw [List.cons_append, sizeFields, sizeFields, ih]
      omega

/-! ## §3  The text -/

def hexDigit (n : ℕ) : UInt8 := .ofNat (if n < 10 then 0x30 + n else 0x57 + n)

/-- The bytes of a character: as it is, or after a backslash. -/
def charText (ch : Char) : List UInt8 :=
  if ch = '"' || ch = '\\' then [0x5c, .ofNat ch.toNat]
  else
    match ch.toNat with
    | 0x08 => [0x5c, 0x62]
    | 0x09 => [0x5c, 0x74]
    | 0x0a => [0x5c, 0x6e]
    | 0x0c => [0x5c, 0x66]
    | 0x0d => [0x5c, 0x72]
    | n =>
        if n < 0x20 then [0x5c, 0x75, 0x30, 0x30, hexDigit (n / 16), hexDigit (n % 16)]
        else String.utf8EncodeChar ch

def stringText (s : String) : List UInt8 := 0x22 :: s.toList.flatMap charText ++ [0x22]

mutual

/-- The text of a value, without blanks between its parts. -/
def text : JsonValue → List UInt8
  | .null => Texts.utf8 "null"
  | .str text => stringText text
  | .num value => Texts.utf8 (toString value)
  | .arr values => 0x5b :: textValues values ++ [0x5d]
  | .obj fields => 0x7b :: textFields fields ++ [0x7d]

def textValues : List JsonValue → List UInt8
  | [] => []
  | [value] => value.text
  | value :: values => value.text ++ 0x2c :: textValues values

def textFields : List (String × JsonValue) → List UInt8
  | [] => []
  | [(key, value)] => stringText key ++ 0x3a :: value.text
  | (key, value) :: fields => stringText key ++ 0x3a :: value.text ++ 0x2c :: textFields fields

end

theorem length_charText (ch : Char) : (charText ch).length = charSize ch := by
  unfold charText charSize
  by_cases hquote : (decide (ch = '"') || decide (ch = '\\')) = true
  · rw [if_pos hquote, if_pos hquote]
    rfl
  rw [if_neg hquote, if_neg hquote]
  by_cases hescaped : ch.toNat ∈ [0x08, 0x09, 0x0a, 0x0c, 0x0d]
  · rw [if_pos hescaped]
    simp only [List.mem_cons, List.not_mem_nil, or_false] at hescaped
    rcases hescaped with h | h | h | h | h <;> rw [h] <;> rfl
  · rw [if_neg hescaped]
    split
    case h_6 =>
      split
      · rfl
      · exact String.length_utf8EncodeChar ch
    all_goals
      rename_i h
      exact absurd (by rw [h]; decide) hescaped

theorem length_stringText (s : String) : (stringText s).length = stringSize s := by
  unfold stringText stringSize
  rw [List.length_append, List.length_cons, List.length_flatMap, funext length_charText]
  rfl

theorem length_utf8_toString (n : ℕ) : (Texts.utf8 (toString n)).length = (toString n).length := by
  unfold Texts.utf8
  rw [List.length_flatMap, ← String.length_toList, ← Nat.mul_one (toString n).toList.length,
    ← List.sum_replicate_nat]
  congr 1
  refine List.eq_replicate_iff.mpr ⟨List.length_map _, fun k hk => ?_⟩
  obtain ⟨ch, hch, rfl⟩ := List.mem_map.mp hk
  rw [String.length_utf8EncodeChar]
  exact Texts.utf8Size_of_isDigit (Texts.isDigit_of_mem_toString hch)

mutual

/-- The text is as long as was said. -/
theorem length_text (value : JsonValue) : value.text.length = value.size := by
  cases value with
  | null => rfl
  | str text => rw [JsonValue.text, size, length_stringText]
  | num value => rw [text, size, length_utf8_toString]
  | arr values =>
      have hvalues := length_textValues values
      rw [text, size, List.length_append, List.length_cons, hvalues]
      rfl
  | obj fields =>
      have hfields := length_textFields fields
      rw [text, size, List.length_append, List.length_cons, hfields]
      rfl

theorem length_textValues (values : List JsonValue) :
    (textValues values).length = sizeValues values + (values.length - 1) := by
  match values with
  | [] => rfl
  | [value] =>
      have hvalue := length_text value
      rw [textValues, sizeValues, sizeValues, hvalue]
      rfl
  | value :: next :: values =>
      have hvalue := length_text value
      have hvalues := length_textValues (next :: values)
      rw [textValues, sizeValues, List.length_append, List.length_cons, hvalue, hvalues]
      · simp only [List.length_cons]
        omega
      · nofun

theorem length_textFields (fields : List (String × JsonValue)) :
    (textFields fields).length = sizeFields fields + (fields.length - 1) := by
  match fields with
  | [] => rfl
  | [(key, value)] =>
      have hvalue := length_text value
      rw [textFields, sizeFields, sizeFields, List.length_append, List.length_cons, hvalue,
        length_stringText]
      simp only [List.length_cons, List.length_nil]
      omega
  | (key, value) :: next :: fields =>
      have hvalue := length_text value
      have hfields := length_textFields (next :: fields)
      rw [textFields, sizeFields, List.length_append, List.length_append, List.length_cons,
        List.length_cons, hvalue, hfields, length_stringText]
      · simp only [List.length_cons]
        omega
      · nofun

end

/-! ## §4  Fields -/

/-- A field that is left out if there is no value. -/
def optionalField {α : Type} (key : String) (write : α → JsonValue) : Option α →
    List (String × JsonValue)
  | none => []
  | some a => [(key, write a)]

def asString : JsonValue → Option String
  | .str text => some text
  | _ => none

/-- A number that fits into 64 bits. -/
def asU64 : JsonValue → Option ℕ
  | .num value => if value < 2 ^ 64 then some value else none
  | _ => none

def asList {α : Type} (read : JsonValue → Option α) : JsonValue → Option (List α)
  | .arr values => values.mapM read
  | _ => none

/-- A field that may be left out or be `null`. -/
def asOption {α : Type} (read : JsonValue → Option α) : Option JsonValue → Option (Option α)
  | none | some .null => some none
  | some value => (read value).map some

theorem mapM_map_eq_some {α : Type} {write : α → JsonValue} {read : JsonValue → Option α}
    {as : List α} (h : ∀ a ∈ as, read (write a) = some a) : (as.map write).mapM read = some as := by
  induction as with
  | nil => rfl
  | cons a as ih =>
      rw [List.map_cons, List.mapM_cons, h a List.mem_cons_self,
        ih fun a' ha' => h a' (List.mem_cons_of_mem _ ha')]
      rfl

theorem asList_map {α : Type} {write : α → JsonValue} {read : JsonValue → Option α} {as : List α}
    (h : ∀ a ∈ as, read (write a) = some a) : asList read (.arr (as.map write)) = some as :=
  mapM_map_eq_some h

/-- A field is found behind fields that are left out, or have other keys. -/
theorem lookup_optionalField {α : Type} {key : String} (key' : String) (write : α → JsonValue)
    (value : Option α) (fields : List (String × JsonValue)) (hne : key ≠ key') :
    (optionalField key' write value ++ fields).lookup key = fields.lookup key := by
  cases value with
  | none => rfl
  | some a =>
      change List.lookup key ((key', write a) :: fields) = _
      rw [List.lookup_cons, beq_eq_false_iff_ne.mpr hne]

theorem lookup_optionalField_self {α : Type} (key : String) (write : α → JsonValue)
    (value : Option α) (fields : List (String × JsonValue)) (hnone : fields.lookup key = none) :
    (optionalField key write value ++ fields).lookup key = value.map write := by
  cases value with
  | none => exact hnone
  | some a => exact List.lookup_cons_self

theorem asOption_map {α : Type} {write : α → JsonValue} {read : JsonValue → Option α}
    {value : Option α} (h : ∀ a ∈ value, read (write a) = some a)
    (hnull : ∀ a, write a ≠ .null) : asOption read (value.map write) = some value := by
  cases value with
  | none => rfl
  | some a =>
      have hread := h a rfl
      rw [Option.map_some]
      unfold asOption
      split
      · rename_i heq
        cases heq
      · rename_i heq
        exact absurd (Option.some.inj heq) (hnull a)
      · rename_i value _ heq
        rw [← Option.some.inj heq, hread]
        rfl

end JsonValue
