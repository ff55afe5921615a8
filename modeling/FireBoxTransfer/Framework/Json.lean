import Mathlib.Algebra.GroupWithZero.Nat
import Mathlib.Data.List.Basic
import Mathlib.Data.Nat.Notation

/-!
# JSON objects as they are written

The bytes of JSON strings with their escapes, and of objects whose fields are strings.
A `Serde` is a type with a way of writing its values as JSON objects and a way of reading
them; what is used of the reader is that it reads what is written and takes nothing
shorter than a pair of braces.
-/

abbrev Bytes := List UInt8

namespace Json

/-! ## §1  Strings -/

def hexDigit (n : UInt8) : UInt8 := if n < 10 then 48 + n else 87 + n

def hexValue (b : UInt8) : UInt8 := if b < 58 then b - 48 else b - 87

/-- A byte of a string, escaped where JSON wants it. -/
def escapeByte (b : UInt8) : Bytes :=
  if b = 34 ∨ b = 92 then [92, b]
  else if b = 8 then [92, 98]
  else if b = 9 then [92, 116]
  else if b = 10 then [92, 110]
  else if b = 12 then [92, 102]
  else if b = 13 then [92, 114]
  else if b < 32 then [92, 117, 48, 48, hexDigit (b / 16), hexDigit (b % 16)]
  else [b]

/-- The byte that a letter after a backslash stands for. -/
def unescape (b : UInt8) : Option UInt8 :=
  if b = 34 ∨ b = 92 then some b
  else if b = 98 then some 8
  else if b = 116 then some 9
  else if b = 110 then some 10
  else if b = 102 then some 12
  else if b = 114 then some 13
  else none

/-- The bytes up to the closing quote, and what is behind it. -/
def readBytes : Bytes → Option (Bytes × Bytes)
  | 92 :: 117 :: 48 :: 48 :: hi :: lo :: rest =>
      (readBytes rest).map fun r => ((hexValue hi * 16 + hexValue lo) :: r.1, r.2)
  | 92 :: c :: rest =>
      (unescape c).bind fun b => (readBytes rest).map fun r => (b :: r.1, r.2)
  | 34 :: rest => some ([], rest)
  | b :: rest => (readBytes rest).map fun r => (b :: r.1, r.2)
  | [] => none

theorem hexValue_hexDigit {b : UInt8} (h : b < 32) :
    hexValue (hexDigit (b / 16)) * 16 + hexValue (hexDigit (b % 16)) = b := by
  have hall : ∀ n : Fin 256, UInt8.ofNat n < 32 →
      hexValue (hexDigit (UInt8.ofNat n / 16)) * 16 + hexValue (hexDigit (UInt8.ofNat n % 16)) =
        UInt8.ofNat n := by decide +kernel
  have hb : UInt8.ofNat b.toNat = b := UInt8.ofNat_toNat
  rw [← hb] at h ⊢
  exact hall ⟨b.toNat, b.toNat_lt⟩ h

theorem readBytes_escape (b : UInt8) (rest : Bytes) :
    readBytes (escapeByte b ++ rest) = (readBytes rest).map fun r => (b :: r.1, r.2) := by
  unfold escapeByte
  split_ifs with hquote hback htab hline hfeed hreturn hcontrol
  · rcases hquote with rfl | rfl <;> rfl
  · subst hback
    rfl
  · subst htab
    rfl
  · subst hline
    rfl
  · subst hfeed
    rfl
  · subst hreturn
    rfl
  · simp only [List.cons_append, List.nil_append, readBytes, hexValue_hexDigit hcontrol]
  · -- a byte that is written as it is neither ends the string nor starts an escape
    simp only [List.cons_append, List.nil_append]
    rw [readBytes]
    all_goals simp_all

theorem readBytes_write (bs rest : Bytes) :
    readBytes (bs.flatMap escapeByte ++ 34 :: rest) = some (bs, rest) := by
  induction bs with
  | nil => rfl
  | cons b bs ih =>
      rw [List.flatMap_cons, List.append_assoc, readBytes_escape, ih]
      rfl

def writeString (s : String) : Bytes := 34 :: (s.toUTF8.data.toList.flatMap escapeByte ++ [34])

def readString : Bytes → Option (String × Bytes)
  | 34 :: bs =>
      (readBytes bs).bind fun r => (String.fromUTF8? ⟨r.1.toArray⟩).map fun s => (s, r.2)
  | _ => none

theorem readString_write (s : String) (rest : Bytes) :
    readString (writeString s ++ rest) = some (s, rest) := by
  have hutf8 : String.fromUTF8? ⟨s.toUTF8.data.toList.toArray⟩ = some s := by
    rw [Array.toArray_toList]
    exact dif_pos s.isValidUTF8
  unfold writeString
  rw [List.cons_append, List.append_assoc, List.singleton_append, readString, readBytes_write,
    Option.bind_some, hutf8]
  rfl

/-! ## §2  Fields -/

/-- The bytes behind those that have to be there. -/
def expect (text : String) (bs : Bytes) : Option Bytes := bs.dropPrefix? text.toUTF8.data.toList

theorem expect_append (text : String) (bs : Bytes) :
    expect text (text.toUTF8.data.toList ++ bs) = some bs := by
  unfold expect
  rw [List.dropPrefix?_eq_some_iff]
  exact ⟨_, rfl, by simp⟩

/-- The fields of an object and their values, each behind its text. -/
def writeFields : List (String × String) → Bytes
  | [] => "\x7d".toUTF8.data.toList
  | (text, value) :: fields => text.toUTF8.data.toList ++ (writeString value ++ writeFields fields)

def readFields : List String → Bytes → Option (List String)
  | [], bs => if bs = "\x7d".toUTF8.data.toList then some [] else none
  | text :: texts, bs =>
      (expect text bs).bind fun bs => (readString bs).bind fun r =>
        (readFields texts r.2).map (r.1 :: ·)

theorem readFields_write (fields : List (String × String)) :
    readFields (fields.map Prod.fst) (writeFields fields) = some (fields.map Prod.snd) := by
  induction fields with
  | nil => rfl
  | cons field fields ih =>
      rw [List.map_cons, writeFields, readFields, expect_append, Option.bind_some,
        readString_write, Option.bind_some, ih]
      rfl

theorem readFields_short {texts : List String} {bs : Bytes} (hbs : bs.length ≤ 1)
    (htexts : ∀ text ∈ texts.head?, 1 < text.toUTF8.data.toList.length) (hne : texts ≠ []) :
    readFields texts bs = none := by
  obtain ⟨text, texts, rfl⟩ := List.exists_cons_of_ne_nil hne
  have htext := htexts text rfl
  have hnone : expect text bs = none := by
    by_contra hsome
    obtain ⟨rest, hrest⟩ := Option.ne_none_iff_exists'.mp hsome
    obtain ⟨front, rfl, hfront⟩ := List.dropPrefix?_eq_some_iff.mp hrest
    have hlen := congrArg List.length (beq_iff_eq.mp hfront)
    rw [List.length_append] at hbs
    omega
  rw [readFields, hnone]
  rfl

/-! ## §3  Objects that are written and read -/

/-- Values that are written as JSON objects. -/
structure Serde (α : Type*) where
  write : α → Bytes
  read : Bytes → Option α
  read_write : ∀ a, read (write a) = some a
  /-- An object has its two braces. -/
  read_short : ∀ bs, bs.length ≤ 1 → read bs = none

namespace Serde

variable {α : Type*}

theorem one_lt_length (json : Serde α) (a : α) : 1 < (json.write a).length := by
  by_contra hshort
  have hread := json.read_write a
  rw [json.read_short _ (Nat.not_lt.mp hshort)] at hread
  cases hread

/-- Objects whose fields are strings, in the order in which they are written. -/
def ofFields (text : String) (texts : List String) (htext : 1 < text.toUTF8.data.toList.length)
    (toValues : α → List String) (ofValues : List String → Option α)
    (hlength : ∀ a, (toValues a).length = texts.length + 1)
    (hvalues : ∀ a, ofValues (toValues a) = some a) : Serde α where
  write a := writeFields ((text :: texts).zip (toValues a))
  read bs := (readFields (text :: texts) bs).bind ofValues
  read_write a := by
    have hfields := readFields_write ((text :: texts).zip (toValues a))
    have hlen : (toValues a).length = (text :: texts).length := hlength a
    rw [List.map_fst_zip (Nat.le_of_eq hlen.symm), List.map_snd_zip (Nat.le_of_eq hlen)]
      at hfields
    rw [hfields, Option.bind_some, hvalues]
  read_short bs hbs := by
    have hnone : readFields (text :: texts) bs = none := by
      refine readFields_short hbs ?_ (List.cons_ne_nil _ _)
      rintro _ ⟨⟩
      exact htext
    rw [hnone]
    rfl

end Serde

/-! ## §4  Objects with any keys -/

/-- The blanks of an object that is spread over lines: before a key, behind a colon and
before the closing brace. -/
structure Layout where
  item : Bytes
  colon : Bytes
  close : Bytes

def isBlank (b : UInt8) : Bool := b = 32 || b = 10 || b = 13 || b = 9

def skipBlanks (bs : Bytes) : Bytes := bs.dropWhile isBlank

structure Layout.Blank (l : Layout) : Prop where
  item : ∀ b ∈ l.item, isBlank b = true
  colon : ∀ b ∈ l.colon, isBlank b = true
  close : ∀ b ∈ l.close, isBlank b = true

theorem skipBlanks_append {blanks : Bytes} (h : ∀ b ∈ blanks, isBlank b = true) (bs : Bytes) :
    skipBlanks (blanks ++ bs) = skipBlanks bs :=
  List.dropWhile_append_of_pos h

theorem skipBlanks_cons {b : UInt8} (h : isBlank b = false) (bs : Bytes) :
    skipBlanks (b :: bs) = b :: bs :=
  List.dropWhile_cons_of_neg (by simp [h])

def writeItem (l : Layout) (e : String × String) : Bytes :=
  l.item ++ (writeString e.1 ++ 58 :: (l.colon ++ writeString e.2))

/-- The items behind the first one. -/
def writeItems (l : Layout) : List (String × String) → Bytes
  | [] => l.close ++ [125]
  | e :: es => 44 :: (writeItem l e ++ writeItems l es)

def writeMap (l : Layout) : List (String × String) → Bytes
  | [] => [123, 125]
  | e :: es => 123 :: (writeItem l e ++ writeItems l es)

def readItem (bs : Bytes) : Option ((String × String) × Bytes) :=
  (readString (skipBlanks bs)).bind fun k =>
    match skipBlanks k.2 with
    | 58 :: bs => (readString (skipBlanks bs)).map fun v => ((k.1, v.1), v.2)
    | _ => none

/-- The items up to the closing brace, at most as many as the fuel allows. -/
def readItems : ℕ → Bytes → Option (List (String × String))
  | 0, _ => none
  | fuel + 1, bs =>
      match skipBlanks bs with
      | 44 :: bs => (readItem bs).bind fun e => (readItems fuel e.2).map (e.1 :: ·)
      | 125 :: bs => if skipBlanks bs = [] then some [] else none
      | _ => none

def readMap (bs : Bytes) : Option (List (String × String)) :=
  match skipBlanks bs with
  | 123 :: bs =>
      if (skipBlanks bs).head? = some 125 then readItems 1 bs
      else (readItem bs).bind fun e => (readItems bs.length e.2).map (e.1 :: ·)
  | _ => none

section Layout

variable {l : Layout}

theorem skipBlanks_writeString (s : String) (bs : Bytes) :
    skipBlanks (writeString s ++ bs) = writeString s ++ bs :=
  skipBlanks_cons rfl _

theorem skipBlanks_writeItem (hl : l.Blank) (e : String × String) (bs : Bytes) :
    skipBlanks (writeItem l e ++ bs) =
      writeString e.1 ++ 58 :: (l.colon ++ (writeString e.2 ++ bs)) := by
  unfold writeItem
  rw [List.append_assoc, skipBlanks_append hl.item, List.append_assoc, skipBlanks_writeString,
    List.cons_append, List.append_assoc]

theorem readItem_write (hl : l.Blank) (e : String × String) (bs : Bytes) :
    readItem (writeItem l e ++ bs) = some (e, bs) := by
  unfold readItem
  rw [skipBlanks_writeItem hl, readString_write, Option.bind_some, skipBlanks_cons rfl]
  show (readString (skipBlanks (l.colon ++ (writeString e.2 ++ bs)))).map _ = _
  rw [skipBlanks_append hl.colon, skipBlanks_writeString, readString_write]
  rfl

theorem readItems_write (hl : l.Blank) (es : List (String × String)) {fuel : ℕ}
    (hfuel : es.length < fuel) : readItems fuel (writeItems l es) = some es := by
  induction es generalizing fuel with
  | nil =>
      obtain ⟨fuel, rfl⟩ := Nat.exists_eq_add_of_lt hfuel
      have hclose : skipBlanks (writeItems l []) = [125] := skipBlanks_append hl.close [125]
      rw [readItems, hclose]
      rfl
  | cons e es ih =>
      cases fuel with
      | zero => cases hfuel
      | succ fuel =>
          have hcomma : skipBlanks (writeItems l (e :: es)) = writeItems l (e :: es) :=
            skipBlanks_cons rfl _
          rw [readItems, hcomma, writeItems]
          show (readItem (writeItem l e ++ writeItems l es)).bind _ = _
          rw [readItem_write hl, Option.bind_some, ih (Nat.lt_of_succ_lt_succ hfuel)]
          rfl

theorem length_lt_writeItems (es : List (String × String)) :
    es.length < (writeItems l es).length := by
  induction es with
  | nil => simp [writeItems]
  | cons e es ih =>
      rw [writeItems, List.length_cons, List.length_cons, List.length_append]
      omega

/-- What is written is read. -/
theorem readMap_write (hl : l.Blank) (es : List (String × String)) :
    readMap (writeMap l es) = some es := by
  cases es with
  | nil => rfl
  | cons e es =>
      have hlen : es.length < (writeItem l e ++ writeItems l es).length := by
        have hitems := length_lt_writeItems (l := l) es
        rw [List.length_append]
        omega
      have hopen : skipBlanks (writeMap l (e :: es)) = writeMap l (e :: es) :=
        skipBlanks_cons rfl _
      unfold readMap
      rw [hopen, writeMap]
      show (if (skipBlanks (writeItem l e ++ writeItems l es)).head? = some 125 then _ else _) = _
      rw [skipBlanks_writeItem hl, if_neg (by simp [writeString]), readItem_write hl,
        Option.bind_some, readItems_write hl es hlen]
      rfl

end Layout

end Json
