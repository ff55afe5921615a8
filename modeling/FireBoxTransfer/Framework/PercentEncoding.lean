import FireBoxTransfer.Framework.Texts
import Mathlib.Data.List.Basic

/-!
# Percent-encoding

A text that stands in the query of a URL is encoded, and the reader of a form decodes it.
It comes back as it was if no character of it has a meaning of its own on the way. What is
lost on the way is one-byte characters, and they are counted.
-/

namespace UrlQuery

/-! ## §1  Texts from bytes -/

/-- The character that the bytes start with. -/
def decodeChar? (bytes : List UInt8) : Option Char := bytes.toByteArray.utf8DecodeChar? 0

def isContinuation (b : UInt8) : Bool := 0x80 ≤ b && b ≤ 0xBF

/-- The second byte of a character of three or four bytes. -/
def secondFits (b second : UInt8) : Bool :=
  if b = 0xE0 then 0xA0 ≤ second && second ≤ 0xBF
  else if b = 0xED then 0x80 ≤ second && second ≤ 0x9F
  else if b = 0xF0 then 0x90 ≤ second && second ≤ 0xBF
  else if b = 0xF4 then 0x80 ≤ second && second ≤ 0x8F
  else 0xE1 ≤ b && b ≤ 0xF3 && isContinuation second

/-- How many bytes after `b` belong to the character that starts there and breaks off. -/
def brokenLength (b : UInt8) : List UInt8 → ℕ
  | second :: third :: _ =>
      if secondFits b second then if 0xF0 ≤ b && isContinuation third then 2 else 1 else 0
  | [second] => if secondFits b second then 1 else 0
  | [] => 0

/-- Skip some bytes and decode the others. -/
def lossyFrom : ℕ → List UInt8 → List Char
  | _, [] => []
  | skip + 1, _ :: bytes => lossyFrom skip bytes
  | 0, b :: bytes =>
      match decodeChar? (b :: bytes) with
      | some c => c :: lossyFrom (c.utf8Size - 1) bytes
      | none => Char.ofNat 0xFFFD :: lossyFrom (brokenLength b bytes) bytes

/-- `String::from_utf8_lossy`. -/
def fromUtf8Lossy (bytes : List UInt8) : List Char := lossyFrom 0 bytes

theorem lossyFrom_eq_drop {skip : ℕ} {bytes : List UInt8} :
    lossyFrom skip bytes = fromUtf8Lossy (bytes.drop skip) := by
  induction bytes generalizing skip with
  | nil => cases skip <;> rfl
  | cons b bytes ih =>
      cases skip with
      | zero => rfl
      | succ skip => exact ih

theorem decodeChar?_append (c : Char) (rest : List UInt8) :
    decodeChar? (String.utf8EncodeChar c ++ rest) = some c := by
  unfold decodeChar?
  rw [List.toByteArray_append]
  exact ByteArray.utf8DecodeChar?_utf8EncodeChar_append

theorem eq_append_of_decodeChar? {c : Char} {bytes : List UInt8}
    (h : decodeChar? bytes = some c) : ∃ rest, bytes = String.utf8EncodeChar c ++ rest := by
  obtain ⟨rest, hrest⟩ := ByteArray.exists_of_utf8DecodeChar?_eq_some h
  refine ⟨rest.data.toList, ?_⟩
  have hdata := congrArg (fun b : ByteArray => b.data.toList) hrest
  simpa using hdata

theorem fromUtf8Lossy_append {c : Char} {rest : List UInt8} :
    fromUtf8Lossy (String.utf8EncodeChar c ++ rest) = c :: fromUtf8Lossy rest := by
  have hdecode := decodeChar?_append c rest
  have hlength := String.length_utf8EncodeChar c
  cases hbytes : String.utf8EncodeChar c with
  | nil => exact absurd hbytes String.utf8EncodeChar_ne_nil
  | cons b bytes =>
      rw [hbytes] at hdecode hlength
      have hsize : c.utf8Size - 1 = bytes.length := by
        rw [← hlength, List.length_cons, Nat.add_sub_cancel]
      change lossyFrom 0 (b :: (bytes ++ rest)) = _
      rw [List.cons_append] at hdecode
      rw [lossyFrom, hdecode]
      simp only
      rw [lossyFrom_eq_drop, hsize, List.drop_left]

/-- **What is encoded** is decoded. -/
theorem fromUtf8Lossy_utf8 (cs : List Char) :
    fromUtf8Lossy (cs.flatMap String.utf8EncodeChar) = cs := by
  induction cs with
  | nil => rfl
  | cons c cs ih => rw [List.flatMap_cons, fromUtf8Lossy_append, ih]

/-! One-byte characters are decoded to themselves, whatever stands around them. -/

def isAscii (c : Char) : Bool := c.toNat < 0x80

def isAsciiByte (b : UInt8) : Bool := b < 0x80

theorem filter_encodeChar (c : Char) : ((String.utf8EncodeChar c).filter isAsciiByte).map
    (fun b => Char.ofNat b.toNat) = if isAscii c then [c] else [] := by
  rcases Texts.utf8EncodeChar_cases c with ⟨hc, hbytes⟩ | ⟨hc, hbytes⟩
  · have hbyte : (UInt8.ofNat c.toNat).toNat = c.toNat := by
      rw [UInt8.toNat_ofNat']
      omega
    have hascii : isAsciiByte (UInt8.ofNat c.toNat) = true := by
      unfold isAsciiByte
      rw [decide_eq_true_eq, UInt8.lt_iff_toNat_lt, hbyte]
      exact Nat.lt_succ_of_le hc
    have hchar : isAscii c = true := decide_eq_true (Nat.lt_succ_of_le hc)
    rw [hbytes, List.filter_cons, if_pos hascii, if_pos hchar, List.filter_nil, List.map_cons,
      hbyte, Char.ofNat_toNat, List.map_nil]
  · have hchar : ¬ isAscii c = true := by
      unfold isAscii
      rw [decide_eq_true_eq]
      omega
    rw [if_neg hchar, List.map_eq_nil_iff, List.filter_eq_nil_iff]
    intro b hb hascii
    unfold isAsciiByte at hascii
    rw [decide_eq_true_eq, UInt8.lt_iff_toNat_lt] at hascii
    have hbound := hbytes b hb
    change b.toNat < 128 at hascii
    omega

theorem toNat_ofNat_ascii {n : ℕ} (h : n < 0x80) : (Char.ofNat n).toNat = n := by
  have hvalid : n.isValidChar := Or.inl (by omega)
  unfold Char.ofNat
  rw [dif_pos hvalid]
  rfl

/-- A byte that starts no character is no character of its own. -/
theorem isAsciiByte_of_decodeChar? {b : UInt8} {bytes : List UInt8}
    (h : decodeChar? (b :: bytes) = none) : isAsciiByte b = false := by
  by_contra hne
  have hascii : isAsciiByte b = true := eq_true_of_ne_false hne
  unfold isAsciiByte at hascii
  rw [decide_eq_true_eq, UInt8.lt_iff_toNat_lt] at hascii
  change b.toNat < 128 at hascii
  have hchar := toNat_ofNat_ascii hascii
  have hencode : String.utf8EncodeChar (Char.ofNat b.toNat) = [b] := by
    rcases Texts.utf8EncodeChar_cases (Char.ofNat b.toNat) with ⟨-, hbytes⟩ | ⟨hlarge, -⟩
    · rw [hbytes, hchar, UInt8.ofNat_toNat]
    · rw [hchar] at hlarge
      omega
  have hdecode := decodeChar?_append (Char.ofNat b.toNat) bytes
  rw [hencode, List.singleton_append, h] at hdecode
  cases hdecode

theorem isAsciiByte_of_isContinuation {b : UInt8} (h : isContinuation b = true) :
    isAsciiByte b = false := by
  unfold isContinuation at h
  unfold isAsciiByte
  rw [Bool.and_eq_true, decide_eq_true_eq] at h
  exact decide_eq_false (UInt8.not_lt.mpr h.1)

theorem isAsciiByte_of_secondFits {b second : UInt8} (h : secondFits b second = true) :
    isAsciiByte second = false := by
  refine decide_eq_false (UInt8.not_lt.mpr ?_)
  unfold secondFits isContinuation at h
  split_ifs at h <;> simp only [Bool.and_eq_true, decide_eq_true_eq] at h <;>
    (simp only [UInt8.le_iff_toNat_le, UInt8.reduceToNat] at h ⊢; omega)

theorem filter_take_brokenLength {b : UInt8} (bytes : List UInt8) :
    (bytes.take (brokenLength b bytes)).filter isAsciiByte = [] := by
  rw [List.filter_eq_nil_iff]
  intro a ha
  rw [Bool.not_eq_true]
  match bytes with
  | [] => cases ha
  | [second] =>
      simp only [brokenLength] at ha
      split_ifs at ha with hsecond
      · obtain rfl := List.mem_singleton.mp ha
        exact isAsciiByte_of_secondFits hsecond
      · cases ha
  | second :: third :: _ =>
      simp only [brokenLength] at ha
      split_ifs at ha with hsecond hthird
      · rw [Bool.and_eq_true] at hthird
        rcases List.mem_cons.mp ha with rfl | ha
        · exact isAsciiByte_of_secondFits hsecond
        · obtain rfl := List.mem_singleton.mp ha
          exact isAsciiByte_of_isContinuation hthird.2
      · obtain rfl := List.mem_singleton.mp ha
        exact isAsciiByte_of_secondFits hsecond
      · cases ha

/-- **The one-byte characters** that are decoded are those that were there. -/
theorem filter_fromUtf8Lossy (bytes : List UInt8) : (fromUtf8Lossy bytes).filter isAscii =
    (bytes.filter isAsciiByte).map fun b => Char.ofNat b.toNat := by
  induction hn : bytes.length using Nat.strongRecOn generalizing bytes with
  | ind n ih =>
      cases bytes with
      | nil => rfl
      | cons b bytes =>
          cases hdecode : decodeChar? (b :: bytes) with
          | some c =>
              obtain ⟨rest, hrest⟩ := eq_append_of_decodeChar? hdecode
              have hshort : rest.length < n := by
                rw [← hn, hrest, List.length_append, String.length_utf8EncodeChar]
                have hpos := c.utf8Size_pos
                omega
              rw [hrest, fromUtf8Lossy_append, List.filter_append, List.map_append,
                filter_encodeChar, ← ih _ hshort rest rfl, List.filter_cons]
              split_ifs <;> rfl
          | none =>
              have hshort : (bytes.drop (brokenLength b bytes)).length < n := by
                rw [← hn, List.length_drop, List.length_cons]
                omega
              have hstep : fromUtf8Lossy (b :: bytes) =
                  Char.ofNat 0xFFFD :: fromUtf8Lossy (bytes.drop (brokenLength b bytes)) := by
                change lossyFrom 0 (b :: bytes) = _
                rw [lossyFrom, hdecode]
                simp only
                rw [lossyFrom_eq_drop]
              have hmark : ¬ isAscii (Char.ofNat 0xFFFD) = true := by decide
              rw [hstep, List.filter_cons, if_neg hmark, ih _ hshort _ rfl, List.filter_cons,
                isAsciiByte_of_decodeChar? hdecode, if_neg Bool.false_ne_true]
              conv_rhs => rw [← List.take_append_drop (brokenLength b bytes) bytes,
                List.filter_append, filter_take_brokenLength, List.nil_append]

/-! ## §2  Percent-encoding -/

def hexDigit? (b : UInt8) : Option ℕ :=
  if 0x30 ≤ b && b ≤ 0x39 then some (b.toNat - 0x30)
  else if 0x41 ≤ b && b ≤ 0x46 then some (b.toNat - 0x37)
  else if 0x61 ≤ b && b ≤ 0x66 then some (b.toNat - 0x57)
  else none

/-- A percent sign without two hexadecimal digits after it stands for itself. -/
def percentDecode : List UInt8 → List UInt8
  | b :: high :: low :: bytes =>
      if b = 0x25 then
        match hexDigit? high, hexDigit? low with
        | some h, some l => UInt8.ofNat (16 * h + l) :: percentDecode bytes
        | _, _ => b :: percentDecode (high :: low :: bytes)
      else b :: percentDecode (high :: low :: bytes)
  | bytes => bytes

def hexChar (n : ℕ) : Char := Char.ofNat (if n < 10 then 0x30 + n else 0x37 + n)

def percentEncode (b : UInt8) : List Char := ['%', hexChar (b.toNat / 16), hexChar (b.toNat % 16)]

/-- The characters that do not stand in the query of a URL of `http` or `https`. -/
def inQuerySet (c : Char) : Bool :=
  c.toNat ≤ 0x20 || 0x7E < c.toNat || c = '"' || c = '#' || c = '\'' || c = '<' || c = '>'

def queryEncode (c : Char) : List Char :=
  if inQuerySet c then (String.utf8EncodeChar c).flatMap percentEncode else [c]

/-- The bytes of a text that was encoded. -/
def wire (cs : List Char) : List UInt8 := (cs.flatMap queryEncode).flatMap String.utf8EncodeChar

theorem wire_append (cs ds : List Char) : wire (cs ++ ds) = wire cs ++ wire ds := by
  unfold wire
  rw [List.flatMap_append, List.flatMap_append]

theorem wire_cons (c : Char) (cs : List Char) : wire (c :: cs) = wire [c] ++ wire cs :=
  wire_append [c] cs

theorem percentDecode_cons_ne {b : UInt8} {bytes : List UInt8} (h : b ≠ 0x25) :
    percentDecode (b :: bytes) = b :: percentDecode bytes := by
  match bytes with
  | [] => rfl
  | [_] => rfl
  | _ :: _ :: _ => rw [percentDecode, if_neg h]

theorem hexDigit?_hexChar {n : ℕ} (h : n < 16) :
    String.utf8EncodeChar (hexChar n) = [UInt8.ofNat (hexChar n).toNat] ∧
      hexDigit? (UInt8.ofNat (hexChar n).toNat) = some n ∧
      UInt8.ofNat (hexChar n).toNat ≠ 0x26 ∧ UInt8.ofNat (hexChar n).toNat ≠ 0x2B ∧
      UInt8.ofNat (hexChar n).toNat ≠ 0x3D := by
  have hall : ∀ n : Fin 16, String.utf8EncodeChar (hexChar n) = [UInt8.ofNat (hexChar n).toNat] ∧
      hexDigit? (UInt8.ofNat (hexChar n).toNat) = some n.val ∧
      UInt8.ofNat (hexChar n).toNat ≠ 0x26 ∧ UInt8.ofNat (hexChar n).toNat ≠ 0x2B ∧
      UInt8.ofNat (hexChar n).toNat ≠ 0x3D := by decide
  exact hall ⟨n, h⟩

/-- **A byte that is encoded** is decoded. -/
theorem percentDecode_encode {b : UInt8} {bytes : List UInt8} :
    percentDecode ((percentEncode b).flatMap String.utf8EncodeChar ++ bytes) =
      b :: percentDecode bytes := by
  have hb := UInt8.toNat_lt b
  obtain ⟨hhigh, hhigh', -⟩ := hexDigit?_hexChar (n := b.toNat / 16) (by omega)
  obtain ⟨hlow, hlow', -⟩ := hexDigit?_hexChar (n := b.toNat % 16) (by omega)
  have hpercent : String.utf8EncodeChar '%' = [0x25] := by decide
  unfold percentEncode
  rw [List.flatMap_cons, List.flatMap_cons, List.flatMap_cons, List.flatMap_nil, hpercent, hhigh,
    hlow]
  change percentDecode (0x25 :: _ :: _ :: bytes) = _
  rw [percentDecode, if_pos rfl, hhigh', hlow']
  simp only
  have hsum : 16 * (b.toNat / 16) + b.toNat % 16 = b.toNat := by omega
  rw [hsum, UInt8.ofNat_toNat]

/-! ## §3  What a form reads -/

def plusToSpace (b : UInt8) : UInt8 := if b = 0x2B then 0x20 else b

/-- The bytes that a form reads in an encoded text. -/
def decoded (cs : List Char) : List UInt8 := percentDecode ((wire cs).map plusToSpace)

def isHexDigit (c : Char) : Bool := isAscii c && (hexDigit? (UInt8.ofNat c.toNat)).isSome

/-- Two hexadecimal digits, which a percent sign makes one byte. -/
def startsEscape : List Char → Bool
  | high :: low :: _ => isHexDigit high && isHexDigit low
  | _ => false

/-- A percent sign with two hexadecimal digits after it. -/
def hasEscape : List Char → Bool
  | [] => false
  | c :: cs => c = '%' && startsEscape cs || hasEscape cs

theorem not_inQuerySet {c : Char} (h : inQuerySet c = false) : 0x20 < c.toNat ∧ c.toNat ≤ 0x7E := by
  unfold inQuerySet at h
  simp only [Bool.or_eq_false_iff, decide_eq_false_iff_not] at h
  omega

theorem encodeChar_of_not_inQuerySet {c : Char} (h : inQuerySet c = false) :
    String.utf8EncodeChar c = [UInt8.ofNat c.toNat] := by
  have hbound := not_inQuerySet h
  rcases Texts.utf8EncodeChar_cases c with ⟨-, hbytes⟩ | ⟨hlarge, -⟩
  · exact hbytes
  · omega

theorem wire_of_not_inQuerySet {c : Char} (h : inQuerySet c = false) :
    wire [c] = [UInt8.ofNat c.toNat] := by
  unfold wire queryEncode
  rw [List.flatMap_singleton, if_neg (Bool.eq_false_iff.mp h), List.flatMap_singleton,
    encodeChar_of_not_inQuerySet h]

theorem wire_of_inQuerySet {c : Char} (h : inQuerySet c = true) : wire [c] =
    (String.utf8EncodeChar c).flatMap fun b => (percentEncode b).flatMap String.utf8EncodeChar := by
  unfold wire queryEncode
  rw [List.flatMap_singleton, if_pos h, List.flatMap_assoc]

/-- What is encoded has no separators of forms. -/
theorem mem_encoded {b sep : UInt8} (hsep : sep = 0x26 ∨ sep = 0x2B ∨ sep = 0x3D) :
    sep ∉ (percentEncode b).flatMap String.utf8EncodeChar := by
  have hb := UInt8.toNat_lt b
  obtain ⟨hhigh, -, hhigh₁, hhigh₂, hhigh₃⟩ := hexDigit?_hexChar (n := b.toNat / 16) (by omega)
  obtain ⟨hlow, -, hlow₁, hlow₂, hlow₃⟩ := hexDigit?_hexChar (n := b.toNat % 16) (by omega)
  have hpercent : String.utf8EncodeChar '%' = [0x25] := by decide
  unfold percentEncode
  rw [List.flatMap_cons, List.flatMap_cons, List.flatMap_cons, List.flatMap_nil, hpercent, hhigh,
    hlow]
  intro hmem
  simp only [List.cons_append, List.nil_append, List.mem_cons, List.not_mem_nil, or_false] at hmem
  rcases hsep with rfl | rfl | rfl
  · rcases hmem with h | h | h
    · exact absurd h (by decide)
    · exact hhigh₁ h.symm
    · exact hlow₁ h.symm
  · rcases hmem with h | h | h
    · exact absurd h (by decide)
    · exact hhigh₂ h.symm
    · exact hlow₂ h.symm
  · rcases hmem with h | h | h
    · exact absurd h (by decide)
    · exact hhigh₃ h.symm
    · exact hlow₃ h.symm

theorem map_plusToSpace {bytes : List UInt8} (h : 0x2B ∉ bytes) :
    bytes.map plusToSpace = bytes := by
  refine List.map_congr_left (g := id) (fun b hb => ?_) |>.trans (List.map_id _)
  have hne : b ≠ 0x2B := fun heq => h (heq ▸ hb)
  exact if_neg hne

theorem percentDecode_encodes {bytes rest : List UInt8} :
    percentDecode ((bytes.flatMap fun b =>
        (percentEncode b).flatMap String.utf8EncodeChar) ++ rest) =
      bytes ++ percentDecode rest := by
  induction bytes with
  | nil => rfl
  | cons b bytes ih =>
      rw [List.flatMap_cons, List.append_assoc, percentDecode_encode, ih, List.cons_append]

theorem decoded_cons {c : Char} {cs : List Char} : decoded (c :: cs) =
    percentDecode ((wire [c]).map plusToSpace ++ (wire cs).map plusToSpace) := by
  unfold decoded
  rw [wire_cons, List.map_append]

/-- **A character that is no percent sign** is read as it is, or as a space. -/
theorem decoded_cons_ne {c : Char} {cs : List Char} (hne : c ≠ '%') : decoded (c :: cs) =
    (if c = '+' then [0x20] else String.utf8EncodeChar c) ++ decoded cs := by
  rw [decoded_cons]
  cases hset : inQuerySet c with
  | true =>
      have hplus : c ≠ '+' := by
        rintro rfl
        exact absurd hset (by decide)
      have hclean : 0x2B ∉ wire [c] := by
        rw [wire_of_inQuerySet hset]
        intro hmem
        obtain ⟨b, -, hb⟩ := List.mem_flatMap.mp hmem
        exact mem_encoded (.inr (.inl rfl)) hb
      rw [map_plusToSpace hclean, wire_of_inQuerySet hset, percentDecode_encodes, if_neg hplus]
      rfl
  | false =>
      have hbound := not_inQuerySet hset
      have hbyte : (UInt8.ofNat c.toNat).toNat = c.toNat := by
        rw [UInt8.toNat_ofNat']
        omega
      -- the byte is a sign only if the character is
      have hsign : ∀ d : Char, d.toNat < 0x80 → c ≠ d →
          UInt8.ofNat c.toNat ≠ UInt8.ofNat d.toNat := by
        intro d hd hcd heq
        have hnat := congrArg UInt8.toNat heq
        rw [hbyte, UInt8.toNat_ofNat', Nat.mod_eq_of_lt (by omega)] at hnat
        exact hcd (Char.toNat_inj.mp hnat)
      rw [wire_of_not_inQuerySet hset, List.map_singleton, List.singleton_append]
      by_cases hplus : c = '+'
      · subst hplus
        exact percentDecode_cons_ne (by decide)
      · have hkeep : plusToSpace (UInt8.ofNat c.toNat) = UInt8.ofNat c.toNat :=
          if_neg (hsign '+' (by decide) hplus)
        rw [hkeep, if_neg hplus, encodeChar_of_not_inQuerySet hset,
          percentDecode_cons_ne (hsign '%' (by decide) hne)]
        rfl

theorem wire_head (c : Char) : ∃ b bytes, (wire [c]).map plusToSpace = b :: bytes ∧
    ((hexDigit? b).isSome = true → isHexDigit c = true ∧ bytes = []) := by
  cases hset : inQuerySet c with
  | true =>
      rw [wire_of_inQuerySet hset]
      cases hbytes : String.utf8EncodeChar c with
      | nil => exact absurd hbytes String.utf8EncodeChar_ne_nil
      | cons b bytes =>
          have hpercent : String.utf8EncodeChar '%' = [0x25] := by decide
          unfold percentEncode
          rw [List.flatMap_cons, List.flatMap_cons, hpercent]
          exact ⟨0x25, _, rfl, fun hhex => absurd hhex (by decide)⟩
  | false =>
      have hbound := not_inQuerySet hset
      rw [wire_of_not_inQuerySet hset]
      refine ⟨_, [], rfl, fun hhex => ⟨?_, rfl⟩⟩
      by_cases hplus : UInt8.ofNat c.toNat = 0x2B
      · rw [hplus] at hhex
        exact absurd hhex (by decide)
      · unfold plusToSpace at hhex
        rw [if_neg hplus] at hhex
        unfold isHexDigit isAscii
        rw [hhex, Bool.and_true, decide_eq_true_eq]
        omega

theorem percentDecode_percent {bytes : List UInt8} (h : ∀ high low rest,
    bytes = high :: low :: rest → (hexDigit? high).isSome = true →
      (hexDigit? low).isSome = true → False) :
    percentDecode (0x25 :: bytes) = 0x25 :: percentDecode bytes := by
  match bytes, h with
  | [], _ => rfl
  | [_], _ => rfl
  | high :: low :: rest, h =>
      rw [percentDecode, if_pos rfl]
      cases hhigh : hexDigit? high with
      | none => rfl
      | some x =>
          cases hlow : hexDigit? low with
          | none => rfl
          | some y =>
              have hfalse := h high low rest rfl
              rw [hhigh, hlow] at hfalse
              exact (hfalse rfl rfl).elim

/-- **A percent sign** without two hexadecimal digits after it is read as it is. -/
theorem decoded_percent {cs : List Char} (h : startsEscape cs = false) :
    decoded ('%' :: cs) = 0x25 :: decoded cs := by
  have hsign : (wire ['%']).map plusToSpace = [0x25] := by decide
  rw [decoded_cons, hsign, List.singleton_append]
  refine percentDecode_percent fun high low rest heq hhigh hlow => ?_
  cases cs with
  | nil => cases heq
  | cons c cs =>
      obtain ⟨b, bytes, hb, hhex⟩ := wire_head c
      rw [wire_cons c cs, List.map_append, hb, List.cons_append] at heq
      obtain ⟨rfl, htail⟩ := List.cons.inj heq
      obtain ⟨hc, rfl⟩ := hhex hhigh
      cases cs with
      | nil => cases htail
      | cons d ds =>
          obtain ⟨b', bytes', hb', hhex'⟩ := wire_head d
          rw [wire_cons d ds, List.map_append, hb', List.cons_append, List.nil_append] at htail
          obtain ⟨rfl, -⟩ := List.cons.inj htail
          have hescape : startsEscape (c :: d :: ds) = true := by
            simp only [startsEscape]
            rw [hc, (hhex' hlow).1]
            rfl
          rw [hescape] at h
          cases h

theorem wire_hexDigit {c : Char} (h : isHexDigit c = true) :
    (wire [c]).map plusToSpace = [UInt8.ofNat c.toNat] ∧
      ∃ n, hexDigit? (UInt8.ofNat c.toNat) = some n := by
  unfold isHexDigit isAscii at h
  rw [Bool.and_eq_true, decide_eq_true_eq] at h
  have hall : ∀ n : Fin 128, (hexDigit? (UInt8.ofNat n)).isSome = true →
      inQuerySet (Char.ofNat n) = false ∧ UInt8.ofNat n ≠ 0x2B := by decide
  obtain ⟨hset, hplus⟩ := hall ⟨c.toNat, h.1⟩ h.2
  rw [Char.ofNat_toNat] at hset
  rw [wire_of_not_inQuerySet hset]
  exact ⟨congrArg (fun b => [b]) (if_neg hplus), Option.isSome_iff_exists.mp h.2⟩

/-- With two of them it is read as one byte. -/
theorem decoded_escape {high low : Char} {cs : List Char}
    (h : startsEscape (high :: low :: cs) = true) :
    ∃ b, decoded ('%' :: high :: low :: cs) = b :: decoded cs := by
  unfold startsEscape at h
  rw [Bool.and_eq_true] at h
  obtain ⟨hhigh, x, hx⟩ := wire_hexDigit h.1
  obtain ⟨hlow, y, hy⟩ := wire_hexDigit h.2
  have hsign : (wire ['%']).map plusToSpace = [0x25] := by decide
  rw [decoded_cons, hsign, wire_cons high, wire_cons low, List.map_append, List.map_append, hhigh,
    hlow]
  change ∃ b, percentDecode (0x25 :: _ :: _ :: _) = b :: _
  rw [percentDecode, if_pos rfl, hx, hy]
  exact ⟨_, rfl⟩

/-- **A plain text** is read as it is. -/
theorem decoded_eq {cs : List Char} (hplus : '+' ∉ cs) (hescape : hasEscape cs = false) :
    decoded cs = cs.flatMap String.utf8EncodeChar := by
  induction cs with
  | nil => rfl
  | cons c cs ih =>
      rw [List.mem_cons, not_or] at hplus
      simp only [hasEscape, Bool.or_eq_false_iff] at hescape
      rw [List.flatMap_cons, ← ih hplus.2 hescape.2]
      by_cases hpercent : c = '%'
      · subst hpercent
        rw [decoded_percent (by simpa using hescape.1)]
        rfl
      · rw [decoded_cons_ne hpercent, if_neg (Ne.symm hplus.1)]

/-- The number of one-byte characters. -/
def weight (cs : List Char) : ℕ := cs.countP isAscii

theorem weight_append {cs ds : List Char} : weight (cs ++ ds) = weight cs + weight ds :=
  List.countP_append

theorem countP_encodeChar (c : Char) :
    (String.utf8EncodeChar c).countP isAsciiByte = if isAscii c then 1 else 0 := by
  have hlength := congrArg List.length (filter_encodeChar c)
  rw [List.length_map, ← List.countP_eq_length_filter] at hlength
  rw [hlength]
  split_ifs <;> rfl

theorem weight_fromUtf8Lossy (bytes : List UInt8) :
    weight (fromUtf8Lossy bytes) = bytes.countP isAsciiByte := by
  have hlength := congrArg List.length (filter_fromUtf8Lossy bytes)
  rwa [List.length_map, ← List.countP_eq_length_filter, ← List.countP_eq_length_filter] at hlength

/-- **Reading loses one-byte characters** wherever a percent sign makes two others one. -/
theorem countP_decoded (cs : List Char) :
    (decoded cs).countP isAsciiByte + (if hasEscape cs then 1 else 0) ≤ weight cs := by
  induction hn : cs.length using Nat.strongRecOn generalizing cs with
  | ind n ih =>
      cases cs with
      | nil => decide
      | cons c cs =>
          have hrest := ih cs.length (by rw [← hn]; exact Nat.lt_succ_self _) cs rfl
          by_cases hpercent : c = '%'
          · subst hpercent
            cases hescape : startsEscape cs with
            | false =>
                have hsame : hasEscape ('%' :: cs) = hasEscape cs := by
                  simp only [hasEscape, hescape, Bool.and_false, Bool.false_or]
                have hsign : isAsciiByte 0x25 = true := by decide
                have hchar : isAscii '%' = true := by decide
                rw [decoded_percent hescape, hsame, weight, List.countP_cons, List.countP_cons,
                  if_pos hsign, if_pos hchar]
                change _ ≤ weight cs + 1
                omega
            | true =>
                match cs, hescape, hn with
                | high :: low :: cs, hescape, hn =>
                    obtain ⟨b, hb⟩ := decoded_escape hescape
                    have hthen := ih cs.length (by rw [← hn]; simp only [List.length_cons]; omega)
                      cs rfl
                    have hdigits : isAscii high = true ∧ isAscii low = true := by
                      unfold startsEscape isHexDigit at hescape
                      simp only [Bool.and_eq_true] at hescape
                      exact ⟨hescape.1.1, hescape.2.1⟩
                    have hchar : isAscii '%' = true := by decide
                    rw [hb, weight, List.countP_cons, List.countP_cons, List.countP_cons,
                      List.countP_cons, if_pos hchar, if_pos hdigits.1, if_pos hdigits.2]
                    change _ ≤ weight cs + 1 + 1 + 1
                    split_ifs at hthen ⊢ <;> omega
          · have hsame : hasEscape (c :: cs) = hasEscape cs := by
              simp only [hasEscape, decide_eq_false hpercent, Bool.false_and, Bool.false_or]
            have hhead : (if c = '+' then [0x20] else String.utf8EncodeChar c).countP isAsciiByte =
                if isAscii c then 1 else 0 := by
              by_cases hplus : c = '+'
              · subst hplus
                decide
              · rw [if_neg hplus, countP_encodeChar]
            rw [decoded_cons_ne hpercent, List.countP_append, hhead, hsame, weight,
              List.countP_cons]
            change _ ≤ weight cs + _
            omega

theorem plus_notMem_decoded {cs : List Char} (h : hasEscape cs = false) : 0x2B ∉ decoded cs := by
  induction cs with
  | nil => nofun
  | cons c cs ih =>
      simp only [hasEscape, Bool.or_eq_false_iff] at h
      by_cases hpercent : c = '%'
      · subst hpercent
        rw [decoded_percent (by simpa using h.1), List.mem_cons, not_or]
        exact ⟨by decide, ih h.2⟩
      · rw [decoded_cons_ne hpercent, List.mem_append, not_or]
        refine ⟨?_, ih h.2⟩
        by_cases hplus : c = '+'
        · rw [if_pos hplus]
          decide
        · rw [if_neg hplus]
          rcases Texts.utf8EncodeChar_cases c with ⟨hc, hbytes⟩ | ⟨-, hbytes⟩
          · rw [hbytes, List.mem_singleton]
            intro heq
            have hnat := congrArg UInt8.toNat heq
            rw [UInt8.toNat_ofNat', Nat.mod_eq_of_lt (by omega)] at hnat
            exact hplus (Char.toNat_inj.mp hnat.symm)
          · intro hmem
            exact absurd (hbytes _ hmem) (by decide)

/-- **A text comes back** exactly if it is plain. -/
theorem fromUtf8Lossy_decoded_eq_iff (cs : List Char) :
    fromUtf8Lossy (decoded cs) = cs ↔ '+' ∉ cs ∧ hasEscape cs = false := by
  constructor
  · intro h
    have hescape : hasEscape cs = false := by
      have hcount := countP_decoded cs
      rw [← weight_fromUtf8Lossy, h] at hcount
      by_contra hne
      rw [if_pos (eq_true_of_ne_false hne)] at hcount
      omega
    refine ⟨fun hmem => plus_notMem_decoded hescape ?_, hescape⟩
    -- a plus that is read stood in the bytes
    rw [← h] at hmem
    have hfilter : '+' ∈ (fromUtf8Lossy (decoded cs)).filter isAscii :=
      List.mem_filter.mpr ⟨hmem, by decide⟩
    rw [filter_fromUtf8Lossy] at hfilter
    obtain ⟨b, hb, hchar⟩ := List.mem_map.mp hfilter
    obtain ⟨hmem, hascii⟩ := List.mem_filter.mp hb
    unfold isAsciiByte at hascii
    rw [decide_eq_true_eq, UInt8.lt_iff_toNat_lt] at hascii
    have hnat := congrArg Char.toNat hchar
    rw [toNat_ofNat_ascii hascii] at hnat
    have hplus : b = 0x2B := UInt8.toNat_inj.mp hnat
    rwa [hplus] at hmem
  · rintro ⟨hplus, hescape⟩
    rw [decoded_eq hplus hescape, fromUtf8Lossy_utf8]

end UrlQuery
