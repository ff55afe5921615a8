import Mathlib.Algebra.GroupWithZero.Nat
import Mathlib.Data.List.Basic
import Mathlib.Data.Nat.Notation

/-!
# Base64 and little-endian bytes

Base64 with the URL-safe alphabet and without padding. Decoding is strict: it
refuses other characters, a rest of one character, and bits left over.
-/

namespace Base64

/-! ## §1  Digits -/

def alphabet : List Char :=
  "ABCDEFGHIJKLMNOPQRSTUVWXYZabcdefghijklmnopqrstuvwxyz0123456789-_".toList

def digit (n : ℕ) : Char := alphabet.getD n 'A'

def value (c : Char) : Option ℕ := alphabet.findIdx? (· = c)

theorem value_digit {n : ℕ} (h : n < 64) : value (digit n) = some n := by
  have hall : ∀ n : Fin 64, value (digit n) = some n.val := by decide +kernel
  exact hall ⟨n, h⟩

theorem digit_ne_dot {n : ℕ} (h : n < 64) : digit n ≠ '.' := by
  have hall : ∀ n : Fin 64, digit n ≠ '.' := by decide +kernel
  exact hall ⟨n, h⟩

/-! ## §2  The codec -/

/-- The six-bit digits of some bytes. -/
def digits : List UInt8 → List ℕ
  | [] => []
  | [a] => [a.toNat / 4, a.toNat % 4 * 16]
  | [a, b] => [a.toNat / 4, a.toNat % 4 * 16 + b.toNat / 16, b.toNat % 16 * 4]
  | a :: b :: c :: rest =>
      a.toNat / 4 :: (a.toNat % 4 * 16 + b.toNat / 16) ::
        (b.toNat % 16 * 4 + c.toNat / 64) :: c.toNat % 64 :: digits rest

/-- The bytes of some six-bit digits. -/
def bytes : List ℕ → Option (List UInt8)
  | [] => some []
  | [_] => none
  | [p, q] => if q % 16 = 0 then some [UInt8.ofNat (p * 4 + q / 16)] else none
  | [p, q, r] =>
      if r % 4 = 0 then
        some [UInt8.ofNat (p * 4 + q / 16), UInt8.ofNat (q % 16 * 16 + r / 4)]
      else none
  | p :: q :: r :: s :: rest =>
      (bytes rest).map fun l =>
        UInt8.ofNat (p * 4 + q / 16) :: UInt8.ofNat (q % 16 * 16 + r / 4) ::
          UInt8.ofNat (r % 4 * 64 + s) :: l

def encode (data : List UInt8) : List Char := (digits data).map digit

def decode (text : List Char) : Option (List UInt8) := (text.mapM value).bind bytes

theorem digits_lt (data : List UInt8) : ∀ n ∈ digits data, n < 64 := by
  induction data using digits.induct with
  | case1 => simp [digits]
  | case2 a =>
      have ha := a.toNat_lt
      simp only [digits, List.forall_mem_cons]
      exact ⟨by omega, by omega, List.forall_mem_nil _⟩
  | case3 a b =>
      have ha := a.toNat_lt
      have hb := b.toNat_lt
      simp only [digits, List.forall_mem_cons]
      exact ⟨by omega, by omega, by omega, List.forall_mem_nil _⟩
  | case4 a b c rest ih =>
      have ha := a.toNat_lt
      have hb := b.toNat_lt
      have hc := c.toNat_lt
      simp only [digits, List.forall_mem_cons]
      exact ⟨by omega, by omega, by omega, by omega, ih⟩

theorem ofNat_eq {n : ℕ} (a : UInt8) (h : n = a.toNat) : UInt8.ofNat n = a := by
  subst h
  exact UInt8.ofNat_toNat

theorem bytes_digits (data : List UInt8) : bytes (digits data) = some data := by
  induction data using digits.induct with
  | case1 => rfl
  | case2 a =>
      have ha : UInt8.ofNat (a.toNat / 4 * 4 + a.toNat % 4 * 16 / 16) = a :=
        ofNat_eq a (by omega)
      rw [digits, bytes, if_pos (by omega), ha]
  | case3 a b =>
      have hb := b.toNat_lt
      rw [digits, bytes, if_pos (by omega)]
      have ha : UInt8.ofNat (a.toNat / 4 * 4 + (a.toNat % 4 * 16 + b.toNat / 16) / 16) = a :=
        ofNat_eq a (by omega)
      have hb : UInt8.ofNat
          ((a.toNat % 4 * 16 + b.toNat / 16) % 16 * 16 + b.toNat % 16 * 4 / 4) = b :=
        ofNat_eq b (by omega)
      rw [ha, hb]
  | case4 a b c rest ih =>
      have hb := b.toNat_lt
      have hc := c.toNat_lt
      have ha : UInt8.ofNat (a.toNat / 4 * 4 + (a.toNat % 4 * 16 + b.toNat / 16) / 16) = a :=
        ofNat_eq a (by omega)
      have hb : UInt8.ofNat ((a.toNat % 4 * 16 + b.toNat / 16) % 16 * 16 +
          (b.toNat % 16 * 4 + c.toNat / 64) / 4) = b :=
        ofNat_eq b (by omega)
      have hc : UInt8.ofNat
          ((b.toNat % 16 * 4 + c.toNat / 64) % 4 * 64 + c.toNat % 64) = c :=
        ofNat_eq c (by omega)
      rw [digits, bytes, ih, ha, hb, hc, Option.map_some]

theorem mapM_value_map {l : List ℕ} (h : ∀ n ∈ l, n < 64) :
    (l.map digit).mapM value = some l := by
  induction l with
  | nil => rfl
  | cons n l ih =>
      rw [List.map_cons, List.mapM_cons, value_digit (h n (List.mem_cons_self ..)),
        ih fun m hm => h m (List.mem_cons_of_mem _ hm)]
      rfl

theorem decode_encode (data : List UInt8) : decode (encode data) = some data := by
  rw [decode, encode, mapM_value_map (digits_lt data), Option.bind_some, bytes_digits]

theorem dot_notMem_encode (data : List UInt8) : '.' ∉ encode data := by
  intro h
  obtain ⟨n, hn, hdigit⟩ := List.mem_map.mp h
  exact digit_ne_dot (digits_lt data n hn) hdigit

end Base64

/-! ## §3  Little-endian bytes -/

namespace LittleEndian

def ofBytes : List UInt8 → ℕ
  | [] => 0
  | b :: l => b.toNat + 256 * ofBytes l

end LittleEndian
