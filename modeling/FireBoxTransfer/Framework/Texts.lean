import Mathlib.Algebra.GroupWithZero.Nat
import Mathlib.Data.List.Basic
import Mathlib.Data.List.TakeWhile

/-!
# Texts

Sizes in bytes, decimal numbers, what follows the last separator, and what
stands before and behind the first one.
-/

namespace Texts

/-! ## §1  Bytes -/

theorem utf8ByteSize_ofList (l : List Char) :
    (String.ofList l).utf8ByteSize = (l.map Char.utf8Size).sum := by
  induction l with
  | nil => rfl
  | cons c l ih =>
      have hcons : String.ofList (c :: l) = String.singleton c ++ String.ofList l := by
        rw [← String.toList_inj]
        simp
      rw [hcons, String.utf8ByteSize_append, String.utf8ByteSize_singleton, ih, List.map_cons,
        List.sum_cons]

theorem utf8ByteSize_eq_sum (s : String) : s.utf8ByteSize = (s.toList.map Char.utf8Size).sum := by
  rw [← utf8ByteSize_ofList, String.ofList_toList]

/-- The bytes of a text. -/
def utf8 (s : String) : List UInt8 := s.toList.flatMap String.utf8EncodeChar

/-- A character is one byte, or all its bytes are above those. -/
theorem utf8EncodeChar_cases (c : Char) :
    (c.toNat ≤ 0x7f ∧ String.utf8EncodeChar c = [UInt8.ofNat c.toNat]) ∨
      (0x7f < c.toNat ∧ ∀ b ∈ String.utf8EncodeChar c, 0x7f < b.toNat) := by
  have hval : c.toNat = c.val.toNat := rfl
  rw [hval]
  unfold String.utf8EncodeChar
  simp only
  by_cases hone : c.val.toNat ≤ 0x7f
  · rw [if_pos hone]
    exact .inl ⟨hone, rfl⟩
  · right
    refine ⟨by omega, fun b hb => ?_⟩
    rw [if_neg hone] at hb
    split_ifs at hb <;> simp only [List.mem_cons, List.not_mem_nil, or_false] at hb <;>
      rcases hb with rfl | rfl | rfl | rfl <;>
        simp only [UInt8.toNat_ofNat', Nat.reducePow] <;> omega

/-- A scan of the bytes is a scan of the characters, where both only let bytes
of one-byte characters pass. -/
theorem all_utf8 {p : UInt8 → Bool} {q : Char → Bool} (s : String)
    (hone : ∀ n : Fin 128, p (UInt8.ofNat n) = q (Char.ofNat n))
    (hp : ∀ b : UInt8, 0x7f < b.toNat → p b = false)
    (hq : ∀ c : Char, 0x7f < c.toNat → q c = false) : (utf8 s).all p = s.toList.all q := by
  unfold utf8
  induction s.toList with
  | nil => rfl
  | cons c cs ih =>
      rw [List.flatMap_cons, List.all_append, ih, List.all_cons]
      congr 1
      rcases utf8EncodeChar_cases c with ⟨hc, hbytes⟩ | ⟨hc, hbytes⟩
      · have hone := hone ⟨c.toNat, by omega⟩
        rw [hbytes, List.all_cons, List.all_nil, Bool.and_true, hone]
        simp
      · rw [hq c hc, List.all_eq_false]
        obtain ⟨b, hb⟩ := List.exists_mem_of_ne_nil _ (String.utf8EncodeChar_ne_nil (c := c))
        exact ⟨b, hb, by simp [hp b (hbytes b hb)]⟩

/-! ## §2  Decimal numbers -/

theorem toList_toString (n : ℕ) : (toString n).toList = Nat.toDigits 10 n := by
  rw [Nat.toString_eq_repr, Nat.repr_eq_ofList_toDigits, String.toList_ofList]

theorem isDigit_eq (c : Char) : c.isDigit = (decide ('0' ≤ c) && decide (c ≤ '9')) := rfl

theorem isDigit_of_mem_toString {n : ℕ} {c : Char} (h : c ∈ (toString n).toList) :
    c.isDigit = true := by
  rw [toList_toString] at h
  exact Nat.isDigit_of_mem_toDigits (by omega) (by omega) h

theorem utf8Size_of_isDigit {c : Char} (h : c.isDigit = true) : c.utf8Size = 1 := by
  simp only [Char.isDigit, ge_iff_le, Bool.and_eq_true, decide_eq_true_eq] at h
  have hle : c.val ≤ 0x7f := UInt32.le_trans h.2 (by decide)
  simp [Char.utf8Size, hle]

theorem utf8ByteSize_toString_le {n k : ℕ} (hk : 0 < k) (h : n < 10 ^ k) :
    (toString n).utf8ByteSize ≤ k := by
  rw [utf8ByteSize_eq_sum]
  have hsizes : (toString n).toList.map Char.utf8Size =
      List.replicate (toString n).toList.length 1 := by
    rw [List.eq_replicate_iff]
    refine ⟨List.length_map .., fun b hb => ?_⟩
    obtain ⟨c, hc, rfl⟩ := List.mem_map.mp hb
    exact utf8Size_of_isDigit (isDigit_of_mem_toString hc)
  rw [hsizes, List.sum_replicate_nat, Nat.mul_one, toList_toString]
  exact (Nat.length_toDigits_le_iff (by omega) hk).mpr h

/-! ## §3  The last component -/

/-- Reading back to the last separator finds what follows it. -/
theorem takeWhile_reverse_append {sep : Char} {front name : List Char} (h : sep ∉ name) :
    ((front ++ sep :: name).reverse.takeWhile (· ≠ sep)).reverse = name := by
  have hname : ∀ c ∈ name.reverse, decide (c ≠ sep) = true := by
    intro c hc
    have hmem : c ∈ name := List.mem_reverse.mp hc
    simp only [ne_eq, decide_eq_true_eq]
    rintro rfl
    exact h hmem
  rw [List.reverse_append, List.reverse_cons, List.append_assoc,
    List.takeWhile_append_of_pos hname]
  simp

theorem takeWhile_reverse_of_notMem {sep : Char} {name : List Char} (h : sep ∉ name) :
    (name.reverse.takeWhile (· ≠ sep)).reverse = name := by
  have hname : name.reverse.takeWhile (· ≠ sep) = name.reverse := by
    rw [List.takeWhile_eq_self_iff]
    intro c hc
    simp only [ne_eq, decide_eq_true_eq]
    rintro rfl
    exact h (List.mem_reverse.mp hc)
  rw [hname, List.reverse_reverse]

/-! ## §4  The first separator -/

/-- `split_once`: what stands before the first separator, and what behind it. -/
def splitOnce (sep : Char) : List Char → Option (List Char × List Char)
  | [] => none
  | c :: cs => if c = sep then some ([], cs) else (splitOnce sep cs).map fun r => (c :: r.1, r.2)

theorem splitOnce_eq_some {sep : Char} {cs before behind : List Char} :
    splitOnce sep cs = some (before, behind) ↔ cs = before ++ sep :: behind ∧ sep ∉ before := by
  induction cs generalizing before with
  | nil => simp [splitOnce]
  | cons c cs ih =>
      rw [splitOnce]
      by_cases hc : c = sep
      · rw [if_pos hc]
        constructor
        · intro h
          obtain ⟨rfl, rfl⟩ := Prod.mk.inj (Option.some.inj h)
          exact ⟨by rw [hc]; rfl, List.not_mem_nil⟩
        · rintro ⟨heq, hnot⟩
          cases before with
          | nil => rw [(List.cons.inj heq).2]
          | cons b before =>
              obtain ⟨rfl, -⟩ := List.cons.inj heq
              exact absurd (hc ▸ List.mem_cons_self) hnot
      · rw [if_neg hc, Option.map_eq_some_iff]
        constructor
        · rintro ⟨r, hr, heq⟩
          obtain ⟨rfl, rfl⟩ := Prod.mk.inj heq
          obtain ⟨rfl, hnot⟩ := ih.mp hr
          exact ⟨rfl, List.not_mem_cons_of_ne_of_not_mem (Ne.symm hc) hnot⟩
        · rintro ⟨heq, hnot⟩
          cases before with
          | nil => exact absurd (List.cons.inj heq).1 hc
          | cons b before =>
              obtain ⟨rfl, rfl⟩ := List.cons.inj heq
              exact ⟨(before, behind), ih.mpr ⟨rfl, fun h => hnot (List.mem_cons_of_mem _ h)⟩, rfl⟩

theorem splitOnce_eq_none {sep : Char} {cs : List Char} : splitOnce sep cs = none ↔ sep ∉ cs := by
  induction cs with
  | nil => simp [splitOnce]
  | cons c cs ih =>
      rw [splitOnce, List.mem_cons]
      by_cases hc : c = sep
      · rw [if_pos hc]
        exact iff_of_false nofun fun h => h (.inl hc.symm)
      · rw [if_neg hc, Option.map_eq_none_iff, ih]
        exact not_congr ⟨.inr, fun h => h.resolve_left (Ne.symm hc)⟩

end Texts
