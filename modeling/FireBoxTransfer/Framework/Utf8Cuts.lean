import FireBoxTransfer.Framework.Texts

/-!
# Cutting texts at a number of bytes

The first byte of a character is told from those that continue it. A cut that goes back to
a first byte keeps whole characters: as many from the beginning as there is room for.
-/

namespace Utf8

/-! ## §1  Characters and bytes -/

def encode (chars : List Char) : List UInt8 := chars.flatMap String.utf8EncodeChar

/-- A byte inside a character, but not its first. -/
def isContinuation (b : UInt8) : Bool := 0x80 ≤ b.toNat && b.toNat < 0xc0

theorem encode_append (front back : List Char) :
    encode (front ++ back) = encode front ++ encode back :=
  List.flatMap_append

theorem length_encode (chars : List Char) :
    (encode chars).length = (chars.map Char.utf8Size).sum := by
  unfold encode
  rw [List.length_flatMap]
  congr 2
  funext c
  exact String.length_utf8EncodeChar c

/-- A character is one first byte and bytes that continue it. -/
theorem utf8EncodeChar_eq_cons (c : Char) : ∃ first rest, String.utf8EncodeChar c = first :: rest ∧
    isContinuation first = false ∧ ∀ b ∈ rest, isContinuation b = true := by
  have hcontinues : ∀ n, isContinuation (UInt8.ofNat (n % 0x40 + 0x80)) = true := by
    intro n
    have hlt := Nat.mod_lt n (by decide : 0x40 > 0)
    unfold isContinuation
    rw [UInt8.toNat_ofNat', Nat.mod_eq_of_lt (by omega), Bool.and_eq_true, decide_eq_true_eq,
      decide_eq_true_eq]
    omega
  have hfirst : ∀ n, n < 0x80 ∨ (0xc0 ≤ n ∧ n < 0x100) →
      isContinuation (UInt8.ofNat n) = false := by
    intro n hn
    unfold isContinuation
    rw [UInt8.toNat_ofNat', Nat.mod_eq_of_lt (by omega), Bool.and_eq_false_iff,
      decide_eq_false_iff_not, decide_eq_false_iff_not]
    omega
  unfold String.utf8EncodeChar
  simp only
  split_ifs with hone htwo hthree
  · exact ⟨_, _, rfl, hfirst _ (.inl (by omega)), nofun⟩
  · refine ⟨_, _, rfl, hfirst _ (.inr (by omega)), ?_⟩
    intro b hb
    obtain rfl := List.mem_singleton.mp hb
    exact hcontinues _
  · refine ⟨_, _, rfl, hfirst _ (.inr (by omega)), ?_⟩
    intro b hb
    simp only [List.mem_cons, List.not_mem_nil, or_false] at hb
    rcases hb with rfl | rfl
    · exact hcontinues _
    · exact hcontinues _
  · refine ⟨_, _, rfl, hfirst _ (.inr (by omega)), ?_⟩
    intro b hb
    simp only [List.mem_cons, List.not_mem_nil, or_false] at hb
    rcases hb with rfl | rfl | rfl
    · exact hcontinues _
    · exact hcontinues _
    · exact hcontinues _

/-! ## §2  Boundaries -/

/-- `str::is_char_boundary`. -/
def isCharBoundary (bytes : List UInt8) (i : ℕ) : Bool :=
  i = 0 ||
    match bytes[i]? with
    | some b => !isContinuation b
    | none => i = bytes.length

/-- From a place back to a boundary. -/
def boundaryBelow (bytes : List UInt8) : ℕ → ℕ
  | 0 => 0
  | i + 1 => if isCharBoundary bytes (i + 1) then i + 1 else boundaryBelow bytes i

/-- The loop ends at the first boundary that it comes to. -/
theorem boundaryBelow_eq {bytes : List UInt8} {k i : ℕ} (hle : k ≤ i)
    (hk : isCharBoundary bytes k = true)
    (hinside : ∀ j, k < j → j ≤ i → isCharBoundary bytes j = false) :
    boundaryBelow bytes i = k := by
  induction i with
  | zero => exact (Nat.le_zero.mp hle).symm
  | succ i ih =>
      unfold boundaryBelow
      rcases Nat.eq_or_lt_of_le hle with rfl | hlt
      · rw [if_pos hk]
      · rw [if_neg (Bool.eq_false_iff.mp (hinside (i + 1) hlt le_rfl))]
        exact ih (Nat.lt_succ_iff.mp hlt) fun j hj hji => hinside j hj (hji.trans (Nat.le_succ i))

section Characters

variable {front back : List Char} {c : Char}

theorem isCharBoundary_between :
    isCharBoundary (encode (front ++ back)) (encode front).length = true := by
  unfold isCharBoundary
  rw [encode_append, Bool.or_eq_true]
  right
  cases back with
  | nil =>
      have hnone : (encode front ++ encode [])[(encode front).length]? = none :=
        List.getElem?_eq_none (by rw [List.length_append]; exact Nat.le_refl _)
      rw [hnone]
      exact decide_eq_true (by rw [List.length_append]; rfl)
  | cons c back =>
      obtain ⟨first, rest, hbytes, hfirst, -⟩ := utf8EncodeChar_eq_cons c
      have hcons : encode (c :: back) = first :: (rest ++ encode back) := by
        unfold encode
        rw [List.flatMap_cons, hbytes]
        rfl
      rw [hcons, List.getElem?_append_right le_rfl, Nat.sub_self, List.getElem?_cons_zero]
      exact congrArg not hfirst

/-- There is no boundary inside a character. -/
theorem isCharBoundary_inside {j : ℕ} (hj : 0 < j) (hsize : j < c.utf8Size) :
    isCharBoundary (encode (front ++ c :: back)) ((encode front).length + j) = false := by
  obtain ⟨first, rest, hbytes, -, hrest⟩ := utf8EncodeChar_eq_cons c
  have hlength := String.length_utf8EncodeChar c
  rw [hbytes, List.length_cons] at hlength
  have hcons : encode (c :: back) = first :: (rest ++ encode back) := by
    unfold encode
    rw [List.flatMap_cons, hbytes]
    rfl
  obtain ⟨i, rfl⟩ := Nat.exists_eq_succ_of_ne_zero hj.ne'
  have hi : i < rest.length := by omega
  have hget : (encode (front ++ c :: back))[(encode front).length + (i + 1)]? = some rest[i] := by
    rw [encode_append, hcons, List.getElem?_append_right (Nat.le_add_right _ _),
      Nat.add_sub_cancel_left, List.getElem?_cons_succ, List.getElem?_append_left hi,
      List.getElem?_eq_getElem hi]
  unfold isCharBoundary
  rw [hget, Bool.or_eq_false_iff]
  refine ⟨decide_eq_false (by omega), ?_⟩
  exact congrArg not (hrest _ (List.getElem_mem hi))

end Characters

/-! ## §3  Cuts -/

/-- A cut to at most `max` bytes that leaves no part of a character. -/
def cut (bytes : List UInt8) (max : ℕ) : List UInt8 :=
  if bytes.length ≤ max then bytes else bytes.take (boundaryBelow bytes max)

theorem cut_of_le {bytes : List UInt8} {max : ℕ} (h : bytes.length ≤ max) : cut bytes max = bytes :=
  if_pos h

/-- **A cut** keeps the characters before the first one that does not fit. -/
theorem cut_encode {front back : List Char} {c : Char} {max : ℕ}
    (hfits : (encode front).length ≤ max) (hfull : max < (encode front).length + c.utf8Size) :
    cut (encode (front ++ c :: back)) max = encode front := by
  have hlength := String.length_utf8EncodeChar c
  have hlong : ¬ (encode (front ++ c :: back)).length ≤ max := by
    have hcons : encode (c :: back) = String.utf8EncodeChar c ++ encode back := List.flatMap_cons
    rw [encode_append, hcons, List.length_append, List.length_append]
    omega
  have hboundary : boundaryBelow (encode (front ++ c :: back)) max = (encode front).length := by
    refine boundaryBelow_eq hfits isCharBoundary_between fun j hj hjmax => ?_
    obtain ⟨i, rfl⟩ := Nat.exists_eq_add_of_lt hj
    rw [Nat.add_assoc]
    exact isCharBoundary_inside (Nat.succ_pos i) (by omega)
  unfold cut
  rw [if_neg hlong, hboundary, encode_append, List.take_left]

end Utf8
