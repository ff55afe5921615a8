import FireBoxTransfer.Files.LegalNames
import FireBoxTransfer.Framework.Utf8Cuts

/-!
# The sanitizer

Every name becomes a legal one, and the legal names are those that are left as they are. The
cut to the number of bytes that a name may have is made on bytes; it never leaves a part of a
character, and what the cut brings to the end of the name is cleaned up after it.
-/

namespace FireBoxTransfer

namespace Filename

/-! ## §1  The cut -/

theorem length_encode (name : List Char) : (Utf8.encode name).length = byteLength name :=
  Utf8.length_encode name

/-- What is cut off begins with a character that does not fit. -/
theorem truncateBytes_split (value : List Char) (max : ℕ) :
    ∃ back, value = truncateBytes value max ++ back ∧
      (back = [] ∨ ∃ c rest, back = c :: rest ∧
        max < byteLength (truncateBytes value max) + c.utf8Size) := by
  induction value generalizing max with
  | nil => exact ⟨[], rfl, .inl rfl⟩
  | cons c value ih =>
      unfold truncateBytes
      split_ifs with hfits
      · obtain ⟨back, hvalue, hback⟩ := ih (max - c.utf8Size)
        have hcons : byteLength (c :: truncateBytes value (max - c.utf8Size)) =
            c.utf8Size + byteLength (truncateBytes value (max - c.utf8Size)) := rfl
        refine ⟨back, congrArg (List.cons c) hvalue, hback.imp_right ?_⟩
        rintro ⟨next, rest, hnext, hfull⟩
        exact ⟨next, rest, hnext, by omega⟩
      · refine ⟨c :: value, rfl, .inr ⟨c, value, rfl, ?_⟩⟩
        have hnil : byteLength [] = 0 := rfl
        omega

/-- **The cut on bytes** is one on characters. -/
theorem cut_encode (value : List Char) (max : ℕ) :
    Utf8.cut (Utf8.encode value) max = Utf8.encode (truncateBytes value max) := by
  have hbytes := byteLength_truncateBytes value max
  obtain ⟨back, hvalue, hback⟩ := truncateBytes_split value max
  rw [← length_encode] at hbytes
  rcases hback with rfl | ⟨c, rest, rfl, hfull⟩
  · rw [List.append_nil] at hvalue
    rw [← hvalue] at hbytes ⊢
    exact Utf8.cut_of_le hbytes
  · rw [← length_encode] at hfull
    conv_lhs => rw [hvalue]
    exact Utf8.cut_encode hbytes hfull

/-! ## §2  Names that are left as they are -/

variable {name : String} {rules : Rules}

theorem isValid_sanitize (name : String) (rules : Rules) :
    isValid (sanitize name rules).toList rules = true := by
  unfold sanitize
  rw [String.toList_ofList]
  exact isValid_sanitizeWith name.toList rules

theorem sanitize_of_isValid (h : isValid name.toList rules = true) :
    sanitize name rules = name := by
  unfold sanitize
  rw [sanitizeWith_of_isValid h, String.ofList_toList]

/-- What the last steps of the sanitizer leave behind. -/
theorem sanitize_proper (name : String) (rules : Rules) :
    Proper rules (sanitize name rules).toList := (isValid_iff.mp (isValid_sanitize name rules)).1

/-! ## §3  The specification -/

/-- **The sanitizer** makes every name legal and leaves the legal ones as they are; its cut
keeps whole characters, and neither a dot or blank at the end nor a reserved name nor an
empty one is there after it. -/
theorem sanitizer_specified (name : String) (rules : Rules) :
    isValid (sanitize name rules).toList rules = true ∧
      (isValid name.toList rules = true ↔ sanitize name rules = name) ∧
      sanitize (sanitize name rules) rules = sanitize name rules ∧
      (∀ value max, Utf8.cut (Utf8.encode value) max = Utf8.encode (truncateBytes value max) ∧
        truncateBytes value max <+: value ∧ byteLength (truncateBytes value max) ≤ max) ∧
      sanitize name rules ≠ "" ∧
      (rules.isWindowsLike = true → Tidy (sanitize name rules).toList ∧
        reservedPrefix (sanitize name rules).toList = none) := by
  have hvalid := isValid_sanitize name rules
  have hproper := sanitize_proper name rules
  refine ⟨hvalid, ⟨sanitize_of_isValid, fun hsame => ?_⟩, sanitize_of_isValid hvalid,
    fun value max => ⟨cut_encode value max, truncateBytes_begins value max,
      byteLength_truncateBytes value max⟩, fun hempty => ?_,
    fun hlike => ⟨hproper.tidy hlike, hproper.not_reserved hlike⟩⟩
  · rw [hsame] at hvalid
    exact hvalid
  · rw [hempty] at hproper
    exact hproper.ne_nil rfl

/-- The cut comes after a dot, which is replaced. -/
example : sanitizeWith (List.replicate 254 'a' ++ '.' :: List.replicate 10 'b') .windows .default =
    List.replicate 254 'a' ++ ['_'] := by decide +kernel

end Filename

end FireBoxTransfer
