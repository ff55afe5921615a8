import FireBoxTransfer.Framework.Texts
import FireBoxTransfer.RemoteFs.Firebox

/-!
# One grammar of paths, names and roots

The core and the isolate each scan what a request names. Both accept the same
strings.
-/

namespace FireBoxTransfer

/-! ## §1  Relative paths -/

/-- A segment of a path: not empty, and neither of the dotted names. -/
structure Segment (segment : String) : Prop where
  ne_empty : segment ≠ ""
  ne_dot : segment ≠ "."
  ne_dots : segment ≠ ".."
  no_slash : '/' ∉ segment.toList

/-- The names of a relative path. -/
def segments (relativePath : String) : List String :=
  if relativePath = "" then [] else splitSlash relativePath

/-- The path of a child has one name more. -/
theorem segments_childRemotePath {path name : String} (hempty : name ≠ "")
    (hslash : '/' ∉ name.toList) :
    segments (childRemotePath path name) = segments path ++ [name] := by
  have hsingle : splitSlash name = [name] := by
    rw [splitSlash, List.splitOn_eq_singleton hslash, List.map_singleton, String.ofList_toList]
  unfold childRemotePath segments
  by_cases hroot : path = ""
  · rw [if_pos hroot, if_pos hroot, if_neg hempty, hsingle, List.nil_append]
  · have hne : path ++ "/" ++ name ≠ "" := by
      intro heq
      have hlist := congrArg String.toList heq
      rw [String.toList_append, String.toList_append] at hlist
      simp at hlist
    have hchars : (path ++ "/" ++ name).toList = path.toList ++ '/' :: name.toList := by
      rw [String.toList_append, String.toList_append, List.append_assoc]
      rfl
    rw [if_neg hroot, if_neg hne, if_neg hroot, ← hsingle]
    unfold splitSlash
    rw [hchars, List.splitOn_append_cons_self, List.map_append]

/-- What a relative path is, below its bound. -/
structure RelativePath (bound : ℕ) (path : String) : Prop where
  size : path.utf8ByteSize ≤ bound
  backslash : '\\' ∉ path.toList
  control : ∀ ch ∈ path.toList, ¬ (ch.toNat ≤ 0x1f ∨ (0x7f ≤ ch.toNat ∧ ch.toNat ≤ 0x9f))
  drive : ∀ letter rest, path.toList = letter :: ':' :: rest →
    ¬ (('A' ≤ letter ∧ letter ≤ 'Z') ∨ ('a' ≤ letter ∧ letter ≤ 'z'))
  segments : ∃ segments : List String, segments ≠ [] ∧ (∀ s ∈ segments, Segment s) ∧
    path.toList = ['/'].intercalate (segments.map String.toList)

theorem hasControlCharacter_eq_false {path : String} :
    hasControlCharacter path = false ↔
      ∀ ch ∈ path.toList, ¬ (ch.toNat ≤ 0x1f ∨ (0x7f ≤ ch.toNat ∧ ch.toNat ≤ 0x9f)) := by
  simp [hasControlCharacter]

theorem isWindowsStyleAbsolute_eq_false {path : String} :
    isWindowsStyleAbsolute path = false ↔ ∀ letter rest, path.toList = letter :: ':' :: rest →
      ¬ (('A' ≤ letter ∧ letter ≤ 'Z') ∨ ('a' ≤ letter ∧ letter ≤ 'z')) := by
  unfold isWindowsStyleAbsolute
  constructor
  · intro h letter rest hpath
    rw [hpath] at h
    simpa [isAsciiLetter] using h
  · intro h
    split
    · rename_i letter colon rest hpath
      by_cases hcolon : colon = ':'
      · subst hcolon
        have hletter := h letter rest hpath
        simpa [isAsciiLetter] using hletter
      · simp [hcolon]
    · rfl

/-- The pieces of a path are its segments. -/
theorem segments_iff {path : String} :
    (∃ segments : List String, segments ≠ [] ∧ (∀ s ∈ segments, Segment s) ∧
      path.toList = ['/'].intercalate (segments.map String.toList)) ↔
      ∀ c ∈ splitSlash path, ¬ (c = "" ∨ c = "." ∨ c = "..") := by
  unfold splitSlash
  constructor
  · rintro ⟨segments, hne, hsegments, hpath⟩ c hc
    rw [hpath, List.splitOn_intercalate '/' _ (by simpa using hne)] at hc
    · have hmem : c ∈ segments := by simpa using hc
      have hsegment := hsegments c hmem
      rintro (h | h | h)
      · exact hsegment.ne_empty h
      · exact hsegment.ne_dot h
      · exact hsegment.ne_dots h
    · intro l hl
      obtain ⟨s, hs, rfl⟩ := List.mem_map.mp hl
      exact (hsegments s hs).no_slash
  · intro h
    refine ⟨(path.toList.splitOn '/').map String.ofList, ?_, fun s hs => ?_, ?_⟩
    · simp
    · have hdots := h s hs
      obtain ⟨piece, hpiece, rfl⟩ := List.mem_map.mp hs
      refine ⟨fun heq => hdots (.inl heq), fun heq => hdots (.inr (.inl heq)),
        fun heq => hdots (.inr (.inr heq)), fun hmem => ?_⟩
      rw [String.toList_ofList] at hmem
      exact (mem_piece hpiece hmem).1 rfl
    · rw [List.map_map]
      have hid : String.toList ∘ String.ofList = id := funext fun l => String.toList_ofList
      rw [hid, List.map_id, List.intercalate_splitOn]

/-- A separator at an end of a path leaves an empty piece there. -/
theorem splitSlash_of_head {path : String} (h : path.toList.head? = some '/') :
    "" ∈ splitSlash path := by
  unfold splitSlash
  cases hpath : path.toList with
  | nil => simp [hpath] at h
  | cons c cs =>
      rw [hpath] at h
      obtain rfl : c = '/' := by simpa using h
      simp [List.splitOn_cons_eq_if_modifyHead]

theorem splitSlash_of_getLast {path : String} (h : path.toList.getLast? = some '/') :
    "" ∈ splitSlash path := by
  unfold splitSlash
  obtain ⟨front, hfront⟩ := List.getLast?_eq_some_iff.mp h
  rw [hfront, List.splitOn_append_cons_self]
  simp

/-- The scanner of the isolate accepts the relative paths. -/
theorem validRelativePath_iff {path : String} :
    validRelativePath path = true ↔ path = "" ∨ RelativePath 4096 path := by
  unfold validRelativePath
  by_cases hempty : path = ""
  · simp [hempty]
  rw [if_neg hempty]
  constructor
  · intro h
    right
    split_ifs at h with hbad hany
    simp only [Bool.or_eq_true, not_or, decide_eq_true_eq, not_lt, contains,
      List.contains_iff_mem, Bool.not_eq_true] at hbad
    obtain ⟨⟨⟨⟨⟨hsize, hhead⟩, hlast⟩, hbackslash⟩, hcontrol⟩, hdrive⟩ := hbad
    refine ⟨hsize, hbackslash, hasControlCharacter_eq_false.mp hcontrol,
      isWindowsStyleAbsolute_eq_false.mp hdrive, segments_iff.mpr fun c hc hdots => hany ?_⟩
    exact List.any_eq_true.mpr ⟨c, hc, by simpa [or_assoc] using hdots⟩
  · rintro (h | h)
    · exact absurd h hempty
    · have hpieces := segments_iff.mp h.segments
      have hhead : path.toList.head? ≠ some '/' := fun heq =>
        hpieces "" (splitSlash_of_head heq) (.inl rfl)
      have hlast : path.toList.getLast? ≠ some '/' := fun heq =>
        hpieces "" (splitSlash_of_getLast heq) (.inl rfl)
      have hcontrol := hasControlCharacter_eq_false.mpr h.control
      have hdrive := isWindowsStyleAbsolute_eq_false.mpr h.drive
      have hsize := h.size
      have hbackslash : contains path '\\' = false := by simpa [contains] using h.backslash
      rw [if_neg, if_neg]
      · intro hany
        obtain ⟨c, hc, hdots⟩ := List.any_eq_true.mp hany
        exact hpieces c hc (by simpa [or_assoc] using hdots)
      · simp [hhead, hlast, hcontrol, hdrive, hbackslash, hsize]

/-! ## §2  Roots -/

/-- The bytes that `validate_root_id` lets pass. -/
def Firebox.rootIdByte (b : UInt8) : Bool :=
  (0x30 ≤ b && b ≤ 0x39) || (0x41 ≤ b && b ≤ 0x5a) || (0x61 ≤ b && b ≤ 0x7a) ||
    b = 0x2d || b = 0x5f || b = 0x2e || b = 0x7e

theorem isRootIdByte_eq : Firebox.isRootIdByte = isIdCharacter := by
  funext ch
  unfold Firebox.isRootIdByte isIdCharacter
  rw [Texts.isDigit_eq]
  generalize isAsciiLetter ch = letter
  generalize (decide ('0' ≤ ch) && decide (ch ≤ '9')) = digit
  cases letter <;> cases digit <;> grind

theorem isIdCharacter_of_not_ascii {c : Char} (h : 0x7f < c.toNat) : isIdCharacter c = false := by
  have hle : ∀ d : Char, d.toNat ≤ 0x7f → decide (c ≤ d) = false := fun d hd => by
    have hnat : ¬ c.toNat ≤ d.toNat := by omega
    exact decide_eq_false fun hcd => hnat (UInt32.le_iff_toNat_le.mp hcd)
  have hne : ∀ d : Char, d.toNat ≤ 0x7f → decide (c = d) = false := fun d hd =>
    decide_eq_false fun heq => by
      rw [heq] at h
      omega
  unfold isIdCharacter isAsciiLetter
  rw [hle 'Z' (by decide), hle 'z' (by decide), hle '9' (by decide), hne '.' (by decide),
    hne '_' (by decide), hne '~' (by decide), hne '-' (by decide)]
  simp

/-- The core scans bytes, the pattern of the isolate characters. -/
theorem all_rootIdByte (s : String) :
    (Texts.utf8 s).all Firebox.rootIdByte = s.toList.all isIdCharacter := by
  refine Texts.all_utf8 s (by decide) (fun b hb => ?_) fun c hc => isIdCharacter_of_not_ascii hc
  have hle : ∀ d : UInt8, d.toNat ≤ 0x7f → decide (b ≤ d) = false := fun d hd => by
    have hnat : ¬ b.toNat ≤ d.toNat := by omega
    exact decide_eq_false fun hbd => hnat (UInt8.le_iff_toNat_le.mp hbd)
  have hne : ∀ d : UInt8, d.toNat ≤ 0x7f → decide (b = d) = false := fun d hd =>
    decide_eq_false fun heq => by
      rw [heq] at hb
      omega
  unfold Firebox.rootIdByte
  rw [hle 0x39 (by decide), hle 0x5a (by decide), hle 0x7a (by decide), hne 0x2d (by decide),
    hne 0x5f (by decide), hne 0x2e (by decide), hne 0x7e (by decide)]
  simp

/-- A text of id characters is as long as it has bytes. -/
theorem utf8ByteSize_of_all {s : String} (h : s.toList.all isIdCharacter = true) :
    s.utf8ByteSize = s.length := by
  have hones : s.toList.map Char.utf8Size = List.replicate s.length 1 := by
    rw [List.eq_replicate_iff]
    refine ⟨by rw [List.length_map, String.length_toList], fun n hn => ?_⟩
    obtain ⟨c, hc, rfl⟩ := List.mem_map.mp hn
    have hid := List.all_eq_true.mp h c hc
    rcases Texts.utf8EncodeChar_cases c with ⟨-, hbytes⟩ | ⟨hlarge, -⟩
    · rw [← String.length_utf8EncodeChar, hbytes]
      rfl
    · rw [isIdCharacter_of_not_ascii hlarge] at hid
      cases hid
  rw [Texts.utf8ByteSize_eq_sum, hones, List.sum_replicate_nat, Nat.mul_one]

/-- The core lets an id pass that the pattern matches. -/
theorem validateRootId_eq_ok {rootId : String} : Firebox.validateRootId rootId = .ok () ↔
    1 ≤ rootId.length ∧ rootId.length ≤ 128 ∧ rootId.toList.all isIdCharacter = true := by
  have hpos : rootId ≠ "" ↔ 1 ≤ rootId.length := by
    rw [ne_eq, ← String.length_eq_zero_iff]
    omega
  unfold Firebox.validateRootId
  rw [Firebox.check_eq_ok, isRootIdByte_eq]
  cases hall : rootId.toList.all isIdCharacter with
  | false => simp
  | true =>
      rw [utf8ByteSize_of_all hall, ← hpos]
      simp

/-! ## §3  Every string -/

/-- The two layers accept the same strings, and a path is what the grammar
says. -/
structure ValidatorsAgree (s : String) : Prop where
  path : Firebox.validateRelativePath s = .ok () ↔ validRelativePath s = true
  grammar : validRelativePath s = true ↔ s = "" ∨ RelativePath 4096 s
  name : Firebox.validateFileName s = .ok () ↔ validFileName s = true
  rootId : ∀ grant, validPublicRoot grant = true →
    (Firebox.validateRootId s = .ok () ↔ validPublicRoot { grant with id := s } = true)
  bytes : (Texts.utf8 s).all Firebox.rootIdByte = s.toList.all Firebox.isRootIdByte

/-- **The validators agree** on every string. -/
theorem validators_agree (s : String) : ValidatorsAgree s where
  path := Firebox.validateRelativePath_eq_ok
  grammar := validRelativePath_iff
  name := Firebox.validateFileName_eq_ok
  rootId grant hgrant := by
    rw [validateRootId_eq_ok]
    unfold validPublicRoot at hgrant ⊢
    -- only the id is another one
    generalize decide (grant.displayName ≠ "") = named at hgrant ⊢
    generalize decide (grant.displayName.utf8ByteSize ≤ 256) = short at hgrant ⊢
    generalize (!hasControlCharacter grant.displayName) = plain at hgrant ⊢
    generalize decide (grant.locator ≠ "") = located at hgrant ⊢
    rw [Bool.and_eq_true, Bool.and_eq_true, Bool.and_eq_true, Bool.and_eq_true] at hgrant
    obtain ⟨⟨⟨⟨-, rfl⟩, rfl⟩, rfl⟩, rfl⟩ := hgrant
    simp [and_assoc]
  bytes := by rw [all_rootIdByte, isRootIdByte_eq]

end FireBoxTransfer
