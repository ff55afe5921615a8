import FireBoxTransfer.Files.Destinations
import FireBoxTransfer.Framework.Texts

/-!
# Received files stay in their directory

Every component of a name that a sender gives is made legal before it is joined to the
destination, and a number that is added to the last one keeps it legal but for its length.
-/

namespace FireBoxTransfer

open Firebox TaskPool Runs

namespace Filename

/-! ## §1  Names that are legal -/

/-- The bytes of a name. -/
def byteLength (name : List Char) : ℕ := (name.map Char.utf8Size).sum

/-- Whether a name is legal as it is. -/
def isValid (name : List Char) (rules : Rules) : Bool :=
  if name.isEmpty || byteLength name > maxLen || isRelative name then false
  else if name.any rules.isIllegalChar then false
  else if rules.isWindowsLike && (name.getLast? = some '.' || name.getLast? = some ' ' ||
      (reservedPrefix name).isSome) then false
  else true

/-- The last character is neither a dot nor a blank. -/
def Tidy (name : List Char) : Prop := name.getLast? ≠ some '.' ∧ name.getLast? ≠ some ' '

/-- What is legal apart from the length. -/
structure Proper (rules : Rules) (name : List Char) : Prop where
  ne_nil : name ≠ []
  not_relative : isRelative name = false
  chars : ∀ c ∈ name, rules.isIllegalChar c = false
  tidy : rules.isWindowsLike = true → Tidy name
  not_reserved : rules.isWindowsLike = true → reservedPrefix name = none

theorem isValid_iff {name : List Char} {rules : Rules} :
    isValid name rules = true ↔ Proper rules name ∧ byteLength name ≤ maxLen := by
  unfold isValid
  split_ifs with hshape hillegal hlike
  · refine iff_of_false not_false ?_
    rintro ⟨hproper, hlength⟩
    rw [Bool.or_eq_true, Bool.or_eq_true, decide_eq_true_eq, List.isEmpty_iff] at hshape
    obtain (hempty | hlong) | hrelative := hshape
    · exact hproper.ne_nil hempty
    · omega
    · rw [hproper.not_relative] at hrelative
      cases hrelative
  · refine iff_of_false not_false ?_
    rintro ⟨hproper, -⟩
    obtain ⟨c, hc, hchar⟩ := List.any_eq_true.mp hillegal
    rw [hproper.chars c hc] at hchar
    cases hchar
  · refine iff_of_false not_false ?_
    rintro ⟨hproper, -⟩
    rw [Bool.and_eq_true, Bool.or_eq_true, Bool.or_eq_true, decide_eq_true_eq,
      decide_eq_true_eq] at hlike
    obtain ⟨hlike, (hdot | hblank) | hreserved⟩ := hlike
    · exact (hproper.tidy hlike).1 hdot
    · exact (hproper.tidy hlike).2 hblank
    · rw [hproper.not_reserved hlike] at hreserved
      cases hreserved
  · refine iff_of_true rfl ?_
    simp only [Bool.or_eq_true, decide_eq_true_eq, List.isEmpty_iff, not_or, Nat.not_lt,
      Bool.not_eq_true] at hshape
    simp only [Bool.and_eq_true, Bool.or_eq_true, decide_eq_true_eq, not_and, not_or] at hlike
    refine ⟨⟨hshape.1.1, hshape.2, fun c hc => ?_, fun h => (hlike h).1, fun h => ?_⟩,
      hshape.1.2⟩
    · exact Bool.eq_false_iff.mpr fun hchar => hillegal (List.any_eq_true.mpr ⟨c, hc, hchar⟩)
    · exact Option.not_isSome_iff_eq_none.mp (hlike h).2

theorem byteLength_append (a b : List Char) :
    byteLength (a ++ b) = byteLength a + byteLength b := by
  rw [byteLength, List.map_append, List.sum_append]
  rfl

theorem byteLength_ofList (name : List Char) :
    (String.ofList name).utf8ByteSize = byteLength name := Texts.utf8ByteSize_ofList name

theorem byteLength_le (name : List Char) : byteLength name ≤ 4 * name.length := by
  induction name with
  | nil => exact Nat.le_refl _
  | cons c name ih =>
      have hc := Char.utf8Size_le_four c
      have hcons : byteLength (c :: name) = c.utf8Size + byteLength name := rfl
      rw [hcons, List.length_cons]
      omega

/-! ## §2  Sanitizing -/

theorem truncateBytes_begins (value : List Char) (max : ℕ) : truncateBytes value max <+: value := by
  induction value generalizing max with
  | nil => exact List.prefix_refl _
  | cons c value ih =>
      unfold truncateBytes
      split_ifs
      · exact List.prefix_cons_inj c |>.mpr (ih _)
      · exact List.nil_prefix

theorem byteLength_truncateBytes (value : List Char) (max : ℕ) :
    byteLength (truncateBytes value max) ≤ max := by
  induction value generalizing max with
  | nil => exact Nat.zero_le _
  | cons c value ih =>
      unfold truncateBytes
      split_ifs with hfits
      · have hrest := ih (max - c.utf8Size)
        have hcons : byteLength (c :: truncateBytes value (max - c.utf8Size)) =
            c.utf8Size + byteLength (truncateBytes value (max - c.utf8Size)) := rfl
        omega
      · exact Nat.zero_le _

/-- What is cut off leaves no room for another character. -/
theorem truncateBytes_eq_or (value : List Char) (max : ℕ) :
    truncateBytes value max = value ∨ max < byteLength (truncateBytes value max) + 4 := by
  induction value generalizing max with
  | nil => exact .inl rfl
  | cons c value ih =>
      have hc := Char.utf8Size_le_four c
      unfold truncateBytes
      split_ifs with hfits
      · have hcons : byteLength (c :: truncateBytes value (max - c.utf8Size)) =
            c.utf8Size + byteLength (truncateBytes value (max - c.utf8Size)) := rfl
        refine (ih (max - c.utf8Size)).imp (fun hsame => by rw [hsame]) fun hfull => ?_
        omega
      · right
        show max < 0 + 4
        omega

theorem truncateBytes_of_le {value : List Char} {max : ℕ} (h : byteLength value ≤ max) :
    truncateBytes value max = value := by
  induction value generalizing max with
  | nil => rfl
  | cons c value ih =>
      have hcons : byteLength (c :: value) = c.utf8Size + byteLength value := rfl
      unfold truncateBytes
      rw [if_pos (by omega), ih (by omega)]

def isTrailing (c : Char) : Bool := c = '.' || c = ' '

/-- Nothing was trailing, or what was became one replacement. -/
theorem collapse_cases (result : List Char) :
    (collapseTrailingRun result ['_'] = result ∧ Tidy result) ∨
      ¬ Tidy result ∧ ∃ trimmed c rest, result = trimmed ++ c :: rest ∧
        collapseTrailingRun result ['_'] = trimmed ++ ['_'] := by
  obtain ⟨l, rfl⟩ : ∃ l : List Char, result = l.reverse := ⟨_, (List.reverse_reverse _).symm⟩
  have hcollapse : collapseTrailingRun l.reverse ['_'] =
      if (l.dropWhile isTrailing).reverse.length ≠ l.reverse.length then
        (l.dropWhile isTrailing).reverse ++ ['_'] else l.reverse := by
    unfold collapseTrailingRun
    rw [List.reverse_reverse]
    rfl
  rw [hcollapse]
  have hsplit : l.takeWhile isTrailing ++ l.dropWhile isTrailing = l :=
    List.takeWhile_append_dropWhile
  cases hrun : l.takeWhile isTrailing with
  | nil =>
      left
      rw [hrun, List.nil_append] at hsplit
      rw [hsplit, if_neg (not_not.mpr rfl)]
      refine ⟨rfl, ?_⟩
      cases l with
      | nil => exact ⟨nofun, nofun⟩
      | cons c l =>
          have hc : isTrailing c = false := by
            by_contra htrailing
            rw [List.takeWhile_cons_of_pos (eq_true_of_ne_false htrailing)] at hrun
            cases hrun
          unfold Tidy
          rw [List.getLast?_reverse]
          constructor
          · rintro ⟨⟩
            cases hc
          · rintro ⟨⟩
            cases hc
  | cons c run =>
      right
      rw [hrun] at hsplit
      have hresult : l.reverse = (l.dropWhile isTrailing).reverse ++ (c :: run).reverse := by
        rw [← List.reverse_append, hsplit]
      obtain ⟨first, rest, hfirst⟩ : ∃ first rest, (c :: run).reverse = first :: rest :=
        List.exists_cons_of_ne_nil (List.reverse_ne_nil_iff.mpr (List.cons_ne_nil _ _))
      refine ⟨fun htidy => ?_, _, first, rest, by rw [hresult, hfirst], if_pos ?_⟩
      · have hc : isTrailing c = true :=
          List.mem_takeWhile_imp (hrun ▸ List.mem_cons_self : c ∈ l.takeWhile isTrailing)
        unfold Tidy at htidy
        rw [List.getLast?_reverse, ← hsplit] at htidy
        rcases (Bool.or_eq_true ..).mp hc with hc | hc
        · exact htidy.1 (congrArg some (of_decide_eq_true hc))
        · exact htidy.2 (congrArg some (of_decide_eq_true hc))
      · rw [hresult, List.length_append, hfirst, List.length_cons]
        omega

/-- A reserved name is short, and ends in a letter or a digit. -/
theorem reserved_short {stem : List Char} {reserved : String}
    (hmem : reserved ∈ reservedWindowsNames)
    (hsame : eqIgnoreAsciiCase stem reserved.toList = true) :
    stem.length ≤ 4 ∧ 3 ≤ stem.length ∧ ∀ c ∈ ['_', ')'], stem.getLast? ≠ some c := by
  have hlengths : ∀ reserved ∈ reservedWindowsNames, reserved.toList.length ≤ 4 ∧
      3 ≤ reserved.toList.length := by
    decide +kernel
  have hends : ∀ reserved ∈ reservedWindowsNames,
      (reserved.toList.map Char.toLower).getLast? ≠ some '_' ∧
        (reserved.toList.map Char.toLower).getLast? ≠ some ')' := by
    decide +kernel
  obtain ⟨hle, hge⟩ := hlengths reserved hmem
  have hlast : ∀ c ∈ ['_', ')'], (reserved.toList.map Char.toLower).getLast? ≠ some c.toLower := by
    intro c hc
    rcases List.mem_pair.mp hc with rfl | rfl
    · exact (hends reserved hmem).1
    · exact (hends reserved hmem).2
  have hmap : stem.map Char.toLower = reserved.toList.map Char.toLower := of_decide_eq_true hsame
  have hlength : stem.length = reserved.toList.length := by
    rw [← List.length_map (f := Char.toLower), hmap, List.length_map]
  refine ⟨hlength ▸ hle, hlength ▸ hge, fun c hc hends => hlast c hc ?_⟩
  rw [← hmap, List.getLast?_map, hends]
  rfl

theorem reservedPrefix_eq_none {name : List Char}
    (h : ∀ reserved ∈ reservedWindowsNames,
      eqIgnoreAsciiCase (name.takeWhile (· ≠ '.')) reserved.toList = false) :
    reservedPrefix name = none :=
  List.find?_eq_none.mpr fun reserved hmem => by
    rw [h reserved hmem]
    exact Bool.false_ne_true

/-- A name is reserved by what is before its first dot. -/
theorem reservedPrefix_congr {a b : List Char}
    (h : a.takeWhile (· ≠ '.') = b.takeWhile (· ≠ '.')) : reservedPrefix a = reservedPrefix b := by
  unfold reservedPrefix
  rw [h]

theorem takeWhile_append_of_dot {front rest : List Char} (hdot : '.' ∈ front) :
    (front ++ rest).takeWhile (· ≠ '.') = front.takeWhile (· ≠ '.') := by
  obtain ⟨before, behind, rfl⟩ := List.append_of_mem hdot
  rw [List.append_assoc, List.cons_append, List.takeWhile_append, List.takeWhile_append]
  split_ifs <;> rfl

/-- What is put in place of a trailing run is not reserved. -/
theorem reservedPrefix_collapse {result : List Char} (h : reservedPrefix result = none) :
    reservedPrefix (collapseTrailingRun result ['_']) = none := by
  rcases collapse_cases result with ⟨hsame, -⟩ | ⟨-, trimmed, c, rest, hresult, hcollapse⟩
  · rw [hsame, h]
  · rw [hcollapse]
    by_cases hdot : '.' ∈ trimmed
    · rw [← h, hresult]
      refine reservedPrefix_congr ?_
      rw [takeWhile_append_of_dot hdot, takeWhile_append_of_dot hdot]
    · refine reservedPrefix_eq_none fun reserved hmem => Bool.eq_false_iff.mpr fun hsame => ?_
      have hstem : (trimmed ++ ['_']).takeWhile (· ≠ '.') = trimmed ++ ['_'] := by
        rw [List.takeWhile_eq_self_iff]
        intro c hc
        rw [decide_eq_true_eq]
        rintro rfl
        rcases List.mem_append.mp hc with hc | hc
        · exact hdot hc
        · cases List.mem_singleton.mp hc
      rw [hstem] at hsame
      exact (reserved_short hmem hsame).2.2 '_' (by decide) List.getLast?_concat

/-- A name that is cut is too long to be reserved. -/
theorem reservedPrefix_truncateBytes {result : List Char} (h : reservedPrefix result = none) :
    reservedPrefix (truncateBytes result maxLen) = none := by
  rcases truncateBytes_eq_or result maxLen with hsame | hfull
  · rw [hsame, h]
  · obtain ⟨rest, hrest⟩ := truncateBytes_begins result maxLen
    by_cases hdot : '.' ∈ truncateBytes result maxLen
    · rw [← h]
      refine reservedPrefix_congr ?_
      conv_rhs => rw [← hrest, takeWhile_append_of_dot hdot]
    · refine reservedPrefix_eq_none fun reserved hmem => Bool.eq_false_iff.mpr fun hsame => ?_
      have hstem : (truncateBytes result maxLen).takeWhile (· ≠ '.') =
          truncateBytes result maxLen := by
        rw [List.takeWhile_eq_self_iff]
        intro c hc
        rw [decide_eq_true_eq]
        rintro rfl
        exact hdot hc
      rw [hstem] at hsame
      have hshort := (reserved_short hmem hsame).1
      have hbytes := byteLength_le (truncateBytes result maxLen)
      unfold maxLen at hfull hbytes hshort
      omega

/-- The replacement of a reserved name. -/
theorem reservedPrefix_replaced {result : List Char} {reserved : String}
    (hreserved : reservedPrefix result = some reserved) :
    reservedPrefix (['_'] ++ result.drop reserved.length) = none := by
  have hsame : eqIgnoreAsciiCase (result.takeWhile (· ≠ '.')) reserved.toList = true :=
    List.find?_some (p := fun reserved : String =>
      eqIgnoreAsciiCase (result.takeWhile (· ≠ '.')) reserved.toList) hreserved
  have hlength : (result.takeWhile (· ≠ '.')).length = reserved.length := by
    have hmap : (result.takeWhile (· ≠ '.')).map Char.toLower =
        reserved.toList.map Char.toLower := of_decide_eq_true hsame
    rw [← List.length_map (f := Char.toLower), hmap, List.length_map, String.length_toList]
  have hdrop : result.drop reserved.length = result.dropWhile (· ≠ '.') := by
    conv_lhs => rw [← List.takeWhile_append_dropWhile (p := (· ≠ '.')) (l := result)]
    rw [← hlength, List.drop_left]
  have hstem : (['_'] ++ result.drop reserved.length).takeWhile (· ≠ '.') = ['_'] := by
    rw [hdrop]
    cases hrest : result.dropWhile (· ≠ '.') with
    | nil => rfl
    | cons c rest =>
        have hc : c = '.' := by
          have hhead := List.head?_dropWhile_not (fun c : Char => decide (c ≠ '.')) result
          rw [hrest] at hhead
          simpa using hhead
        rw [hc]
        rfl
  refine reservedPrefix_eq_none fun other hmem => Bool.eq_false_iff.mpr fun hother => ?_
  rw [hstem] at hother
  have hshort := (reserved_short hmem hother).2.1
  exact absurd hshort (by decide)

theorem legal_underscore (rules : Rules) : rules.isIllegalChar '_' = false := by
  cases rules <;> decide

theorem mem_collapse {result : List Char} {c : Char}
    (hc : c ∈ collapseTrailingRun result ['_']) : c ∈ result ∨ c = '_' := by
  rcases collapse_cases result with ⟨hsame, -⟩ | ⟨-, trimmed, first, rest, hresult, hcollapse⟩
  · rw [hsame] at hc
    exact .inl hc
  · rw [hcollapse] at hc
    rw [hresult]
    exact (List.mem_append.mp hc).imp (List.mem_append_left _) List.mem_singleton.mp

theorem tidy_collapse (result : List Char) : Tidy (collapseTrailingRun result ['_']) := by
  rcases collapse_cases result with ⟨hsame, htidy⟩ | ⟨-, trimmed, first, rest, -, hcollapse⟩
  · rw [hsame]
    exact htidy
  · rw [hcollapse]
    unfold Tidy
    rw [List.getLast?_concat]
    exact ⟨by decide, by decide⟩

theorem byteLength_collapse (result : List Char) :
    byteLength (collapseTrailingRun result ['_']) ≤ byteLength result := by
  rcases collapse_cases result with ⟨hsame, -⟩ | ⟨-, trimmed, first, rest, hresult, hcollapse⟩
  · rw [hsame]
  · rw [hcollapse, hresult, byteLength_append, byteLength_append]
    have hfirst := Char.utf8Size_pos first
    have hcons : byteLength (first :: rest) = first.utf8Size + byteLength rest := rfl
    have hunderscore : byteLength ['_'] = 1 := rfl
    omega

/-- A reserved name loses what makes it one. -/
def unreserve (result : List Char) : List Char :=
  match reservedPrefix result with
  | some reserved => ['_'] ++ result.drop reserved.length
  | none => result

theorem reservedPrefix_unreserve (result : List Char) :
    reservedPrefix (unreserve result) = none := by
  unfold unreserve
  cases hreserved : reservedPrefix result with
  | none => exact hreserved
  | some reserved => exact reservedPrefix_replaced hreserved

theorem mem_unreserve {result : List Char} {c : Char} (hc : c ∈ unreserve result) :
    c ∈ result ∨ c = '_' := by
  unfold unreserve at hc
  split at hc
  · rcases List.mem_append.mp hc with hc | hc
    · exact .inr (List.mem_singleton.mp hc)
    · exact .inl (List.mem_of_mem_drop hc)
  · exact .inl hc

/-- What is left of a name before it is found to be empty. -/
def rewritten (name : List Char) (rules : Rules) : List Char :=
  let result := name.flatMap fun c => if rules.isIllegalChar c then ['_'] else [c]
  if rules.isWindowsLike then
    collapseTrailingRun
      (truncateBytes (unreserve (collapseTrailingRun result ['_'])) maxLen) ['_']
  else truncateBytes result maxLen

theorem sanitizeWith_eq (name : List Char) (rules : Rules) :
    sanitizeWith name rules .default =
      if (rewritten name rules).isEmpty || isRelative (rewritten name rules) then
        "untitled".toList
      else rewritten name rules := by
  have hplaceholder : truncateBytes Options.default.placeholder maxLen = "untitled".toList :=
    truncateBytes_of_le (by decide)
  have hreplacement : Options.default.replacement = ['_'] := rfl
  have hfits : ∀ result : List Char,
      truncateBytes (collapseTrailingRun (truncateBytes result maxLen) ['_']) maxLen =
        collapseTrailingRun (truncateBytes result maxLen) ['_'] := fun result =>
    truncateBytes_of_le ((byteLength_collapse _).trans (byteLength_truncateBytes _ _))
  unfold sanitizeWith rewritten unreserve
  rw [hplaceholder, hreplacement]
  generalize name.flatMap (fun c => if rules.isIllegalChar c then ['_'] else [c]) = result
  cases rules.isWindowsLike with
  | false => simp only [Bool.false_eq_true, if_false]
  | true =>
      cases hreserved : reservedPrefix (collapseTrailingRun result ['_']) with
      | none => simp only [if_true, hreserved, hfits]
      | some reserved => simp only [if_true, hreserved, hfits]

/-- **What is rewritten** lacks only a name that is empty or a dot. -/
theorem rewritten_proper (name : List Char) (rules : Rules) :
    (∀ c ∈ rewritten name rules, rules.isIllegalChar c = false) ∧
      (rules.isWindowsLike = true →
        Tidy (rewritten name rules) ∧ reservedPrefix (rewritten name rules) = none) ∧
      byteLength (rewritten name rules) ≤ maxLen := by
  have hreplaced : ∀ c ∈ name.flatMap fun c => if rules.isIllegalChar c then ['_'] else [c],
      rules.isIllegalChar c = false := by
    intro c hc
    obtain ⟨x, -, hx⟩ := List.mem_flatMap.mp hc
    split_ifs at hx with hillegal
    · obtain rfl := List.mem_singleton.mp hx
      exact legal_underscore rules
    · obtain rfl := List.mem_singleton.mp hx
      exact Bool.eq_false_iff.mpr hillegal
  unfold rewritten
  generalize name.flatMap (fun c => if rules.isIllegalChar c then ['_'] else [c]) = result
    at hreplaced
  simp only
  split_ifs with hlike
  · refine ⟨fun c hc => ?_, fun _ => ⟨tidy_collapse _, ?_⟩, ?_⟩
    · -- it was there from the start, or it is a replacement
      have hunderscore := legal_underscore rules
      rcases mem_collapse hc with hc | rfl
      · rcases mem_unreserve ((truncateBytes_begins _ _).subset hc) with hc | rfl
        · rcases mem_collapse hc with hc | rfl
          · exact hreplaced c hc
          · exact hunderscore
        · exact hunderscore
      · exact hunderscore
    · exact reservedPrefix_collapse (reservedPrefix_truncateBytes (reservedPrefix_unreserve _))
    · exact (byteLength_collapse _).trans (byteLength_truncateBytes _ _)
  · refine ⟨fun c hc => ?_, fun h => absurd h hlike, byteLength_truncateBytes _ _⟩
    exact hreplaced c ((truncateBytes_begins _ _).subset hc)

/-- **Every name is made legal**, whatever it is and whatever the rules are. -/
theorem isValid_sanitizeWith (name : List Char) (rules : Rules) :
    isValid (sanitizeWith name rules .default) rules = true := by
  rw [sanitizeWith_eq]
  split_ifs with hnone
  · cases rules <;> decide
  · obtain ⟨hchars, hlike, hlength⟩ := rewritten_proper name rules
    rw [Bool.or_eq_true, not_or, List.isEmpty_iff] at hnone
    exact isValid_iff.mpr ⟨⟨hnone.1, Bool.eq_false_iff.mpr hnone.2, hchars,
      fun h => (hlike h).1, fun h => (hlike h).2⟩, hlength⟩

/-- **A legal name** is left as it is. -/
theorem sanitizeWith_of_isValid {name : List Char} {rules : Rules}
    (h : isValid name rules = true) : sanitizeWith name rules .default = name := by
  obtain ⟨hproper, hlength⟩ := isValid_iff.mp h
  have hreplaced : (name.flatMap fun c => if rules.isIllegalChar c then ['_'] else [c]) = name := by
    have hchars := hproper.chars
    clear hproper hlength h
    induction name with
    | nil => rfl
    | cons c name ih =>
        rw [List.flatMap_cons, ih fun x hx => hchars x (List.mem_cons_of_mem _ hx),
          hchars c List.mem_cons_self, if_neg Bool.false_ne_true]
        rfl
  have hrewritten : rewritten name rules = name := by
    unfold rewritten
    rw [hreplaced]
    simp only
    split_ifs with hlike
    · have htidy : collapseTrailingRun name ['_'] = name :=
        (collapse_cases name).elim And.left fun h => absurd (hproper.tidy hlike) h.1
      have hfree : unreserve name = name := by
        unfold unreserve
        rw [hproper.not_reserved hlike]
      rw [htidy, hfree, truncateBytes_of_le hlength, htidy]
    · exact truncateBytes_of_le hlength
  have hshape : ¬ (name.isEmpty || isRelative name) = true := by
    rw [hproper.not_relative, Bool.or_false, List.isEmpty_iff]
    exact hproper.ne_nil
  rw [sanitizeWith_eq, hrewritten, if_neg hshape]

end Filename

/-! ## §3  The components of a name -/

namespace SavePlatform

variable {P : SavePlatform}

open Filename

/-- A name that the platform accepts for one file. -/
def Legal (P : SavePlatform) (name : String) : Prop := isValid name.toList P.rules = true

theorem Legal.proper {name : String} (h : P.Legal name) : Proper P.rules name.toList :=
  (isValid_iff.mp h).1

theorem legal_iff {name : String} :
    P.Legal name ↔ Proper P.rules name.toList ∧ name.utf8ByteSize ≤ maxLen := by
  have hbytes : name.utf8ByteSize = byteLength name.toList := by
    rw [← byteLength_ofList, String.ofList_toList]
  rw [hbytes]
  exact isValid_iff

theorem legal_sanitize (name : String) : P.Legal (sanitize name P.rules) := by
  unfold Legal sanitize
  rw [String.toList_ofList]
  exact isValid_sanitizeWith _ _

/-- **A legal name** is neither empty nor leads elsewhere. -/
theorem Legal.ne {name : String} (h : P.Legal name) : name ≠ "" ∧ name ≠ "." ∧ name ≠ ".." := by
  have hrelative := h.proper.not_relative
  refine ⟨?_, ?_, ?_⟩
  · rintro rfl
    exact h.proper.ne_nil rfl
  · rintro rfl
    exact absurd hrelative (by decide)
  · rintro rfl
    exact absurd hrelative (by decide)

theorem sanitizeRelativeName_legal {fileName : String} {components : List String}
    (h : P.sanitizeRelativeName fileName = .ok components) :
    components ≠ [] ∧ ∀ c ∈ components, P.Legal c := by
  unfold sanitizeRelativeName at h
  simp only at h
  split_ifs at h with hout hnone
  · cases h
    refine ⟨List.cons_ne_nil _ _, fun c hc => ?_⟩
    obtain rfl := List.mem_singleton.mp hc
    exact legal_sanitize ""
  · cases h
    refine ⟨fun hnil => hnone (List.isEmpty_iff.mpr hnil), fun c hc => ?_⟩
    obtain ⟨part, -, rfl⟩ := List.mem_map.mp hc
    exact legal_sanitize part

/-! ## §4  A number is added -/

/-- Names joined to a directory become its components, and the letters that are
put in lower case stay legal. -/
structure Lawful (P : SavePlatform) (directory : String → Prop) : Prop where
  joinAll : ∀ root names, directory root → (∀ name ∈ names, Proper P.rules name.toList) →
    directory (P.paths.joinAll (root :: names)) ∧
      P.paths.split (P.paths.joinAll (root :: names)) = P.paths.split root ++ names
  basename : ∀ names last, (∀ name ∈ names, Proper P.rules name.toList) →
    Proper P.rules last.toList → P.paths.basename ("/".intercalate (names ++ [last])) = last
  lower_chars : ∀ s c, c ∈ (P.toLowerCase s).toList →
    c ∈ s.toList ∨ P.rules.isIllegalChar c = false
  lower_last : ∀ s c, (P.toLowerCase s).toList.getLast? = some c → c = '.' ∨ c = ' ' →
    s.toList.getLast? = some c

theorem splitExtension?_some {name front ext : List Char}
    (h : splitExtension? name = some (front, ext)) : name = front ++ '.' :: ext := by
  unfold splitExtension? at h
  split_ifs at h with hdot
  cases h
  have hmem : '.' ∈ name.reverse := List.mem_reverse.mpr (List.contains_iff_mem.mp hdot)
  have hsplit := List.takeWhile_append_dropWhile (p := (· ≠ '.')) (l := name.reverse)
  cases hrest : name.reverse.dropWhile (· ≠ '.') with
  | nil =>
      rw [hrest, List.append_nil] at hsplit
      rw [← hsplit] at hmem
      exact absurd (List.mem_takeWhile_imp hmem) (by decide)
  | cons c rest =>
      have hc : c = '.' := by
        have hhead := List.head?_dropWhile_not (fun c : Char => decide (c ≠ '.')) name.reverse
        rw [hrest] at hhead
        simpa using hhead
      rw [hrest, hc] at hsplit
      have hreverse := congrArg List.reverse hsplit
      rw [List.reverse_append, List.reverse_cons, List.reverse_reverse, List.append_assoc]
        at hreverse
      exact hreverse.symm

theorem unnumbered?_begins {name before : List Char} (h : unnumbered? name = some before) :
    before <+: name := by
  unfold unnumbered? at h
  split at h
  · rename_i rest hname
    split at h
    · rename_i digit digits space front htake hdrop
      split_ifs at h with hspace
      cases h
      have hrest := List.takeWhile_append_dropWhile (p := Char.isDigit) (l := rest)
      rw [hdrop] at hrest
      generalize rest.takeWhile Char.isDigit = number at hrest
      refine ⟨(')' :: (number ++ ['(', space])).reverse, ?_⟩
      rw [← List.reverse_append, List.reverse_eq_iff, hname, ← hrest]
      simp
    · cases h
  · cases h

/-- A number in parentheses, before an extension. -/
def addNumber (base number ext : List Char) : List Char :=
  base ++ " (".toList ++ number ++ (')' :: if ext = [] then [] else '.' :: ext)

/-- **A number** comes after a beginning of the name, and before what follows
the last dot. -/
theorem withCount_toList (P : SavePlatform) (name : String) (count : ℕ) :
    ∃ base ext : List Char, base <+: name.toList ∧
      (P.withCount name count).toList = addNumber base (toString count).toList ext ∧
      (ext = [] ∨ ∃ front last, name.toList = front ++ '.' :: last ∧
        ext = (P.toLowerCase (.ofList last)).toList) := by
  have hbase : ∀ front : List Char, front <+: name.toList →
      (unnumbered? front).getD front <+: name.toList := by
    intro front hfront
    cases hnumber : unnumbered? front with
    | none => exact hfront
    | some before => exact (unnumbered?_begins hnumber).trans hfront
  unfold withCount
  cases hsplit : splitExtension? name.toList with
  | none =>
      refine ⟨_, [], hbase _ (List.prefix_refl _), ?_, .inl rfl⟩
      simp [withExtension, addNumber]
  | some parts =>
      obtain ⟨front, ext⟩ := parts
      have hname := splitExtension?_some hsplit
      refine ⟨_, (P.toLowerCase (.ofList ext)).toList, hbase front ⟨_, hname.symm⟩, ?_,
        .inr ⟨front, ext, hname, rfl⟩⟩
      simp only [withExtension, addNumber]
      split_ifs with hnone hempty hempty
      · simp
      · exact absurd (by rw [hnone]; rfl) hempty
      · exact absurd (String.toList_inj.mp hempty) hnone
      · simp

theorem withCount_plain (P : SavePlatform) {name : List Char} (count : ℕ)
    (hsplit : splitExtension? name = none) (hnumber : unnumbered? name = none) :
    (P.withCount (.ofList name) count).toList = addNumber name (toString count).toList [] := by
  unfold withCount
  rw [String.toList_ofList]
  simp [hsplit, hnumber, withExtension, addNumber]

theorem legal_of_isDigit {rules : Rules} {c : Char} (h : c.isDigit = true) :
    rules.isIllegalChar c = false := by
  have hall : ∀ rules : Rules, ∀ n < 10, rules.isIllegalChar (Char.ofNat (n + 48)) = false := by
    intro rules
    cases rules <;> decide
  simp only [Char.isDigit, Bool.and_eq_true, decide_eq_true_eq] at h
  have hlow : 48 ≤ c.toNat := h.1
  have hhigh : c.toNat ≤ 57 := h.2
  have hdigit := hall rules (c.toNat - 48) (by omega)
  rwa [Nat.sub_add_cancel hlow, Char.ofNat_toNat] at hdigit

section Number

variable {base number ext : List Char}

theorem isRelative_addNumber : isRelative (addNumber base number ext) = false := by
  have hparen : ')' ∈ addNumber base number ext := List.mem_append_right _ List.mem_cons_self
  refine Bool.eq_false_iff.mpr fun hrelative => ?_
  rcases (Bool.or_eq_true ..).mp hrelative with hdot | hdot
  · rw [of_decide_eq_true hdot] at hparen
    exact absurd hparen (by decide)
  · rw [of_decide_eq_true hdot] at hparen
    exact absurd hparen (by decide)

theorem getLast?_addNumber :
    (addNumber base number ext).getLast? = if ext = [] then some ')' else ext.getLast? := by
  unfold addNumber
  rw [List.getLast?_append_of_ne_nil _ (List.cons_ne_nil _ _)]
  split_ifs with hnone
  · rfl
  · rw [List.getLast?_cons_of_ne_nil (List.cons_ne_nil _ _), List.getLast?_cons_of_ne_nil hnone]

theorem mem_addNumber {c : Char} (hc : c ∈ addNumber base number ext) :
    c ∈ base ∨ c ∈ number ∨ c ∈ ext ∨ c ∈ [' ', '(', ')', '.'] := by
  unfold addNumber at hc
  rw [List.append_assoc, List.append_assoc, List.mem_append, List.mem_append, List.mem_append,
    List.mem_cons] at hc
  obtain hc | hc | hc | rfl | hc := hc
  · exact .inl hc
  · exact .inr (.inr (.inr ((by decide : " (".toList ⊆ [' ', '(', ')', '.']) hc)))
  · exact .inr (.inl hc)
  · exact .inr (.inr (.inr (by decide)))
  · split_ifs at hc
    · cases hc
    · rcases List.mem_cons.mp hc with rfl | hc
      · exact .inr (.inr (.inr (by decide)))
      · exact .inr (.inr (.inl hc))

/-- The part before the first dot is that of the name, or ends in the number. -/
theorem reservedPrefix_addNumber {name : List Char} (hbase : base <+: name)
    (hnumber : '.' ∉ number) (hname : reservedPrefix name = none) :
    reservedPrefix (addNumber base number ext) = none := by
  unfold addNumber
  by_cases hdot : '.' ∈ base
  · obtain ⟨rest, rfl⟩ := hbase
    rw [← hname]
    refine reservedPrefix_congr ?_
    rw [List.append_assoc, List.append_assoc, takeWhile_append_of_dot hdot,
      takeWhile_append_of_dot hdot]
  · refine reservedPrefix_eq_none fun reserved hmem => Bool.eq_false_iff.mpr fun hsame => ?_
    have hstem : (base ++ " (".toList ++ number ++
        (')' :: if ext = [] then [] else '.' :: ext)).takeWhile (· ≠ '.') =
          base ++ " (".toList ++ number ++ [')'] := by
      have hfront : ∀ c ∈ base ++ " (".toList ++ number ++ [')'], decide (c ≠ '.') = true := by
        intro c hc
        refine decide_eq_true ?_
        rintro rfl
        rw [List.append_assoc, List.append_assoc, List.mem_append, List.mem_append,
          List.mem_append] at hc
        obtain hc | hc | hc | hc := hc
        · exact hdot hc
        · exact absurd hc (by decide)
        · exact hnumber hc
        · exact absurd hc (by decide)
      have hsplit : base ++ " (".toList ++ number ++ (')' :: if ext = [] then [] else '.' :: ext) =
          (base ++ " (".toList ++ number ++ [')']) ++ if ext = [] then [] else '.' :: ext := by
        rw [List.append_assoc _ [')']]
        rfl
      rw [hsplit, List.takeWhile_append_of_pos hfront]
      split_ifs
      · rw [List.takeWhile_nil, List.append_nil]
      · rw [List.takeWhile_cons_of_neg (by decide), List.append_nil]
    rw [hstem] at hsame
    exact (reserved_short hmem hsame).2.2 ')' (by decide) List.getLast?_concat

end Number

/-- **A numbered name** is as legal as the name was, but for its length. -/
theorem proper_withCount {directory : String → Prop} (hP : P.Lawful directory) {name : String}
    (count : ℕ) (h : Proper P.rules name.toList) :
    Proper P.rules (P.withCount name count).toList := by
  obtain ⟨base, ext, hbase, hcount, hext⟩ := withCount_toList P name count
  have hdigits : ∀ c ∈ (toString count).toList, c.isDigit = true := fun c hc =>
    Texts.isDigit_of_mem_toString hc
  rw [hcount]
  generalize (toString count).toList = number at hdigits
  refine ⟨by simp [addNumber], isRelative_addNumber, ?_, fun hlike => ?_, fun hlike => ?_⟩
  · have hlegal : [' ', '(', ')', '.'].all (fun c => !P.rules.isIllegalChar c) = true := by
      cases P.rules <;> decide
    have hfixed : ∀ c ∈ [' ', '(', ')', '.'], P.rules.isIllegalChar c = false := fun c hc =>
      (Bool.not_eq_true' _).mp (List.all_eq_true.mp hlegal c hc)
    intro c hc
    obtain hc | hc | hc | hc := mem_addNumber hc
    · exact h.chars c (hbase.subset hc)
    · exact legal_of_isDigit (hdigits c hc)
    · rcases hext with rfl | ⟨front, last, hname, rfl⟩
      · cases hc
      · refine (hP.lower_chars _ c hc).elim (fun hc => h.chars c ?_) id
        rw [String.toList_ofList] at hc
        rw [hname]
        exact List.mem_append_right _ (List.mem_cons_of_mem _ hc)
    · exact hfixed c hc
  · -- it ends in a parenthesis, or the way the name does
    have hends : ∀ c, c = '.' ∨ c = ' ' → (addNumber base number ext).getLast? = some c →
        name.toList.getLast? = some c := by
      intro c hc hlast
      rw [getLast?_addNumber] at hlast
      split_ifs at hlast with hnone
      · cases hlast
        exact absurd hc (by decide)
      · rcases hext with rfl | ⟨front, last, hname, rfl⟩
        · exact absurd rfl hnone
        · have hsame := hP.lower_last _ c hlast hc
          rw [String.toList_ofList] at hsame
          have hne : last ≠ [] := by
            rintro rfl
            cases hsame
          rw [hname, List.getLast?_append_of_ne_nil _ (List.cons_ne_nil _ _),
            List.getLast?_cons_of_ne_nil hne, hsame]
    exact ⟨fun hlast => (h.tidy hlike).1 (hends _ (.inl rfl) hlast),
      fun hlast => (h.tidy hlike).2 (hends _ (.inr rfl) hlast)⟩
  · refine reservedPrefix_addNumber hbase (fun hdot => ?_) (h.not_reserved hlike)
    exact absurd (hdigits _ hdot) (by decide)

/-! ## §5  The path of a file -/

/-- The path leads below the directory, through legal names only. -/
def Inside (P : SavePlatform) (directory path : String) : Prop :=
  ∃ names, names ≠ [] ∧ P.paths.split path = P.paths.split directory ++ names ∧
    ∀ name ∈ names, P.Legal name ∧ name ≠ "" ∧ name ≠ "." ∧ name ≠ ".."

/-- The name that is tried after others were taken. -/
def numbered (P : SavePlatform) (name : String) : ℕ → String
  | 0 => name
  | i + 1 => P.withCount name (i + 2)

theorem candidate_eq (dir name : String) (i : ℕ) :
    P.digestFilePath.candidate dir name i = P.paths.joinAll [dir, P.numbered name i] := by
  cases i <;> rfl

/-- **Where a file goes**, in terms of the components of its name. -/
theorem digestFilePath_start {parent fileName : String} {choice : Choice}
    (h : P.digestFilePath.start parent fileName = .ok choice) :
    ∃ names last, (∀ name ∈ names ++ [last], P.Legal name) ∧
      (choice = .document (P.convertTreeUriToDocumentUri parent
          (if contains ("/".intercalate (names ++ [last])) '/' then
            some (parentPath ("/".intercalate (names ++ [last]))) else none))
          (P.paths.basename ("/".intercalate (names ++ [last]))) ∨
        choice = .probe (P.onTheWay (P.paths.joinAll (parent :: names)))
          (P.paths.joinAll (parent :: names)) last) := by
  unfold digestFilePath at h
  simp only at h
  cases hnames : P.sanitizeRelativeName fileName with
  | error e =>
      rw [hnames] at h
      cases h
  | ok components =>
      rw [hnames] at h
      obtain ⟨hne, hlegal⟩ := sanitizeRelativeName_legal hnames
      obtain ⟨names, last, rfl⟩ : ∃ names last, components = names ++ [last] :=
        ⟨_, _, (List.dropLast_append_getLast hne).symm⟩
      refine ⟨names, last, hlegal, ?_⟩
      change (if _ then _ else if _ then _ else _) = _ at h
      rw [List.dropLast_concat, List.getLast?_concat] at h
      by_cases hdocument : "content://".toList.isPrefixOf parent.toList = true
      · rw [if_pos hdocument] at h
        cases h
        exact .inl rfl
      · rw [if_neg hdocument] at h
        split_ifs at h with hescape
        cases h
        exact .inr rfl

/-- **A file** goes below the directory exactly if its name has room for the
number that is added. -/
theorem inside_candidate_iff {directory : String → Prop} (hP : P.Lawful directory)
    {parent last : String} {names : List String} (hparent : directory parent)
    (hlegal : ∀ name ∈ names ++ [last], P.Legal name) (i : ℕ) :
    P.Inside parent (P.digestFilePath.candidate (P.paths.joinAll (parent :: names)) last i) ↔
      i = 0 ∨ (P.withCount last (i + 1)).utf8ByteSize ≤ maxLen := by
  have hproper : Proper P.rules (P.numbered last i).toList := by
    have hlast := (hlegal last (List.mem_append_right _ (List.mem_singleton_self _))).proper
    cases i with
    | zero => exact hlast
    | succ i => exact proper_withCount hP _ hlast
  have hnumbered : P.Legal (P.numbered last i) ↔
      i = 0 ∨ (P.withCount last (i + 1)).utf8ByteSize ≤ maxLen := by
    cases i with
    | zero =>
        have hlast := hlegal last (List.mem_append_right _ (List.mem_singleton_self _))
        exact iff_of_true hlast (.inl rfl)
    | succ i =>
        rw [legal_iff]
        exact ⟨fun h => .inr h.2, fun h => ⟨hproper, h.resolve_left (Nat.succ_ne_zero i)⟩⟩
  have hsplit : P.paths.split
      (P.digestFilePath.candidate (P.paths.joinAll (parent :: names)) last i) =
        P.paths.split parent ++ (names ++ [P.numbered last i]) := by
    obtain ⟨hdir, hnames⟩ := hP.joinAll parent names hparent fun name hname =>
      (hlegal name (List.mem_append_left _ hname)).proper
    obtain ⟨-, hfile⟩ := hP.joinAll _ [P.numbered last i] hdir fun name hname => by
      rw [List.mem_singleton.mp hname]
      exact hproper
    rw [candidate_eq, hfile, hnames, List.append_assoc]
  rw [← hnumbered]
  constructor
  · rintro ⟨below, -, hbelow, hall⟩
    rw [hsplit, List.append_cancel_left_eq] at hbelow
    exact (hall _ (hbelow ▸ List.mem_append_right _ (List.mem_singleton_self _))).1
  · intro hlast
    refine ⟨_, List.append_ne_nil_of_right_ne_nil _ (List.cons_ne_nil _ _), hsplit, ?_⟩
    intro name hname
    have hname : P.Legal name := by
      rcases List.mem_append.mp hname with hname | hname
      · exact hlegal name (List.mem_append_left _ hname)
      · rw [List.mem_singleton.mp hname]
        exact hlast
    exact ⟨hname, hname.ne⟩

/-- **The name of a sender** is refused, or leads below the destination through
legal names, unless the number that is added makes the last one too long. -/
theorem received_inside_iff (P : SavePlatform) {directory : String → Prop}
    (hP : P.Lawful directory) (parent fileName : String) :
    match P.digestFilePath.start parent fileName with
    | .error _ => True
    | .ok (.document uri last) =>
        ∃ names, (∀ name ∈ names ++ [last], P.Legal name ∧ name ≠ "" ∧ name ≠ "." ∧ name ≠ "..") ∧
          uri = P.convertTreeUriToDocumentUri parent
            (if contains ("/".intercalate (names ++ [last])) '/' then
              some (parentPath ("/".intercalate (names ++ [last]))) else none)
    | .ok (.probe _ dir last) =>
        directory parent → ∀ i, P.Inside parent (P.digestFilePath.candidate dir last i) ↔
          i = 0 ∨ (P.withCount last (i + 1)).utf8ByteSize ≤ maxLen := by
  cases hstart : P.digestFilePath.start parent fileName with
  | error e => exact trivial
  | ok choice =>
      obtain ⟨names, last, hlegal, rfl | rfl⟩ := digestFilePath_start hstart
      · have hbasename := hP.basename names last
          (fun name hname => (hlegal name (List.mem_append_left _ hname)).proper)
          (hlegal last (List.mem_append_right _ (List.mem_singleton_self _))).proper
        simp only [hbasename]
        exact ⟨names, fun name hname => ⟨hlegal name hname, (hlegal name hname).ne⟩, rfl⟩
      · exact fun hparent i => inside_candidate_iff hP hparent hlegal i

end SavePlatform

/-! ## §6  A long name -/

namespace Sample

theorem linux_part {name : String} (h : Filename.Proper linux.rules name.toList) :
    PathContext.Posix.Part name := by
  constructor
  · rintro rfl
    exact h.ne_nil rfl
  · intro hslash
    exact absurd (h.chars '/' hslash) (by decide)

theorem linux_lawful : linux.Lawful fun path => PathContext.Posix.isAbsolute path = true where
  joinAll root names hroot hnames := by
    obtain ⟨habs, hparts⟩ := PathContext.Posix.joinAll_absolute hroot fun name hname =>
      linux_part (hnames name hname)
    refine ⟨habs, ?_⟩
    change PathContext.Posix.split (PathContext.posix.joinAll (root :: names)) =
      PathContext.Posix.split root ++ names
    rw [PathContext.Posix.split, PathContext.Posix.split, if_pos hroot, if_pos habs, hparts]
    rfl
  basename names last hnames hlast := by
    have hparts : PathContext.Posix.parts ("/".intercalate (names ++ [last])) =
        names ++ [last] := by
      refine PathContext.Posix.parts_intercalate fun name hname => ?_
      rcases List.mem_append.mp hname with hname | hname
      · exact linux_part (hnames name hname)
      · rw [List.mem_singleton.mp hname]
        exact linux_part hlast
    change (PathContext.Posix.parts _).getLast?.getD _ = last
    rw [hparts, List.getLast?_concat]
    rfl
  lower_chars _ _ hc := .inl hc
  lower_last _ _ hc _ := hc

/-- A name without room for a number. -/
def longName : String := .ofList (List.replicate 63 '🔥')

end Sample

theorem received_inside_iff_short :
    Sample.linux.Inside "/in" (Sample.linux.digestFilePath.candidate "/in" "a.txt" 1) := by
  have hstart : Sample.linux.digestFilePath.start "/in" "a.txt" =
      .ok (.probe ["/", "/in"] "/in" "a.txt") := by rfl
  have hinside := Sample.linux.received_inside_iff Sample.linux_lawful "/in" "a.txt"
  rw [hstart] at hinside
  exact (hinside rfl 1).mpr (.inr (by decide))

namespace Sample

/-- A name that is legal as it is. -/
theorem linux_start {name : String} (h : linux.Legal name) :
    linux.digestFilePath.start "/in" name = .ok (.probe ["/", "/in"] "/in" name) := by
  have hsame : Filename.sanitize name linux.rules = name := by
    rw [Filename.sanitize, Filename.sanitizeWith_of_isValid h, String.ofList_toList]
  have hpart := linux_part h.proper
  have habsolute : PathContext.Posix.isAbsolute name = false := by
    refine decide_eq_false fun hhead => hpart.2 ?_
    exact List.mem_of_mem_head? hhead
  have hsplit : linux.paths.split name = [name] := by
    change PathContext.Posix.split name = [name]
    rw [PathContext.Posix.split, habsolute, if_neg Bool.false_ne_true]
    exact PathContext.Posix.parts_single hpart
  have hroot : linux.rootPrefix name = "" := by
    change (if PathContext.Posix.isAbsolute name = true then "/" else "") = ""
    rw [habsolute, if_neg Bool.false_ne_true]
  obtain ⟨hempty, hhere, hup⟩ := h.ne
  have hcomponents : linux.sanitizeRelativeName name = .ok [name] := by
    unfold SavePlatform.sanitizeRelativeName
    simp [hsplit, hroot, hsame, hempty, hhere, hup]
  have hdirs : linux.onTheWay "/in" = ["/", "/in"] := by decide
  have hdir : linux.paths.joinAll ["/in"] = "/in" := by decide
  unfold SavePlatform.digestFilePath
  simp [hcomponents, hdirs, hdir, bind, Except.bind]

/-- A second file of a name that has no room for a number. -/
theorem linux_second {name : String} (h : linux.Legal name)
    (hlong : ¬ linux.Legal (linux.withCount name 2)) :
    let first := linux.digestFilePath.candidate "/in" name 0
    let second := linux.digestFilePath.candidate "/in" name 1
    linux.digestFilePath.exists linux ⟨[first], []⟩ first = true ∧
      linux.digestFilePath.exists linux ⟨[first], []⟩ second = false ∧
      ¬ linux.Inside "/in" second := by
  have hsplit : ∀ name, Filename.Proper linux.rules name.toList →
      linux.paths.split (linux.paths.joinAll ["/in", name]) =
        linux.paths.split "/in" ++ [name] := by
    intro name hname
    refine (linux_lawful.joinAll "/in" [name] rfl fun x hx => ?_).2
    rw [List.mem_singleton.mp hx]
    exact hname
  have hfirst := hsplit _ h.proper
  have hsecond := hsplit _ (SavePlatform.proper_withCount linux_lawful 2 h.proper)
  simp only [SavePlatform.candidate_eq, SavePlatform.numbered]
  refine ⟨?_, ?_, ?_⟩
  · exact (Bool.or_eq_true ..).mpr (.inl (decide_eq_true (List.mem_singleton_self _)))
  · refine Bool.or_eq_false_iff.mpr ⟨decide_eq_false fun hsame => hlong ?_, rfl⟩
    have hpaths : linux.paths.joinAll ["/in", linux.withCount name 2] =
        linux.paths.joinAll ["/in", name] := List.mem_singleton.mp hsame
    rw [hpaths, hfirst, List.append_cancel_left_eq, List.singleton_inj] at hsecond
    rw [← hsecond]
    exact h
  · rintro ⟨names, -, hbelow, hall⟩
    rw [hsecond, List.append_cancel_left_eq] at hbelow
    exact hlong (hall _ (hbelow ▸ List.mem_singleton_self _)).1

theorem longName_legal : linux.Legal longName := by
  unfold SavePlatform.Legal longName
  rw [String.toList_ofList]
  decide +kernel

theorem longName_numbered : ¬ linux.Legal (linux.withCount longName 2) := by
  have hsplit : SavePlatform.splitExtension? (List.replicate 63 '🔥') = none := by decide +kernel
  have hnumber : SavePlatform.unnumbered? (List.replicate 63 '🔥') = none := by decide +kernel
  have hcount := linux.withCount_plain 2 hsplit hnumber
  unfold SavePlatform.Legal longName
  rw [hcount]
  decide +kernel

end Sample

/-- A second file with a long name gets a path that no file can have. -/
theorem received_too_long :
    let first := Sample.linux.digestFilePath.candidate "/in" Sample.longName 0
    let second := Sample.linux.digestFilePath.candidate "/in" Sample.longName 1
    Sample.linux.digestFilePath.start "/in" Sample.longName =
        .ok (.probe ["/", "/in"] "/in" Sample.longName) ∧
      Sample.linux.digestFilePath.exists Sample.linux ⟨[first], []⟩ first = true ∧
      Sample.linux.digestFilePath.exists Sample.linux ⟨[first], []⟩ second = false ∧
      ¬ Sample.linux.Inside "/in" second :=
  ⟨Sample.linux_start Sample.longName_legal,
    Sample.linux_second Sample.longName_legal Sample.longName_numbered⟩

end FireBoxTransfer
