import FireBoxTransfer.Files.LegalNames
import Mathlib.Data.List.Perm.Subperm

/-!
# Names that are free

Where a file has the name already, numbers are added to it one after the other until the name
is free. Every number gives a name of the same kind, and one of them is free; but the number
is added after the name was cut to its length, so that there may be no room for it.
-/

namespace FireBoxTransfer

open Filename

/-! ## §1  The search -/

/-- The first number from `i` on that is not taken; the counter ends somewhere. -/
def firstFree (taken : ℕ → Bool) : ℕ → ℕ → Option ℕ
  | 0, _ => none
  | fuel + 1, i => if taken i then firstFree taken fuel (i + 1) else some i

/-- The number that a search ends with. -/
structure FirstFree (taken : ℕ → Bool) (i : ℕ) : Prop where
  free : taken i = false
  before : ∀ j < i, taken j = true

section Search

variable {taken : ℕ → Bool} {fuel i n : ℕ}

theorem FirstFree.unique {j : ℕ} (hi : FirstFree taken i) (hj : FirstFree taken j) : i = j := by
  rcases Nat.lt_trichotomy i j with hlt | heq | hgt
  · exact absurd (hj.before i hlt) (by rw [hi.free]; decide)
  · exact heq
  · exact absurd (hi.before j hgt) (by rw [hj.free]; decide)

theorem FirstFree.of_free (h : taken n = false) : ∃ i ≤ n, FirstFree taken i := by
  induction n using Nat.strong_induction_on with
  | h n ih =>
      by_cases hbefore : ∀ j < n, taken j = true
      · exact ⟨n, le_rfl, h, hbefore⟩
      · push Not at hbefore
        obtain ⟨j, hj, hfree⟩ := hbefore
        obtain ⟨i, hi, hfirst⟩ := ih j hj (Bool.eq_false_iff.mpr hfree)
        exact ⟨i, hi.trans hj.le, hfirst⟩

/-- **The search** finds the first number that is free, if the counter reaches it. -/
theorem firstFree_eq_some (hbefore : ∀ j < i, taken j = true) :
    firstFree taken fuel i = some n ↔ n < i + fuel ∧ FirstFree taken n := by
  induction fuel generalizing i with
  | zero =>
      refine iff_of_false nofun ?_
      rintro ⟨hlt, hfirst⟩
      exact absurd (hbefore n hlt) (by rw [hfirst.free]; decide)
  | succ fuel ih =>
      unfold firstFree
      split_ifs with hi
      · have hnext : ∀ j < i + 1, taken j = true := by
          intro j hj
          rcases Nat.lt_succ_iff_lt_or_eq.mp hj with hj | rfl
          · exact hbefore j hj
          · exact hi
        rw [ih hnext]
        exact and_congr_left fun _ => by omega
      · have hfree := Bool.eq_false_iff.mpr hi
        constructor
        · intro h
          obtain rfl := Option.some.inj h
          exact ⟨by omega, hfree, hbefore⟩
        · rintro ⟨-, hfirst⟩
          exact congrArg some (FirstFree.unique ⟨hfree, hbefore⟩ hfirst)

end Search

namespace SavePlatform

variable {P : SavePlatform}

/-! ## §2  Names of the command line -/

/-- How far the counter of the command line goes. -/
abbrev maxCounter : ℕ := 2 ^ 31

/-- `unique_path`, in a directory with this content. -/
def uniquePathIn (P : SavePlatform) (content : List String) (dir fileName : String) :
    Option String :=
  let name := sanitizePath fileName P.rules
  (firstFree (fun i => content.contains (P.uniqueCandidate dir name i)) maxCounter 0).map
    (P.uniqueCandidate dir name)

/-- The parts before and after the place of the number. -/
def cutExtension (name : List Char) : List Char × List Char :=
  match splitExtension? name with
  | some (stem, ext) => if stem.isEmpty then (name, []) else (stem, '.' :: ext)
  | none => (name, [])

/-- The name that the command line tries after others were taken. -/
def uniqueName (name : String) : ℕ → String
  | 0 => name
  | i + 1 =>
      .ofList ((cutExtension name.toList).1 ++ " (".toList ++ (toString (i + 1)).toList ++
        ")".toList ++ (cutExtension name.toList).2)

theorem uniqueCandidate_eq (dir name : String) (i : ℕ) :
    P.uniqueCandidate dir name i = P.paths.joinAll [dir, uniqueName name i] := by
  cases i with
  | zero => rfl
  | succ i =>
      unfold uniqueCandidate uniqueName cutExtension
      cases splitExtension? name.toList with
      | none => rfl
      | some parts =>
          obtain ⟨stem, ext⟩ := parts
          simp only

/-! ## §3  Their extension -/

theorem splitExtension?_eq_none {name : List Char} (h : '.' ∉ name) :
    splitExtension? name = none := by
  unfold splitExtension?
  rw [if_neg fun hdot => h (List.contains_iff_mem.mp hdot)]

theorem splitExtension?_append {front ext : List Char} (h : '.' ∉ ext) :
    splitExtension? (front ++ '.' :: ext) = some (front, ext) := by
  have hdot : '.' ∈ front ++ '.' :: ext := List.mem_append_right _ List.mem_cons_self
  have hreverse : (front ++ '.' :: ext).reverse = ext.reverse ++ '.' :: front.reverse := by
    rw [List.reverse_append, List.reverse_cons, List.append_assoc]
    rfl
  have hext : ∀ c ∈ ext.reverse, decide (c ≠ '.') = true := by
    intro c hc
    refine decide_eq_true ?_
    rintro rfl
    exact h (List.mem_reverse.mp hc)
  unfold splitExtension?
  rw [if_pos (List.contains_iff_mem.mpr hdot), hreverse, List.dropWhile_append_of_pos hext,
    List.takeWhile_append_of_pos hext, List.dropWhile_cons_of_neg (by decide),
    List.takeWhile_cons_of_neg (by decide), List.append_nil, List.reverse_reverse, List.drop_one,
    List.tail_cons, List.reverse_reverse]

/-- What comes after the last dot has none. -/
theorem exists_last_dot {name : List Char} (h : '.' ∈ name) :
    ∃ front ext, name = front ++ '.' :: ext ∧ '.' ∉ ext := by
  induction name with
  | nil => cases h
  | cons c name ih =>
      by_cases hname : '.' ∈ name
      · obtain ⟨front, ext, hsplit, hext⟩ := ih hname
        exact ⟨c :: front, ext, congrArg (List.cons c) hsplit, hext⟩
      · have hc : c = '.' := ((List.mem_cons.mp h).resolve_right hname).symm
        exact ⟨[], name, congrArg (· :: name) hc, hname⟩

/-- There is no extension, or it begins at the last dot. -/
theorem cutExtension_cases (name : List Char) :
    (cutExtension name = (name, []) ∧ ('.' ∉ name ∨ ∃ ext, name = '.' :: ext ∧ '.' ∉ ext)) ∨
      ∃ stem ext, stem ≠ [] ∧ '.' ∉ ext ∧ name = stem ++ '.' :: ext ∧
        cutExtension name = (stem, '.' :: ext) := by
  unfold cutExtension
  by_cases hdot : '.' ∈ name
  · obtain ⟨front, ext, rfl, hext⟩ := exists_last_dot hdot
    rw [splitExtension?_append hext]
    cases front with
    | nil => exact .inl ⟨rfl, .inr ⟨ext, rfl, hext⟩⟩
    | cons c front => exact .inr ⟨c :: front, ext, List.cons_ne_nil _ _, hext, rfl, rfl⟩
  · rw [splitExtension?_eq_none hdot]
    exact .inl ⟨rfl, .inl hdot⟩

section Number

variable {name number : List Char}

/-- A number in parentheses, before what the name is cut into. -/
def numberedName (name number : List Char) : List Char :=
  (cutExtension name).1 ++ " (".toList ++ number ++ ")".toList ++ (cutExtension name).2

theorem uniqueName_toList (name : String) (i : ℕ) :
    (uniqueName name (i + 1)).toList = numberedName name.toList (toString (i + 1)).toList :=
  String.toList_ofList

/-- **A number** does not change the extension. -/
theorem cutExtension_numberedName (hnumber : '.' ∉ number) :
    (cutExtension (numberedName name number)).2 = (cutExtension name).2 := by
  have hmiddle : '.' ∉ " (".toList ++ number ++ ")".toList := by
    rw [List.mem_append, List.mem_append]
    rintro ((h | h) | h)
    · exact absurd h (by decide)
    · exact hnumber h
    · exact absurd h (by decide)
  unfold numberedName
  rcases cutExtension_cases name with ⟨hcut, hname⟩ | ⟨stem, ext, hstem, hext, -, hcut⟩
  · rw [hcut, List.append_nil, List.append_assoc, List.append_assoc, ← List.append_assoc _ number]
    rcases hname with hname | ⟨ext, rfl, hext⟩
    · unfold cutExtension
      rw [splitExtension?_eq_none]
      exact fun h => (List.mem_append.mp h).elim hname hmiddle
    · have hsplit := @splitExtension?_append [] _
        (fun h => (List.mem_append.mp h).elim hext hmiddle)
      unfold cutExtension
      rw [List.nil_append] at hsplit
      rw [List.cons_append, hsplit]
      rfl
  · rw [hcut]
    unfold cutExtension
    rw [splitExtension?_append hext]
    simp only
    rw [if_neg]
    rw [List.isEmpty_iff]
    exact List.append_ne_nil_of_right_ne_nil _ (List.cons_ne_nil _ _)

theorem mem_numberedName {c : Char} (hc : c ∈ numberedName name number) :
    c ∈ name ∨ c ∈ number ∨ c ∈ [' ', '(', ')'] := by
  have hcut : ∀ c, c ∈ (cutExtension name).1 ∨ c ∈ (cutExtension name).2 → c ∈ name := by
    intro c hc
    rcases cutExtension_cases name with ⟨hcut, -⟩ | ⟨stem, ext, -, -, hname, hcut⟩
    · rw [hcut] at hc
      exact hc.elim id nofun
    · rw [hcut] at hc
      rw [hname]
      exact List.mem_append.mpr hc
  unfold numberedName at hc
  rw [List.mem_append, List.mem_append, List.mem_append, List.mem_append] at hc
  obtain (((hc | hc) | hc) | hc) | hc := hc
  · exact .inl (hcut c (.inl hc))
  · exact .inr (.inr ((by decide : " (".toList ⊆ [' ', '(', ')']) hc))
  · exact .inr (.inl hc)
  · exact .inr (.inr ((by decide : ")".toList ⊆ [' ', '(', ')']) hc))
  · exact .inl (hcut c (.inr hc))

/-- It is as long as the name, the number, a blank and two parentheses. -/
theorem byteLength_numberedName :
    byteLength (numberedName name number) = byteLength name + 3 + byteLength number := by
  have hcut : byteLength (cutExtension name).1 + byteLength (cutExtension name).2 =
      byteLength name := by
    rcases cutExtension_cases name with ⟨hcut, -⟩ | ⟨stem, ext, -, -, hname, hcut⟩
    · rw [hcut]
      rfl
    · rw [hcut]
      conv_rhs => rw [hname]
      exact (byteLength_append _ _).symm
  have hopen : byteLength " (".toList = 2 := rfl
  have hclose : byteLength ")".toList = 1 := rfl
  unfold numberedName
  rw [byteLength_append, byteLength_append, byteLength_append, byteLength_append]
  omega

/-- **A numbered name** is as legal as the name was, but for its length. -/
theorem proper_numberedName {rules : Rules} (h : Proper rules name)
    (hdigits : ∀ c ∈ number, c.isDigit = true) : Proper rules (numberedName name number) := by
  have hdot : '.' ∉ number := fun hmem => absurd (hdigits _ hmem) (by decide)
  have hparen : ')' ∈ numberedName name number := by
    unfold numberedName
    exact List.mem_append_left _ (List.mem_append_right _ (by decide))
  refine ⟨List.ne_nil_of_mem hparen, Bool.eq_false_iff.mpr fun hrelative => ?_, fun c hc => ?_,
    fun hlike => ?_, fun hlike => ?_⟩
  · rcases (Bool.or_eq_true ..).mp hrelative with hdots | hdots
    · rw [of_decide_eq_true hdots] at hparen
      exact absurd hparen (by decide)
    · rw [of_decide_eq_true hdots] at hparen
      exact absurd hparen (by decide)
  · have hlegal : [' ', '(', ')'].all (fun c => !rules.isIllegalChar c) = true := by
      cases rules <;> decide
    rcases mem_numberedName hc with hc | hc | hc
    · exact h.chars c hc
    · exact legal_of_isDigit (hdigits c hc)
    · exact (Bool.not_eq_true' _).mp (List.all_eq_true.mp hlegal c hc)
  · -- it ends in a parenthesis, or the way the name does
    have hlast : (numberedName name number).getLast? = some ')' ∨
        (numberedName name number).getLast? = name.getLast? := by
      unfold numberedName
      rcases cutExtension_cases name with ⟨hcut, -⟩ | ⟨stem, ext, -, -, hname, hcut⟩
      · rw [hcut, List.append_nil]
        exact .inl List.getLast?_concat
      · rw [hcut, List.getLast?_append_of_ne_nil _ (List.cons_ne_nil _ _)]
        right
        conv_rhs => rw [hname]
        exact (List.getLast?_append_of_ne_nil _ (List.cons_ne_nil _ _)).symm
    rcases hlast with hlast | hlast
    · unfold Filename.Tidy
      rw [hlast]
      exact ⟨by decide, by decide⟩
    · unfold Filename.Tidy
      rw [hlast]
      exact h.tidy hlike
  · have hnone := h.not_reserved hlike
    rcases cutExtension_cases name with ⟨hcut, -⟩ | ⟨stem, ext, -, -, hname, hcut⟩
    · have hsame : numberedName name number = addNumber name number [] := by
        unfold numberedName
        rw [hcut, List.append_nil]
        rfl
      rw [hsame]
      exact reservedPrefix_addNumber (List.prefix_refl _) hdot hnone
    · -- a name that ends in a dot is none
      have hne : ext ≠ [] := by
        rintro rfl
        refine (h.tidy hlike).1 ?_
        rw [hname]
        exact List.getLast?_concat
      have hsame : numberedName name number = addNumber stem number ext := by
        unfold numberedName addNumber
        rw [hcut, if_neg hne, List.append_assoc _ ")".toList]
        rfl
      rw [hsame]
      exact reservedPrefix_addNumber ⟨_, hname.symm⟩ hdot hnone

end Number

/-! ## §4  Room for a number -/

/-- The parts before and after the number that the application adds. -/
def countParts (P : SavePlatform) (name : String) : List Char × List Char :=
  let (fileName, ext) := match splitExtension? name.toList with
    | some (fileName, ext) => (fileName, (P.toLowerCase (.ofList ext)).toList)
    | none => (name.toList, [])
  ((unnumbered? fileName).getD fileName, ext)

/-- The parts of a name, the number and what stands between them fit into a name. -/
def HasRoom (P : SavePlatform) (name : String) (count : ℕ) : Prop :=
  byteLength (P.countParts name).1 + 3 + byteLength (toString count).toList +
    (if (P.countParts name).2 = [] then 0 else 1 + byteLength (P.countParts name).2) ≤ maxLen

theorem withCount_eq (name : String) (count : ℕ) : (P.withCount name count).toList =
    addNumber (P.countParts name).1 (toString count).toList (P.countParts name).2 := by
  unfold withCount countParts
  cases splitExtension? name.toList with
  | none => simp [withExtension, addNumber]
  | some parts =>
      simp only [withExtension, addNumber]
      split_ifs with hnone hempty hempty
      · simp
      · exact absurd (by rw [hnone]; rfl) hempty
      · exact absurd (String.toList_inj.mp hempty) hnone
      · simp

theorem byteLength_addNumber (base number ext : List Char) :
    byteLength (addNumber base number ext) = byteLength base + 3 + byteLength number +
      (if ext = [] then 0 else 1 + byteLength ext) := by
  have hopen : byteLength " (".toList = 2 := rfl
  have hclose : byteLength [')'] = 1 := rfl
  have hdot : byteLength ('.' :: ext) = 1 + byteLength ext := rfl
  have hcons : ∀ rest, byteLength (')' :: rest) = 1 + byteLength rest := fun _ => rfl
  unfold addNumber
  rw [byteLength_append, byteLength_append, byteLength_append, hcons]
  split_ifs
  · have hnil : byteLength [] = 0 := rfl
    omega
  · omega

/-- **A number** keeps a name legal exactly if there is room for it. -/
theorem legal_withCount_iff {directory : String → Prop} (hP : P.Lawful directory) {name : String}
    (hname : P.Legal name) (count : ℕ) :
    P.Legal (P.withCount name count) ↔ P.HasRoom name count := by
  have hbytes : byteLength (P.withCount name count).toList ≤ maxLen ↔ P.HasRoom name count := by
    rw [withCount_eq, byteLength_addNumber]
    rfl
  unfold Legal
  rw [isValid_iff, hbytes]
  exact and_iff_right (proper_withCount hP count hname.proper)

/-! ## §5  A free number -/

theorem byteLength_toString (n : ℕ) :
    byteLength (toString n).toList = (Nat.toDigits 10 n).length := by
  have hones : (toString n).toList.map Char.utf8Size =
      List.replicate (toString n).toList.length 1 := by
    refine List.eq_replicate_iff.mpr ⟨List.length_map _, fun k hk => ?_⟩
    obtain ⟨c, hc, rfl⟩ := List.mem_map.mp hk
    exact Texts.utf8Size_of_isDigit (Texts.isDigit_of_mem_toString hc)
  unfold byteLength
  rw [hones, List.sum_replicate_nat, Nat.mul_one, Texts.toList_toString]

/-- A power of ten has one digit more than the one before. -/
theorem byteLength_pow (k : ℕ) : byteLength (toString (10 ^ k)).toList = k + 1 := by
  have hlt : 10 ^ k < 10 ^ (k + 1) := Nat.pow_lt_pow_right (by decide) (Nat.lt_succ_self k)
  have hle : (Nat.toDigits 10 (10 ^ k)).length ≤ k + 1 :=
    (Nat.length_toDigits_le_iff (by decide) (Nat.succ_pos k)).mpr hlt
  rw [byteLength_toString]
  refine le_antisymm hle ?_
  cases k with
  | zero => decide
  | succ k =>
      by_contra hshort
      have hshort : (Nat.toDigits 10 (10 ^ (k + 1))).length ≤ k + 1 := by omega
      have := (Nat.length_toDigits_le_iff (by decide) (Nat.succ_pos k)).mp hshort
      omega

/-- Among more names than there are files, one is free. -/
theorem exists_firstFree {content : List String} {candidate : ℕ → String} {number : ℕ → ℕ}
    (hne : Function.Injective fun k => candidate (number k)) :
    ∃ i, FirstFree (fun i => content.contains (candidate i)) i := by
  by_contra hnone
  have htaken : ∀ i, candidate i ∈ content := by
    intro i
    by_contra hfree
    have hcontains : content.contains (candidate i) = false :=
      Bool.eq_false_iff.mpr fun h => hfree (List.contains_iff_mem.mp h)
    obtain ⟨j, -, hj⟩ := @FirstFree.of_free (fun i => content.contains (candidate i)) i hcontains
    exact hnone ⟨j, hj⟩
  have hnodup : ((List.range (content.length + 1)).map fun k => candidate (number k)).Nodup :=
    List.nodup_range.map hne
  have hsubset :
      ((List.range (content.length + 1)).map fun k => candidate (number k)) ⊆ content := by
    intro c hc
    obtain ⟨k, -, rfl⟩ := List.mem_map.mp hc
    exact htaken _
  have hlength := (hnodup.subperm hsubset).length_le
  rw [List.length_map, List.length_range] at hlength
  omega

/-! ## §6  Every directory -/

theorem toString_digits (n : ℕ) : ∀ c ∈ (toString n).toList, c.isDigit = true :=
  fun _ hc => Texts.isDigit_of_mem_toString hc

theorem proper_uniqueName {name : String} (h : Proper P.rules name.toList) (i : ℕ) :
    Proper P.rules (uniqueName name i).toList := by
  cases i with
  | zero => exact h
  | succ i =>
      rw [uniqueName_toList]
      exact proper_numberedName h (toString_digits (i + 1))

theorem legal_uniqueName_iff {name : String} (h : P.Legal name) (i : ℕ) :
    P.Legal (uniqueName name i) ↔
      i = 0 ∨ byteLength name.toList + 3 + byteLength (toString i).toList ≤ maxLen := by
  cases i with
  | zero => exact iff_of_true h (.inl rfl)
  | succ i =>
      unfold Legal
      rw [isValid_iff, and_iff_right (proper_uniqueName h.proper (i + 1)), uniqueName_toList,
        byteLength_numberedName]
      exact ⟨.inr, fun hroom => hroom.resolve_left (Nat.succ_ne_zero i)⟩

theorem legal_sanitizePath (fileName : String) : P.Legal (sanitizePath fileName P.rules) :=
  legal_sanitize _

section Numbered

variable {directory : String → Prop} {last : String}

theorem proper_numbered (hP : P.Lawful directory) (hlast : P.Legal last) (i : ℕ) :
    Proper P.rules (P.numbered last i).toList := by
  cases i with
  | zero => exact hlast.proper
  | succ i => exact proper_withCount hP _ hlast.proper

theorem legal_numbered_iff (hP : P.Lawful directory) (hlast : P.Legal last) (i : ℕ) :
    P.Legal (P.numbered last i) ↔ i = 0 ∨ P.HasRoom last (i + 1) := by
  cases i with
  | zero => exact iff_of_true hlast (.inl rfl)
  | succ i =>
      exact (legal_withCount_iff hP hlast (i + 2)).trans
        ⟨.inr, fun hroom => hroom.resolve_left (Nat.succ_ne_zero i)⟩

end Numbered

section Directories

variable {directory : String → Prop} (hP : P.Lawful directory) {dir : String}
  (hdir : directory dir)

include hP hdir

theorem split_uniqueCandidate {name : String} (h : P.Legal name) (i : ℕ) :
    P.paths.split (P.uniqueCandidate dir name i) = P.paths.split dir ++ [uniqueName name i] := by
  rw [uniqueCandidate_eq]
  refine (hP.joinAll dir [uniqueName name i] hdir fun n hn => ?_).2
  obtain rfl := List.mem_singleton.mp hn
  exact proper_uniqueName h.proper i

/-- **The command line** gets a free and legal name of the same kind exactly if there is room
for the number that it comes to. -/
theorem uniquePathIn_fresh_iff (content : List String) (fileName : String) :
    (∃ path name, P.uniquePathIn content dir fileName = some path ∧ path ∉ content ∧
      P.paths.split path = P.paths.split dir ++ [name] ∧ P.Legal name ∧
      (cutExtension name.toList).2 = (cutExtension (sanitizePath fileName P.rules).toList).2) ↔
    ∃ i < maxCounter, FirstFree (fun i => content.contains
        (P.uniqueCandidate dir (sanitizePath fileName P.rules) i)) i ∧
      (i = 0 ∨ byteLength (sanitizePath fileName P.rules).toList + 3 +
        byteLength (toString i).toList ≤ maxLen) := by
  have hlegal : P.Legal (sanitizePath fileName P.rules) := legal_sanitizePath fileName
  have hfound : ∀ i, firstFree (fun i => content.contains
      (P.uniqueCandidate dir (sanitizePath fileName P.rules) i)) maxCounter 0 = some i ↔
      i < maxCounter ∧ FirstFree (fun i => content.contains
        (P.uniqueCandidate dir (sanitizePath fileName P.rules) i)) i := by
    intro i
    rw [firstFree_eq_some fun j hj => absurd hj (Nat.not_lt_zero j), Nat.zero_add]
  unfold uniquePathIn
  simp only
  generalize sanitizePath fileName P.rules = name at hlegal hfound
  constructor
  · rintro ⟨path, child, hpath, -, hchild, hchildLegal, -⟩
    obtain ⟨i, hi, rfl⟩ := Option.map_eq_some_iff.mp hpath
    obtain ⟨hlt, hfirst⟩ := (hfound i).mp hi
    rw [split_uniqueCandidate hP hdir hlegal, List.append_cancel_left_eq, List.singleton_inj]
      at hchild
    rw [← hchild] at hchildLegal
    exact ⟨i, hlt, hfirst, (legal_uniqueName_iff hlegal i).mp hchildLegal⟩
  · rintro ⟨i, hlt, hfirst, hroom⟩
    refine ⟨_, uniqueName name i, Option.map_eq_some_iff.mpr ⟨i, (hfound i).mpr ⟨hlt, hfirst⟩, rfl⟩,
      fun hmem => ?_, split_uniqueCandidate hP hdir hlegal i,
      (legal_uniqueName_iff hlegal i).mpr hroom, ?_⟩
    · have hfree := hfirst.free
      rw [List.contains_iff_mem.mpr hmem] at hfree
      cases hfree
    · cases i with
      | zero => rfl
      | succ i =>
          rw [uniqueName_toList]
          exact cutExtension_numberedName fun hdot => absurd (toString_digits _ _ hdot) (by decide)

theorem split_numbered {last : String} (hlast : P.Legal last) (i : ℕ) :
    P.paths.split (P.digestFilePath.candidate dir last i) =
      P.paths.split dir ++ [P.numbered last i] := by
  rw [candidate_eq]
  refine (hP.joinAll dir [P.numbered last i] hdir fun n hn => ?_).2
  obtain rfl := List.mem_singleton.mp hn
  exact proper_numbered hP hlast i

/-- The application comes to a free name. -/
theorem exists_free_numbered {last : String} (hlast : P.Legal last) (content : List String) :
    ∃ i, FirstFree (fun i => content.contains (P.digestFilePath.candidate dir last i)) i := by
  refine @exists_firstFree _ _ (fun k => 10 ^ (k + 1) - 1) fun k k' hsame => ?_
  have hlength : ∀ k, byteLength (P.numbered last (10 ^ (k + 1) - 1)).toList =
      byteLength (P.countParts last).1 + 3 + (k + 2) +
        (if (P.countParts last).2 = [] then 0 else 1 + byteLength (P.countParts last).2) := by
    intro k
    have hten : 1 < 10 ^ (k + 1) := Nat.one_lt_pow (Nat.succ_ne_zero k) (by decide)
    obtain ⟨i, hi⟩ : ∃ i, 10 ^ (k + 1) = i + 2 := ⟨_, (Nat.sub_add_cancel hten).symm⟩
    have hnumber : P.numbered last (10 ^ (k + 1) - 1) = P.withCount last (10 ^ (k + 1)) := by
      rw [hi]
      rfl
    rw [hnumber, withCount_eq, byteLength_addNumber, byteLength_pow]
  have hnames := congrArg P.paths.split hsame
  simp only [split_numbered hP hdir hlast] at hnames
  rw [List.append_cancel_left_eq, List.singleton_inj] at hnames
  have hbytes := congrArg (fun n : String => byteLength n.toList) hnames
  simp only [hlength] at hbytes
  omega

end Directories

/-- **A name** that is taken gets a number: what comes of it is free and legal exactly if there
is room for the number, for the command line as for the application. -/
theorem fresh_names_iff (P : SavePlatform) {directory : String → Prop} (hP : P.Lawful directory)
    {dir : String} (hdir : directory dir) (content : List String) (fileName : String) :
    ((∃ path name, P.uniquePathIn content dir fileName = some path ∧ path ∉ content ∧
        P.paths.split path = P.paths.split dir ++ [name] ∧ P.Legal name ∧
        (cutExtension name.toList).2 =
          (cutExtension (sanitizePath fileName P.rules).toList).2) ↔
      ∃ i < maxCounter, FirstFree (fun i => content.contains
          (P.uniqueCandidate dir (sanitizePath fileName P.rules) i)) i ∧
        (i = 0 ∨ byteLength (sanitizePath fileName P.rules).toList + 3 +
          byteLength (toString i).toList ≤ maxLen)) ∧
      ∀ last, P.Legal last →
        (∀ count, P.Legal (P.withCount last count) ↔ P.HasRoom last count) ∧
          ∃ i, FirstFree (fun i => content.contains (P.digestFilePath.candidate dir last i)) i ∧
            P.paths.split (P.digestFilePath.candidate dir last i) =
              P.paths.split dir ++ [P.numbered last i] ∧
            (P.Legal (P.numbered last i) ↔ i = 0 ∨ P.HasRoom last (i + 1)) := by
  refine ⟨uniquePathIn_fresh_iff hP hdir content fileName, fun last hlast => ?_⟩
  obtain ⟨i, hi⟩ := exists_free_numbered hP hdir hlast content
  exact ⟨legal_withCount_iff hP hlast, i, hi, split_numbered hP hdir hlast i,
    legal_numbered_iff hP hlast i⟩

end SavePlatform

open SavePlatform

/-- A second `a.txt` becomes `a (1).txt`. -/
theorem fresh_names_second : ∃ path name,
    Sample.linux.uniquePathIn ["/in/a.txt"] "/in" "a.txt" = some path ∧ path ∉ ["/in/a.txt"] ∧
      Sample.linux.paths.split path = Sample.linux.paths.split "/in" ++ [name] ∧
      Sample.linux.Legal name ∧
      (cutExtension name.toList).2 =
        (cutExtension (sanitizePath "a.txt" Sample.linux.rules).toList).2 := by
  refine (fresh_names_iff Sample.linux Sample.linux_lawful rfl ["/in/a.txt"] "a.txt").1.mpr
    ⟨1, by decide, ⟨by decide, fun j hj => ?_⟩, .inr (by decide)⟩
  obtain rfl := Nat.lt_one_iff.mp hj
  decide

/-! ## §7  A name without room -/

namespace Sample

theorem sanitizePath_longName : sanitizePath longName linux.rules = longName := by
  have hslash : (List.replicate 63 '🔥').splitOn '/' = [List.replicate 63 '🔥'] := by
    decide +kernel
  have hbackslash : (List.replicate 63 '🔥').splitOn '\\' = [List.replicate 63 '🔥'] := by
    decide +kernel
  have hname : (!(List.replicate 63 '🔥').isEmpty &&
      !isRelative (List.replicate 63 '🔥')) = true := by
    decide +kernel
  have hfind : ([List.replicate 63 '🔥'].reverse.find? fun segment =>
      !segment.isEmpty && !isRelative segment) = some (List.replicate 63 '🔥') := by
    rw [List.reverse_singleton, List.find?_singleton, hname]
    rfl
  have hlast : sanitizePath longName linux.rules = sanitize longName linux.rules := by
    unfold sanitizePath longName
    simp only [String.toList_ofList, hslash, List.flatMap_singleton, hbackslash, hfind,
      Option.getD_some]
  rw [hlast, sanitize, sanitizeWith_of_isValid longName_legal, String.ofList_toList]

theorem byteLength_longName : byteLength longName.toList = 252 := by
  unfold longName
  rw [String.toList_ofList]
  decide +kernel

end Sample

/-- The number makes the name of a second file longer than any file can have. -/
theorem second_name_too_long : ¬ ∃ path name,
    Sample.linux.uniquePathIn [Sample.linux.uniqueCandidate "/in" Sample.longName 0] "/in"
        Sample.longName = some path ∧
      path ∉ [Sample.linux.uniqueCandidate "/in" Sample.longName 0] ∧
      Sample.linux.paths.split path = Sample.linux.paths.split "/in" ++ [name] ∧
      Sample.linux.Legal name ∧
      (cutExtension name.toList).2 =
        (cutExtension (sanitizePath Sample.longName Sample.linux.rules).toList).2 := by
  rw [uniquePathIn_fresh_iff Sample.linux_lawful rfl, Sample.sanitizePath_longName,
    Sample.byteLength_longName]
  rintro ⟨i, -, hfirst, hroom⟩
  rcases hroom with rfl | hroom
  · exact absurd hfirst.free (by simp)
  · have hdigit : 0 < byteLength (toString i).toList := by
      rw [byteLength_toString]
      exact Nat.length_toDigits_pos
    unfold maxLen at hroom
    omega

end FireBoxTransfer
