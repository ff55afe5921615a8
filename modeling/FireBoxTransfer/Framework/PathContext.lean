import Mathlib.Algebra.GroupWithZero.Nat
import Mathlib.Data.List.Basic
import Mathlib.Data.List.Infix

/-!
# Path contexts

The operations on native paths that a program takes from its path library,
as a parameter, with the laws it relies on. Paths are strings; `split` gives
the components, of which the first of an absolute path is the root. The laws
speak of normalized absolute paths only, and compare names through `fold`,
which a platform may choose to forget letter case.
-/

/-! ## §1  Splitting -/

/-- No piece contains the separator, and every character comes from the
string. -/
theorem mem_piece {sep x : Char} {cs piece : List Char} (h : piece ∈ cs.splitOn sep)
    (hx : x ∈ piece) : x ≠ sep ∧ x ∈ cs := by
  induction cs generalizing piece with
  | nil =>
      obtain rfl : piece = [] := by simpa using h
      cases hx
  | cons c cs ih =>
      rw [List.splitOn_cons_eq_if_modifyHead] at h
      split_ifs at h with hc
      · rcases List.mem_cons.mp h with rfl | h
        · cases hx
        · exact ⟨(ih h hx).1, List.mem_cons_of_mem _ (ih h hx).2⟩
      · obtain ⟨first, pieces, heq⟩ := List.exists_cons_of_ne_nil (List.splitOn_ne_nil sep cs)
        rw [heq, List.modifyHead_cons] at h
        rcases List.mem_cons.mp h with rfl | h
        · rcases List.mem_cons.mp hx with rfl | hx
          · exact ⟨by simpa using hc, List.mem_cons_self⟩
          · have hfirst := ih (heq ▸ List.mem_cons_self) hx
            exact ⟨hfirst.1, List.mem_cons_of_mem _ hfirst.2⟩
        · have hpiece := ih (heq ▸ List.mem_cons_of_mem _ h) hx
          exact ⟨hpiece.1, List.mem_cons_of_mem _ hpiece.2⟩

/-! ## §2  Contexts and their laws -/

structure PathContext where
  absolute : String → String
  normalize : String → String
  isAbsolute : String → Bool
  joinAll : List String → String
  equals : String → String → Bool
  isWithin : String → String → Bool
  basename : String → String
  split : String → List String

namespace PathContext

/-- An absolute path in normal form. -/
def Normal (P : PathContext) (path : String) : Prop :=
  P.isAbsolute path = true ∧ P.normalize path = path

/-- A name that no platform takes for more than one component. -/
structure FileName (name : String) : Prop where
  ne_empty : name ≠ ""
  ne_here : name ≠ "."
  ne_up : name ≠ ".."
  no_slash : '/' ∉ name.toList
  no_backslash : '\\' ∉ name.toList

structure Lawful (P : PathContext) (fold : String → String) : Prop where
  normal_absolute : ∀ path, P.Normal (P.normalize (P.absolute path))
  normal_join : ∀ root names, P.Normal root → (∀ name ∈ names, FileName name) →
    P.Normal (P.normalize (P.joinAll (root :: names)))
  split_join : ∀ root names, P.Normal root → (∀ name ∈ names, FileName name) →
    P.split (P.normalize (P.joinAll (root :: names))) = P.split root ++ names
  equals_sound : ∀ a b, P.Normal a → P.Normal b → P.equals (fold a) (fold b) = true →
    (P.split a).map fold = (P.split b).map fold
  isWithin_sound : ∀ a b, P.Normal a → P.Normal b → P.isWithin (fold a) (fold b) = true →
    (P.split a).map fold <+: (P.split b).map fold

/-- A context whose comparisons find every path that they are asked for. -/
structure Exact (P : PathContext) (fold : String → String) : Prop extends Lawful P fold where
  equals_complete : ∀ a b, P.Normal a → P.Normal b →
    (P.split a).map fold = (P.split b).map fold → P.equals (fold a) (fold b) = true
  isWithin_complete : ∀ a b, P.Normal a → P.Normal b →
    (P.split a).map fold <+: (P.split b).map fold → (P.split a).map fold ≠ (P.split b).map fold →
    P.isWithin (fold a) (fold b) = true
  no_dots : ∀ a, P.Normal a → ∀ c ∈ P.split a, c ≠ "." ∧ c ≠ ".."

/-! ## §3  POSIX paths -/

namespace Posix

def isAbsolute (path : String) : Bool := path.toList.head? = some '/'

/-- The components, without the root. -/
def parts (path : String) : List String :=
  ((path.toList.splitOn '/').filter (· ≠ [])).map String.ofList

/-- One component of a path in normal form. A relative path may start with
components that lead up. -/
def resolveDot (absolute : Bool) (before : List String) (c : String) : List String :=
  if c = "." then before
  else if c = ".." then
    match before.getLast? with
    | some last => if last = ".." then before ++ [c] else before.dropLast
    | none => if absolute then [] else [c]
  else before ++ [c]

def resolveDots (absolute : Bool) (path : List String) : List String :=
  path.foldl (resolveDot absolute) []

def joinSlash : List String → List Char
  | [] => []
  | [c] => c.toList
  | c :: cs => c.toList ++ '/' :: joinSlash cs

def assemble (absolute : Bool) (path : List String) : String :=
  if absolute then .ofList ('/' :: joinSlash path)
  else if path = [] then "." else .ofList (joinSlash path)

def normalize (path : String) : String :=
  assemble (isAbsolute path) (resolveDots (isAbsolute path) (parts path))

def join (path part : String) : String :=
  if part = "" then path
  else if isAbsolute part || path = "" then part
  else if path.toList.getLast? = some '/' then path ++ part
  else path ++ "/" ++ part

/-- The working directory is the root of the file system. -/
def absolute (path : String) : String := join "/" path

def canonical (path : String) : List String := resolveDots true (parts (absolute path))

def split (path : String) : List String :=
  if isAbsolute path then "/" :: parts path else parts path

end Posix

def posix : PathContext where
  absolute := Posix.absolute
  normalize := Posix.normalize
  isAbsolute := Posix.isAbsolute
  joinAll paths := paths.foldl Posix.join ""
  equals a b := Posix.canonical a = Posix.canonical b
  isWithin a b :=
    Posix.canonical a ≠ Posix.canonical b && (Posix.canonical a).isPrefixOf (Posix.canonical b)
  basename path :=
    (Posix.parts path).getLast?.getD (if Posix.isAbsolute path then "/" else "")
  split := Posix.split

/-! ## §4  The laws of POSIX paths -/

namespace Posix

/-- A component as `parts` finds it. -/
def Part (c : String) : Prop := c ≠ "" ∧ '/' ∉ c.toList

/-- A component of a normalized absolute path. -/
def Settled (c : String) : Prop := Part c ∧ c ≠ "." ∧ c ≠ ".."

theorem part_of_mem {path c : String} (h : c ∈ parts path) : Part c := by
  obtain ⟨piece, hpiece, rfl⟩ := List.mem_map.mp h
  obtain ⟨hmem, hne⟩ := List.mem_filter.mp hpiece
  constructor
  · intro heq
    have hnil : piece = [] := by simpa using congrArg String.toList heq
    simp [hnil] at hne
  · intro hslash
    rw [String.toList_ofList] at hslash
    exact (mem_piece hmem hslash).1 rfl

theorem parts_append (xs ys : List Char) :
    parts (.ofList (xs ++ '/' :: ys)) = parts (.ofList xs) ++ parts (.ofList ys) := by
  simp only [parts, String.toList_ofList]
  rw [List.splitOn_append_cons_self, List.filter_append, List.map_append]

theorem parts_single {c : String} (h : Part c) : parts c = [c] := by
  have hne : c.toList ≠ [] := fun hnil => h.1 (by simpa using hnil)
  rw [parts, List.splitOn_eq_singleton h.2]
  simp [hne]

theorem parts_joinSlash {path : List String} (h : ∀ c ∈ path, Part c) :
    parts (.ofList (joinSlash path)) = path := by
  induction path with
  | nil => rfl
  | cons c path ih =>
      have hc := h c List.mem_cons_self
      have hpath := ih fun x hx => h x (List.mem_cons_of_mem _ hx)
      cases path with
      | nil =>
          rw [joinSlash, String.ofList_toList]
          exact parts_single hc
      | cons c' path =>
          rw [joinSlash, parts_append, hpath, String.ofList_toList, parts_single hc]
          · rfl
          · simp

theorem parts_assemble {path : List String} (h : ∀ c ∈ path, Part c) :
    parts (assemble true path) = path := by
  have happend := parts_append [] (joinSlash path)
  rw [parts_joinSlash h] at happend
  exact happend

theorem isAbsolute_assemble {path : List String} : isAbsolute (assemble true path) = true := by
  simp [isAbsolute, assemble]

theorem settled_resolveDots {path : List String} (h : ∀ c ∈ path, Part c) :
    ∀ c ∈ resolveDots true path, Settled c := by
  have hfold : ∀ (path before : List String), (∀ c ∈ path, Part c) →
      (∀ c ∈ before, Settled c) → ∀ c ∈ path.foldl (resolveDot true) before, Settled c := by
    intro path
    induction path with
    | nil => exact fun _ _ hb => hb
    | cons c path ih =>
        intro before hp hb
        apply ih _ fun x hx => hp x (List.mem_cons_of_mem _ hx)
        intro x hx
        rw [resolveDot] at hx
        by_cases hhere : c = "."
        · rw [if_pos hhere] at hx
          exact hb x hx
        rw [if_neg hhere] at hx
        by_cases hup : c = ".."
        · rw [if_pos hup] at hx
          split at hx
          · rename_i last hlast
            rw [if_neg (hb last (List.mem_of_getLast? hlast)).2.2] at hx
            exact hb x (List.mem_of_mem_dropLast hx)
          · simp at hx
        · rw [if_neg hup] at hx
          rcases List.mem_append.mp hx with hx | hx
          · exact hb x hx
          · obtain rfl : x = c := by simpa using hx
            exact ⟨hp x List.mem_cons_self, hhere, hup⟩
  exact hfold path [] h fun c hc => by cases hc

theorem resolveDots_settled {path : List String} (h : ∀ c ∈ path, Settled c) :
    resolveDots true path = path := by
  have hfold : ∀ (path before : List String), (∀ c ∈ path, Settled c) →
      path.foldl (resolveDot true) before = before ++ path := by
    intro path
    induction path with
    | nil => simp
    | cons c path ih =>
        intro before hp
        have hc := hp c List.mem_cons_self
        rw [List.foldl_cons, resolveDot, if_neg hc.2.1, if_neg hc.2.2,
          ih _ fun x hx => hp x (List.mem_cons_of_mem _ hx)]
        simp
  exact hfold path [] h

theorem normal_normalize {path : String} (h : isAbsolute path = true) :
    posix.Normal (normalize path) ∧ parts (normalize path) = resolveDots true (parts path) := by
  have hsettled := settled_resolveDots fun c (hc : c ∈ parts path) => part_of_mem hc
  have hparts : parts (normalize path) = resolveDots true (parts path) := by
    rw [normalize, h]
    exact parts_assemble fun c hc => (hsettled c hc).1
  have habs : isAbsolute (normalize path) = true := by
    rw [normalize, h]
    exact isAbsolute_assemble
  refine ⟨⟨habs, ?_⟩, hparts⟩
  change normalize (normalize path) = normalize path
  conv_lhs => rw [normalize, habs, hparts, resolveDots_settled hsettled]
  rw [normalize, h]

/-- Joining a name to an absolute path puts one separator in front of it. -/
theorem join_part {path c : String} (h : isAbsolute path = true) (hc : Part c) :
    ∃ xs, join path c = .ofList (xs ++ '/' :: c.toList) ∧
      parts path = parts (.ofList xs) ∧ (xs = [] ∨ xs.head? = some '/') := by
  have hrel : isAbsolute c = false := by
    rw [isAbsolute, decide_eq_false_iff_not]
    exact fun hhead => hc.2 (List.mem_of_head? hhead)
  have hne : path ≠ "" := by
    rintro rfl
    cases h
  have hhead : path.toList.head? = some '/' := of_decide_eq_true h
  rw [join, if_neg hc.1, hrel, decide_eq_false hne, if_neg (by simp)]
  split_ifs with hlast
  · obtain ⟨xs, hxs⟩ := List.getLast?_eq_some_iff.mp hlast
    have hpath : path = .ofList (xs ++ '/' :: []) := by rw [← hxs, String.ofList_toList]
    refine ⟨xs, ?_, ?_, ?_⟩
    · apply String.toList_injective
      simp [String.toList_append, hxs]
    · rw [hpath, parts_append]
      simp [parts]
    · cases xs with
      | nil => exact .inl rfl
      | cons x xs =>
          rw [hxs] at hhead
          exact .inr hhead
  · refine ⟨path.toList, ?_, ?_, .inr hhead⟩
    · apply String.toList_injective
      simp [String.toList_append]
    · rw [String.ofList_toList]

theorem join_absolute {path c : String} (h : isAbsolute path = true) (hc : Part c) :
    isAbsolute (join path c) = true ∧ parts (join path c) = parts path ++ [c] := by
  obtain ⟨xs, hjoin, hparts, hhead⟩ := join_part h hc
  rw [hjoin, parts_append, String.ofList_toList, parts_single hc, hparts]
  refine ⟨?_, rfl⟩
  rw [isAbsolute, decide_eq_true_eq, String.toList_ofList]
  rcases hhead with rfl | hhead
  · rfl
  · rw [List.head?_append, hhead]
    rfl

theorem part_of_fileName {name : String} (h : FileName name) : Part name :=
  ⟨h.ne_empty, h.no_slash⟩

theorem joinAll_absolute {root : String} {names : List String} (h : isAbsolute root = true)
    (hnames : ∀ name ∈ names, Part name) :
    isAbsolute (posix.joinAll (root :: names)) = true ∧
      parts (posix.joinAll (root :: names)) = parts root ++ names := by
  have hne : root ≠ "" := by
    rintro rfl
    cases h
  have hstart : join "" root = root := by rw [join, if_neg hne, h, Bool.true_or, if_pos rfl]
  have hjoinAll : posix.joinAll (root :: names) = names.foldl join root := by
    change (root :: names).foldl join "" = _
    rw [List.foldl_cons, hstart]
  rw [hjoinAll]
  clear hstart hjoinAll hne
  induction names generalizing root with
  | nil => exact ⟨h, (List.append_nil _).symm⟩
  | cons name names ih =>
      obtain ⟨habs, hparts⟩ := join_absolute h (hnames name List.mem_cons_self)
      obtain ⟨habs', hparts'⟩ := ih habs fun x hx => hnames x (List.mem_cons_of_mem _ hx)
      rw [List.foldl_cons, hparts', hparts]
      exact ⟨habs', by simp⟩

theorem parts_intercalate {names : List String} (h : ∀ name ∈ names, Part name) :
    parts ("/".intercalate names) = names := by
  cases names with
  | nil => rfl
  | cons name names =>
      have hpieces : ∀ piece ∈ (name :: names).map String.toList, '/' ∉ piece := by
        intro piece hpiece
        obtain ⟨x, hx, rfl⟩ := List.mem_map.mp hpiece
        exact (h x hx).2
      have hne : ∀ piece ∈ (name :: names).map String.toList, decide (piece ≠ []) = true := by
        intro piece hpiece
        obtain ⟨x, hx, rfl⟩ := List.mem_map.mp hpiece
        exact decide_eq_true fun hnil => (h x hx).1 (by simpa using hnil)
      have hslash : "/".toList = ['/'] := rfl
      rw [parts, String.toList_intercalate, hslash, 
        List.splitOn_intercalate '/' hpieces (List.cons_ne_nil _ _), List.filter_eq_self.mpr hne,
        List.map_map]
      exact List.map_id'' (fun x => String.ofList_toList) _

theorem isAbsolute_absolute (path : String) : isAbsolute (absolute path) = true := by
  have hroot : isAbsolute "/" = true := by decide
  unfold absolute join
  split_ifs with hempty habs hlast
  · exact hroot
  · rcases (Bool.or_eq_true ..).mp habs with habs | habs
    · exact habs
    · simp at habs
  · rw [isAbsolute, String.toList_append, decide_eq_true_eq]
    rfl
  · rw [isAbsolute, String.toList_append, String.toList_append, decide_eq_true_eq]
    rfl

/-- A normalized absolute path is canonical as it stands. -/
theorem canonical_normal {path : String} (h : posix.Normal path) :
    canonical path = parts path ∧ ∀ c ∈ parts path, Settled c := by
  obtain ⟨habs, hnorm⟩ := h
  have hparts : parts path = resolveDots true (parts path) := by
    have hp := (normal_normalize habs).2
    rwa [show normalize path = path from hnorm] at hp
  have hsettled : ∀ c ∈ parts path, Settled c := by
    rw [hparts]
    exact settled_resolveDots fun c => part_of_mem
  refine ⟨?_, hsettled⟩
  have hne : path ≠ "" := by
    rintro rfl
    cases habs
  have habsolute : absolute path = path := by
    rw [absolute, join, if_neg hne, show isAbsolute path = true from habs, Bool.true_or,
      if_pos rfl]
  rw [canonical, habsolute, ← hparts]

theorem split_normal {path : String} (h : posix.Normal path) :
    posix.split path = "/" :: parts path := by
  change split path = _
  rw [split, if_pos (show isAbsolute path = true from h.1)]

/-- POSIX paths, with names compared as they are. -/
theorem lawful : posix.Lawful id where
  normal_absolute path := (normal_normalize (isAbsolute_absolute path)).1
  normal_join root names hroot hnames :=
    (normal_normalize (joinAll_absolute hroot.1 fun name hname =>
      part_of_fileName (hnames name hname)).1).1
  split_join root names hroot hnames := by
    obtain ⟨habs, hparts⟩ := joinAll_absolute hroot.1 fun name hname =>
      part_of_fileName (hnames name hname)
    obtain ⟨hnormal, hnormalized⟩ := normal_normalize habs
    have hsettled : ∀ c ∈ parts root ++ names, Settled c := by
      intro c hc
      rcases List.mem_append.mp hc with hc | hc
      · exact (canonical_normal hroot).2 c hc
      · exact ⟨part_of_fileName (hnames c hc), (hnames c hc).ne_here, (hnames c hc).ne_up⟩
    change posix.split (normalize (posix.joinAll (root :: names))) = _
    rw [split_normal hnormal, hnormalized, hparts, resolveDots_settled hsettled,
      split_normal hroot]
    rfl
  equals_sound a b ha hb h := by
    have heq : canonical a = canonical b := of_decide_eq_true h
    rw [(canonical_normal ha).1, (canonical_normal hb).1] at heq
    rw [split_normal ha, split_normal hb, heq]
  isWithin_sound a b ha hb h := by
    obtain ⟨-, h⟩ := (Bool.and_eq_true ..).mp h
    have hpre : canonical a <+: canonical b := List.isPrefixOf_iff_prefix.mp h
    rw [(canonical_normal ha).1, (canonical_normal hb).1] at hpre
    rw [split_normal ha, split_normal hb, List.map_id, List.map_id]
    exact List.prefix_cons_inj "/" |>.mpr hpre

theorem exact : posix.Exact id where
  toLawful := lawful
  equals_complete a b ha hb h := by
    rw [split_normal ha, split_normal hb, List.map_id, List.map_id] at h
    have hcanonical : canonical a = canonical b := by
      rw [(canonical_normal ha).1, (canonical_normal hb).1]
      exact (List.cons.inj h).2
    exact decide_eq_true hcanonical
  isWithin_complete a b ha hb hpre hne := by
    rw [split_normal ha, split_normal hb, List.map_id, List.map_id] at hpre hne
    rw [← (canonical_normal ha).1, ← (canonical_normal hb).1] at hpre hne
    refine (Bool.and_eq_true ..).mpr ⟨decide_eq_true fun heq => hne (heq ▸ rfl), ?_⟩
    exact List.isPrefixOf_iff_prefix.mpr (List.prefix_cons_inj "/" |>.mp hpre)
  no_dots a ha c hc := by
    rw [split_normal ha] at hc
    rcases List.mem_cons.mp hc with rfl | hc
    · decide
    · exact ((canonical_normal ha).2 c hc).2

end Posix

end PathContext
