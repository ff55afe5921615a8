import Mathlib.Algebra.GroupWithZero.Nat
import Mathlib.Data.List.Basic

/-!
# File trees with symbolic links

A location is the list of names from the root of the file system down, the
first one being the root's own (`/`, or a drive). A tree says what a directory
holds under a name: the name as it is stored, which may be spelled otherwise
than the one asked for, and the kind of the entry. Links may stand anywhere
and point anywhere, so that resolving a path is a relation; a path through a
cycle of links resolves to nothing.
-/

/-- The path inside a link. A relative one starts at the directory of the link. -/
structure LinkTarget where
  absolute : Bool
  components : List String
deriving DecidableEq

inductive FileKind where
  | file
  | directory
  | link (target : LinkTarget)
  | other
deriving DecidableEq

/-- What the directory at a location holds under a name. -/
structure FileTree where
  entry : List String → String → Option (String × FileKind)

namespace FileTree

/-! ## §1  Resolution -/

/-- The location of a name in a directory: under its stored spelling if there
is such an entry. -/
def child (t : FileTree) (dir : List String) (name : String) : List String :=
  dir ++ [((t.entry dir name).map Prod.fst).getD name]

def kind (t : FileTree) (dir : List String) (name : String) : Option FileKind :=
  (t.entry dir name).map Prod.snd

/-- A name that is looked up: neither the directory itself nor its parent. -/
def IsName (c : String) : Prop := c ≠ "." ∧ c ≠ ".."

/-- The directory above; the root of the file system is its own. -/
def parent (dir : List String) : List String :=
  if dir.length ≤ 1 then dir else dir.dropLast

/-- One component of a path is followed: where the rest of the path goes on,
and what the rest now is. A link puts its target in front. -/
def next (t : FileTree) (dir : List String) (c : String) (rest : List String) :
    Option (List String × List String) :=
  if c = "." then some (dir, rest)
  else if c = ".." then some (parent dir, rest)
  else match t.kind dir c with
    | some .directory => some (t.child dir c, rest)
    | some (.link target) =>
        some (if target.absolute then [] else dir, target.components ++ rest)
    | some _ => if rest = [] then some (t.child dir c, []) else none
    | none => none

/-- `t.Resolves dir path loc`: the path, followed from `dir` through every
link, ends at `loc`. -/
inductive Resolves (t : FileTree) : List String → List String → List String → Prop where
  | nil {dir} : Resolves t dir [] dir
  | step {dir c rest dir' rest' loc} : t.next dir c rest = some (dir', rest') →
      Resolves t dir' rest' loc → Resolves t dir (c :: rest) loc

variable {t : FileTree} {dir path loc loc' : List String} {c : String}

/-- A path resolves to one location only. -/
theorem Resolves.unique (h : t.Resolves dir path loc) (h' : t.Resolves dir path loc') :
    loc = loc' := by
  induction h with
  | nil =>
      cases h'
      rfl
  | step hn _ ih =>
      cases h' with
      | step hn' h' =>
          rw [hn] at hn'
          cases hn'
          exact ih h'

/-! ## §2  Longer paths -/

/-- What comes after does not change how a component is followed. -/
theorem next_append {rest more dir' rest' : List String}
    (h : t.next dir c (rest ++ more) = some (dir', rest')) :
    ∃ rest₁, rest' = rest₁ ++ more ∧ t.next dir c rest = some (dir', rest₁) := by
  rw [next] at h ⊢
  by_cases hhere : c = "."
  · rw [if_pos hhere] at h ⊢
    obtain ⟨rfl, rfl⟩ := Prod.mk.inj (Option.some.inj h)
    exact ⟨rest, rfl, rfl⟩
  rw [if_neg hhere] at h ⊢
  by_cases hup : c = ".."
  · rw [if_pos hup] at h ⊢
    obtain ⟨rfl, rfl⟩ := Prod.mk.inj (Option.some.inj h)
    exact ⟨rest, rfl, rfl⟩
  rw [if_neg hup] at h ⊢
  split at h
  · obtain ⟨rfl, rfl⟩ := Prod.mk.inj (Option.some.inj h)
    exact ⟨rest, rfl, rfl⟩
  · rename_i target _
    obtain ⟨rfl, rfl⟩ := Prod.mk.inj (Option.some.inj h)
    exact ⟨target.components ++ rest, (List.append_assoc ..).symm, rfl⟩
  · split_ifs at h with hnil
    obtain ⟨rfl, rfl⟩ := List.append_eq_nil_iff.mp hnil
    obtain ⟨rfl, rfl⟩ := Prod.mk.inj (Option.some.inj h)
    exact ⟨[], rfl, if_pos rfl⟩
  · cases h

/-- A path resolves through each of its beginnings. A beginning may end in
the middle of what a link put in front, hence the induction on the
derivation. -/
theorem Resolves.split {path₁ path₂ : List String} (h : t.Resolves dir (path₁ ++ path₂) loc) :
    ∃ mid, t.Resolves dir path₁ mid ∧ t.Resolves mid path₂ loc := by
  generalize hpath : path₁ ++ path₂ = path at h
  induction h generalizing path₁ with
  | nil =>
      obtain ⟨rfl, rfl⟩ := List.append_eq_nil_iff.mp hpath
      exact ⟨_, .nil, .nil⟩
  | step hn h ih =>
      cases path₁ with
      | nil =>
          rw [List.nil_append] at hpath
          subst hpath
          exact ⟨_, .nil, .step hn h⟩
      | cons x path₁ =>
          rw [List.cons_append] at hpath
          obtain ⟨rfl, rfl⟩ := List.cons.inj hpath
          obtain ⟨rest₁, hrest, hn₁⟩ := next_append hn
          obtain ⟨mid, h₁, h₂⟩ := ih hrest.symm
          exact ⟨mid, .step hn₁ h₁, h₂⟩

/-- Where a component leads: nowhere, up, into what a link stands for, or to
an entry that is no link. -/
theorem next_cases {rest dir' rest' : List String} (h : t.next dir c rest = some (dir', rest')) :
    (dir' = dir ∨ dir' = parent dir) ∧ ¬ IsName c ∨
      (∃ target, t.kind dir c = some (.link target) ∧ (dir' = [] ∨ dir' = dir)) ∨
      (∀ target, t.kind dir c ≠ some (.link target)) ∧ dir' = t.child dir c ∧ rest' = rest := by
  rw [next] at h
  by_cases hhere : c = "."
  · rw [if_pos hhere] at h
    exact .inl ⟨.inl (Prod.mk.inj (Option.some.inj h)).1.symm, fun hname => hname.1 hhere⟩
  rw [if_neg hhere] at h
  by_cases hup : c = ".."
  · rw [if_pos hup] at h
    exact .inl ⟨.inr (Prod.mk.inj (Option.some.inj h)).1.symm, fun hname => hname.2 hup⟩
  rw [if_neg hup] at h
  right
  split at h
  · rename_i hkind
    obtain ⟨rfl, rfl⟩ := Prod.mk.inj (Option.some.inj h)
    exact .inr ⟨by simp [hkind], rfl, rfl⟩
  · rename_i target hkind
    obtain ⟨rfl, -⟩ := Prod.mk.inj (Option.some.inj h)
    exact .inl ⟨target, hkind, by split_ifs <;> simp⟩
  · rename_i kind _ hnotlink hkind
    split_ifs at h with hnil
    obtain ⟨rfl, rfl⟩ := Prod.mk.inj (Option.some.inj h)
    refine .inr ⟨fun target hlink => ?_, rfl, hnil.symm⟩
    exact hnotlink target (Option.some.inj (hkind.symm.trans hlink))
  · cases h

/-- A single name that is no link resolves to where it stands. -/
theorem Resolves.eq_child (h : t.Resolves dir [c] loc) (hc : IsName c)
    (hk : ∀ target, t.kind dir c ≠ some (.link target)) : loc = t.child dir c := by
  cases h with
  | step hn h =>
      rcases next_cases hn with ⟨-, hdots⟩ | ⟨target, hlink, -⟩ | ⟨-, rfl, rfl⟩
      · exact absurd hc hdots
      · exact absurd hlink (hk target)
      · exact h.unique .nil

/-! ## §3  The entry that a path names -/

/-- The path names `name` in the directory at `dir`: its last component is not
followed. -/
structure Names (t : FileTree) (path dir : List String) (name : String) : Prop where
  isName : IsName name
  resolves : ∃ before, path = before ++ [name] ∧ t.Resolves [] before dir

/-- A location is touched through a path if it is the entry that the path
names, or what the path resolves to, or lies below. -/
def Touched (t : FileTree) (path loc : List String) : Prop :=
  ∃ top, ((∃ dir name, t.Names path dir name ∧ top = t.child dir name) ∨
    t.Resolves [] path top) ∧ top <+: loc

theorem Names.unique {dir' : List String} {name name' : String} (h : t.Names path dir name)
    (h' : t.Names path dir' name') : dir = dir' ∧ name = name' := by
  obtain ⟨before, rfl, hres⟩ := h.resolves
  obtain ⟨before', heq, hres'⟩ := h'.resolves
  obtain ⟨rfl, hname⟩ := List.append_inj' heq rfl
  exact ⟨hres.unique hres', (List.cons.inj hname).1⟩

/-- A path resolves to the entry it names, if that is no link. -/
theorem Names.eq_child {name : String} (h : t.Names path dir name)
    (hk : ∀ target, t.kind dir name ≠ some (.link target)) (hres : t.Resolves [] path loc) :
    loc = t.child dir name := by
  obtain ⟨before, rfl, hbefore⟩ := h.resolves
  obtain ⟨mid, hmid, hlast⟩ := hres.split
  obtain rfl := hbefore.unique hmid
  exact hlast.eq_child h.isName hk

/-- Through the path of an entry that is no link, only what lies at the entry
is touched. -/
theorem Names.touched {name : String} (h : t.Names path dir name)
    (hk : ∀ target, t.kind dir name ≠ some (.link target)) (hloc : t.Touched path loc) :
    t.child dir name <+: loc := by
  obtain ⟨top, ⟨dir', name', h', rfl⟩ | hres, hbelow⟩ := hloc
  · obtain ⟨rfl, rfl⟩ := h.unique h'
    exact hbelow
  · rwa [h.eq_child hk hres] at hbelow

/-! ## §4  Inside -/

/-- `loc` is `root` or lies below it, names being compared through `fold`. -/
def Inside (fold : String → String) (root loc : List String) : Prop :=
  root.map fold <+: loc.map fold

section Inside

variable {fold : String → String} {root : List String}

theorem Inside.below (h : Inside fold root loc) (hbelow : loc <+: loc') :
    Inside fold root loc' := h.trans (hbelow.map fold)

end Inside

end FileTree
