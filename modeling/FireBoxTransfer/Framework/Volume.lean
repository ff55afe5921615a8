import Mathlib.Algebra.GroupWithZero.Nat
import Mathlib.Data.List.Infix

/-!
# Volumes and copies

What stands at each location of a volume, a location being the list of names
that leads there. An operation is described by what it leaves, location by
location, so that a part of a volume that an operation does not name is as it
was. Copying what is below one location to another may overlap with other
parts of the volume; what is said of a copy is said under the condition that it
writes nothing there.
-/

/-- What stands at a location. -/
inductive VolumeNode where
  | file (content : List UInt8)
  | directory
  | link
  | other
deriving DecidableEq

abbrev Volume : Type := List String → Option VolumeNode

namespace Volume

/-! ## §1  Volumes -/

/-- Names stand in directories, and no chain of directories is endless. -/
structure WellFormed (d : Volume) : Prop where
  tree : ∀ loc name, d (loc ++ [name]) ≠ none → d loc = some .directory
  bounded : ∃ n, ∀ loc, d loc ≠ none → loc.length ≤ n

variable {d₀ d d' d'' : Volume} {s t u loc : List String} {name : String}

/-- What is above something that stands somewhere is a directory. -/
theorem WellFormed.above (h : d.WellFormed) {rel : List String} (hrel : rel ≠ [])
    (hd : d (loc ++ rel) ≠ none) : d loc = some .directory := by
  induction rel using List.reverseRecOn with
  | nil => exact absurd rfl hrel
  | append_singleton rel name ih =>
      rw [← List.append_assoc] at hd
      have habove := h.tree _ _ hd
      by_cases hnil : rel = []
      · rw [hnil, List.append_nil] at habove
        exact habove
      · apply ih hnil
        rw [habove]
        simp

/-- Nothing is below a location where nothing stands. -/
theorem WellFormed.eq_none (h : d.WellFormed) (hd : d loc = none) (rel : List String) :
    d (loc ++ rel) = none := by
  by_contra hbelow
  by_cases hrel : rel = []
  · rw [hrel, List.append_nil] at hbelow
    exact hbelow hd
  · rw [h.above hrel hbelow] at hd
    cases hd

/-- The volume with these nodes. -/
def ofList (nodes : List (List String × VolumeNode)) : Volume :=
  fun loc => (nodes.find? fun n => n.1 = loc).map Prod.snd

theorem mem_of_ofList {nodes : List (List String × VolumeNode)} {node : VolumeNode}
    (h : ofList nodes loc = some node) : (loc, node) ∈ nodes := by
  obtain ⟨⟨loc', node'⟩, hfind, rfl⟩ := Option.map_eq_some_iff.mp h
  have hloc : loc' = loc := by simpa using List.find?_some hfind
  rw [← hloc]
  exact List.mem_of_find?_eq_some hfind

theorem exists_length_le (nodes : List (List String × VolumeNode)) :
    ∃ n, ∀ x ∈ nodes, x.1.length ≤ n := by
  induction nodes with
  | nil => exact ⟨0, List.forall_mem_nil _⟩
  | cons x nodes ih =>
      obtain ⟨n, hn⟩ := ih
      refine ⟨max x.1.length n, List.forall_mem_cons.mpr ⟨le_max_left _ _, fun y hy => ?_⟩⟩
      exact (hn y hy).trans (le_max_right _ _)

/-- It is enough to look at the nodes that are listed. -/
theorem wellFormed_ofList {nodes : List (List String × VolumeNode)}
    (h : ∀ n ∈ nodes, n.1 = [] ∨ ofList nodes n.1.dropLast = some .directory) :
    (ofList nodes).WellFormed where
  tree loc name hd := by
    obtain ⟨node, hnode⟩ := Option.ne_none_iff_exists'.mp hd
    rcases h _ (mem_of_ofList hnode) with hnil | hparent
    · simp at hnil
    · simpa using hparent
  bounded := by
    obtain ⟨n, hn⟩ := exists_length_le nodes
    refine ⟨n, fun loc hd => ?_⟩
    obtain ⟨node, hnode⟩ := Option.ne_none_iff_exists'.mp hd
    exact hn _ (mem_of_ofList hnode)

/-! ## §2  Operations -/

/-- `node` is put at `loc`. -/
def write (d : Volume) (loc : List String) (node : VolumeNode) : Volume :=
  fun m => if m = loc then some node else d m

/-- What is at and below `loc` is gone. -/
def remove (d : Volume) (loc : List String) : Volume :=
  fun m => if loc <+: m then none else d m

/-- What was at and below `s` is at and below `t`. -/
def relocate (d : Volume) (s t : List String) : Volume :=
  fun m => if t <+: m then d (s ++ m.drop t.length) else if s <+: m then none else d m

/-- Some of what is at and below `loc` may be gone. -/
def Pruned (loc : List String) (d d' : Volume) : Prop :=
  ∀ m, d' m = d m ∨ (loc <+: m ∧ d' m = none)

/-- Only what is at `loc` may have changed. -/
def OnlyAt (loc : List String) (d d' : Volume) : Prop := ∀ m, m ≠ loc → d' m = d m

theorem write_same {node : VolumeNode} : d.write loc node loc = some node := by
  unfold write
  exact if_pos rfl

theorem write_of_ne {node : VolumeNode} {m : List String} (h : m ≠ loc) :
    d.write loc node m = d m := by
  unfold write
  exact if_neg h

theorem onlyAt_write {node : VolumeNode} : OnlyAt loc d (d.write loc node) :=
  fun _ h => write_of_ne h

theorem relocate_append {rel : List String} : d.relocate s t (t ++ rel) = d (s ++ rel) := by
  unfold relocate
  rw [if_pos (List.prefix_append t rel), List.drop_left]

theorem relocate_outside {m : List String} (hs : ¬ s <+: m) (ht : ¬ t <+: m) :
    d.relocate s t m = d m := by
  unfold relocate
  rw [if_neg ht, if_neg hs]

/-! ## §3  Copies -/

/-- What a copy of `s` writes below its top: the top, and what there is below
`s`. -/
def Part (d₀ : Volume) (s rel : List String) : Prop := rel = [] ∨ d₀ (s ++ rel) ≠ none

/-- Some of what is at and below `s` in `d₀` was put at and below `t`. -/
def Copied (d₀ : Volume) (s t : List String) (d d' : Volume) : Prop :=
  ∀ m, d' m = d m ∨ ∃ rel, m = t ++ rel ∧ d₀ (s ++ rel) ≠ none ∧ d' m = d₀ (s ++ rel)

/-- Something was put where a copy from `s` to `t` puts something. -/
def Strayed (d₀ : Volume) (s t : List String) (d d' : Volume) : Prop :=
  ∀ m, d' m = d m ∨ ∃ rel, m = t ++ rel ∧ Part d₀ s rel

/-- All that is at and below `s` in `d₀` is at and below `t`. -/
def Mirrored (d₀ : Volume) (s t : List String) (d : Volume) : Prop :=
  ∀ rel, d₀ (s ++ rel) ≠ none → d (t ++ rel) = d₀ (s ++ rel)

theorem Part.child {rel : List String} (h : Part d₀ (s ++ [name]) rel)
    (hname : d₀ (s ++ [name]) ≠ none) : Part d₀ s (name :: rel) := by
  right
  rcases h with rfl | h
  · exact hname
  · simpa using h

theorem copied_refl : Copied d₀ s t d d := fun _ => .inl rfl

theorem Copied.trans (h : Copied d₀ s t d d') (h' : Copied d₀ s t d' d'') :
    Copied d₀ s t d d'' := by
  intro m
  rcases h' m with heq | hcopy
  · rw [heq]
    exact h m
  · exact .inr hcopy

theorem strayed_refl : Strayed d₀ s t d d := fun _ => .inl rfl

theorem Strayed.trans (h : Strayed d₀ s t d d') (h' : Strayed d₀ s t d' d'') :
    Strayed d₀ s t d d'' := by
  intro m
  rcases h' m with heq | hstray
  · rw [heq]
    exact h m
  · exact .inr hstray

/-- A copy of something inside is a part of the copy. -/
theorem Copied.of_child (h : Copied d₀ (s ++ [name]) (t ++ [name]) d d') :
    Copied d₀ s t d d' := by
  intro m
  rcases h m with heq | ⟨rel, rfl, hrel, heq⟩
  · exact .inl heq
  · refine .inr ⟨name :: rel, ?_, ?_, ?_⟩
    · simp
    · simpa using hrel
    · simpa using heq

theorem Strayed.of_child (h : Strayed d₀ (s ++ [name]) (t ++ [name]) d d')
    (hname : d₀ (s ++ [name]) ≠ none) : Strayed d₀ s t d d' := by
  intro m
  rcases h m with heq | ⟨rel, rfl, hrel⟩
  · exact .inl heq
  · exact .inr ⟨name :: rel, by simp, hrel.child hname⟩

/-- What is written where the copy has its top. -/
theorem strayed_of_onlyAt (h : OnlyAt t d d') : Strayed d₀ s t d d' := by
  intro m
  by_cases hm : m = t
  · exact .inr ⟨[], by rw [hm, List.append_nil], .inl rfl⟩
  · exact .inl (h m hm)

theorem copied_write {node : VolumeNode} (hs : d₀ s = some node) :
    Copied d₀ s t d (d.write t node) := by
  intro m
  by_cases hm : m = t
  · refine .inr ⟨[], ?_, ?_, ?_⟩
    · rw [hm, List.append_nil]
    · rw [List.append_nil, hs]
      simp
    · rw [hm, write_same, List.append_nil, hs]
  · exact .inl (write_of_ne hm)

/-- A directory is mirrored when it is there and all that stands in it is
mirrored. -/
theorem mirrored_of_children (h₀ : d₀.WellFormed) (htop : d t = d₀ s)
    (hchildren : ∀ name, d₀ (s ++ [name]) ≠ none → Mirrored d₀ (s ++ [name]) (t ++ [name]) d) :
    Mirrored d₀ s t d := by
  intro rel hrel
  cases rel with
  | nil => simpa using htop
  | cons name rel =>
      have hname : d₀ (s ++ [name]) ≠ none := by
        by_cases hnil : rel = []
        · rwa [hnil] at hrel
        · rw [show s ++ name :: rel = s ++ [name] ++ rel by simp] at hrel
          rw [h₀.above hnil hrel]
          simp
      have hchild := hchildren name hname rel (by simpa using hrel)
      simpa using hchild

/-- A file that is there is mirrored. -/
theorem mirrored_of_leaf (h₀ : d₀.WellFormed) (htop : d t = d₀ s)
    (hleaf : d₀ s ≠ some .directory) : Mirrored d₀ s t d := by
  intro rel hrel
  by_cases hnil : rel = []
  · rw [hnil, List.append_nil, List.append_nil]
    exact htop
  · exact absurd (h₀.above hnil hrel) hleaf

/-! ## §4  Copies that stay clear -/

/-- Copying what is at and below `s` to `t` writes nothing at or below `u`. -/
def Clear (d₀ : Volume) (s t u : List String) : Prop :=
  ∀ rel, Part d₀ s rel → ¬ u <+: t ++ rel

theorem Clear.top (h : Clear d₀ s t u) : ¬ u <+: t := by
  have hclear := h [] (.inl rfl)
  rwa [List.append_nil] at hclear

theorem Clear.child (h : Clear d₀ s t u) (hname : d₀ (s ++ [name]) ≠ none) :
    Clear d₀ (s ++ [name]) (t ++ [name]) u := by
  intro rel hrel
  have hclear := h (name :: rel) (hrel.child hname)
  simpa using hclear

theorem Clear.below (h : Clear d₀ s t u) (hu : u <+: loc) : Clear d₀ s t loc :=
  fun rel hrel hloc => h rel hrel (hu.trans hloc)

/-- What the copy stays clear of is as it was. -/
theorem Strayed.same (h : Strayed d₀ s t d d') (hclear : Clear d₀ s t u) (hu : u <+: loc) :
    d' loc = d loc := by
  rcases h loc with heq | ⟨rel, rfl, hrel⟩
  · exact heq
  · exact absurd hu (hclear rel hrel)

/-- What is mirrored stays so while something is copied that agrees with it. -/
theorem Mirrored.copied {s' t' : List String} (h : Mirrored d₀ s t d)
    (hcopy : Copied d₀ s' t' d d')
    (hagree : ∀ rel rel', t ++ rel = t' ++ rel' → d₀ (s ++ rel) ≠ none → d₀ (s' ++ rel') ≠ none →
      d₀ (s' ++ rel') = d₀ (s ++ rel)) : Mirrored d₀ s t d' := by
  intro rel hrel
  rcases hcopy (t ++ rel) with heq | ⟨rel', hloc, hrel', heq⟩
  · rw [heq]
    exact h rel hrel
  · rw [heq]
    exact hagree rel rel' hloc hrel hrel'

/-- Removing something that the mirror is clear of. -/
theorem Mirrored.pruned (h : Mirrored d₀ s t d) (hclear : Clear d₀ s t u)
    (hpruned : Pruned u d d') : Mirrored d₀ s t d' := by
  intro rel hrel
  rcases hpruned (t ++ rel) with heq | ⟨hu, -⟩
  · rw [heq]
    exact h rel hrel
  · exact absurd hu (hclear rel (.inr hrel))

end Volume
