import Mathlib.Algebra.GroupWithZero.Nat
import Mathlib.Data.List.Basic
import Mathlib.Data.List.Nodup

/-!
# Insertion-ordered finite maps

A finite map as the list of its entries in insertion order, with the proof
that no key occurs twice as a field. Unlike Mathlib's `AList`, whose
`insert` moves the key to the front, `insert` keeps the place of a key that
is present and appends a new one, so that the order in which entries are
visited is the order in which a program inserted them.
-/

/-- A finite map with the order of its entries. -/
structure AssocMap (κ α : Type*) where
  entries : List (κ × α)
  nodup : (entries.map Prod.fst).Nodup

namespace AssocMap

variable {κ α β : Type*}

/-! ## §1  The structure and lookup -/

@[ext] theorem ext {m n : AssocMap κ α} (h : m.entries = n.entries) : m = n := by
  cases m
  cases n
  subst h
  rfl

instance [DecidableEq κ] [DecidableEq α] : DecidableEq (AssocMap κ α) :=
  fun m n => decidable_of_iff (m.entries = n.entries) ⟨ext, fun h => h ▸ rfl⟩

def empty : AssocMap κ α := ⟨[], List.nodup_nil⟩

def keys (m : AssocMap κ α) : List κ := m.entries.map Prod.fst

def values (m : AssocMap κ α) : List α := m.entries.map Prod.snd

def isEmpty (m : AssocMap κ α) : Bool := m.entries.isEmpty

def get? [DecidableEq κ] (m : AssocMap κ α) (k : κ) : Option α :=
  m.entries.lookup k

@[simp] theorem get?_empty [DecidableEq κ] (k : κ) :
    (empty : AssocMap κ α).get? k = none := rfl

/-- An association list without a repeated key finds every entry it holds. -/
theorem lookup_eq_some_of_mem [DecidableEq κ] {l : List (κ × α)} {k : κ} {v : α}
    (hl : (l.map Prod.fst).Nodup) (h : (k, v) ∈ l) : l.lookup k = some v := by
  induction l with
  | nil => simp at h
  | cons e l ih =>
      rw [List.map_cons, List.nodup_cons] at hl
      rcases List.mem_cons.mp h with rfl | h
      · exact List.lookup_cons_self
      · have hne : k ≠ e.1 := by
          rintro rfl
          exact hl.1 (List.mem_map.mpr ⟨_, h, rfl⟩)
        rw [List.lookup_cons, beq_eq_false_iff_ne.mpr hne]
        exact ih hl.2 h

theorem mem_of_lookup_eq_some [DecidableEq κ] {l : List (κ × α)} {k : κ} {v : α}
    (h : l.lookup k = some v) : (k, v) ∈ l := by
  obtain ⟨l₁, l₂, rfl, -⟩ := List.lookup_eq_some_iff.mp h
  simp

theorem get?_eq_some_iff [DecidableEq κ] {m : AssocMap κ α} {k : κ} {v : α} :
    m.get? k = some v ↔ (k, v) ∈ m.entries :=
  ⟨mem_of_lookup_eq_some, lookup_eq_some_of_mem m.nodup⟩

theorem mem_values_iff [DecidableEq κ] {m : AssocMap κ α} {v : α} :
    v ∈ m.values ↔ ∃ k, m.get? k = some v := by
  simp [values, get?_eq_some_iff]

theorem mem_keys_iff [DecidableEq κ] {m : AssocMap κ α} {k : κ} :
    k ∈ m.keys ↔ ∃ v, m.get? k = some v := by
  simp [keys, get?_eq_some_iff]

theorem exists_get?_of_ne_empty [DecidableEq κ] {m : AssocMap κ α}
    (h : m.isEmpty = false) : ∃ k v, m.get? k = some v := by
  cases hm : m.entries with
  | nil => simp [isEmpty, hm] at h
  | cons e l => exact ⟨e.1, e.2, get?_eq_some_iff.mpr (by simp [hm])⟩

/-! ## §2  Operations that keep the keys or drop some -/

/-- The entries that pass the test, in their order. -/
def filter (p : κ → α → Bool) (m : AssocMap κ α) : AssocMap κ α where
  entries := m.entries.filter fun e => p e.1 e.2
  nodup := m.nodup.sublist ((List.filter_sublist).map Prod.fst)

/-- Every value replaced by its image; `f` also sees the position of the
entry and its key. -/
def mapIdx (f : ℕ → κ → α → β) (m : AssocMap κ α) : AssocMap κ β where
  entries := m.entries.mapIdx fun i e => (e.1, f i e.1 e.2)
  nodup := by
    have : (m.entries.mapIdx fun i e => (e.1, f i e.1 e.2)).map Prod.fst =
        m.entries.map Prod.fst := by
      apply List.ext_getElem <;> simp
    rw [this]
    exact m.nodup

/-- Every value replaced by its image. -/
def mapVal (f : κ → α → β) (m : AssocMap κ α) : AssocMap κ β where
  entries := m.entries.map fun e => (e.1, f e.1 e.2)
  nodup := by
    rw [List.map_map]
    exact m.nodup

/-- The value under `k` replaced by its image, if there is one. -/
def modify [DecidableEq κ] (k : κ) (f : α → α) (m : AssocMap κ α) : AssocMap κ α :=
  m.mapVal fun k' v => if k' = k then f v else v

theorem get?_filter [DecidableEq κ] {p : κ → α → Bool} {m : AssocMap κ α} {k : κ} :
    (m.filter p).get? k = (m.get? k).filter (p k) := by
  refine Option.ext fun v => ?_
  rw [get?_eq_some_iff, Option.filter_eq_some_iff, get?_eq_some_iff]
  simp [filter]

theorem get?_mapVal [DecidableEq κ] {f : κ → α → β} {m : AssocMap κ α} {k : κ} :
    (m.mapVal f).get? k = (m.get? k).map (f k) := by
  refine Option.ext fun v => ?_
  rw [get?_eq_some_iff, Option.map_eq_some_iff]
  simp [mapVal, get?_eq_some_iff]

theorem get?_mapIdx [DecidableEq κ] {f : ℕ → κ → α → β} {m : AssocMap κ α} {k : κ}
    {b : β} (h : (m.mapIdx f).get? k = some b) :
    ∃ i v, m.get? k = some v ∧ b = f i k v := by
  rw [get?_eq_some_iff] at h
  obtain ⟨i, hi, he⟩ := List.mem_mapIdx.mp h
  obtain ⟨rfl, rfl⟩ := Prod.mk.inj he
  exact ⟨i, _, get?_eq_some_iff.mpr (List.getElem_mem hi), rfl⟩

theorem exists_get?_mapIdx [DecidableEq κ] {m : AssocMap κ α} {k : κ} {v : α}
    (f : ℕ → κ → α → β) (h : m.get? k = some v) :
    ∃ i, (m.mapIdx f).get? k = some (f i k v) := by
  obtain ⟨i, hi, he⟩ := List.mem_iff_getElem.mp (get?_eq_some_iff.mp h)
  refine ⟨i, get?_eq_some_iff.mpr (List.mem_mapIdx.mpr ⟨i, hi, ?_⟩)⟩
  rw [he]

theorem get?_modify_self [DecidableEq κ] {f : α → α} {m : AssocMap κ α} {k : κ} :
    (m.modify k f).get? k = (m.get? k).map f := by
  simp [modify, get?_mapVal]

theorem get?_modify_ne [DecidableEq κ] {f : α → α} {m : AssocMap κ α} {k k' : κ}
    (h : k' ≠ k) : (m.modify k f).get? k' = m.get? k' := by
  simp [modify, get?_mapVal, h]

/-! ## §3  Insertion -/

/-- The value under `k` set to `v`: in place when the key is present, as the
last entry when it is new. -/
def insert [DecidableEq κ] (k : κ) (v : α) (m : AssocMap κ α) : AssocMap κ α :=
  if h : k ∈ m.keys then m.modify k fun _ => v
  else
    { entries := m.entries ++ [(k, v)]
      nodup := by
        rw [List.map_append, List.nodup_append]
        refine ⟨m.nodup, by simp, ?_⟩
        intro a ha b hb
        obtain rfl : b = k := by simpa using hb
        rintro rfl
        exact h ha }

theorem get?_insert_self [DecidableEq κ] {m : AssocMap κ α} {k : κ} {v : α} :
    (m.insert k v).get? k = some v := by
  by_cases h : k ∈ m.keys
  · obtain ⟨w, hw⟩ := mem_keys_iff.mp h
    rw [insert, dif_pos h, get?_modify_self, hw]
    rfl
  · rw [insert, dif_neg h, get?_eq_some_iff]
    simp

theorem get?_insert_ne [DecidableEq κ] {m : AssocMap κ α} {k k' : κ} {v : α}
    (hne : k' ≠ k) : (m.insert k v).get? k' = m.get? k' := by
  by_cases h : k ∈ m.keys
  · rw [insert, dif_pos h, get?_modify_ne hne]
  · refine Option.ext fun w => ?_
    rw [insert, dif_neg h, get?_eq_some_iff, get?_eq_some_iff]
    simp [hne]

theorem get?_insert [DecidableEq κ] {m : AssocMap κ α} {k k' : κ} {v : α} :
    (m.insert k v).get? k' = if k' = k then some v else m.get? k' := by
  by_cases h : k' = k
  · subst h
    rw [if_pos rfl, get?_insert_self]
  · rw [if_neg h, get?_insert_ne h]

theorem mem_keys_insert [DecidableEq κ] {m : AssocMap κ α} {k k' : κ} {v : α} :
    k' ∈ (m.insert k v).keys ↔ k' = k ∨ k' ∈ m.keys := by
  rw [mem_keys_iff, mem_keys_iff, get?_insert]
  by_cases h : k' = k <;> simp [h]

theorem get?_filter_ne [DecidableEq κ] {m : AssocMap κ α} {k k' : κ} :
    (m.filter fun k' _ => k' ≠ k).get? k' = if k' = k then none else m.get? k' := by
  rw [get?_filter]
  by_cases h : k' = k
  · cases m.get? k' <;> simp [h]
  · cases m.get? k' <;> simp [h, Option.filter]

theorem mem_keys_filter_ne [DecidableEq κ] {m : AssocMap κ α} {k k' : κ} :
    k' ∈ (m.filter fun k' _ => k' ≠ k).keys ↔ k' ∈ m.keys ∧ k' ≠ k := by
  rw [mem_keys_iff, mem_keys_iff, get?_filter_ne]
  by_cases h : k' = k <;> simp [h]

theorem length_filter_le {m : AssocMap κ α} {p : κ → α → Bool} :
    (m.filter p).entries.length ≤ m.entries.length :=
  List.length_filter_le _ _

theorem values_filter_sublist {m : AssocMap κ α} {p : κ → α → Bool} :
    (m.filter p).values.Sublist m.values :=
  List.filter_sublist.map _

/-- What is left when one entry is taken out. -/
theorem perm_filter_ne [DecidableEq κ] {l : List (κ × α)} {k : κ} {v : α}
    (hl : (l.map Prod.fst).Nodup) (h : (k, v) ∈ l) :
    l.Perm ((k, v) :: l.filter fun e => decide (e.1 ≠ k)) := by
  induction l with
  | nil => exact absurd h List.not_mem_nil
  | cons e l ih =>
      rw [List.map_cons, List.nodup_cons] at hl
      rw [List.filter_cons]
      rcases List.mem_cons.mp h with rfl | hmem
      · have hkeep : (l.filter fun e => decide (e.1 ≠ k)) = l := by
          refine List.filter_eq_self.mpr fun e he => ?_
          exact decide_eq_true fun hk => hl.1 (List.mem_map.mpr ⟨e, he, hk⟩)
        rw [if_neg (by simp), hkeep]
      · have hne : e.1 ≠ k := by
          rintro rfl
          exact hl.1 (List.mem_map.mpr ⟨_, hmem, rfl⟩)
        rw [if_pos (decide_eq_true hne)]
        exact ((ih hl.2 hmem).cons e).trans (.swap (k, v) e _)

theorem values_perm_filter_ne [DecidableEq κ] {m : AssocMap κ α} {k : κ} {v : α}
    (h : m.get? k = some v) :
    m.values.Perm (v :: (m.filter fun k' _ => k' ≠ k).values) :=
  (perm_filter_ne m.nodup (get?_eq_some_iff.mp h)).map Prod.snd

theorem length_insert [DecidableEq κ] {m : AssocMap κ α} {k : κ} {v : α} :
    (m.insert k v).entries.length =
      if k ∈ m.keys then m.entries.length else m.entries.length + 1 := by
  unfold insert
  split_ifs with h
  · simp [modify, mapVal]
  · simp

theorem isEmpty_insert [DecidableEq κ] {m : AssocMap κ α} {k : κ} {v : α} :
    (m.insert k v).isEmpty = false := by
  unfold isEmpty
  rw [List.isEmpty_eq_false_iff_exists_mem]
  exact ⟨(k, v), get?_eq_some_iff.mp get?_insert_self⟩

/-- The map a program builds by inserting the entries one after the other. -/
def ofList [DecidableEq κ] (l : List (κ × α)) : AssocMap κ α :=
  l.foldl (fun m e => m.insert e.1 e.2) empty

theorem entries_insert_of_not_mem [DecidableEq κ] {m : AssocMap κ α} {k : κ} {v : α}
    (h : k ∉ m.keys) : (m.insert k v).entries = m.entries ++ [(k, v)] := by
  rw [insert, dif_neg h]

theorem entries_foldl_insert [DecidableEq κ] {l : List (κ × α)} {m : AssocMap κ α}
    (h : ((m.entries ++ l).map Prod.fst).Nodup) :
    (l.foldl (fun m e => m.insert e.1 e.2) m).entries = m.entries ++ l := by
  induction l generalizing m with
  | nil => exact (List.append_nil _).symm
  | cons e l ih =>
      have hnew : e.1 ∉ m.keys := by
        rw [List.map_append, List.map_cons, List.nodup_append] at h
        exact fun hmem => h.2.2 _ hmem _ List.mem_cons_self rfl
      have hentries := entries_insert_of_not_mem (v := e.2) hnew
      have hsplit : m.entries ++ e :: l = (m.insert e.1 e.2).entries ++ l := by
        rw [hentries, List.append_assoc]
        rfl
      rw [List.foldl_cons, hsplit]
      exact ih (by rwa [← hsplit])

/-- A map is built again from its entries. -/
theorem ofList_entries [DecidableEq κ] (m : AssocMap κ α) : ofList m.entries = m :=
  ext (entries_foldl_insert m.nodup)

/-- A key holds what the last entry with that key brought. -/
theorem get?_foldl_insert [DecidableEq κ] {l : List (κ × α)} {m : AssocMap κ α}
    {k : κ} :
    (l.foldl (fun m e => m.insert e.1 e.2) m).get? k =
      (l.reverse.lookup k).or (m.get? k) := by
  induction l generalizing m with
  | nil => simp
  | cons e l ih =>
      rw [List.foldl_cons, ih, List.reverse_cons, List.lookup_append, get?_insert,
        Option.or_assoc]
      congr 1
      obtain ⟨k₁, v₁⟩ := e
      by_cases h : k = k₁
      · simp [h]
      · simp [h, List.lookup_cons, beq_eq_false_iff_ne.mpr h]

theorem get?_ofList [DecidableEq κ] {l : List (κ × α)} {k : κ} :
    (ofList l).get? k = l.reverse.lookup k := by
  rw [ofList, get?_foldl_insert]
  simp

theorem mem_of_get?_ofList [DecidableEq κ] {l : List (κ × α)} {k : κ} {v : α}
    (h : (ofList l).get? k = some v) : (k, v) ∈ l := by
  rw [get?_ofList] at h
  exact List.mem_reverse.mp (mem_of_lookup_eq_some h)

theorem exists_get?_ofList [DecidableEq κ] {l : List (κ × α)} {k : κ} {v : α}
    (h : (k, v) ∈ l) : ∃ w, (ofList l).get? k = some w := by
  cases hl : l.reverse.lookup k with
  | some w => exact ⟨w, by rw [get?_ofList, hl]⟩
  | none =>
      rw [List.lookup_eq_none_iff] at hl
      have hne := hl (k, v) (List.mem_reverse.mpr h)
      simp at hne

/-- Without a repeated key the map holds exactly the entries of the list. -/
theorem get?_ofList_eq_some_iff [DecidableEq κ] {l : List (κ × α)} {k : κ} {v : α}
    (hl : (l.map Prod.fst).Nodup) : (ofList l).get? k = some v ↔ (k, v) ∈ l := by
  constructor
  · exact mem_of_get?_ofList
  · intro h
    obtain ⟨w, hw⟩ := exists_get?_ofList h
    have hsame := lookup_eq_some_of_mem hl (mem_of_get?_ofList hw)
    rw [lookup_eq_some_of_mem hl h] at hsame
    rw [hw, hsame]

/-- One value inserted under several keys. -/
theorem get?_foldl_insert_const [DecidableEq κ] {ks : List κ} {m : AssocMap κ α} {k : κ} {v : α} :
    ((ks.map fun k => (k, v)).foldl (fun m e => m.insert e.1 e.2) m).get? k =
      if k ∈ ks then some v else m.get? k := by
  induction ks generalizing m with
  | nil => simp
  | cons k₁ ks ih =>
      rw [List.map_cons, List.foldl_cons, ih, get?_insert]
      by_cases hmem : k ∈ ks
      · simp [hmem]
      · simp [hmem]

end AssocMap
