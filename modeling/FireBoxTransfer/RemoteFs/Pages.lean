import FireBoxTransfer.RemoteFs.Serving
import FireBoxTransfer.Framework.Texts
import Mathlib.Data.List.Perm.Basic

/-!
# The pages of a listing

Every request for a page lists the whole directory again, sorts what it finds
and cuts out one page. The order tells any two names apart, so that a directory
that stays as it is gets the same sorted list each time, in whatever order its
entries are found; the cursor carries the offset of the next page.
-/

namespace FireBoxTransfer

open Program

/-! ## §1  The order -/

def charUnits (ch : Char) : List ℕ :=
  let n := ch.toNat
  if n < 0x10000 then [n]
  else [0xd800 + (n - 0x10000) / 0x400, 0xdc00 + (n - 0x10000) % 0x400]

theorem codeUnits_eq (s : String) : codeUnits s = s.toList.flatMap charUnits := rfl

/-- No character is a surrogate, so the first unit says how many there are. -/
theorem charUnits_append_inj {a b : Char} {l m : List ℕ}
    (h : charUnits a ++ l = charUnits b ++ m) : a = b ∧ l = m := by
  have ha : a.toNat < 0xd800 ∨ 0xdfff < a.toNat ∧ a.toNat < 0x110000 := a.valid
  have hb : b.toNat < 0xd800 ∨ 0xdfff < b.toNat ∧ b.toNat < 0x110000 := b.valid
  unfold charUnits at h
  dsimp only at h
  split_ifs at h with hlow hlow' hlow'
  · obtain ⟨hhead, rfl⟩ := List.cons.inj h
    exact ⟨Char.toNat_inj.mp hhead, rfl⟩
  · have hhead := (List.cons.inj h).1
    omega
  · have hhead := (List.cons.inj h).1
    omega
  · obtain ⟨hhigh, htail⟩ := List.cons.inj h
    obtain ⟨hlow, rfl⟩ := List.cons.inj htail
    exact ⟨Char.toNat_inj.mp (by omega), rfl⟩

theorem codeUnits_injective {s t : String} (h : codeUnits s = codeUnits t) : s = t := by
  rw [codeUnits_eq, codeUnits_eq] at h
  rw [← String.toList_inj]
  generalize s.toList = l at h ⊢
  generalize t.toList = m at h ⊢
  have hne : ∀ ch : Char, charUnits ch ≠ [] := by
    intro ch
    unfold charUnits
    dsimp only
    split_ifs <;> simp
  induction l generalizing m with
  | nil =>
      cases m with
      | nil => rfl
      | cons b m => exact absurd (List.append_eq_nil_iff.mp h.symm).1 (hne b)
  | cons a l ih =>
      cases m with
      | nil => exact absurd (List.append_eq_nil_iff.mp h).1 (hne a)
      | cons b m =>
          obtain ⟨rfl, htail⟩ := charUnits_append_inj h
          rw [ih m htail]

section Order

variable {X : RemoteFsExternals}

/-- The comparison is lexicographic: by kind, by name without letter case, by name. -/
theorem compareRemoteFsEntries_eq : compareRemoteFsEntries X =
    compareLex (compareOn fun entry => decide (entry.entryType ≠ .directory))
      (compareLex (compareOn fun entry => codeUnits (X.toLowerCase entry.name))
        (compareOn fun entry => codeUnits entry.name)) := by
  funext first second
  simp only [compareRemoteFsEntries, compareLex, compareOn]
  cases first.entryType <;> cases second.entryType <;> rfl

instance : Std.TransCmp (compareRemoteFsEntries X) := by
  rw [compareRemoteFsEntries_eq]
  infer_instance

/-- Only entries of one name are equal in the order. -/
theorem name_eq_of_compare_eq {first second : RemoteFsEntry}
    (h : compareRemoteFsEntries X first second = .eq) : first.name = second.name := by
  rw [compareRemoteFsEntries_eq] at h
  unfold compareLex compareOn at h
  have hunits := (Ordering.then_eq_eq.mp (Ordering.then_eq_eq.mp h).2).2
  exact codeUnits_injective (Std.LawfulEqOrd.eq_of_compare hunits)

theorem pairwise_sortedEntries {entries : List RemoteFsEntry} :
    (sortedEntries X entries).Pairwise fun a b => (compareRemoteFsEntries X a b).isLE := by
  have hle : ∀ a b : RemoteFsEntry, decide (compareRemoteFsEntries X a b ≠ .gt) =
      (compareRemoteFsEntries X a b).isLE := by
    intro a b
    cases compareRemoteFsEntries X a b <;> rfl
  unfold sortedEntries
  simp only [hle]
  refine List.pairwise_mergeSort (fun a b c => Std.TransCmp.isLE_trans) (fun a b => ?_) entries
  have hswap : compareRemoteFsEntries X a b = (compareRemoteFsEntries X b a).swap :=
    Std.OrientedCmp.eq_swap
  rw [hswap]
  cases compareRemoteFsEntries X b a <;> rfl

/-- The order in which entries of different names are found is forgotten. -/
theorem sortedEntries_congr {entries found : List RemoteFsEntry} (h : found.Perm entries)
    (hnames : (entries.map RemoteFsEntry.name).Nodup) :
    sortedEntries X found = sortedEntries X entries := by
  have hperm : (sortedEntries X found).Perm (sortedEntries X entries) :=
    sortedEntries_perm.trans (h.trans sortedEntries_perm.symm)
  refine hperm.eq_of_pairwise (fun a b ha hb hab hba => ?_) pairwise_sortedEntries
    pairwise_sortedEntries
  have hname := name_eq_of_compare_eq (Std.OrientedCmp.isLE_antisymm hab hba)
  have hmem : a ∈ entries := h.subset (sortedEntries_perm.subset ha)
  exact List.inj_on_of_nodup_map hnames hmem (sortedEntries_perm.subset hb) hname

end Order

/-! ## §2  Cursors -/

/-- The cursor of an offset. -/
def cursorOf (offset : ℕ) : String := "v1:" ++ toString offset

theorem decodeListCursor_cursorOf {offset : ℕ} (h : offset < 10 ^ 10) :
    decodeListCursor (some (cursorOf offset)) = .pure offset := by
  have hlist : (cursorOf offset).toList = 'v' :: '1' :: ':' :: Nat.toDigits 10 offset := by
    unfold cursorOf
    rw [String.toList_append, Texts.toList_toString]
    rfl
  have hlong : (Nat.toDigits 10 offset).length ≤ 10 :=
    (Nat.length_toDigits_le_iff (by omega) (by omega)).mpr h
  have hpos : 1 ≤ (Nat.toDigits 10 offset).length := Nat.length_toDigits_pos
  have hdigits : (Nat.toDigits 10 offset).all Char.isDigit = true := by
    rw [List.all_eq_true]
    intro c hc
    exact Nat.isDigit_of_mem_toDigits (by omega) (by omega) hc
  have hvalid : (decide (1 ≤ (Nat.toDigits 10 offset).length) &&
      decide ((Nat.toDigits 10 offset).length ≤ 10) && (Nat.toDigits 10 offset).all Char.isDigit) =
        true := by
    rw [decide_eq_true hpos, decide_eq_true hlong, hdigits]
    rfl
  unfold decodeListCursor
  dsimp only
  rw [hlist]
  refine (if_pos hvalid).trans ?_
  show Program.pure (Nat.ofDigitChars 10 (Nat.toDigits 10 offset) 0) = _
  rw [Nat.ofDigitChars_ten_toDigits]

theorem cursorOf_injective {m n : ℕ} (h : cursorOf m = cursorOf n) : m = n := by
  unfold cursorOf at h
  rw [← String.toList_inj, String.toList_append, String.toList_append, Texts.toList_toString,
    Texts.toList_toString] at h
  have hdigits := List.append_cancel_left h
  rw [← Nat.ofDigitChars_ten_toDigits (n := m), hdigits, Nat.ofDigitChars_ten_toDigits]

/-! ## §3  An unchanged directory -/

/-- What is collected one after the other is collected of each. -/
theorem foldlM_collect {α β ε : Type} {g : β → Except ε (List α)} {init out : List α}
    {bs : List β} : bs.foldlM (fun s b => (g b).map (s ++ ·)) init = .ok out ↔
      (∀ b ∈ bs, ∃ l, g b = .ok l) ∧
        out = init ++ bs.flatMap fun b => ((g b).toOption).getD [] := by
  induction bs generalizing init with
  | nil =>
      rw [List.foldlM_nil]
      constructor
      · intro h
        exact ⟨by simp, by simpa using (Except.ok.inj h).symm⟩
      · rintro ⟨-, rfl⟩
        rw [List.flatMap_nil, List.append_nil]
        rfl
  | cons b bs ih =>
      rw [List.foldlM_cons]
      cases hb : g b with
      | error e =>
          constructor
          · intro h
            cases h
          · rintro ⟨hall, -⟩
            obtain ⟨l, hl⟩ := hall b List.mem_cons_self
            rw [hb] at hl
            cases hl
      | ok l =>
          show bs.foldlM (fun s b => (g b).map (s ++ ·)) (init ++ l) = .ok out ↔ _
          rw [ih]
          rw [List.flatMap_cons, hb, List.append_assoc, List.forall_mem_cons]
          simp [hb, Except.toOption]

/-- Two requests find the same directory: what they look up is the same, and
what they list is the same up to the order. -/
structure SameDirectory (answer answer' : (op : FsOp) → Except RemoteFsError op.Answer) :
    Prop where
  lookup : ∀ op, op.IsLookup → answer' op = answer op
  resolved : ∀ uri path, answer' (.resolveSafRelativePath uri path) =
    answer (.resolveSafRelativePath uri path)
  listed : ∀ path entities, answer (.listDirectory path) = .ok entities →
    ∃ found, answer' (.listDirectory path) = .ok found ∧ found.Perm entities
  listedSaf : ∀ uri documents, answer (.listSafDirectory uri) = .ok documents →
    ∃ found, answer' (.listSafDirectory uri) = .ok found ∧ found.Perm documents

section Same

variable {X : RemoteFsExternals} {access access' : RemoteFsAccessConfig}
  {answer answer' : (op : FsOp) → Except RemoteFsError op.Answer} {grant : RemoteFsGrant}
  {path : String} {entries : List RemoteFsEntry}

/-- An entity adds to the entries that were found before it. -/
theorem run_listLocalEntity {found : List RemoteFsEntry} {entity : String} :
    (listLocalEntity X grant path found entity).run access answer =
      ((listLocalEntity X grant path [] entity).run access answer).map (found ++ ·) := by
  unfold listLocalEntity
  rw [run_bind, run_bind]
  cases (entityType entity).run access answer with
  | error e => rfl
  | ok type =>
      show Program.run access answer (ite ..) = Except.map _ (Program.run access answer (ite ..))
      split_ifs
      · rw [run_pure, run_pure]
        simp [Except.map]
      · rw [run_catching, run_catching, run_bind, run_bind]
        cases (resolvedEntry X grant
          (childRemotePath path (X.path.basename entity))).run access answer with
        | ok entry => rfl
        | error e =>
            show Program.run access answer _ = Except.map _ (Program.run access answer _)
            split
            · simp [run_pure, Except.map]
            · simp [run_pure, Except.map]
            · rfl

theorem run_listLocalEntities {entities : List String} :
    (Program.foldl (listLocalEntity X grant path) [] entities).run access answer =
      entities.foldlM (fun found entity =>
        ((listLocalEntity X grant path [] entity).run access answer).map (found ++ ·)) [] := by
  rw [run_foldl]
  have hstep : (fun found entity => (listLocalEntity X grant path found entity).run access answer) =
      fun found entity =>
        ((listLocalEntity X grant path [] entity).run access answer).map (found ++ ·) := by
    funext found entity
    exact run_listLocalEntity
  rw [hstep]

theorem SameDirectory.run_lookup {α : Type} {p : RemoteFsM α} (h : SameDirectory answer answer')
    (hp : p.Uses FsOp.IsLookup) : p.run access' answer' = p.run access answer :=
  hp.run_congr h.lookup

theorem SameDirectory.run_listLocalDirectory (h : SameDirectory answer answer')
    (hrun : (listLocalDirectory X grant path).run access answer = .ok entries) :
    ∃ found, (listLocalDirectory X grant path).run access' answer' = .ok found ∧
      found.Perm entries := by
  unfold listLocalDirectory at hrun ⊢
  obtain ⟨resolved, hresolved, hrun⟩ := run_bind_eq_ok.mp hrun
  obtain ⟨_, hdirectory, hrun⟩ := run_bind_eq_ok.mp hrun
  obtain ⟨entities, hentities, hrun⟩ := run_bind_eq_ok.mp (run_mapFileSystem_eq_ok.mp hrun)
  rw [run_await] at hentities
  obtain ⟨found, hfound, hperm⟩ := h.listed _ _ hentities
  rw [run_listLocalEntities] at hrun
  obtain ⟨hall, rfl⟩ := foldlM_collect.mp hrun
  have hentity : ∀ entity, (listLocalEntity X grant path [] entity).run access' answer' =
      (listLocalEntity X grant path [] entity).run access answer :=
    fun entity => h.run_lookup uses_listLocalEntity
  refine ⟨[] ++ found.flatMap _, ?_, (hperm.flatMap_right _).append_left []⟩
  refine run_bind_eq_ok.mpr ⟨resolved, (h.run_lookup uses_resolveExistingLocal).trans hresolved, ?_⟩
  refine run_bind_eq_ok.mpr ⟨(), run_require_eq_ok.mpr (run_require_eq_ok.mp hdirectory), ?_⟩
  refine run_mapFileSystem_eq_ok.mpr (run_bind_eq_ok.mpr ⟨found, (run_await _).trans hfound, ?_⟩)
  rw [run_listLocalEntities]
  simp only [hentity]
  exact foldlM_collect.mpr ⟨fun entity hentity => hall entity (hperm.subset hentity), rfl⟩

theorem SameDirectory.run_listSafDirectory (h : SameDirectory answer answer')
    (hrun : (listSafDirectory X grant path).run access answer = .ok entries) :
    ∃ found, (listSafDirectory X grant path).run access' answer' = .ok found ∧
      found.Perm entries := by
  unfold listSafDirectory at hrun ⊢
  obtain ⟨directory, hdirectory, hrun⟩ := run_bind_eq_ok.mp hrun
  obtain ⟨_, hisDirectory, hrun⟩ := run_bind_eq_ok.mp hrun
  obtain ⟨documents, hdocuments, hrun⟩ := run_bind_eq_ok.mp (run_mapSaf_eq_ok.mp hrun)
  rw [run_await] at hdocuments
  obtain ⟨found, hfound, hperm⟩ := h.listedSaf _ _ hdocuments
  obtain rfl := Except.ok.inj hrun
  have hsame : (resolveSafDocument grant path).run access' answer' =
      (resolveSafDocument grant path).run access answer := by
    have huses : (resolveSafDocument grant path).Uses
        fun op => op = .resolveSafRelativePath grant.locator path :=
      uses_validateRelativePath.bind fun _ => uses_mapSaf (uses_await _ rfl)
    refine huses.run_congr fun op hop => ?_
    rw [hop]
    exact h.resolved _ _
  refine ⟨_, ?_, (hperm.filter _).map _⟩
  refine run_bind_eq_ok.mpr ⟨directory, hsame.trans hdirectory, ?_⟩
  refine run_bind_eq_ok.mpr ⟨(), run_require_eq_ok.mpr (run_require_eq_ok.mp hisDirectory), ?_⟩
  refine run_mapSaf_eq_ok.mpr (run_bind_eq_ok.mpr ⟨found, (run_await _).trans hfound, ?_⟩)
  rfl

/-- **An unchanged directory is listed again** up to the order. -/
theorem SameDirectory.run_listDirectoryOf (h : SameDirectory answer answer')
    (hrun : (listDirectoryOf X grant path).run access answer = .ok entries) :
    ∃ found, (listDirectoryOf X grant path).run access' answer' = .ok found ∧
      found.Perm entries := by
  unfold listDirectoryOf at hrun ⊢
  cases hkind : grant.kind with
  | localPath =>
      rw [hkind] at hrun
      exact h.run_listLocalDirectory hrun
  | androidSaf =>
      rw [hkind] at hrun
      exact h.run_listSafDirectory hrun

end Same

end FireBoxTransfer
