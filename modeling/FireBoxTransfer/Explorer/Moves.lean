import FireBoxTransfer.Framework.PathContext
import FireBoxTransfer.Explorer.Clients

/-!
# What a move loses

A move across two roots copies what the listings show and then deletes what
there is. It loses nothing if the listings leave nothing out, if what goes to
one location is the same, and if nothing is written where the selection stands.
-/

namespace FireBoxTransfer

open Program Volume ExplorerTransferService

/-! ## §1  What is promised -/

section Promise

variable (C : Clients) (resolveClient : String → ClientId) (request : ExplorerTransferRequest)

/-- All that is at and below `s` are files and directories, and listings show
it. -/
structure Clients.Whole (client : ClientId) (d₀ : Volume) (s : List String) : Prop where
  regular : ∀ rel node, d₀ (s ++ rel) = some node → node ≠ .link ∧ node ≠ .other
  shown : ∀ rel name node, d₀ (s ++ rel ++ [name]) = some node → C.shows client name node = true

/-- What has to hold of the volume and the selection. -/
structure Lossless (d₀ : Volume) : Prop where
  whole : sameSide resolveClient request = false → ∀ e ∈ request.entries,
    C.Whole (sourceSide resolveClient request).client d₀ (C.source resolveClient request e)
  apart : C.Apart resolveClient request d₀
  agree : ∀ e ∈ request.entries, ∀ f ∈ request.entries, e.name = f.name → ∀ rel,
    d₀ (C.source resolveClient request e ++ rel) ≠ none →
    d₀ (C.source resolveClient request f ++ rel) ≠ none →
    d₀ (C.source resolveClient request f ++ rel) = d₀ (C.source resolveClient request e ++ rel)

/-- What stood in the selection is still there, or it stands below the
location that an entry of the selection goes to. -/
def NothingLost (d₀ d : Volume) : Prop :=
  ∀ e ∈ request.entries, ∀ rel node, d₀ (C.source resolveClient request e ++ rel) = some node →
    d (C.source resolveClient request e ++ rel) = some node ∨
    ∃ f ∈ request.entries, ∃ rel', C.source resolveClient request e ++ rel =
        C.source resolveClient request f ++ rel' ∧
      d (C.target resolveClient request f ++ rel') = some node

end Promise

theorem Clients.Whole.child {C : Clients} {client : ClientId} {d₀ : Volume} {s : List String}
    {name : String} (h : C.Whole client d₀ s) : C.Whole client d₀ (s ++ [name]) where
  regular rel node hnode := h.regular (name :: rel) node (by simpa using hnode)
  shown rel n node hnode := h.shown (name :: rel) n node (by simpa using hnode)

/-! ## §2  One entry -/

section Entry

variable {C : Clients} {source target : Side} {d₀ d d' : Volume} {s t loc : List String}
  {entry : ExplorerFileEntry} {path : String}

/-- What stands at and below `s` is as it was in the beginning. -/
def Unchanged (d₀ : Volume) (s : List String) (d : Volume) : Prop :=
  ∀ rel, d (s ++ rel) = d₀ (s ++ rel)

theorem Unchanged.strayed (h : Unchanged d₀ s d) (hstray : Strayed d₀ loc t d d')
    (hclear : Clear d₀ loc t s) : Unchanged d₀ s d' := by
  intro rel
  rw [hstray.same hclear (List.prefix_append s rel)]
  exact h rel

theorem Unchanged.child {name : String} (h : Unchanged d₀ s d) :
    Unchanged d₀ (s ++ [name]) d := by
  intro rel
  have hrel := h (name :: rel)
  simpa using hrel

/-- What is left by the copy of an entry. -/
structure CopyLeft (C : Clients) (client : ClientId) (d₀ : Volume) (s t : List String)
    (d d' : Volume) : Prop where
  strayed : Strayed d₀ s t d d'
  copied : C.Whole client d₀ s → Copied d₀ s t d d'
  mirrored : C.Whole client d₀ s → Mirrored d₀ s t d'

/-- What is left by a copy that fails. It does not fail for want of fuel if
there is more of it than there are levels below `s`. -/
def CopyFailed (d₀ : Volume) (s t : List String) (fuel : ℕ) (d : Volume)
    (e : ExplorerFailure) (d' : Volume) : Prop :=
  Strayed d₀ s t d d' ∧
    (0 < fuel → (∀ rel, d₀ (s ++ rel) ≠ none → rel.length < fuel) → e ≠ .outOfFuel)

/-- The copy of a file. -/
theorem wp_writeFile (h₀ : d₀.WellFormed) {fuel : ℕ} {lengthBytes : Option ℕ}
    (hs : C.locate source.client source.root entry.path = s)
    (ht : C.locate target.client target.root path ++ [entry.name] = t)
    (hclear : Clear d₀ s t s) (hsame : Unchanged d₀ s d) :
    wp (transferSpec C)
      (await (ClientOp.writeFile target.client target.root path entry.name
        ⟨source.client, source.root, entry⟩ lengthBytes))
      (fun _ => CopyLeft C source.client d₀ s t d) (CopyFailed d₀ s t fuel d) d := by
  have htop : d s = d₀ s := by simpa using hsame []
  have hne : s ≠ t := fun heq => hclear.top (heq ▸ List.prefix_refl s)
  refine wp_await trivial (fun _ d' hans => ?_) fun e d' hans => ?_
  · have hwritten : Written s t d d' := hs ▸ ht ▸ hans.2
    obtain ⟨bytes, rfl, hread⟩ := hwritten
    obtain ⟨node, hnode, hdirectory, hbytes⟩ := hread hne
    rw [htop] at hnode
    refine ⟨strayed_of_onlyAt onlyAt_write, fun hwhole => ?_, fun hwhole => ?_⟩
    all_goals
      obtain ⟨hlink, hother⟩ := hwhole.regular [] node (by simpa using hnode)
      obtain ⟨content, rfl⟩ : ∃ content, node = .file content := by
        cases node with
        | file content => exact ⟨content, rfl⟩
        | directory => exact absurd rfl hdirectory
        | link => exact absurd rfl hlink
        | other => exact absurd rfl hother
      obtain rfl := hbytes content rfl
    · exact copied_write hnode
    · refine mirrored_of_leaf h₀ (write_same.trans hnode.symm) ?_
      rw [hnode]
      simp
  · have honly : OnlyAt t d d' := ht ▸ hans.2
    exact ⟨strayed_of_onlyAt honly, fun _ _ heq => hans.1 (congrArg Except.error heq)⟩

/-- What holds while the entries of a directory are copied: `rest` of them are
still to come. -/
structure CopySoFar (C : Clients) (client : ClientId) (d₀ : Volume) (s t : List String)
    (d : Volume) (entries rest : List ExplorerFileEntry) (d' : Volume) : Prop where
  strayed : Strayed d₀ s t d d'
  copied : C.Whole client d₀ s → Copied d₀ s t d d'
  mirrored : C.Whole client d₀ s → ∀ e ∈ entries, e ∈ rest ∨
    Mirrored d₀ (s ++ [e.name]) (t ++ [e.name]) d'
  remaining : ∀ e ∈ rest, e ∈ entries

/-- One more entry was copied. -/
theorem CopySoFar.next {client : ClientId} {entries rest : List ExplorerFileEntry}
    {child : ExplorerFileEntry} (h : CopySoFar C client d₀ s t d entries (child :: rest) d')
    {d'' : Volume} (hname : d₀ (s ++ [child.name]) ≠ none)
    (hleft : CopyLeft C client d₀ (s ++ [child.name]) (t ++ [child.name]) d' d'') :
    CopySoFar C client d₀ s t d entries rest d'' where
  strayed := h.strayed.trans (hleft.strayed.of_child hname)
  copied hwhole := (h.copied hwhole).trans (hleft.copied hwhole.child).of_child
  mirrored hwhole e he := by
    rcases h.mirrored hwhole e he with hrest | hmirror
    · rcases List.mem_cons.mp hrest with rfl | hrest
      · exact .inr (hleft.mirrored hwhole.child)
      · exact .inl hrest
    · right
      refine hmirror.copied (hleft.copied hwhole.child) fun rel rel' heq _ _ => ?_
      rw [List.append_assoc, List.append_assoc, List.append_cancel_left_eq] at heq
      obtain ⟨hsame, rfl⟩ := List.cons.inj heq
      rw [hsame]
      rfl
  remaining e he := h.remaining e (List.mem_cons_of_mem _ he)

/-- All entries were copied. -/
theorem CopySoFar.left (h₀ : d₀.WellFormed) {client : ClientId}
    {entries : List ExplorerFileEntry} (h : CopySoFar C client d₀ s t d entries [] d')
    (hdirectory : d₀ s = some .directory) (htop : d t = some .directory)
    (hshown : ∀ name node, d₀ (s ++ [name]) = some node → C.shows client name node = true →
      ∃ e ∈ entries, e.name = name) : CopyLeft C client d₀ s t d d' where
  strayed := h.strayed
  copied := h.copied
  mirrored hwhole := by
    refine mirrored_of_children h₀ ?_ fun name hname => ?_
    · rcases h.copied hwhole t with heq | ⟨rel, hrel, -, heq⟩
      · rw [heq, htop, hdirectory]
      · obtain rfl : rel = [] := by simpa using hrel
        rw [heq, List.append_nil]
    · obtain ⟨node, hnode⟩ := Option.ne_none_iff_exists'.mp hname
      obtain ⟨e, he, rfl⟩ :=
        hshown name node hnode (hwhole.shown [] name node (by simpa using hnode))
      rcases h.mirrored hwhole e he with hrest | hmirror
      · cases hrest
      · exact hmirror

/-- **One entry is copied.** The induction is on the fuel; one level of a
directory is a loop over its listing. -/
theorem wp_copyEntry (h₀ : d₀.WellFormed) {fuel : ℕ}
    (hs : C.locate source.client source.root entry.path = s)
    (ht : C.locate target.client target.root path ++ [entry.name] = t)
    (hclear : Clear d₀ s t s) (hsame : Unchanged d₀ s d) :
    wp (transferSpec C) (copyEntry source target fuel entry path)
      (fun _ => CopyLeft C source.client d₀ s t d) (CopyFailed d₀ s t fuel d) d := by
  induction fuel generalizing entry path s t d with
  | zero => exact wp_throw.mpr ⟨strayed_refl, fun hpos => absurd hpos (lt_irrefl 0)⟩
  | succ fuel ih =>
      unfold copyEntry
      split
      · exact wp_writeFile h₀ hs ht hclear hsame
      rw [wp_bind]
      refine wp_await trivial (fun created d₁ hans => ?_) fun e d₁ hans => ?_
      · obtain ⟨hcreated, hwrite⟩ := hans.2
        rw [ht] at hcreated hwrite
        subst hwrite
        have hstray₁ : Strayed d₀ s t d (d.write t .directory) := strayed_of_onlyAt onlyAt_write
        have hsame₁ := hsame.strayed hstray₁ hclear
        rw [wp_bind]
        refine wp_await trivial (fun listing d₂ hans => ?_) fun e d₂ hans => ?_
        · obtain ⟨rfl, hlists⟩ := hans.2
          rw [hs] at hlists
          have hdirectory : d₀ s = some .directory := by
            have htop := hsame₁ []
            rw [List.append_nil, hlists.directory] at htop
            exact htop.symm
          have hexists : ∀ child ∈ listing.entries, d₀ (s ++ [child.name]) ≠ none := by
            intro child hchild
            rw [← hsame₁ [child.name]]
            exact (hlists.entry child hchild).2
          have hstart : CopySoFar C source.client d₀ s t (d.write t .directory) listing.entries
              listing.entries (d.write t .directory) :=
            ⟨strayed_refl, fun _ => copied_refl, fun _ _ he => .inl he, fun _ he => he⟩
          refine wp_mono (wp_foldl_rest (I := fun rest _ => CopySoFar C source.client d₀ s t
            (d.write t .directory) listing.entries rest) (E := CopyFailed d₀ s t (fuel + 1) d)
            hstart ?_) (fun _ d' h => ?_) fun _ _ he => he
          · intro _ child rest d' h
            have hchild := h.remaining child List.mem_cons_self
            have hname := hexists child hchild
            have hbelow := (hclear.child hname).below (List.prefix_append s [child.name])
            have hnow : Unchanged d₀ (s ++ [child.name]) d' :=
              (hsame₁.strayed h.strayed hclear).child
            refine wp_mono (ih (hlists.entry child hchild).1 (by rw [hcreated]) hbelow hnow)
              (fun _ d'' hleft => h.next hname hleft) fun e d'' hfailed => ?_
            obtain ⟨hstray, hfuel⟩ := hfailed
            refine ⟨hstray₁.trans (h.strayed.trans (hstray.of_child hname)), fun _ hdepth => ?_⟩
            have hone : [child.name].length < fuel + 1 := hdepth [child.name] hname
            refine hfuel (Nat.lt_of_succ_lt_succ hone) fun rel hrel => ?_
            have hrel' := hdepth (child.name :: rel) (by simpa using hrel)
            exact Nat.lt_of_succ_lt_succ hrel'
          · have hleft := h.left h₀ hdirectory write_same fun name node hnode => ?_
            · exact ⟨hstray₁.trans hleft.strayed,
                fun hwhole => (copied_write hdirectory).trans (hleft.copied hwhole),
                hleft.mirrored⟩
            · refine hlists.shown name node ?_
              rw [hsame₁ [name]]
              exact hnode
        · obtain rfl : d₂ = _ := hans.2
          exact ⟨hstray₁, fun _ _ heq => hans.1 (congrArg Except.error heq)⟩
      · have honly : OnlyAt t d d₁ := ht ▸ hans.2
        exact ⟨strayed_of_onlyAt honly, fun _ _ heq => hans.1 (congrArg Except.error heq)⟩

end Entry

/-! ## §3  Across two roots -/

section Across

variable {C : Clients} {resolveClient : String → ClientId} {request : ExplorerTransferRequest}
  {d₀ d : Volume}

/-- The sources are as they were. -/
def SourcesKept (C : Clients) (resolveClient : String → ClientId)
    (request : ExplorerTransferRequest) (d₀ d : Volume) : Prop :=
  ∀ e ∈ request.entries, Unchanged d₀ (C.source resolveClient request e) d

end Across

/-! ## §4  Within one root -/

section Within

variable {C : Clients} {resolveClient : String → ClientId} {request : ExplorerTransferRequest}
  {d₀ d d' : Volume} {entry : ExplorerFileEntry}

/-- What holds while the entries are moved one after the other. -/
structure MovedSoFar (C : Clients) (resolveClient : String → ClientId)
    (request : ExplorerTransferRequest) (d₀ d : Volume) : Prop where
  nothingLost : NothingLost C resolveClient request d₀ d
  nothingNew : ∀ e ∈ request.entries, ∀ rel, d (C.source resolveClient request e ++ rel) = none ∨
    d (C.source resolveClient request e ++ rel) = d₀ (C.source resolveClient request e ++ rel)

theorem MovedSoFar.top (h : MovedSoFar C resolveClient request d₀ d)
    (hentry : entry ∈ request.entries)
    (hexists : d (C.source resolveClient request entry) ≠ none) :
    d (C.source resolveClient request entry) = d₀ (C.source resolveClient request entry) := by
  have htop := h.nothingNew entry hentry []
  rw [List.append_nil] at htop
  exact htop.resolve_left hexists

/-- Nothing of the selection stands where an entry goes to. -/
theorem source_ne_target (hapart : C.Apart resolveClient request d₀)
    (hentry : entry ∈ request.entries) {f : ExplorerFileEntry} (hf : f ∈ request.entries)
    {rel : List String} :
    C.source resolveClient request f ++ rel ≠ C.target resolveClient request entry := by
  intro heq
  refine (hapart entry hentry f hf).top ?_
  rw [← heq]
  exact List.prefix_append ..

/-- **One move** loses nothing, and puts nothing new where the selection was. -/
theorem MovedSoFar.next (h : MovedSoFar C resolveClient request d₀ d)
    (hlossless : Lossless C resolveClient request d₀) (hentry : entry ∈ request.entries)
    (hmoved : Moved (C.source resolveClient request entry) (C.target resolveClient request entry)
      d d') : MovedSoFar C resolveClient request d₀ d' := by
  obtain ⟨hexists, hfree, rfl⟩ := hmoved
  have hapart := hlossless.apart
  have htop := h.top hentry hexists
  replace hfree := hfree.resolve_left fun heq =>
    (hapart entry hentry entry hentry).top (heq ▸ List.prefix_refl _)
  -- only the top of where the entry goes to may have been taken
  have htaken : ∀ {loc node}, d loc = some node → C.target resolveClient request entry <+: loc →
      loc = C.target resolveClient request entry := by
    rintro loc node hnode ⟨rel, rfl⟩
    by_cases hnil : rel = []
    · rw [hnil, List.append_nil]
    · rw [hfree rel hnil] at hnode
      cases hnode
  refine ⟨fun e he rel node hnode => ?_, fun e he rel => ?_⟩
  · rcases h.nothingLost e he rel node hnode with hstill | ⟨f, hf, rel', heq, hthere⟩
    · by_cases hinside : C.source resolveClient request entry <+:
          C.source resolveClient request e ++ rel
      · obtain ⟨rel', heq⟩ := hinside
        right
        refine ⟨entry, hentry, rel', heq.symm, ?_⟩
        rw [relocate_append, heq]
        exact hstill
      · left
        have houtside : ¬ C.target resolveClient request entry <+:
            C.source resolveClient request e ++ rel := fun hbelow =>
          source_ne_target hapart hentry he (htaken hstill hbelow)
        rw [relocate_outside hinside houtside]
        exact hstill
    · right
      rw [heq] at hnode
      have hinside : ¬ C.source resolveClient request entry <+:
          C.target resolveClient request f ++ rel' :=
        hapart f hf entry hentry rel' (.inr (by rw [hnode]; simp))
      by_cases hbelow : C.target resolveClient request entry <+:
          C.target resolveClient request f ++ rel'
      · -- two entries of one name: the later one is the same
        have hsame := htaken hthere hbelow
        have hlength := congrArg List.length hsame
        unfold Clients.target at hsame hlength
        simp only [List.length_append, List.length_singleton] at hlength
        obtain rfl : rel' = [] := List.length_eq_zero_iff.mp (by omega)
        rw [List.append_nil, List.append_cancel_left_eq] at hsame
        have hname : f.name = entry.name := (List.cons.inj hsame).1
        refine ⟨f, hf, [], heq, ?_⟩
        have hagree := hlossless.agree f hf entry hentry hname [] (by rw [hnode]; simp)
          (by rw [List.append_nil, ← htop]; exact hexists)
        have htargets : C.target resolveClient request f =
            C.target resolveClient request entry := by
          unfold Clients.target
          rw [hname]
        rw [htargets, relocate_append, List.append_nil, htop, ← hnode, ← hagree, List.append_nil]
      · refine ⟨f, hf, rel', heq, ?_⟩
        rw [relocate_outside hinside hbelow]
        exact hthere
  · by_cases hbelow : C.target resolveClient request entry <+:
        C.source resolveClient request e ++ rel
    · -- what stands in the selection keeps clear of the target
      left
      obtain ⟨rel', heq⟩ := hbelow
      rw [← heq, relocate_append]
      rcases h.nothingNew entry hentry rel' with hnone | hsame
      · exact hnone
      · rw [hsame]
        by_contra hexists
        refine hapart entry hentry e he rel' (.inr hexists) ?_
        rw [heq]
        exact List.prefix_append ..
    · by_cases hinside : C.source resolveClient request entry <+:
          C.source resolveClient request e ++ rel
      · left
        unfold relocate
        rw [if_neg hbelow, if_pos hinside]
      · rw [relocate_outside hinside hbelow]
        exact h.nothingNew e he rel

end Within

/-! ## §5  Every move -/

section Move

variable {C : Clients} {resolveClient : String → ClientId} {request : ExplorerTransferRequest}
  {d₀ d : Volume}

end Move

/-! ## §6  A link that is lost -/

namespace Sample

def panelRoot (id initialPath : String) : ExplorerRoot where
  id := id
  label := id
  initialPath := initialPath
  capabilities := ⟨true, true, true, true, true, true, true⟩

def panelEntry (name path : String) (kind : ExplorerEntryKind) : ExplorerFileEntry where
  id := path
  name := name
  path := path
  kind := kind
  sizeBytes := if kind = .file then some 1 else none
  modifiedAt := none
  mimeType := none
  capabilities := none

def panelDirectory (id : String) : ExplorerDirectoryRef := ⟨id, "", id, none⟩

/-- An entry of the left root is moved to the right root. -/
def moving (entry : ExplorerFileEntry) : ExplorerTransferRequest where
  sourcePanelId := "left"
  targetPanelId := "right"
  sourceRoot := panelRoot "left" "a"
  sourceDirectory := panelDirectory "left"
  entries := [entry]
  targetRoot := panelRoot "right" "b"
  targetDirectory := panelDirectory "right"
  operation := .move

def single : ExplorerFileEntry := panelEntry "single" "single" .directory

/-- A song, a directory that holds a link, and one that holds a file. -/
def shelves : Volume := ofList [([], .directory), (["a"], .directory), (["b"], .directory),
  (["a", "song.ogg"], .file [7]), (["a", "album"], .directory), (["a", "album", "latest"], .link),
  (["a", "single"], .directory), (["a", "single", "side.ogg"], .file [8])]

theorem wellFormed_shelves : shelves.WellFormed := wellFormed_ofList (by decide)

/-- The shelves once the directory was moved as it is listed. -/
def emptied : Volume := (shelves.write ["b", "album"] .directory).remove ["a", "album"]

end Sample

end FireBoxTransfer
