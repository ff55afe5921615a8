import FireBoxTransfer.Explorer.ClientCopies

/-!
# Transfers that overlap their source

A copy across two roots lists a directory after it made its copy, so where the
copy is made inside the source there is always more to copy; and a file that is
copied onto itself is truncated before it is read. Where the copies keep clear
of the selection, or the client replaces nothing, or refuses, a transfer ends
and leaves the selection as it was, unless it deletes or moves it in the end.
-/

namespace FireBoxTransfer

open Program Volume ExplorerTransferService

/-! ## §1  What keeps clear -/

/-- The calls that take the source away. -/
def ClientOp.isRemoval : ClientOp → Bool
  | .move _ _ _ _ | .delete _ _ _ => true
  | _ => false

namespace ExplorerClients

section KeepsClear

variable (E : ExplorerClients) (resolveClient : String → ClientId)
  (request : ExplorerTransferRequest)

/-- What a call may answer and leave, when a client goes down `fuel` levels in a copy within
one root. -/
def RunAnswers (fuel : ℕ) (d d' : Volume) :
    (op : ClientOp) → Except ExplorerFailure op.Answer → Prop
  | .copy id root entry destinationPath, a => E.CopyRuns fuel id root entry destinationPath d a d'
  | op, a => E.callSpec.answers op d a d'

/-- Executions in which no call that takes a source away fails, unless nothing of the selection
is changed then and the call changes nothing. -/
def steadySpec (fuel : ℕ) (d₀ : Volume) :
    Spec Unit ExplorerFailure ClientOp ClientOp.Answer Volume where
  mayRead _ := True
  reads d _ d' := d' = d
  mayCall _ _ := True
  answers op d a d' := E.RunAnswers fuel d d' op a ∧ (op.isRemoval = true →
    (∃ result, a = .ok result) ∨ SourcesKept E.clients resolveClient request d₀ d ∧ d' = d)

/-- Where the copy of an entry may go to. -/
def Lands (d₀ : Volume) (entry : ExplorerFileEntry) (loc : List String) : Prop :=
  if sameSide resolveClient request then
    E.CopyLands (targetSide resolveClient request).client request.sourceRoot entry
      request.targetDirectory.path d₀ loc
  else
    E.Puts (targetSide resolveClient request).client
      (E.clients.locate (targetSide resolveClient request).client request.targetRoot
        request.targetDirectory.path) entry.name d₀ loc

/-- Each entry is moved within one root, or the client refuses to copy it, or its copy writes
nothing where the selection stands. -/
def KeepsClear (d₀ : Volume) : Prop :=
  ∀ e ∈ request.entries,
    (sameSide resolveClient request = true ∧ request.operation = .move) ∨
    (sameSide resolveClient request = true ∧
      E.Refuses (targetSide resolveClient request).client request.sourceRoot e
        request.targetDirectory.path d₀) ∨
    ∀ loc, E.Lands resolveClient request d₀ e loc → ∀ f ∈ request.entries,
      E.Spares (targetSide resolveClient request).client d₀
        (E.clients.source resolveClient request e) loc (E.clients.source resolveClient request f)

/-- The locations of the selection. -/
def sources : List (List String) := request.entries.map (E.clients.source resolveClient request)

end KeepsClear

end ExplorerClients

/-- A transfer that has failed, or only copied. -/
def LeavesSources (request : ExplorerTransferRequest) (q : ExplorerM Unit) : Prop :=
  request.operation = .copy ∨ ∃ e, q = .throw e

namespace ExplorerClients

section Overlaps

variable {E : ExplorerClients} {resolveClient : String → ClientId}
  {request : ExplorerTransferRequest} {d₀ d : Volume} {fuel : ℕ} {id : ClientId}

theorem Spared.kept (h : E.Spared id (E.sources resolveClient request) d₀ d) :
    SourcesKept E.clients resolveClient request d₀ d :=
  fun _ he => h.unchanged _ (List.mem_map_of_mem he)

theorem mem_sources {e : ExplorerFileEntry} (he : e ∈ request.entries) :
    E.clients.source resolveClient request e ∈ E.sources resolveClient request :=
  List.mem_map_of_mem he

theorem spares_of_entries {s loc : List String}
    (h : ∀ f ∈ request.entries, E.Spares id d₀ s loc (E.clients.source resolveClient request f)) :
    ∀ u ∈ E.sources resolveClient request, E.Spares id d₀ s loc u := by
  intro u hu
  obtain ⟨f, hf, rfl⟩ := List.mem_map.mp hu
  exact h f hf

/-- What holds of calls holds when copies are run, where none is called. -/
theorem wp_steady {α : Type} {p : ExplorerM α} {Q : α → Volume → Prop}
    {Er : ExplorerFailure → Volume → Prop} (h : p.wp E.callSpec Q Er d) :
    p.wp (E.steadySpec resolveClient request fuel d₀) Q Er d := by
  refine wp_spec_mono h (fun _ _ => trivial) (fun _ _ _ hr => hr) (fun _ _ _ => trivial)
    fun op d a d' hans => ?_
  cases op with
  | copy id root entry destinationPath => exact ⟨fun _ => rfl, trivial⟩
  | getMetadata id root path => exact hans.1
  | listDirectory id root path => exact hans.1
  | createDirectory id root parentPath name => exact hans.1
  | move id root entry destinationPath => exact hans.1
  | delete id root entry => exact hans.1
  | writeFile id root destinationPath fileName content lengthBytes => exact hans.1

/-! ## §2  Across two roots -/

/-- The copies end, and the sources are as they were. -/
theorem wp_copiesKeep (hsides : sameSide resolveClient request = false)
    (hclear : E.KeepsClear resolveClient request d₀) (hpos : 0 < fuel)
    (hfuel : ∀ loc, d₀ loc ≠ none → loc.length < fuel) :
    wp E.callSpec (foldl (fun _ entry => copyEntry (sourceSide resolveClient request)
        (targetSide resolveClient request) fuel entry request.targetDirectory.path) ()
        request.entries)
      (fun _ => SourcesKept E.clients resolveClient request d₀)
      (fun e d => e ≠ .outOfFuel ∧ SourcesKept E.clients resolveClient request d₀ d) d₀ := by
  suffices hloop : wp E.callSpec (foldl (fun _ entry => copyEntry (sourceSide resolveClient request)
      (targetSide resolveClient request) fuel entry request.targetDirectory.path) ()
      request.entries)
      (fun _ => E.Spared (targetSide resolveClient request).client
        (E.sources resolveClient request) d₀)
      (fun e d => e ≠ .outOfFuel ∧ SourcesKept E.clients resolveClient request d₀ d) d₀ from
    wp_mono hloop (fun _ _ h => h.kept) fun _ _ h => h
  refine wp_foldl (I := fun _ => E.Spared (targetSide resolveClient request).client
    (E.sources resolveClient request) d₀) ⟨fun _ _ _ => rfl, fun _ _ _ => rfl⟩ ?_
  intro _ entry d hentry hspared
  have hmay : E.MayCopy (targetSide resolveClient request).client (E.sources resolveClient request)
      d₀ (E.clients.source resolveClient request entry)
      (E.clients.locate (targetSide resolveClient request).client
        (targetSide resolveClient request).root request.targetDirectory.path) entry.name := by
    refine ⟨⟨_, mem_sources hentry, List.prefix_refl _⟩, fun loc hputs => spares_of_entries ?_⟩
    rcases hclear entry hentry with hmoved | hrefused | hspares
    · rw [hsides] at hmoved
      cases hmoved.1
    · rw [hsides] at hrefused
      cases hrefused.1
    · refine hspares loc ?_
      unfold Lands
      rw [hsides]
      exact hputs
  refine wp_mono (wp_copyEntry rfl hmay hspared) (fun _ _ h => h) fun e d' hfailed => ⟨?_, ?_⟩
  · refine hfailed.2 hpos fun rel hrel => ?_
    have hlength := hfuel _ hrel
    rw [List.length_append] at hlength
    omega
  · exact hfailed.1.kept

/-- What holds in the end. -/
def KeptUnlessMoved (E : ExplorerClients) (resolveClient : String → ClientId)
    (request : ExplorerTransferRequest) (d₀ d : Volume) : Prop :=
  request.operation = .copy → SourcesKept E.clients resolveClient request d₀ d

/-- A call that takes a source away. -/
theorem wp_removal {op : ClientOp} (hop : op.isRemoval = true)
    (hmove : request.operation = .move) (hfuel : ∀ d d',
      E.RunAnswers fuel d d' op (.error .outOfFuel) → False) :
    wp (E.steadySpec resolveClient request fuel d₀) (await op)
      (fun _ => E.KeptUnlessMoved resolveClient request d₀)
      (fun e d => e ≠ .outOfFuel ∧ SourcesKept E.clients resolveClient request d₀ d) d := by
  refine wp_await trivial (fun _ d' _ hcopy => ?_) fun e d' hans => ⟨?_, ?_⟩
  · rw [hmove] at hcopy
    cases hcopy
  · rintro rfl
    exact hfuel _ _ hans.1
  · rcases hans.2 hop with ⟨result, hok⟩ | ⟨hkept, rfl⟩
    · cases hok
    · exact hkept

theorem wp_acrossKeeps (hsides : sameSide resolveClient request = false)
    (hclear : E.KeepsClear resolveClient request d₀) (hpos : 0 < fuel)
    (hfuel : ∀ loc, d₀ loc ≠ none → loc.length < fuel) :
    wp (E.steadySpec resolveClient request fuel d₀) (transferAcross resolveClient fuel request)
      (fun _ => E.KeptUnlessMoved resolveClient request d₀)
      (fun e d => e ≠ .outOfFuel ∧ SourcesKept E.clients resolveClient request d₀ d) d₀ := by
  unfold transferAcross
  dsimp only
  rw [wp_bind]
  refine wp_mono (wp_steady (wp_copiesKeep hsides hclear hpos hfuel)) (fun _ d hkept => ?_)
    fun _ _ he => he
  split
  · rename_i hmove
    refine wp_foldl (I := fun _ => E.KeptUnlessMoved resolveClient request d₀) (fun _ => hkept)
      fun _ entry d _ _ => wp_removal rfl hmove fun d d' hans => ?_
    exact Bool.false_ne_true (hans.1 rfl)
  · exact wp_pure.mpr fun _ => hkept

/-! ## §3  Within one root -/

theorem wp_withinKeeps (hsides : sameSide resolveClient request = true)
    (hclear : E.KeepsClear resolveClient request d₀) (hpos : 0 < fuel)
    (hfuel : ∀ loc, d₀ loc ≠ none → loc.length < fuel) {entry : ExplorerFileEntry}
    (hentry : entry ∈ request.entries)
    (h : request.operation = .copy → E.Spared (targetSide resolveClient request).client
      (E.sources resolveClient request) d₀ d) :
    wp (E.steadySpec resolveClient request fuel d₀) (transferWithin resolveClient request entry)
      (fun _ d => request.operation = .copy → E.Spared (targetSide resolveClient request).client
        (E.sources resolveClient request) d₀ d)
      (fun e d => e ≠ .outOfFuel ∧ SourcesKept E.clients resolveClient request d₀ d) d := by
  have hclient : (sourceSide resolveClient request).client =
      (targetSide resolveClient request).client := by
    unfold sameSide at hsides
    exact of_decide_eq_true (Bool.and_eq_true_iff.mp hsides).1
  unfold transferWithin
  dsimp only
  split
  · rename_i hmove
    rw [wp_bind]
    refine wp_mono (wp_removal rfl hmove fun d d' hans => Bool.false_ne_true (hans.1 rfl))
      (fun _ d' _ => wp_pure.mpr fun hcopy => ?_) fun _ _ he => he
    rw [hmove] at hcopy
    cases hcopy
  · rename_i hcopy
    have hspares := (hclear entry hentry).resolve_left fun hmoved => by
      rw [hcopy] at hmoved
      cases hmoved.2
    have hruns : ∀ {a d'}, E.CopyRuns fuel (targetSide resolveClient request).client
        request.sourceRoot entry request.targetDirectory.path d a d' →
        E.Spared (targetSide resolveClient request).client (E.sources resolveClient request) d₀ d' ∧
          a ≠ .error .outOfFuel := by
      intro a d' hrun
      have hs : E.clients.locate (targetSide resolveClient request).client request.sourceRoot
          entry.path = E.clients.source resolveClient request entry := by
        unfold Clients.source
        rw [hclient]
      refine hrun.spared hs (mem_sources hentry) (h hcopy) ?_ hpos fun rel hrel => ?_
      · rcases hspares with hrefused | hspares
        · exact .inl hrefused.2
        · refine .inr fun loc hlands => spares_of_entries (hspares loc ?_)
          unfold Lands
          rw [if_pos hsides]
          exact hlands
      · have hlength := hfuel _ hrel
        rw [List.length_append] at hlength
        omega
    rw [wp_bind, hclient]
    refine wp_await trivial (fun _ d' hans => wp_pure.mpr fun _ => ?_) fun e d' hans => ⟨?_, ?_⟩
    · exact (hruns hans.1).1
    · exact fun heq => (hruns hans.1).2 (congrArg Except.error heq)
    · exact (hruns hans.1).1.kept

end Overlaps

end ExplorerClients

/-! ## §4  Every transfer -/

open ExplorerClients

/-- **A transfer that keeps clear of its sources** ends, given as much fuel as
the volume is deep, and where it fails or only copies, the sources are as they
were. -/
theorem transfer_keeps_sources {E : ExplorerClients} {resolveClient : String → ClientId}
    {request : ExplorerTransferRequest} {d₀ : Volume} (h₀ : d₀.WellFormed)
    (hclear : E.KeepsClear resolveClient request d₀) :
    ∃ enough, ∀ fuel ≥ enough, ∀ q d,
      Reaches (E.steadySpec resolveClient request fuel d₀) (execute resolveClient fuel request)
        d₀ q d → Ended q →
      q ≠ .throw .outOfFuel ∧
        (LeavesSources request q → SourcesKept E.clients resolveClient request d₀ d) := by
  obtain ⟨n, hn⟩ := h₀.bounded
  refine ⟨n + 1, fun fuel hfuel q d hreach hended => ?_⟩
  have hdepth : ∀ loc, d₀ loc ≠ none → loc.length < fuel := fun loc hloc => by
    have hlength := hn loc hloc
    omega
  have hwp : wp (E.steadySpec resolveClient request fuel d₀) (execute resolveClient fuel request)
      (fun _ => E.KeptUnlessMoved resolveClient request d₀)
      (fun e d => e ≠ .outOfFuel ∧ SourcesKept E.clients resolveClient request d₀ d) d₀ := by
    unfold execute
    cases hsides : sameSide resolveClient request with
    | false => exact wp_acrossKeeps hsides hclear (by omega) hdepth
    | true =>
        refine wp_mono (wp_foldl (I := fun _ d => request.operation = .copy →
          E.Spared (targetSide resolveClient request).client (E.sources resolveClient request) d₀ d)
          (fun _ => ⟨fun _ _ _ => rfl, fun _ _ _ => rfl⟩) fun _ entry d hentry hd =>
            wp_withinKeeps hsides hclear (by omega) hdepth hentry hd)
          (fun _ d hd hcopy => (hd hcopy).kept) fun _ _ he => he
  have hend := wp_reaches hwp hreach
  rcases hended with rfl | ⟨e, rfl⟩
  · rw [wp_ret] at hend
    refine ⟨nofun, fun hleaves => hend ?_⟩
    rcases hleaves with hcopy | ⟨e, heq⟩
    · exact hcopy
    · cases heq
  · rw [wp_throw] at hend
    exact ⟨fun heq => hend.1 (Program.throw.inj heq), fun _ => hend.2⟩

/-! ## §5  A song copied onto itself -/

namespace Sample

/-- Both panels show the local file system. -/
def localPanels : ExplorerClients where
  client _ := .localFileSystem
    { path := .posix
      isWindows := false
      toLowerCase := id } PathContext.Posix.parts
  shows _ _ node := node ≠ .link

def localSong : ExplorerFileEntry := panelEntry "song.ogg" "/a/song.ogg" .file

/-- The song is copied to the directory at `path`, which is a root of its own. -/
def copying (path : String) : ExplorerTransferRequest where
  sourcePanelId := "left"
  targetPanelId := "right"
  sourceRoot := panelRoot "left" "/a"
  sourceDirectory := ⟨"left", "/a", "/a", none⟩
  entries := [localSong]
  targetRoot := panelRoot "right" path
  targetDirectory := ⟨"right", path, path, none⟩
  operation := .copy

theorem source_song {path : String} :
    localPanels.clients.source id (copying path) localSong = ["a", "song.ogg"] := by
  change localPanels.clients.locate "left" (panelRoot "left" "/a") "/a/song.ogg" = _
  decide

theorem keepsClear_song : localPanels.KeepsClear id (copying "/b") shelves := by
  intro e he
  refine .inr (.inr fun loc hlands f hf => ?_)
  obtain rfl := List.mem_singleton.mp he
  obtain rfl := List.mem_singleton.mp hf
  obtain rfl : loc = ["b", "song.ogg"] := (Puts.of_not_creates rfl hlands).trans (by decide)
  intro rel _ hprefix
  rw [source_song] at hprefix
  exact absurd (List.cons_prefix_cons.mp hprefix).1 (by decide)

/-- What `writeFile` throws when the length is not the one that was said. -/
def mismatch : ExplorerFailure :=
  .exception ⟨"length_mismatch", "The written file has an unexpected size", true⟩

/-- The file is opened for writing before it is read, and the write fails for
the length of what was read. -/
theorem reaches_emptied_song : Reaches (localPanels.steadySpec id (copying "/a") 1 shelves)
    (execute id 1 (copying "/a")) shelves
    (.throw mismatch) (shelves.write ["a", "song.ogg"] (.file [])) := by
  have hlands : localPanels.clients.locate "right" (panelRoot "right" "/a") "/a" ++ ["song.ogg"] =
      ["a", "song.ogg"] := by
    decide
  exact Reaches.head (a := .error mismatch) ⟨⟨nofun, .inr ⟨["a", "song.ogg"],
    ⟨⟨"song.ogg", hlands.symm, fun _ => rfl⟩, nofun⟩, onlyAt_write⟩⟩, nofun⟩ .refl

end Sample

/-- A song that is copied to another root: the transfer ends, and it is kept. -/
theorem transfer_keeps_song : ∃ enough, ∀ fuel ≥ enough, ∀ q d,
    Reaches (Sample.localPanels.steadySpec id (Sample.copying "/b") fuel Sample.shelves)
      (execute id fuel (Sample.copying "/b")) Sample.shelves q d → Ended q →
      q ≠ .throw .outOfFuel ∧ (LeavesSources (Sample.copying "/b") q →
        SourcesKept Sample.localPanels.clients id (Sample.copying "/b") Sample.shelves d) :=
  transfer_keeps_sources Sample.wellFormed_shelves Sample.keepsClear_song

/-- A song that is copied to a root of the same directory: it is emptied. -/
theorem transfer_empties_song : ∃ d,
    Reaches (Sample.localPanels.steadySpec id (Sample.copying "/a") 1 Sample.shelves)
      (execute id 1 (Sample.copying "/a")) Sample.shelves (.throw Sample.mismatch) d ∧
    ¬ SourcesKept Sample.localPanels.clients id (Sample.copying "/a") Sample.shelves d := by
  refine ⟨_, Sample.reaches_emptied_song, fun h => ?_⟩
  have hsong := h Sample.localSong List.mem_cons_self []
  rw [Sample.source_song] at hsong
  cases hsong

end FireBoxTransfer
