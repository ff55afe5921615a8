import FireBoxTransfer.App.Consent

/-!
# What is shown and what is accepted

The files of a request are shown and selected by the identifier inside each
description; the server issues tokens by the key of the map, and the isolate
looks up the chosen name by that key. Nothing checks that they agree.
-/

namespace FireBoxTransfer

/-! ## §1  The selection -/

/-- The descriptions on the receive page and its options page. -/
def shownFiles (files : AssocMap String FileDto) : List FileDto :=
  (sessionFiles files).values.map ReceivingFile.file

/-- The selection after some edits. -/
def selectionAfter (files : AssocMap String FileDto) (edits : List SelectionEdit) :
    AssocMap String String :=
  edits.foldl SelectionEdit.apply (setFiles files.values)

/-- The edits that the options page of this request offers. -/
def Offered (sessionId : String) (files : AssocMap String FileDto)
    (edits : List SelectionEdit) : Prop :=
  ∀ e ∈ edits,
    ReceiveController.ReceiveOptionsPage.offers ⟨sessionId, shownFiles files⟩ e = true

instance (sessionId : String) (files : AssocMap String FileDto) (edits : List SelectionEdit) :
    Decidable (Offered sessionId files edits) :=
  inferInstanceAs (Decidable (∀ e ∈ edits, _ = true))

section Selection

variable {files : AssocMap String FileDto} {id : String}

/-- A file of the session is a description of the request, under its own
identifier, and not yet accepted. -/
theorem sessionFiles_eq_some {rf : ReceivingFile} (h : (sessionFiles files).get? id = some rf) :
    rf.file ∈ files.values ∧ rf.file.id = id ∧ rf = .offered rf.file := by
  have hmem := AssocMap.mem_of_get?_ofList h
  obtain ⟨f, hf, heq⟩ := List.mem_map.mp hmem
  obtain ⟨rfl, rfl⟩ := Prod.mk.inj heq
  exact ⟨hf, rfl, rfl⟩

theorem mem_shownFiles {dto : FileDto} :
    dto ∈ shownFiles files ↔ (sessionFiles files).get? dto.id = some (.offered dto) := by
  rw [shownFiles, List.mem_map]
  constructor
  · rintro ⟨rf, hrf, rfl⟩
    obtain ⟨id, hid⟩ := AssocMap.mem_values_iff.mp hrf
    obtain ⟨-, rfl, heq⟩ := sessionFiles_eq_some hid
    rw [hid, ← heq]
  · intro h
    exact ⟨_, AssocMap.mem_values_iff.mpr ⟨_, h⟩, rfl⟩

/-- Every description's identifier is shown, if only with another one's
content. -/
theorem exists_shown {dto : FileDto} (h : dto ∈ files.values) :
    ∃ rf, (sessionFiles files).get? dto.id = some rf :=
  AssocMap.exists_get?_ofList (v := ReceivingFile.offered dto)
    (List.mem_map.mpr ⟨dto, h, rfl⟩)

theorem setFiles_eq_some {dtos : List FileDto} {name : String}
    (h : (setFiles dtos).get? id = some name) : ∃ dto ∈ dtos, dto.id = id := by
  obtain ⟨dto, hdto, heq⟩ := List.mem_map.mp (AssocMap.mem_of_get?_ofList h)
  exact ⟨dto, hdto, (Prod.mk.inj heq).1⟩

/-- Every selected identifier is shown. -/
def SelectsShown (files : AssocMap String FileDto) (selection : AssocMap String String) : Prop :=
  ∀ id name, selection.get? id = some name → ∃ rf, (sessionFiles files).get? id = some rf

theorem selectsShown_setFiles : SelectsShown files (setFiles files.values) := by
  intro id name h
  obtain ⟨dto, hdto, rfl⟩ := setFiles_eq_some h
  exact exists_shown hdto

theorem SelectsShown.edit {selection : AssocMap String String} {e : SelectionEdit}
    {sessionId : String} (h : SelectsShown files selection)
    (he : ReceiveController.ReceiveOptionsPage.offers ⟨sessionId, shownFiles files⟩ e = true) :
    SelectsShown files (e.apply selection) := by
  intro id name hid
  cases e with
  | select file =>
      rw [SelectionEdit.apply, AssocMap.get?_insert] at hid
      split_ifs at hid with heq
      · subst heq
        have hmem : file ∈ shownFiles files := by
          simpa [ReceiveController.ReceiveOptionsPage.offers] using he
        exact ⟨_, mem_shownFiles.mp hmem⟩
      · exact h id name hid
  | unselect fileId =>
      rw [SelectionEdit.apply, AssocMap.get?_filter] at hid
      exact h id name (Option.filter_eq_some_iff.mp hid).1
  | rename fileId fileName =>
      rw [SelectionEdit.apply, AssocMap.modify, AssocMap.get?_mapVal] at hid
      obtain ⟨old, hold, -⟩ := Option.map_eq_some_iff.mp hid
      exact h id old hold
  | renameAll fileNames =>
      obtain ⟨i, old, hold, -⟩ := AssocMap.get?_mapIdx hid
      exact h id old hold
  | reset dtos =>
      have hdtos : shownFiles files = dtos := by
        simpa [ReceiveController.ReceiveOptionsPage.offers] using he
      subst hdtos
      obtain ⟨dto, hdto, rfl⟩ := setFiles_eq_some hid
      exact ⟨_, mem_shownFiles.mp hdto⟩

theorem selectsShown_after {sessionId : String} {edits : List SelectionEdit}
    (h : Offered sessionId files edits) : SelectsShown files (selectionAfter files edits) := by
  have hfold : ∀ (edits : List SelectionEdit) (selection : AssocMap String String),
      Offered sessionId files edits → SelectsShown files selection →
        SelectsShown files (edits.foldl SelectionEdit.apply selection) := by
    intro edits
    induction edits with
    | nil => exact fun _ _ hs => hs
    | cons e edits ih =>
        intro selection hoff hs
        apply ih
        · exact fun e' he' => hoff e' (List.mem_cons_of_mem _ he')
        · exact hs.edit (hoff e List.mem_cons_self)
  exact hfold edits _ h selectsShown_setFiles

/-- Unselecting some identifiers leaves the others as they are. -/
theorem get?_unselect (ids : List String) (selection : AssocMap String String) :
    ((ids.map SelectionEdit.unselect).foldl SelectionEdit.apply selection).get? id =
      if id ∈ ids then none else selection.get? id := by
  induction ids generalizing selection with
  | nil => simp
  | cons x ids ih =>
      rw [List.map_cons, List.foldl_cons, ih, SelectionEdit.apply, AssocMap.get?_filter]
      by_cases hx : id = x
      · subst hx
        cases selection.get? id <;> simp
      · cases selection.get? id <;> simp [hx, Option.filter]

end Selection

/-! ## §2  What accepting sends -/

/-- The names the user confirms: on the page of a message there are none. -/
def confirmedNames (session : ReceiveSessionState) (selection : AssocMap String String) :
    AssocMap String String :=
  match session.message with
  | some _ => .empty
  | none => selection

/-- The answer once the user accepts. -/
def confirmedConfig (platform : Platform) (session : ReceiveSessionState)
    (selection : AssocMap String String) : HttpServerReceiveConfig :=
  ReceiveController.buildReceiveConfig platform session (confirmedNames session selection)

section Accepting

variable {platform : Platform} {c : ReceiveController} {session : ReceiveSessionState}
  {page : ReceivePage} {consent : Consent}

end Accepting

/-! ## §3  Accepted as shown -/

/-- The files a decided request gets tokens for. -/
def issuedFiles (o : Step) : AssocMap String SessionFileV2 :=
  match o.task with
  | .prepareUpload (.activate _ files) => files
  | _ => .empty

/-- The event by which the application learns of a request. -/
def PrepareCtx.event (X : Externals) (ctx : PrepareCtx) : PrepareUploadEvent where
  sessionId := ctx.sessionId
  ip := ctx.clientInfo.ip
  info := ctx.payload.info
  certFingerprint := ctx.clientInfo.cert.map X.fingerprintFromCertDer
  files := ctx.payload.files

/-- Tokens are issued for exactly the shown files with a confirmed name, and
the name under the key of the token is the one confirmed for that file. -/
structure AcceptedAsShown (shown : List FileDto) (names : AssocMap String String)
    (config : HttpServerReceiveConfig) (tokens : AssocMap String SessionFileV2) : Prop where
  issued : ∀ key file, tokens.get? key = some file →
    file.dto ∈ shown ∧
      ∃ name, names.get? file.dto.id = some name ∧ config.fileNameMap.get? key = some name
  complete : ∀ dto ∈ shown, ∀ name, names.get? dto.id = some name →
    ∃ key file, tokens.get? key = some file ∧ file.dto = dto

/-- What is shown under an identifier is what the request has under it. -/
def KeysAgree (files : AssocMap String FileDto) : Prop :=
  ∀ dto ∈ shownFiles files, files.get? dto.id = some dto

/-- The law for one request: whatever edits its page offers, accepting leads
to tokens as shown. -/
def OfferRespected (X : Externals) (platform : Platform) (s : ServerV2) (ctx : PrepareCtx)
    (session : ReceiveSessionState) : Prop :=
  ∀ edits, Offered ctx.sessionId ctx.payload.files edits →
    let selection := selectionAfter ctx.payload.files edits
    let config := confirmedConfig platform session selection
    AcceptedAsShown (shownFiles ctx.payload.files) (confirmedNames session selection) config
      (issuedFiles (decided X s ctx (Answer.accept config).decision))

section Agreement

variable {X : Externals} {platform : Platform} {s : ServerV2} {ctx : PrepareCtx}
  {session : ReceiveSessionState} {key : String} {file : SessionFileV2}
  {config : HttpServerReceiveConfig}

theorem issuedFiles_decided {ids : List String} :
    issuedFiles (decided X s ctx (.accept ids)) =
      acceptedFiles X s.minted ctx.payload.files ids := by
  cases hne : (acceptedFiles X s.minted ctx.payload.files ids).isEmpty with
  | true =>
      have hempty : acceptedFiles X s.minted ctx.payload.files ids = .empty :=
        AssocMap.ext (List.isEmpty_iff.mp hne)
      simp [decided, issuedFiles, hempty, AssocMap.isEmpty, AssocMap.empty]
  | false => simp [decided, issuedFiles, hne]

/-- A token's key has a name, and stands for the description under that key. -/
theorem issued_eq_some
    (h : (issuedFiles (decided X s ctx (Answer.accept config).decision)).get? key = some file) :
    (∃ name, config.fileNameMap.get? key = some name) ∧
      ctx.payload.files.get? key = some file.dto := by
  rw [Answer.decision, Answer.config, Option.map_some, issuedFiles_decided] at h
  obtain ⟨hkey, hfile⟩ := acceptedFiles_eq_some h
  exact ⟨AssocMap.mem_keys_iff.mp hkey, hfile⟩

theorem exists_issued {name : String} {dto : FileDto}
    (hname : config.fileNameMap.get? key = some name)
    (hdto : ctx.payload.files.get? key = some dto) :
    ∃ file, (issuedFiles (decided X s ctx (Answer.accept config).decision)).get? key =
      some file ∧ file.dto = dto := by
  rw [Answer.decision, Answer.config, Option.map_some, issuedFiles_decided]
  exact exists_acceptedFiles (AssocMap.mem_keys_iff.mpr ⟨name, hname⟩) hdto

/-- Only shown identifiers can be confirmed. -/
theorem selectsShown_confirmed {files : AssocMap String FileDto}
    {selection : AssocMap String String} (h : SelectsShown files selection) :
    SelectsShown files (confirmedNames session selection) := by
  unfold confirmedNames
  split
  · intro id name hid
    rw [AssocMap.get?_empty] at hid
    cases hid
  · exact h

/-- Keys that agree make every selection come through as shown. -/
theorem KeysAgree.offerRespected (h : KeysAgree ctx.payload.files) :
    OfferRespected X platform s ctx session := by
  intro edits hoff selection config
  have hshown : SelectsShown ctx.payload.files config.fileNameMap :=
    selectsShown_confirmed (selectsShown_after hoff)
  constructor
  · intro key file hfile
    obtain ⟨⟨name, hname⟩, hreq⟩ := issued_eq_some hfile
    obtain ⟨rf, hrf⟩ := hshown key name hname
    obtain ⟨-, hid, heq⟩ := sessionFiles_eq_some hrf
    have hmem : rf.file ∈ shownFiles ctx.payload.files := by
      rw [mem_shownFiles, hid, hrf, ← heq]
    have hdto : file.dto = rf.file := by
      have hagree := h _ hmem
      rw [hid, hreq] at hagree
      exact Option.some.inj hagree
    rw [hdto, hid]
    exact ⟨hmem, name, hname, hname⟩
  · intro dto hdto name hname
    exact ⟨dto.id, exists_issued hname (h dto hdto)⟩

/-- On the page of a message nothing is confirmed and no token is issued. -/
theorem message_offerRespected (h : session.message.isSome = true) :
    OfferRespected X platform s ctx session := by
  intro edits hoff selection config
  obtain ⟨text, htext⟩ := Option.isSome_iff_exists.mp h
  have hnames : confirmedNames session selection = .empty := by
    rw [confirmedNames, htext]
  have hconfig : config.fileNameMap = .empty := hnames
  rw [hnames]
  constructor
  · intro key file hfile
    obtain ⟨⟨name, hname⟩, -⟩ := issued_eq_some hfile
    rw [hconfig, AssocMap.get?_empty] at hname
    cases hname
  · intro dto hdto name hname
    rw [AssocMap.get?_empty] at hname
    cases hname

/-- Everything but one identifier is unselected. -/
def selectOnly (files : AssocMap String FileDto) (id : String) : List SelectionEdit :=
  (((shownFiles files).map FileDto.id).filter (· ≠ id)).map .unselect

theorem selectOnly_offered {files : AssocMap String FileDto} {sessionId id : String} :
    Offered sessionId files (selectOnly files id) := by
  intro e he
  obtain ⟨x, -, rfl⟩ := List.mem_map.mp he
  rfl

theorem selectionAfter_selectOnly {files : AssocMap String FileDto} {id x : String} :
    (selectionAfter files (selectOnly files id)).get? x =
      if x = id then (setFiles files.values).get? x else none := by
  rw [selectionAfter, selectOnly, get?_unselect]
  by_cases hx : x = id
  · simp [hx]
  · rw [if_neg hx]
    cases hname : (setFiles files.values).get? x with
    | none => rw [ite_self]
    | some name =>
        obtain ⟨rf, hrf⟩ := selectsShown_setFiles x name hname
        obtain ⟨-, hid, heq⟩ := sessionFiles_eq_some hrf
        have hmem : rf.file ∈ shownFiles files := by
          rw [mem_shownFiles, hid, hrf, ← heq]
        rw [if_pos]
        exact List.mem_filter.mpr ⟨List.mem_map.mpr ⟨_, hmem, hid⟩, by simpa using hx⟩

/-- If every selection comes through as shown, so does that of one file. -/
theorem OfferRespected.keysAgree (h : OfferRespected X platform s ctx session)
    (hmsg : session.message = none) : KeysAgree ctx.payload.files := by
  intro dto hdto
  have hsel := h (selectOnly ctx.payload.files dto.id) selectOnly_offered
  simp only [confirmedConfig, confirmedNames, hmsg] at hsel
  have hoffered := mem_shownFiles.mp hdto
  obtain ⟨hval, -, -⟩ := sessionFiles_eq_some hoffered
  obtain ⟨name, hname⟩ := AssocMap.exists_get?_ofList (v := dto.fileName)
    (List.mem_map.mpr ⟨dto, hval, rfl⟩ :
      (dto.id, dto.fileName) ∈ ctx.payload.files.values.map fun f => (f.id, f.fileName))
  have hselected : (selectionAfter ctx.payload.files
      (selectOnly ctx.payload.files dto.id)).get? dto.id = some name := by
    rw [selectionAfter_selectOnly, if_pos rfl]
    exact hname
  obtain ⟨key, file, hfile, rfl⟩ := hsel.complete dto hdto name hselected
  obtain ⟨⟨name', hname'⟩, hreq⟩ := issued_eq_some hfile
  -- the only key with a name is the identifier of the selected file
  have hkey : key = file.dto.id := by
    by_contra hne
    rw [ReceiveController.buildReceiveConfig, selectionAfter_selectOnly, if_neg hne] at hname'
    cases hname'
  rw [← hkey]
  exact hreq

end Agreement

/-- What is accepted is what was shown, whatever the user selects and renames,
exactly if the request is a message or each shown file stands in the request
under its own identifier. -/
theorem accepted_as_shown (X : Externals) (platform : Platform) (s : ServerV2)
    (settings : AppSettings) (favorites : List FavoriteDevice)
    (destinationDirectory cacheDirectory : String) (ctx : PrepareCtx) :
    let session := newSession platform settings favorites destinationDirectory cacheDirectory
      (ctx.event X)
    OfferRespected X platform s ctx session ↔
      session.message.isSome = true ∨ KeysAgree ctx.payload.files := by
  intro session
  constructor
  · intro h
    cases hmsg : session.message with
    | some text => exact .inl rfl
    | none => exact .inr (h.keysAgree hmsg)
  · rintro (h | h)
    · exact message_offerRespected h
    · exact h.offerRespected

/-! ## §4  A swapped request -/

namespace Sample

/-- Two files, each under the identifier of the other. -/
def swapped : PrepareCtx where
  clientInfo := sender
  payload := ⟨info, .ofList [("a", file "b"), ("b", file "a")]⟩
  sessionId := ""
  cancelled := 0

end Sample

/-- The user unselects the file shown as `a`; its token is issued under the
key `b` that remains selected. -/
theorem accepted_as_shown_fails :
    ¬ ∀ (X : Externals) (platform : Platform) (s : ServerV2) (settings : AppSettings)
        (favorites : List FavoriteDevice) (destinationDirectory cacheDirectory : String)
        (ctx : PrepareCtx),
      OfferRespected X platform s ctx
        (newSession platform settings favorites destinationDirectory cacheDirectory
          (ctx.event X)) := by
  intro h
  have hsel := h .unary Sample.phone (.start none true 16) Sample.appConfig.settings []
    "/downloads" "/cache" Sample.swapped [.unselect "a"] (by decide)
  obtain ⟨-, name, hname, -⟩ := hsel.issued "b" _ rfl
  have hnone : (none : Option String) = some name := hname
  cases hnone

end FireBoxTransfer
