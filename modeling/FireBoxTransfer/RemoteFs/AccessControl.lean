import FireBoxTransfer.RemoteFs.Phases

/-!
# Remote file access control

A request is checked against every snapshot its handler looks at. While all
of them allow it, its operations go on; once one refuses it, nothing is
called any more but the reply with an error.
-/

namespace FireBoxTransfer

open Program Runs

/-! ## §1  Refusal -/

/-- A snapshot refuses a request: its peer is not trusted, a root it names is
absent or ambiguous, or it writes and the grant of a root it names is
read-only. -/
def Refused (X : RemoteFsExternals) (access : RemoteFsAccessConfig) (event : RemoteFsEvent) :
    Prop :=
  normalizeFingerprint X event.peer.certificateFingerprint ∉ access.trustedFingerprints ∨
    ∃ rootId ∈ event.request.rootIds,
      (matchingGrants access rootId).length ≠ 1 ∨
        event.request.isWrite = true ∧ ∃ grant ∈ matchingGrants access rootId,
          grant.readOnly = true

/-- The handler was checked, and no snapshot it was checked against refuses. -/
def Cleared (X : RemoteFsExternals) (event : RemoteFsEvent) (trace : List Observed) : Prop :=
  (∃ access, .checked access ∈ trace) ∧
    ∀ access, .checked access ∈ trace → ¬ Refused X access event

/-- Every operation but an error reply comes after checks that all allow the
request; if one refuses it, an error is the only reply. -/
structure AccessControlled (X : RemoteFsExternals) (task : RemoteFsTask) : Prop where
  cleared : ∀ before op after, task.trace = before ++ .called op :: after →
    ¬ op.IsErrorReply → Cleared X task.event before
  refused : ∀ access, .checked access ∈ task.trace → Refused X access task.event →
    (∃ code, .called (.respond task.event.requestId (.error code)) ∈ task.trace) ∧
      ∀ requestId reply, .called (.respond requestId reply) ∈ task.trace →
        ∃ code, reply = .error code

/-! ## §2  Traces -/

section Traces

variable {X : RemoteFsExternals} {event : RemoteFsEvent} {trace : List Observed} {op : FsOp}

/-- Nothing has been replied. -/
def NoReply (trace : List Observed) : Prop :=
  ∀ requestId reply, .called (.respond requestId reply) ∉ trace

theorem Cleared.called (h : Cleared X event trace) (op : FsOp) :
    Cleared X event (trace ++ [.called op]) := by
  obtain ⟨⟨access, hmem⟩, hall⟩ := h
  refine ⟨⟨access, List.mem_append_left _ hmem⟩, fun access' h' => ?_⟩
  rcases List.mem_append.mp h' with h' | h'
  · exact hall access' h'
  · simp at h'

theorem NoReply.called (h : NoReply trace)
    (hop : ∀ requestId reply, op ≠ .respond requestId reply) :
    NoReply (trace ++ [.called op]) := by
  intro requestId reply hmem
  rcases List.mem_append.mp hmem with hmem | hmem
  · exact h requestId reply hmem
  · rw [List.mem_singleton, Observed.called.injEq] at hmem
    exact hop requestId reply hmem.symm

theorem NoReply.checked (h : NoReply trace) (access : RemoteFsAccessConfig) :
    NoReply (trace ++ [.checked access]) := by
  intro requestId reply hmem
  rcases List.mem_append.mp hmem with hmem | hmem
  · exact h requestId reply hmem
  · simp at hmem

/-- What a handler has done and the snapshot it would see now. -/
abbrev Checking : Type := List Observed × RemoteFsAccessConfig

/-- A refused request has had no reply. -/
def Unanswered (X : RemoteFsExternals) (event : RemoteFsEvent) (trace : List Observed) : Prop :=
  ∀ access, .checked access ∈ trace → Refused X access event → NoReply trace

/-- A handler may look at the snapshot until it replies, call an operation
once it is cleared, and reply with an error unless it did. The snapshot may
change during a call. -/
def accessSpec (X : RemoteFsExternals) (event : RemoteFsEvent) :
    Spec RemoteFsAccessConfig RemoteFsError FsOp FsOp.Answer Checking where
  mayRead w := NoReply w.1
  reads w access w' := access = w.2 ∧ w' = (w.1 ++ [.checked w.2], w.2)
  mayCall op w := (¬ op.IsErrorReply → Cleared X event w.1) ∧
    (op.IsErrorReply →
      Unanswered X event w.1 ∧ ∃ code, op = .respond event.requestId (.error code))
  answers op w _ w' := w'.1 = w.1 ++ [.called op]

/-- A handler may look until it replies, and always sees the current snapshot. -/
structure Looks (S : Spec RemoteFsAccessConfig RemoteFsError FsOp FsOp.Answer Checking) :
    Prop where
  may : ∀ w, NoReply w.1 → S.mayRead w
  reads : ∀ w access w', S.reads w access w' →
    access = w.2 ∧ w' = (w.1 ++ [.checked w.2], w.2)

theorem looks_access : Looks (accessSpec X event) where
  may _ h := h
  reads _ _ _ h := h

/-- A handler that may go on, and has not replied. -/
def Open (X : RemoteFsExternals) (event : RemoteFsEvent) (w : Checking) : Prop :=
  Cleared X event w.1 ∧ NoReply w.1

theorem unanswered_of_noReply (h : NoReply trace) : Unanswered X event trace := fun _ _ _ => h

theorem unanswered_of_cleared (h : Cleared X event trace) : Unanswered X event trace :=
  fun access hmem href => absurd href (h.2 access hmem)

theorem open_unanswered {w : Checking} (h : Open X event w) : Unanswered X event w.1 :=
  unanswered_of_noReply h.2

theorem callsKeep_open {A : FsOp → Prop}
    (hA : ∀ op, A op → ∀ requestId reply, op ≠ .respond requestId reply) :
    CallsKeep (accessSpec X event) A (Open X event) where
  may op w hop hw := by
    refine ⟨fun _ => hw.1, fun herror => ?_⟩
    cases op with
    | respond requestId reply => exact absurd rfl (hA _ hop requestId reply)
    | _ => exact herror.elim
  keep op a w w' hop hw hans := by
    have htrace : w'.1 = w.1 ++ [.called op] := hans
    rw [Open, htrace]
    exact ⟨hw.1.called op, hw.2.called (hA op hop)⟩

theorem callsKeep_local : CallsKeep (accessSpec X event) FsOp.IsLocal (Open X event) :=
  callsKeep_open fun op hop requestId reply heq => by
    rw [heq] at hop
    exact hop

theorem callsKeep_saf : CallsKeep (accessSpec X event) FsOp.IsSaf (Open X event) :=
  callsKeep_open fun op hop requestId reply heq => by
    rw [heq] at hop
    exact hop

end Traces

/-! ## §3  Authorisation -/

section Authorisation

variable {X : RemoteFsExternals} {event : RemoteFsEvent} {w : Checking}
  {rootId : String} {capability : RemoteFsCapability} {E : RemoteFsError → Checking → Prop}
  {S : Spec RemoteFsAccessConfig RemoteFsError FsOp FsOp.Answer Checking}

/-- What a successful authorisation says about the snapshot. -/
structure Granted (X : RemoteFsExternals) (access : RemoteFsAccessConfig) (peer : RemoteFsPeer)
    (rootId : String) (capability : RemoteFsCapability) (grant : RemoteFsGrant) : Prop where
  trusted : normalizeFingerprint X peer.certificateFingerprint ∈ access.trustedFingerprints
  unique : matchingGrants access rootId = [grant]
  writable : isWriteCapability capability = true → grant.readOnly = false

theorem Granted.id_eq {access : RemoteFsAccessConfig} {peer : RemoteFsPeer}
    {grant : RemoteFsGrant} (h : Granted X access peer rootId capability grant) :
    grant.id = rootId := by
  have hmem : grant ∈ matchingGrants access rootId := by
    rw [h.unique]
    exact List.mem_singleton_self grant
  simpa using (List.mem_filter.mp hmem).2

/-- What a handler knows once the authorisation succeeded. -/
structure Authorised (X : RemoteFsExternals) (access : RemoteFsAccessConfig)
    (peer : RemoteFsPeer) (rootId : String) (capability : RemoteFsCapability)
    (grant : RemoteFsGrant) : Prop extends Granted X access peer rootId capability grant where
  valid : validPublicRoot grant = true

/-- The handler looked at the current snapshot, at least once. -/
structure Looked (w w' : Checking) : Prop where
  now : w'.2 = w.2
  noReply : NoReply w'.1
  checked : ∀ access, .checked access ∈ w'.1 ↔ .checked access ∈ w.1 ∨ access = w.2
  called : ∀ op, .called op ∈ w'.1 ↔ .called op ∈ w.1
  first : w'.1.head? = w.1.head?.or (some (.checked w.2))

theorem Looked.trans {w₁ w₂ : Checking} (h : Looked w w₁) (h' : Looked w₁ w₂) : Looked w w₂ where
  now := h'.now.trans h.now
  noReply := h'.noReply
  checked access := by
    rw [h'.checked, h.checked, h.now, or_assoc, or_self]
  called op := (h'.called op).trans (h.called op)
  first := by
    rw [h'.first, h.first, h.now]
    cases w.1.head? <;> rfl

theorem looked_read (h : NoReply w.1) : Looked w (w.1 ++ [.checked w.2], w.2) where
  now := rfl
  noReply := h.checked w.2
  checked access := by simp
  called op := by simp
  first := by
    cases w.1 <;> rfl

/-- Looking keeps a handler cleared if the snapshot does not refuse. -/
theorem Looked.open {w' : Checking} (h : Looked w w')
    (hbefore : ∀ access, .checked access ∈ w.1 → ¬ Refused X access event)
    (hnow : ¬ Refused X w.2 event) : Open X event w' := by
  refine ⟨⟨⟨w.2, (h.checked _).mpr (.inr rfl)⟩, fun access hmem => ?_⟩, h.noReply⟩
  rcases (h.checked access).mp hmem with hmem | rfl
  · exact hbefore access hmem
  · exact hnow

theorem wp_require {W : Type*} {S : Spec RemoteFsAccessConfig RemoteFsError FsOp FsOp.Answer W}
    {w : W} {c : Bool} {code : RemoteFsErrorCode} {Q : Unit → W → Prop}
    {E : RemoteFsError → W → Prop} :
    wp S (require c code) Q E w ↔ if c then Q () w else E (.failure code) w := by
  unfold require fail
  split
  · exact wp_pure
  · exact wp_throw

/-- A check, and what follows it. -/
theorem wp_require_then {W : Type*}
    {S : Spec RemoteFsAccessConfig RemoteFsError FsOp FsOp.Answer W} {w : W} {c : Bool}
    {code : RemoteFsErrorCode} {f : Unit → RemoteFsM α} {Q : α → W → Prop}
    {E : RemoteFsError → W → Prop} (hfailed : E (.failure code) w)
    (hf : c = true → wp S (f ()) Q E w) : wp S (require c code >>= f) Q E w := by
  rw [wp_bind, wp_require]
  split_ifs with hc
  · exact hf hc
  · exact hfailed

/-- Looking at the snapshot. -/
theorem Looks.wp_get (hS : Looks S) {Q : RemoteFsAccessConfig → Checking → Prop}
    (hreply : NoReply w.1) (hQ : ∀ w', Looked w w' → Q w.2 w') : wp S Program.get Q E w := by
  refine Program.wp_get (hS.may w hreply) fun access w' hread => ?_
  obtain ⟨rfl, rfl⟩ := hS.reads w access w' hread
  exact hQ _ (looked_read hreply)

theorem Looks.wp_requireTrustedPeer (hS : Looks S) {peer : RemoteFsPeer}
    {Q : Unit → Checking → Prop} (hreply : NoReply w.1)
    (hQ : ∀ w', Looked w w' →
      normalizeFingerprint X peer.certificateFingerprint ∈ w.2.trustedFingerprints → Q () w')
    (hE : ∀ e w', NoReply w'.1 → E e w') :
    wp S (requireTrustedPeer X peer) Q E w := by
  unfold requireTrustedPeer
  rw [wp_bind, wp_require]
  split_ifs with hempty
  · rw [wp_bind]
    refine hS.wp_get hreply fun w' hlooked => ?_
    rw [wp_require]
    split_ifs with htrusted
    · exact hQ _ hlooked (by simpa using htrusted)
    · exact hE _ _ hlooked.noReply
  · exact hE _ _ hreply

theorem Looks.wp_authorizeGrant (hS : Looks S) {peer : RemoteFsPeer}
    {Q : RemoteFsGrant → Checking → Prop} (hreply : NoReply w.1)
    (hQ : ∀ grant w', Looked w w' → Authorised X w.2 peer rootId capability grant → Q grant w')
    (hE : ∀ e w', NoReply w'.1 → E e w') :
    wp S (authorizeGrant X peer rootId capability) Q E w := by
  unfold authorizeGrant
  rw [wp_bind]
  refine hS.wp_requireTrustedPeer hreply (fun w₁ h₁ htrusted => ?_) hE
  rw [wp_bind]
  refine hS.wp_get h₁.noReply fun w₂ h₂ => ?_
  have hlooked := h₁.trans h₂
  rw [h₁.now]
  split
  · rename_i grant hmatch
    rw [wp_bind, wp_require]
    split_ifs with hvalid
    · rw [wp_bind, wp_require]
      split_ifs with hwrite
      · refine wp_pure.mpr (hQ _ _ hlooked ⟨⟨htrusted, hmatch, fun hcap => ?_⟩, hvalid⟩)
        rw [hcap, Bool.and_true] at hwrite
        simpa using hwrite
      · exact hE _ _ hlooked.noReply
    · exact hE _ _ hlooked.noReply
  · exact wp_throw.mpr (hE _ _ hlooked.noReply)

theorem Looks.wp_ensureGrantCurrent (hS : Looks S) {peer : RemoteFsPeer}
    {expected : RemoteFsGrant} {Q : Unit → Checking → Prop} (hreply : NoReply w.1)
    (hQ : ∀ current w', Looked w w' → Authorised X w.2 peer expected.id capability current →
      current.kind = expected.kind → current.locator = expected.locator → Q () w')
    (hE : ∀ e w', NoReply w'.1 → E e w') :
    wp S (ensureGrantCurrent X peer expected capability) Q E w := by
  unfold ensureGrantCurrent
  rw [wp_bind]
  refine hS.wp_authorizeGrant hreply (fun current w' hlooked hgrant => ?_) hE
  rw [wp_require]
  split_ifs with hsame
  · simp only [Bool.and_eq_true, decide_eq_true_eq] at hsame
    exact hQ current w' hlooked hgrant hsame.1.1 hsame.1.2
  · exact hE _ _ hlooked.noReply

/-- A snapshot that grants every root of a request does not refuse it. -/
theorem not_refused {access : RemoteFsAccessConfig}
    (htrusted : normalizeFingerprint X event.peer.certificateFingerprint ∈
      access.trustedFingerprints)
    (hroots : ∀ rootId ∈ event.request.rootIds, ∃ capability grant,
      Granted X access event.peer rootId capability grant ∧
        (event.request.isWrite = true → isWriteCapability capability = true)) :
    ¬ Refused X access event := by
  rintro (h | ⟨rootId, hmem, h⟩)
  · exact h htrusted
  · obtain ⟨capability, grant, hgrant, hcap⟩ := hroots rootId hmem
    rcases h with h | ⟨hwrite, grant', hmem', hro⟩
    · exact h (by rw [hgrant.unique]; rfl)
    · rw [hgrant.unique, List.mem_singleton] at hmem'
      subst hmem'
      rw [hgrant.writable (hcap hwrite)] at hro
      cases hro

/-- The grant of a root does for all roots of a request that names no other. -/
theorem Granted.not_refused {access : RemoteFsAccessConfig} {grant : RemoteFsGrant}
    (h : Granted X access event.peer rootId capability grant)
    (hroots : ∀ id ∈ event.request.rootIds, id = rootId)
    (hcap : event.request.isWrite = true → isWriteCapability capability = true) :
    ¬ Refused X access event := by
  refine FireBoxTransfer.not_refused h.trusted fun id hid => ?_
  rw [hroots id hid]
  exact ⟨capability, grant, h, hcap⟩

end Authorisation

/-! ## §4  The handlers -/

section Handlers

variable {X : RemoteFsExternals} {event : RemoteFsEvent} {α : Type}
  {capability : RemoteFsCapability}

/-- The part of a handler that may go on and has not replied. -/
abbrev KeepsOpen (X : RemoteFsExternals) (event : RemoteFsEvent) (p : RemoteFsM α) : Prop :=
  Keeps (accessSpec X event) (Open X event) (fun w => Unanswered X event w.1) p

/-- The part of a handler that ends with a reply. -/
def Serves (X : RemoteFsExternals) (event : RemoteFsEvent) (p : RemoteFsM Unit) : Prop :=
  Leads (accessSpec X event) (Open X event) (fun w => Cleared X event w.1)
    (fun w => Unanswered X event w.1) p

theorem serves_respond {requestId : String} {reply : RemoteFsReply}
    (h : ¬ (FsOp.respond requestId reply).IsErrorReply) :
    Serves X event (respond requestId reply) := by
  intro w hw
  refine wp_await ⟨fun _ => hw.1, fun herror => absurd herror h⟩ (fun _ w' hans => ?_)
    fun _ w' hans => ?_
  · have htrace : w'.1 = w.1 ++ [.called _] := hans
    rw [htrace]
    exact hw.1.called _
  · have htrace : w'.1 = w.1 ++ [.called _] := hans
    rw [htrace]
    exact unanswered_of_cleared (hw.1.called _)

/-- A handler that may go on, under the grants of all roots of its request. -/
def OpenFor (X : RemoteFsExternals) (event : RemoteFsEvent) (G : List RemoteFsGrant)
    (w : Checking) : Prop :=
  Open X event w ∧ ∀ id ∈ event.request.rootIds, ∃ g ∈ G, g.id = id

/-- Nothing was awaited since the last check. -/
def Fresh (X : RemoteFsExternals) (event : RemoteFsEvent) (G : List RemoteFsGrant)
    (w : Checking) : Prop :=
  OpenFor X event G w ∧ .checked w.2 ∈ w.1

theorem openFor_unanswered {G : List RemoteFsGrant} {w : Checking} (h : OpenFor X event G w) :
    Unanswered X event w.1 := open_unanswered h.1

theorem callsKeep_openFor {A : FsOp → Prop} (h : CallsKeep (accessSpec X event) A (Open X event))
    (G : List RemoteFsGrant) : CallsKeep (accessSpec X event) A (OpenFor X event G) where
  may op w hop hw := h.may op w hop hw.1
  keep op a w w' hop hw hans := ⟨h.keep op a w w' hop hw.1 hans, hw.2⟩

theorem openStages {A B C : FsOp → Prop}
    (h : CallsKeep (accessSpec X event) C (Open X event)) (hA : ∀ op, A op → C op)
    (hB : ∀ op, B op → C op) (G : List RemoteFsGrant) :
    Stages (accessSpec X event) A B (OpenFor X event G) (Fresh X event G) (OpenFor X event G)
      (fun w => Unanswered X event w.1) := by
  have hsame := Stages.same (callsKeep_openFor h G) hA hB fun _ => openFor_unanswered
  exact ⟨hsame.query, fun op hop w hw => hsame.change op hop w hw.1, hsame.after,
    hsame.waits, fun w hw => hsame.waits w hw.1, hsame.changed⟩

theorem Looked.checked_now {w w' : Checking} (h : Looked w w') : .checked w'.2 ∈ w'.1 := by
  rw [h.now]
  exact (h.checked _).mpr (.inr rfl)

/-- Looking at the grant of the only root leaves a handler fresh. -/
theorem Looked.fresh {w w' : Checking} {rootId : String} {g : RemoteFsGrant}
    {G : List RemoteFsGrant} (h : Looked w w')
    (hclean : ∀ access, .checked access ∈ w.1 → ¬ Refused X access event)
    (hgrant : Granted X w.2 event.peer rootId capability g)
    (hroots : ∀ id ∈ event.request.rootIds, id = rootId)
    (hcap : event.request.isWrite = true → isWriteCapability capability = true)
    (hG : ∀ id ∈ event.request.rootIds, ∃ g ∈ G, g.id = id) : Fresh X event G w' :=
  ⟨⟨h.open hclean (hgrant.not_refused hroots hcap), hG⟩, h.checked_now⟩

/-- Both roots are granted by the snapshot the handler looks at. -/
theorem looked_pair {w w₁ w₂ : Checking} {g g' : RemoteFsGrant} {first second : String}
    {capability' : RemoteFsCapability} {G : List RemoteFsGrant}
    (hclean : ∀ access, .checked access ∈ w.1 → ¬ Refused X access event)
    (hroots : ∀ id ∈ event.request.rootIds, id = first ∨ id = second)
    (hcap : isWriteCapability capability = true) (hcap' : isWriteCapability capability' = true)
    (h₁ : Looked w w₁) (hg : Granted X w.2 event.peer first capability g)
    (h₂ : Looked w₁ w₂) (hg' : Granted X w₁.2 event.peer second capability' g')
    (hG : ∀ id ∈ event.request.rootIds, ∃ g ∈ G, g.id = id) : Fresh X event G w₂ := by
  have hlooked := h₁.trans h₂
  rw [h₁.now] at hg'
  refine ⟨⟨hlooked.open hclean (not_refused hg.trusted fun id hid => ?_), hG⟩,
    hlooked.checked_now⟩
  rcases hroots id hid with rfl | rfl
  · exact ⟨capability, g, hg, fun _ => hcap⟩
  · exact ⟨capability', g', hg', fun _ => hcap'⟩

theorem leads_ensureGrantCurrent {g : RemoteFsGrant} {G : List RemoteFsGrant}
    (hroots : (∀ id ∈ event.request.rootIds, ∃ g ∈ G, g.id = id) →
      ∀ id ∈ event.request.rootIds, id = g.id)
    (hcap : event.request.isWrite = true → isWriteCapability capability = true) :
    Leads (accessSpec X event) (OpenFor X event G) (Fresh X event G)
      (fun w => Unanswered X event w.1) (ensureGrantCurrent X event.peer g capability) := by
  intro w hw
  refine looks_access.wp_ensureGrantCurrent hw.1.2 (fun current w' hlooked hgrant _ _ => ?_)
    fun _ _ => unanswered_of_noReply
  exact hlooked.fresh hw.1.1.2 hgrant.toGranted (hroots hw.2) hcap hw.2

/-- The two checks of a move have no await between them, so they look at the
same snapshot, which allows the request only if it allows both. -/
theorem leads_ensurePair {g g' : RemoteFsGrant} :
    Leads (accessSpec X event) (OpenFor X event [g, g']) (Fresh X event [g, g'])
      (fun w => Unanswered X event w.1) (ensureGrantCurrent X event.peer g .move >>= fun _ =>
        ensureGrantCurrent X event.peer g' .write) := by
  intro w hw
  have hroots : ∀ id ∈ event.request.rootIds, id = g.id ∨ id = g'.id := by
    intro id hid
    obtain ⟨q, hq, rfl⟩ := hw.2 id hid
    rcases List.mem_cons.mp hq with rfl | hq
    · exact Or.inl rfl
    · exact Or.inr (by rw [List.mem_singleton.mp hq])
  rw [wp_bind]
  refine looks_access.wp_ensureGrantCurrent hw.1.2 (fun c w₁ h₁ hc _ _ => ?_)
    fun _ _ => unanswered_of_noReply
  refine looks_access.wp_ensureGrantCurrent h₁.noReply (fun c' w₂ h₂ hc' _ _ => ?_)
    fun _ _ => unanswered_of_noReply
  exact looked_pair hw.1.1.2 hroots rfl rfl h₁ hc.toGranted h₂ hc'.toGranted hw.2

theorem leads_requireRename {g : RemoteFsGrant} {G : List RemoteFsGrant}
    {source : RemoteFsLocation} {name : String} :
    Leads (accessSpec X event) (Fresh X event G) (Fresh X event G)
      (fun w => Unanswered X event w.1) (requireRename X event.peer g source name) := by
  unfold requireRename
  split
  · intro w hw
    rw [wp_bind]
    refine looks_access.wp_authorizeGrant hw.1.1.2 (fun c w' hlooked _ => ?_)
      fun _ _ => unanswered_of_noReply
    have hopen := hlooked.open hw.1.1.1.2 (hw.1.1.1.2 _ hw.2)
    have hfresh : Fresh X event G w' := ⟨⟨hopen, hw.1.2⟩, hlooked.checked_now⟩
    exact leads_require (fun _ hw => openFor_unanswered hw.1) w' hfresh
  · exact leads_pure fun _ hw => hw

/-- Nothing has been checked or called. -/
def Untouched (w : Checking) : Prop := w.1 = []

/-- **The phases of a handler under access control.** -/
theorem accessPhases : Phases X event (accessSpec X event) Untouched (OpenFor X event)
    (Fresh X event) (OpenFor X event) (fun w => Unanswered X event w.1)
    (fun w => Cleared X event w.1) where
  localStages := openStages callsKeep_local (fun _ h => h.isLocal) fun _ h => h.isLocal
  safStages := openStages callsKeep_saf (fun _ h => h.isSaf) fun _ h => h.isSaf
  again := (uses_renameMoved.mono fun _ hop => hop.isSaf).keeps (callsKeep_openFor callsKeep_saf _)
    fun _ => openFor_unanswered
  settle _ _ hw := hw.1
  authorize := by
    intro rootId capability hroots hcap w (hw : w.1 = [])
    refine looks_access.wp_authorizeGrant (by simp [hw, NoReply]) (fun g w' hlooked hgrant => ?_)
      fun _ _ => unanswered_of_noReply
    refine hlooked.fresh (by simp [hw]) hgrant.toGranted (by simp [hroots]) hcap fun id hid => ?_
    rw [hroots, List.mem_singleton] at hid
    exact ⟨g, List.mem_singleton_self g, hgrant.id_eq.trans hid.symm⟩
  current := by
    rintro g capability ⟨rootId, hroot⟩ hcap
    refine leads_ensureGrantCurrent (fun hG id hid => ?_) hcap
    obtain ⟨q, hq, hid⟩ := hG id hid
    rw [← hid, List.mem_singleton.mp hq]
  authorizePair := by
    intro source destination hroots w (hw : w.1 = [])
    refine looks_access.wp_authorizeGrant (by simp [hw, NoReply]) (fun g w₁ h₁ hg => ?_)
      fun _ _ => unanswered_of_noReply
    refine looks_access.wp_authorizeGrant h₁.noReply (fun g' w₂ h₂ hg' => ?_)
      fun _ _ => unanswered_of_noReply
    refine looked_pair (by simp [hw]) (by simp [hroots]) rfl rfl h₁ hg.toGranted h₂ hg'.toGranted
      fun id hid => ?_
    rw [hroots, List.mem_cons, List.mem_singleton] at hid
    rcases hid with rfl | rfl
    · exact ⟨g, by simp, hg.id_eq⟩
    · exact ⟨g', by simp, hg'.id_eq⟩
  requireRename _ := leads_requireRename
  currentPair := leads_ensurePair
  currentSame := by
    intro g g' hsame
    refine leads_ensureGrantCurrent (fun hG id hid => ?_) fun _ => rfl
    obtain ⟨q, hq, rfl⟩ := hG id hid
    rcases List.mem_cons.mp hq with rfl | hq
    · rfl
    · rw [List.mem_singleton.mp hq, hsame]
  reply := by
    intro G reply herror _
    exact ⟨fun w hw => serves_respond herror w hw.1.1, fun w hw => serves_respond herror w hw.1⟩

theorem keepsOpen_addRoot {access : RemoteFsAccessConfig} {roots : List RemoteFsRoot}
    {grant : RemoteFsGrant} : KeepsOpen X event (addRoot X access roots grant) := by
  refine uses_addRoot.keeps (callsKeep_open fun op hop requestId reply heq => ?_)
    fun _ => open_unanswered
  rw [heq] at hop
  exact hop.elim id id

theorem leads_roots (hevent : event.request = .roots) :
    Leads (accessSpec X event) Untouched (fun w => Cleared X event w.1)
      (fun w => Unanswered X event w.1)
      (respondRemoteFsRoots X event.requestId event.peer) := by
  intro w (hw : w.1 = [])
  have hroots : ∀ {access : RemoteFsAccessConfig},
      normalizeFingerprint X event.peer.certificateFingerprint ∈ access.trustedFingerprints →
        ¬ Refused X access event := by
    intro access htrusted
    exact not_refused htrusted (by simp [hevent, RemoteFsRequest.rootIds])
  unfold respondRemoteFsRoots
  rw [wp_bind]
  refine looks_access.wp_requireTrustedPeer (by simp [hw, NoReply]) (fun w₁ h₁ htrusted => ?_)
    fun _ _ => unanswered_of_noReply
  rw [wp_bind]
  refine looks_access.wp_get h₁.noReply fun w₂ h₂ => ?_
  have hopen := (h₁.trans h₂).open (by simp [hw]) (hroots htrusted)
  rw [wp_bind]
  refine wp_mono (keeps_foldl (fun _ _ => keepsOpen_addRoot) _ hopen) (fun roots w₃ h₃ => ?_)
    fun _ _ he => he
  rw [wp_bind]
  refine looks_access.wp_requireTrustedPeer h₃.2 (fun w₄ h₄ htrusted => ?_)
    fun _ _ => unanswered_of_noReply
  exact serves_respond id w₄ (h₄.open h₃.1.2 (hroots htrusted))

end Handlers

/-! ## §5  The isolate -/

section Isolate

variable {X : RemoteFsExternals} {event : RemoteFsEvent}

/-- How a request stands once it is over: refused requests got an error. -/
def Settled (X : RemoteFsExternals) (event : RemoteFsEvent) (trace : List Observed) : Prop :=
  ∀ access, .checked access ∈ trace → Refused X access event →
    (∃ code, .called (.respond event.requestId (.error code)) ∈ trace) ∧
      ∀ requestId reply, .called (.respond requestId reply) ∈ trace → ∃ code, reply = .error code

theorem settled_of_cleared {trace : List Observed} (h : Cleared X event trace) :
    Settled X event trace := fun access hmem href => absurd href (h.2 access hmem)

/-- An error reply settles a request that nobody answered. -/
theorem Unanswered.settled {trace : List Observed} (h : Unanswered X event trace)
    (code : RemoteFsErrorCode) :
    Settled X event (trace ++ [.called (.respond event.requestId (.error code))]) := by
  intro access hmem href
  refine ⟨⟨code, by simp⟩, fun requestId' reply hreply => ?_⟩
  have hnone : NoReply trace := h access (by simpa using hmem) href
  rcases List.mem_append.mp hreply with hreply | hreply
  · exact absurd hreply (hnone requestId' reply)
  · rw [List.mem_singleton, Observed.called.injEq, FsOp.respond.injEq] at hreply
    exact ⟨code, hreply.2⟩

/-- **The whole handler**: it throws nothing, and ends settled. -/
theorem wp_handleRemoteFsEvent (access : RemoteFsAccessConfig) :
    wp (accessSpec X event) (handleRemoteFsEvent X event) (fun _ w => Settled X event w.1)
      (fun _ _ => False) ([], access) := by
  unfold handleRemoteFsEvent
  rw [wp_catching]
  refine wp_mono (leads_respondRemoteFs accessPhases leads_roots _ rfl)
    (fun _ w hw => settled_of_cleared hw) fun error w hw => ?_
  rw [wp_catching]
  have hsettled := hw.settled (remoteFsErrorCode error)
  refine wp_await ⟨fun hne => absurd trivial hne, fun _ => ⟨hw, _, rfl⟩⟩ (fun _ w' hans => ?_)
    fun _ w' hans => ?_
  · have htrace : w'.1 = w.1 ++ [.called _] := hans
    rw [htrace]
    exact hsettled
  · have htrace : w'.1 = w.1 ++ [.called _] := hans
    rw [wp_pure, htrace]
    exact hsettled

/-- Each operation of the trace but an error reply was called when cleared. -/
def CalledCleared (X : RemoteFsExternals) (event : RemoteFsEvent) (trace : List Observed) :
    Prop :=
  ∀ before op after, trace = before ++ .called op :: after → ¬ op.IsErrorReply →
    Cleared X event before

theorem CalledCleared.snoc {trace : List Observed} (h : CalledCleared X event trace)
    {o : Observed} (ho : ∀ op, o = .called op → ¬ op.IsErrorReply → Cleared X event trace) :
    CalledCleared X event (trace ++ [o]) := by
  intro before op after heq hop
  rcases List.eq_nil_or_concat after with rfl | ⟨after, x, rfl⟩
  · obtain ⟨rfl, hlast⟩ := List.append_inj' heq rfl
    exact ho op (List.cons.inj hlast).1 hop
  · rw [List.concat_eq_append, ← List.cons_append, ← List.append_assoc] at heq
    exact h before op after (List.append_inj' heq rfl).1 hop

/-- What every task of the isolate keeps, whatever the snapshot. -/
structure Watched (X : RemoteFsExternals) (task : RemoteFsTask) : Prop where
  called : CalledCleared X task.event task.trace
  settled : Settled X task.event task.trace
  rest : ∀ op k, task.rest = .call op k → ∀ a access,
    wp (accessSpec X task.event) (k a) (fun _ w => Settled X task.event w.1) (fun _ _ => False)
      (task.trace, access)

/-- A handler that may run ends up watched at its next await. -/
theorem watched_run {access : RemoteFsAccessConfig} {trace : List Observed} {p : RemoteFsM Unit}
    (hcalled : CalledCleared X event trace)
    (hp : wp (accessSpec X event) p (fun _ w => Settled X event w.1) (fun _ _ => False)
      (trace, access)) :
    Watched X (.run access event trace p) := by
  induction p generalizing trace with
  | pure a =>
      rw [wp_ret] at hp
      refine ⟨hcalled, hp, fun op k hrest => ?_⟩
      cases hrest
  | throw e => exact (wp_throw.mp hp).elim
  | read k ih =>
      rw [wp_read] at hp
      exact ih access (hcalled.snoc fun op heq => by cases heq) (hp.2 access _ ⟨rfl, rfl⟩)
  | call op k ih =>
      rw [wp_call] at hp
      refine ⟨hcalled.snoc fun op' heq hop => ?_, ?_, fun op' k' hrest a access' => ?_⟩
      · obtain rfl := Observed.called.inj heq
        exact hp.1.1 hop
      · by_cases herror : op.IsErrorReply
        · obtain ⟨hunanswered, code, rfl⟩ := hp.1.2 herror
          exact hunanswered.settled code
        · exact settled_of_cleared ((hp.1.1 herror).called op)
      · cases hrest
        exact hp.2 a _ rfl

theorem watched_resume {access : RemoteFsAccessConfig} {task task' : RemoteFsTask}
    {a : FsAnswer} (h : Watched X task) (hstep : task.resume access a = some task') :
    Watched X task' := by
  unfold RemoteFsTask.resume at hstep
  split at hstep
  · rename_i op k hrest
    split_ifs at hstep with hop
    obtain rfl := Option.some.inj hstep
    exact watched_run h.called (h.rest op k hrest _ access)
  · cases hstep

/-- **Access control**: in every run of the isolate, every request is under
access control. -/
theorem remote_fs_access_control {p : RemoteFsPool}
    (h : Reach (remoteFsStep X) RemoteFsPool.init p) :
    ∀ task ∈ p.tasks, AccessControlled X task := by
  have hwatched : ∀ task ∈ p.tasks, Watched X task := by
    refine TaskPool.forall_tasks_run (by simp [RemoteFsPool.init]) ?_ ?_ h
    · intro access task a o hwatched hstep u hu
      obtain ⟨task', hresume, rfl⟩ := Option.map_eq_some_iff.mp hstep
      obtain rfl : u = task' := by simpa using hu
      exact watched_resume hwatched hresume
    · intro access e access' tasks henv u hu
      cases e with
      | update value =>
          obtain ⟨-, rfl⟩ := Prod.mk.inj (Option.some.inj henv)
          simp at hu
      | request event =>
          obtain ⟨-, rfl⟩ := Prod.mk.inj (Option.some.inj henv)
          obtain rfl := List.mem_singleton.mp hu
          refine watched_run (fun before op after heq => ?_) (wp_handleRemoteFsEvent access)
          simp at heq
  intro task hmem
  exact ⟨(hwatched task hmem).called, (hwatched task hmem).settled⟩

end Isolate

/-! ## §6  A refused request -/

namespace Sample

/-- POSIX paths; the samples use fingerprints in upper case and no other text
that the remaining functions would change. -/
def remoteFsExternals : RemoteFsExternals where
  path := .posix
  isWindows := false
  trim := id
  toUpperCase := id
  toLowerCase := id
  lookupMimeType _ := none
  iso8601 _ := "1970-01-01T00:00:00.000Z"

/-- One trusted peer, one root that is read-only. -/
def remoteFsAccess : RemoteFsAccessConfig where
  trustedFingerprints := ["AA"]
  grants := [⟨"music", "Music", .localPath, "/home/music", true⟩]

def deletion : RemoteFsEvent where
  requestId := "1"
  peer := ⟨"192.0.2.7", "AA"⟩
  request := .delete ⟨"music", "song.ogg"⟩ false

def safDocument (uri name : String) (isDirectory : Bool) : SafDocument where
  uri := uri
  name := name
  mimeType := "application/octet-stream"
  size := none
  lastModified := none
  isDirectory := isDirectory
  canRead := true
  canWrite := true
  canCreate := true
  canRename := true
  canMove := true
  canDelete := true

/-- One trusted peer, one document tree. -/
def treeAccess : RemoteFsAccessConfig where
  trustedFingerprints := ["AA"]
  grants := [⟨"docs", "Documents", .androidSaf, "tree:docs", false⟩]

end Sample

/-- A deletion in a read-only root: an error is all that is called. -/
theorem remote_fs_access_control_read_only : ∃ p,
    Reach (remoteFsStep Sample.remoteFsExternals) RemoteFsPool.init p ∧
      p.tasks.map RemoteFsTask.trace = [[.checked Sample.remoteFsAccess,
        .checked Sample.remoteFsAccess, .called (.respond "1" (.error .readOnly))]] ∧
      ∀ task ∈ p.tasks, AccessControlled Sample.remoteFsExternals task := by
  obtain ⟨p, hp, hcheck⟩ := exists_of_exec_any (remoteFsStep Sample.remoteFsExternals)
    RemoteFsPool.init [.env (.update Sample.remoteFsAccess), .env (.request Sample.deletion)]
    (fun p => decide (p.tasks.map RemoteFsTask.trace = [[.checked Sample.remoteFsAccess,
      .checked Sample.remoteFsAccess, .called (.respond "1" (.error .readOnly))]])) rfl
  exact ⟨p, reach_of_exec hp, of_decide_eq_true hcheck, remote_fs_access_control (reach_of_exec hp)⟩

end FireBoxTransfer
