import FireBoxTransfer.RemoteFs.AccessControl

/-!
# Revocation

A handler looks at the snapshot right before it changes something, and right
before it replies to a query. What follows a change (a rename after a move,
the reply) is done without looking again, and the reply to a request for the
roots lists those of the first snapshot. So an update takes effect at once
unless it arrives there.
-/

namespace FireBoxTransfer

open Program Runs

/-! ## §1  Acts -/

/-- The operations that change a shared tree or open one of its documents. -/
def FsOp.Touches (op : FsOp) : Prop := op.IsLocalChange ∨ op.IsSafChange

/-- Effects on a shared tree, and all replies but errors. -/
def FsOp.Acts (op : FsOp) : Prop :=
  op.Touches ∨ ∃ requestId reply, op = .respond requestId reply ∧ ¬ op.IsErrorReply

theorem FsOp.IsQuiet.not_acts {op : FsOp} (h : op.IsQuiet) : ¬ op.Acts := by
  rintro ((htouch | htouch) | ⟨requestId, reply, rfl, -⟩)
  · cases op <;> first | exact h | exact htouch
  · cases op <;> first | exact h | exact htouch
  · exact h

theorem FsOp.IsSafQuery.not_acts {op : FsOp} (h : op.IsSafQuery) : ¬ op.Acts := by
  rintro ((htouch | htouch) | ⟨requestId, reply, rfl, -⟩)
  · cases op <;> first | exact h | exact htouch
  · cases op <;> first | exact h | exact htouch
  · exact h

theorem FsOp.IsLocalChange.touches {op : FsOp} (h : op.IsLocalChange) : op.Touches := .inl h

theorem FsOp.IsSafChange.touches {op : FsOp} (h : op.IsSafChange) : op.Touches := .inr h

theorem FsOp.not_acts_error {op : FsOp} (h : op.IsErrorReply) : ¬ op.Acts := by
  rintro ((htouch | htouch) | ⟨requestId, reply, rfl, hreply⟩)
  · cases op <;> first | exact h | exact htouch
  · cases op <;> first | exact h | exact htouch
  · exact hreply h

/-- The operation that a handler waits for. -/
def RemoteFsTask.awaiting (task : RemoteFsTask) : Option FsOp :=
  match task.rest with
  | .call op _ => some op
  | _ => none

/-- The handler that a step of the isolate has run. -/
def RemoteFsPool.moved (p : RemoteFsPool) :
    TaskPool.Label FsAnswer RemoteFsEnv → Option RemoteFsTask
  | .task i _ => p.tasks[i]?
  | .env (.request _) => p.tasks.getLast?
  | .env (.update _) => none

/-! ## §2  What the snapshot must allow -/

/-- The snapshot that a handler was checked against when it started. -/
def firstChecked : List Observed → Option RemoteFsAccessConfig
  | .checked access :: _ => some access
  | _ => none

/-- A root is granted as it was when the handler started, and for writing if
`write` says so. -/
structure StillGranted (trace : List Observed) (access : RemoteFsAccessConfig) (rootId : String)
    (write : Bool) (began grant : RemoteFsGrant) : Prop where
  first : ∃ first, firstChecked trace = some first ∧ matchingGrants first rootId = [began]
  now : matchingGrants access rootId = [grant]
  valid : validPublicRoot grant = true
  kind : grant.kind = began.kind
  locator : grant.locator = began.locator
  writable : write = true → grant.readOnly = false

def Shares (trace : List Observed) (access : RemoteFsAccessConfig) (rootId : String)
    (write : Bool) : Prop := ∃ began grant, StillGranted trace access rootId write began grant

/-- A snapshot authorises a request under way: its peer is trusted, and the
roots it names are shared as they were. -/
def Authorises (X : RemoteFsExternals) (event : RemoteFsEvent) (trace : List Observed)
    (access : RemoteFsAccessConfig) : Prop :=
  normalizeFingerprint X event.peer.certificateFingerprint ∈ access.trustedFingerprints ∧
    ∀ rootId ∈ event.request.rootIds, Shares trace access rootId event.request.isWrite

/-- A snapshot permits an act of a handler; a reply that lists roots lists only
such as are shared. -/
def Permits (X : RemoteFsExternals) (access : RemoteFsAccessConfig) (task : RemoteFsTask)
    (op : FsOp) : Prop :=
  Authorises X task.event task.trace access ∧
    ∀ requestId roots, op = .respond requestId (.roots roots) →
      ∀ root ∈ roots, Shares task.trace access root.id false

/-- What the step leads the handler to do is permitted by the snapshot of that
moment. -/
def ActsPermitted (X : RemoteFsExternals) (p : RemoteFsPool)
    (l : TaskPool.Label FsAnswer RemoteFsEnv) : Prop :=
  ∀ task ∈ p.moved l, ∀ op, task.awaiting = some op → op.Acts → Permits X p.shared task op

section Traces

variable {X : RemoteFsExternals} {event : RemoteFsEvent} {trace : List Observed}
  {access : RemoteFsAccessConfig} {rootId : String} {write : Bool}

theorem firstChecked_append {first : RemoteFsAccessConfig} (rest : List Observed)
    (h : firstChecked trace = some first) : firstChecked (trace ++ rest) = some first := by
  cases trace with
  | nil => cases h
  | cons o trace => cases o <;> exact h

theorem firstChecked_eq_head? {first : RemoteFsAccessConfig} :
    firstChecked trace = some first ↔ trace.head? = some (.checked first) := by
  cases trace with
  | nil => simp [firstChecked]
  | cons o trace => cases o <;> simp [firstChecked]

theorem Shares.append (h : Shares trace access rootId write) (rest : List Observed) :
    Shares (trace ++ rest) access rootId write := by
  obtain ⟨began, grant, hstill⟩ := h
  obtain ⟨first, hfirst, hbegan⟩ := hstill.first
  exact ⟨began, grant, { hstill with first := ⟨first, firstChecked_append rest hfirst, hbegan⟩ }⟩

theorem Authorises.append (h : Authorises X event trace access) (rest : List Observed) :
    Authorises X event (trace ++ rest) access :=
  ⟨h.1, fun rootId hroot => (h.2 rootId hroot).append rest⟩

end Traces

/-! ## §3  Between two looks -/

def Observed.isSafMove : Observed → Bool
  | .called (.moveSafDocument _ _ _) => true
  | _ => false

/-- Something was changed or opened. -/
def Touched (trace : List Observed) : Prop := ∃ op, .called op ∈ trace ∧ op.Touches

/-- Something was changed or opened, and the reply is to follow. A second move
of a document takes the first one back; only an error follows it. -/
structure InFlight (trace : List Observed) : Prop where
  touched : Touched trace
  noReply : NoReply trace
  forth : trace.countP Observed.isSafMove ≤ 1

section InFlight

variable {trace : List Observed} {o : Observed}

theorem NoReply.of_append {rest : List Observed} (h : NoReply (trace ++ rest)) : NoReply trace :=
  fun requestId reply hmem => h requestId reply (List.mem_append_left _ hmem)

theorem InFlight.of_append {rest : List Observed} (h : InFlight (trace ++ rest))
    (htouched : Touched trace) : InFlight trace := by
  have hforth := h.forth
  rw [List.countP_append] at hforth
  exact ⟨htouched, h.noReply.of_append, by omega⟩

theorem touched_snoc : Touched (trace ++ [o]) ↔
    Touched trace ∨ ∃ op, o = .called op ∧ op.Touches := by
  constructor
  · rintro ⟨op, hmem, hop⟩
    rcases List.mem_append.mp hmem with hmem | hmem
    · exact .inl ⟨op, hmem, hop⟩
    · exact .inr ⟨op, (List.mem_singleton.mp hmem).symm, hop⟩
  · rintro (⟨op, hmem, hop⟩ | ⟨op, rfl, hop⟩)
    · exact ⟨op, List.mem_append_left _ hmem, hop⟩
    · exact ⟨op, by simp, hop⟩

theorem countP_isSafMove_eq_zero (h : ¬ Touched trace) :
    trace.countP Observed.isSafMove = 0 := by
  rw [List.countP_eq_zero]
  intro o hmem hmove
  match o with
  | .called (.moveSafDocument uri a b) => exact h ⟨_, hmem, .inr trivial⟩

end InFlight

/-- A handler may look until it replies, and acts only while the snapshot
authorises it. Updates spare it while it is in flight. -/
def revocationSpec (X : RemoteFsExternals) (event : RemoteFsEvent) :
    Spec RemoteFsAccessConfig RemoteFsError FsOp FsOp.Answer Checking where
  mayRead w := NoReply w.1
  reads w access w' := access = w.2 ∧ w' = (w.1 ++ [.checked w.2], w.2)
  mayCall op w := (op.Acts → Authorises X event w.1 w.2) ∧
    ∀ requestId roots, op = .respond requestId (.roots roots) → event.request = .roots
  answers op w _ w' := w'.1 = w.1 ++ [.called op] ∧
    (InFlight w'.1 → Authorises X event w'.1 w'.2)

/-- The handler holds the grants it started with, and has changed nothing. -/
structure HoldsGrants (event : RemoteFsEvent) (G : List RemoteFsGrant) (w : Checking) : Prop where
  began : ∃ first, firstChecked w.1 = some first ∧ ∀ g ∈ G, matchingGrants first g.id = [g]
  covers : ∀ id ∈ event.request.rootIds, ∃ g ∈ G, g.id = id
  noReply : NoReply w.1
  untouched : ¬ Touched w.1

/-- The handler looked, and nothing was awaited since. -/
def Ready (X : RemoteFsExternals) (event : RemoteFsEvent) (G : List RemoteFsGrant)
    (w : Checking) : Prop := HoldsGrants event G w ∧ Authorises X event w.1 w.2

/-- The handler has changed something, and is still authorised. -/
def Acting (X : RemoteFsExternals) (event : RemoteFsEvent) (w : Checking) : Prop :=
  InFlight w.1 ∧ Authorises X event w.1 w.2

section Phases

variable {X : RemoteFsExternals} {event : RemoteFsEvent} {G : List RemoteFsGrant}
  {w w' : Checking} {op : FsOp} {capability : RemoteFsCapability}

/-- From here on nothing is known, which does for errors and after a reply. -/
abbrev Anything (_ : Checking) : Prop := True

theorem looks_revocation : Looks (revocationSpec X event) where
  may _ h := h
  reads _ _ _ h := h

/-- An operation that is no reply and touches nothing may always be called. -/
theorem mayCall_of_not_acts (h : ¬ op.Acts) : (revocationSpec X event).mayCall op w := by
  refine ⟨fun hacts => absurd hacts h, fun requestId roots heq => absurd ?_ h⟩
  exact .inr ⟨requestId, _, heq, by rw [heq]; exact id⟩

theorem not_respond_of_not_acts (h : ¬ op.Acts) (hop : ¬ op.IsErrorReply) :
    ∀ requestId reply, op ≠ .respond requestId reply :=
  fun requestId reply heq => h (.inr ⟨requestId, reply, heq, hop⟩)

theorem touches_not_respond (h : op.Touches) :
    ∀ requestId reply, op ≠ .respond requestId reply := by
  rintro requestId reply rfl
  exact h.elim id id

theorem callsKeep_holds {A : FsOp → Prop} (hA : ∀ op, A op → ¬ op.Acts ∧ ¬ op.IsErrorReply) :
    CallsKeep (revocationSpec X event) A (HoldsGrants event G) where
  may op w hop _ := mayCall_of_not_acts (hA op hop).1
  keep op a w w' hop hw hans := by
    obtain ⟨hacts, herror⟩ := hA op hop
    refine ⟨?_, hw.covers, ?_, ?_⟩
    · obtain ⟨first, hfirst, hmatch⟩ := hw.began
      refine ⟨first, ?_, hmatch⟩
      rw [hans.1]
      exact firstChecked_append _ hfirst
    · rw [hans.1]
      exact hw.noReply.called (not_respond_of_not_acts hacts herror)
    · rw [hans.1, touched_snoc]
      rintro (h | ⟨op', heq, h⟩)
      · exact hw.untouched h
      · obtain rfl := Observed.called.inj heq
        exact hacts (.inl h)

/-- The first change of a handler that has just looked. -/
theorem leads_change (hop : op.Touches) :
    Leads (revocationSpec X event) (Ready X event G) (Acting X event) Anything (await op) := by
  intro w hw
  refine wp_await ⟨fun _ => hw.2, fun _ _ heq => absurd heq (touches_not_respond hop _ _)⟩
    (fun _ w' hans => ?_) fun _ _ _ => trivial
  have hflight : InFlight w'.1 := by
    rw [hans.1]
    refine ⟨touched_snoc.mpr (.inr ⟨op, rfl, hop⟩), hw.1.noReply.called (touches_not_respond hop),
      ?_⟩
    rw [List.countP_append, countP_isSafMove_eq_zero hw.1.untouched, Nat.zero_add]
    exact List.countP_le_length
  exact ⟨hflight, hans.2 hflight⟩

/-- What is called in flight leaves a handler in flight, unless it moves. -/
theorem Acting.called (hw : Acting X event w) (hrespond : ∀ id reply, op ≠ .respond id reply)
    (hmove : (Observed.called op).isSafMove = false) {a : Except RemoteFsError op.Answer}
    (hans : (revocationSpec X event).answers op w a w') : Acting X event w' := by
  have hflight : InFlight w'.1 := by
    rw [hans.1]
    refine ⟨touched_snoc.mpr (.inl hw.1.touched), hw.1.noReply.called hrespond, ?_⟩
    rw [List.countP_append, List.countP_singleton, hmove]
    exact hw.1.forth
  exact ⟨hflight, hans.2 hflight⟩

theorem callsKeep_acting {A : FsOp → Prop} (hA : ∀ op, A op → ¬ op.Acts ∧ ¬ op.IsErrorReply) :
    CallsKeep (revocationSpec X event) A (Acting X event) where
  may op w hop _ := mayCall_of_not_acts (hA op hop).1
  keep op a w w' hop hw hans := by
    obtain ⟨hacts, herror⟩ := hA op hop
    refine hw.called (not_respond_of_not_acts hacts herror) ?_ hans
    cases op <;> first | rfl | exact absurd (.inl (.inr trivial)) hacts

/-- Once a document was moved, it may be renamed, or moved back, which ends in
an error. -/
theorem leads_again {moved : SafDocument} {name uri destination : String} :
    Leads (revocationSpec X event) (Acting X event) (Acting X event) Anything
      (renameMoved moved name uri destination) := by
  have hmay : ∀ {op : FsOp} {w : Checking}, op.Touches → Acting X event w →
      (revocationSpec X event).mayCall op w := fun hop hw =>
    ⟨fun _ => hw.2, fun _ _ heq => absurd heq (touches_not_respond hop _ _)⟩
  intro w hw
  unfold renameMoved
  split
  · exact wp_pure.mpr hw
  rw [wp_catching]
  have hrename : (FsOp.renameSafDocument moved.uri name).Touches := .inr trivial
  refine wp_await (hmay hrename hw) (fun document w₁ hans => ?_) fun e w₁ hans => ?_
  · exact hw.called (touches_not_respond hrename) rfl hans
  have h₁ : Acting X event w₁ := hw.called (touches_not_respond hrename) rfl hans
  split
  · dsimp only
    rw [wp_bind, wp_catching, wp_bind]
    have hback : (FsOp.moveSafDocument moved.uri destination uri).Touches := .inr trivial
    refine wp_await (hmay hback h₁) (fun _ w₂ _ => ?_) fun _ w₂ _ => ?_
    · exact wp_pure.mpr (wp_throw.mpr trivial)
    · exact wp_pure.mpr (wp_throw.mpr trivial)
  · exact wp_throw.mpr trivial

theorem Looked.keepsFirst {first : RemoteFsAccessConfig} (h : Looked w w')
    (hfirst : firstChecked w.1 = some first) : firstChecked w'.1 = some first := by
  rw [firstChecked_eq_head?] at hfirst ⊢
  rw [h.first, hfirst]
  rfl

/-- Looking changes nothing that a handler holds. -/
theorem Looked.holds (h : Looked w w') (hw : HoldsGrants event G w) : HoldsGrants event G w' where
  began := by
    obtain ⟨first, hfirst, hmatch⟩ := hw.began
    exact ⟨first, h.keepsFirst hfirst, hmatch⟩
  covers := hw.covers
  noReply := h.noReply
  untouched := by
    rintro ⟨op, hmem, hop⟩
    exact hw.untouched ⟨op, (h.called op).mp hmem, hop⟩

/-- A handler that looks while the snapshot authorises it is ready to act. -/
theorem Looked.ready (h : Looked w w') (hw : HoldsGrants event G w)
    (hauth : Authorises X event w.1 w.2) : Ready X event G w' := by
  refine ⟨h.holds hw, ?_⟩
  rw [h.now]
  refine ⟨hauth.1, fun id hid => ?_⟩
  obtain ⟨began, grant, hstill⟩ := hauth.2 id hid
  obtain ⟨first, hfirst, hbegan⟩ := hstill.first
  exact ⟨began, grant, { hstill with first := ⟨first, h.keepsFirst hfirst, hbegan⟩ }⟩

/-- The first look of a handler, at the grants of all its roots. -/
theorem Looked.ready_first (h : Looked w w') (hw : w.1 = [])
    (htrusted : normalizeFingerprint X event.peer.certificateFingerprint ∈
      w.2.trustedFingerprints)
    (hG : ∀ g ∈ G, ∃ capability, Authorised X w.2 event.peer g.id capability g ∧
      (event.request.isWrite = true → isWriteCapability capability = true))
    (hcovers : ∀ id ∈ event.request.rootIds, ∃ g ∈ G, g.id = id) : Ready X event G w' := by
  have hfirst : firstChecked w'.1 = some w.2 := by
    rw [firstChecked_eq_head?, h.first, hw]
    rfl
  refine ⟨⟨⟨w.2, hfirst, fun g hg => ?_⟩, hcovers, h.noReply, ?_⟩, ?_⟩
  · obtain ⟨capability, hgrant, -⟩ := hG g hg
    exact hgrant.unique
  · rintro ⟨op, hmem, -⟩
    rw [h.called, hw] at hmem
    cases hmem
  · rw [h.now]
    refine ⟨htrusted, fun id hid => ?_⟩
    obtain ⟨g, hg, rfl⟩ := hcovers id hid
    obtain ⟨capability, hgrant, hcap⟩ := hG g hg
    exact ⟨g, g, ⟨w.2, hfirst, hgrant.unique⟩, hgrant.unique, hgrant.valid, rfl, rfl,
      fun hwrite => hgrant.writable (hcap hwrite)⟩

/-- A grant that was found to be current still shares its root. -/
theorem HoldsGrants.shares {g current : RemoteFsGrant} (hw : HoldsGrants event G w) (hg : g ∈ G)
    (hnow : Authorised X w.2 event.peer g.id capability current)
    (hkind : current.kind = g.kind) (hlocator : current.locator = g.locator)
    (hcap : event.request.isWrite = true → isWriteCapability capability = true) :
    Shares w.1 w.2 g.id event.request.isWrite := by
  obtain ⟨first, hfirst, hmatch⟩ := hw.began
  exact ⟨g, current, ⟨first, hfirst, hmatch g hg⟩, hnow.unique, hnow.valid, hkind, hlocator,
    fun hwrite => hnow.writable (hcap hwrite)⟩

/-- One grant is looked at, and the request names no other root. -/
theorem leads_current {g : RemoteFsGrant} (hg : g ∈ G) (hG : ∀ q ∈ G, q.id = g.id)
    (hcap : event.request.isWrite = true → isWriteCapability capability = true) :
    Leads (revocationSpec X event) (HoldsGrants event G) (Ready X event G) Anything
      (ensureGrantCurrent X event.peer g capability) := by
  intro w hw
  refine looks_revocation.wp_ensureGrantCurrent hw.noReply
    (fun current w' hlooked hnow hkind hlocator => ?_) fun _ _ _ => trivial
  refine hlooked.ready hw ⟨hnow.trusted, fun id hid => ?_⟩
  obtain ⟨q, hq, rfl⟩ := hw.covers id hid
  rw [hG q hq]
  exact hw.shares hg hnow hkind hlocator hcap

/-- Both grants of a move are looked at, with no await in between. -/
theorem leads_currentPair {g g' : RemoteFsGrant} :
    Leads (revocationSpec X event) (HoldsGrants event [g, g']) (Ready X event [g, g']) Anything
      (ensureGrantCurrent X event.peer g .move >>= fun _ =>
        ensureGrantCurrent X event.peer g' .write) := by
  intro w hw
  rw [wp_bind]
  refine looks_revocation.wp_ensureGrantCurrent hw.noReply
    (fun c w₁ h₁ hc hkind hlocator => ?_) fun _ _ _ => trivial
  refine looks_revocation.wp_ensureGrantCurrent h₁.noReply
    (fun c' w₂ h₂ hc' hkind' hlocator' => ?_) fun _ _ _ => trivial
  rw [h₁.now] at hc'
  refine (h₁.trans h₂).ready hw ⟨hc.trusted, fun id hid => ?_⟩
  obtain ⟨q, hq, rfl⟩ := hw.covers id hid
  rcases List.mem_cons.mp hq with rfl | hq
  · exact hw.shares List.mem_cons_self hc hkind hlocator fun _ => rfl
  · obtain rfl := List.mem_singleton.mp hq
    exact hw.shares (by simp) hc' hkind' hlocator' fun _ => rfl

theorem leads_readyRename {g : RemoteFsGrant} {source : RemoteFsLocation} {name : String} :
    Leads (revocationSpec X event) (Ready X event G) (Ready X event G) Anything
      (requireRename X event.peer g source name) := by
  unfold requireRename
  split
  · intro w hw
    rw [wp_bind]
    refine looks_revocation.wp_authorizeGrant hw.1.noReply (fun c w' hlooked _ => ?_)
      fun _ _ _ => trivial
    have hready : Ready X event G w' := hlooked.ready hw.1 hw.2
    exact leads_require (fun _ _ => trivial) w' hready
  · exact leads_pure fun _ hw => hw

theorem leads_reply {reply : RemoteFsReply} {J : Checking → Prop}
    (hroots : ∀ roots, reply ≠ .roots roots ∨ event.request = .roots)
    (hJ : ∀ w, J w → Authorises X event w.1 w.2) :
    Leads (revocationSpec X event) J Anything Anything (respond event.requestId reply) := by
  intro w hw
  refine wp_await ⟨fun _ => hJ w hw, fun requestId roots heq => ?_⟩ (fun _ _ _ => trivial)
    fun _ _ _ => trivial
  exact (hroots roots).resolve_left fun hne => hne (FsOp.respond.inj heq).2

theorem FsOp.IsQuiet.inspects {op : FsOp} (h : op.IsQuiet) : ¬ op.Acts ∧ ¬ op.IsErrorReply :=
  ⟨h.not_acts, fun herror => by cases op <;> first | exact h | exact herror⟩

theorem FsOp.IsSafQuery.inspects {op : FsOp} (h : op.IsSafQuery) :
    ¬ op.Acts ∧ ¬ op.IsErrorReply :=
  ⟨h.not_acts, fun herror => by cases op <;> first | exact h | exact herror⟩

theorem revocationStages {A B : FsOp → Prop}
    (hA : ∀ op, A op → ¬ op.Acts ∧ ¬ op.IsErrorReply) (hB : ∀ op, B op → op.Touches) :
    Stages (revocationSpec X event) A B (HoldsGrants event G) (Ready X event G) (Acting X event)
      Anything where
  query := callsKeep_holds hA
  change op hop := leads_change (hB op hop)
  after := callsKeep_acting hA
  waits _ _ := trivial
  checked _ _ := trivial
  changed _ _ := trivial

/-- **The phases of a handler under revocation.** -/
theorem revocationPhases : Phases X event (revocationSpec X event) Untouched (HoldsGrants event)
    (Ready X event) (fun _ => Acting X event) Anything Anything where
  localStages _ := revocationStages (fun _ h => h.inspects) fun _ h => h.touches
  safStages _ := revocationStages (fun _ h => h.inspects) fun _ h => h.touches
  again := leads_again
  settle _ _ hw := hw.1
  authorize := by
    intro rootId capability hroots hcap w (hw : w.1 = [])
    refine looks_revocation.wp_authorizeGrant (by simp [hw, NoReply])
      (fun g w' hlooked hgrant => ?_) fun _ _ _ => trivial
    refine hlooked.ready_first hw hgrant.trusted (fun q hq => ?_) fun id hid => ?_
    · obtain rfl := List.mem_singleton.mp hq
      rw [hgrant.id_eq]
      exact ⟨capability, hgrant, hcap⟩
    · rw [hroots, List.mem_singleton] at hid
      exact ⟨g, List.mem_singleton_self g, hgrant.id_eq.trans hid.symm⟩
  current := by
    intro g capability _ hcap
    refine leads_current (List.mem_singleton_self g) (fun q hq => ?_) hcap
    rw [List.mem_singleton.mp hq]
  authorizePair := by
    intro source destination hroots w (hw : w.1 = [])
    refine looks_revocation.wp_authorizeGrant (by simp [hw, NoReply]) (fun g w₁ h₁ hg => ?_)
      fun _ _ _ => trivial
    refine looks_revocation.wp_authorizeGrant h₁.noReply (fun g' w₂ h₂ hg' => ?_)
      fun _ _ _ => trivial
    rw [h₁.now] at hg'
    refine (h₁.trans h₂).ready_first hw hg.trusted (fun q hq => ?_) fun id hid => ?_
    · rcases List.mem_cons.mp hq with rfl | hq
      · rw [hg.id_eq]
        exact ⟨_, hg, fun _ => rfl⟩
      · obtain rfl := List.mem_singleton.mp hq
        rw [hg'.id_eq]
        exact ⟨_, hg', fun _ => rfl⟩
    · rw [hroots, List.mem_cons, List.mem_singleton] at hid
      rcases hid with rfl | rfl
      · exact ⟨g, by simp, hg.id_eq⟩
      · exact ⟨g', by simp, hg'.id_eq⟩
  requireRename _ := leads_readyRename
  currentPair := leads_currentPair
  currentSame := by
    intro g g' hsame
    refine leads_current List.mem_cons_self (fun q hq => ?_) fun _ => rfl
    rcases List.mem_cons.mp hq with rfl | hq
    · rfl
    · rw [List.mem_singleton.mp hq, hsame]
  reply _ hroots :=
    ⟨leads_reply (fun roots => .inl (hroots roots)) fun _ hw => hw.2,
      leads_reply (fun roots => .inl (hroots roots)) fun _ hw => hw.2⟩

theorem leads_revocationRoots (hevent : event.request = .roots) :
    Leads (revocationSpec X event) Untouched Anything Anything
      (respondRemoteFsRoots X event.requestId event.peer) := by
  intro w (hw : w.1 = [])
  have hnone : ∀ id ∈ event.request.rootIds, False := by simp [hevent, RemoteFsRequest.rootIds]
  unfold respondRemoteFsRoots
  rw [wp_bind]
  refine looks_revocation.wp_requireTrustedPeer (by simp [hw, NoReply]) (fun w₁ h₁ htrusted => ?_)
    fun _ _ _ => trivial
  rw [wp_bind]
  refine looks_revocation.wp_get h₁.noReply fun w₂ h₂ => ?_
  have hready : Ready X event [] w₂ :=
    (h₁.trans h₂).ready_first hw htrusted (by simp) fun id hid => (hnone id hid).elim
  have hkeeps : ∀ access roots grant, Keeps (revocationSpec X event) (HoldsGrants event []) Anything
      (addRoot X access roots grant) := fun access roots grant =>
    uses_addRoot.keeps (callsKeep_holds fun _ hop => hop.elim (·.inspects) (·.inspects))
      fun _ _ => trivial
  rw [wp_bind]
  refine wp_mono (keeps_foldl (fun _ _ => hkeeps _ _ _) _ hready.1) (fun roots w₃ h₃ => ?_)
    fun _ _ he => he
  rw [wp_bind]
  refine looks_revocation.wp_requireTrustedPeer h₃.noReply (fun w₄ h₄ htrusted => ?_)
    fun _ _ _ => trivial
  have hauth : Ready X event [] w₄ :=
    h₄.ready h₃ ⟨htrusted, fun id hid => (hnone id hid).elim⟩
  exact leads_reply (fun _ => .inr hevent) (fun w hw => hw.2) w₄ hauth

/-- **The whole handler** acts only while it is authorised. -/
theorem wp_handleRevocation (access : RemoteFsAccessConfig) :
    wp (revocationSpec X event) (handleRemoteFsEvent X event) (fun _ _ => True)
      (fun _ _ => True) ([], access) := by
  unfold handleRemoteFsEvent
  rw [wp_catching]
  refine wp_mono (leads_respondRemoteFs revocationPhases leads_revocationRoots _ rfl)
    (fun _ _ _ => trivial) fun error w _ => ?_
  rw [wp_catching]
  refine wp_await ⟨fun hacts => absurd hacts (FsOp.not_acts_error trivial), fun _ _ heq => ?_⟩
    (fun _ _ _ => trivial) fun _ _ _ => wp_pure.mpr trivial
  cases (FsOp.respond.inj heq).2

end Phases

/-! ## §4  Announced roots -/

/-- Some answers lead the program to announce a root. -/
def Announces (rootId : String) : RemoteFsM Unit → Prop
  | .pure _ | .throw _ => False
  | .read k => ∃ access, Announces rootId (k access)
  | .call op k => (∃ requestId roots, op = .respond requestId (.roots roots) ∧
      ∃ root ∈ roots, root.id = rootId) ∨ ∃ a, Announces rootId (k a)

/-- Some answer to the operation it waits for, and to those that follow, leads
a handler to announce a root. -/
def RemoteFsTask.MayAnnounce (task : RemoteFsTask) (rootId : String) : Prop :=
  ∃ op k a, task.rest = .call op k ∧ Announces rootId (k a)

/-- A root that a snapshot has to announce. -/
def OffersRoot (access : RemoteFsAccessConfig) (rootId : String) : Prop :=
  ∃ grant, matchingGrants access rootId = [grant] ∧ validPublicRoot grant = true

/-- Nothing was called. -/
def Unasked (trace : List Observed) : Prop := ∀ o ∈ trace, ∃ access, o = .checked access

/-- A handler first sees `first`, and later anything; it announces roots that
`first` offers. -/
def offerSpec (first : RemoteFsAccessConfig) :
    Spec RemoteFsAccessConfig RemoteFsError FsOp FsOp.Answer (List Observed) where
  mayRead _ := True
  reads trace access trace' :=
    (Unasked trace → access = first) ∧ trace' = trace ++ [.checked access]
  mayCall op trace := ∀ requestId roots, op = .respond requestId (.roots roots) →
    firstChecked trace = some first ∧ ∀ root ∈ roots, OffersRoot first root.id
  answers op trace _ trace' := trace' = trace ++ [.called op]

section Announced

variable {X : RemoteFsExternals} {event : RemoteFsEvent} {trace : List Observed}
  {first access : RemoteFsAccessConfig} {rootId : String} {p : RemoteFsM Unit}
  {Q : Unit → List Observed → Prop} {E : RemoteFsError → List Observed → Prop}

theorem firstChecked_of_append {o : Observed} (hne : trace ≠ [])
    (h : firstChecked (trace ++ [o]) = some first) : firstChecked trace = some first := by
  cases trace with
  | nil => exact absurd rfl hne
  | cons o trace => cases o <;> exact h

theorem Unasked.of_append {rest : List Observed} (h : Unasked (trace ++ rest)) : Unasked trace :=
  fun o ho => h o (List.mem_append_left _ ho)

theorem ne_nil_of_asked (h : ¬ Unasked trace) : trace ≠ [] := by
  rintro rfl
  exact h fun o ho => by cases ho

/-- What a handler that waits may announce was offered to it. -/
theorem offered_of_announces (hp : wp (offerSpec first) p Q E trace) (hasked : ¬ Unasked trace)
    (h : Announces rootId p) : firstChecked trace = some first ∧ OffersRoot first rootId := by
  have hafter : ∀ o, ¬ Unasked (trace ++ [o]) := fun o hall => hasked hall.of_append
  induction p generalizing trace with
  | pure a => exact h.elim
  | throw e => exact h.elim
  | read k ih =>
      obtain ⟨access, h⟩ := h
      rw [wp_read] at hp
      have hk := hp.2 access _ ⟨fun hun => absurd hun hasked, rfl⟩
      obtain ⟨hfirst, hoffered⟩ := ih access hk (hafter _) h fun o hall =>
        hafter _ hall.of_append
      exact ⟨firstChecked_of_append (ne_nil_of_asked hasked) hfirst, hoffered⟩
  | call op k ih =>
      rw [wp_call] at hp
      rcases h with ⟨requestId, roots, rfl, root, hroot, rfl⟩ | ⟨a, h⟩
      · obtain ⟨hfirst, hoffered⟩ := hp.1 requestId roots rfl
        exact ⟨hfirst, hoffered root hroot⟩
      · obtain ⟨hfirst, hoffered⟩ := ih a (hp.2 a _ rfl) (hafter _) h fun o hall =>
          hafter _ hall.of_append
        exact ⟨firstChecked_of_append (ne_nil_of_asked hasked) hfirst, hoffered⟩

/-- What a new handler may announce, now or later, was offered to it. -/
theorem offered_run (hp : wp (offerSpec access) p Q E trace) (hun : Unasked trace)
    (h : Announces rootId (RemoteFsTask.run access event trace p).rest) :
    Shares (RemoteFsTask.run access event trace p).trace access rootId false := by
  induction p generalizing trace with
  | pure a => exact h.elim
  | throw e => exact h.elim
  | read k ih =>
      rw [wp_read] at hp
      refine ih access (hp.2 access _ ⟨fun _ => rfl, rfl⟩) (fun o ho => ?_) h
      rcases List.mem_append.mp ho with ho | ho
      · exact hun o ho
      · exact ⟨access, List.mem_singleton.mp ho⟩
  | call op k ih =>
      rw [wp_call] at hp
      have hasked : ¬ Unasked (trace ++ [.called op]) := by
        intro hall
        obtain ⟨access', heq⟩ := hall (.called op) (by simp)
        cases heq
      have hshares : firstChecked (trace ++ [.called op]) = some access →
          OffersRoot access rootId → Shares (trace ++ [.called op]) access rootId false := by
        rintro hfirst ⟨g, hg, hvalid⟩
        exact ⟨g, g, ⟨access, hfirst, hg⟩, hg, hvalid, rfl, rfl, fun hwrite => by cases hwrite⟩
      rcases h with ⟨requestId, roots, rfl, root, hroot, rfl⟩ | ⟨a, h⟩
      · obtain ⟨hfirst, hoffered⟩ := hp.1 requestId roots rfl
        exact hshares (firstChecked_append _ hfirst) (hoffered root hroot)
      · obtain ⟨hfirst, hoffered⟩ := offered_of_announces (hp.2 a _ rfl) hasked h
        exact hshares hfirst hoffered

/-- A handler that runs announces nothing that it might not have announced. -/
theorem announces_run (h : Announces rootId (RemoteFsTask.run access event trace p).rest) :
    Announces rootId p := by
  induction p generalizing trace with
  | pure a => exact h
  | throw e => exact h
  | read k ih => exact ⟨access, ih access h⟩
  | call op k ih => exact h

theorem trace_run : ∃ rest, (RemoteFsTask.run access event trace p).trace = trace ++ rest := by
  induction p generalizing trace with
  | pure a => exact ⟨[], (List.append_nil _).symm⟩
  | throw e => exact ⟨[], (List.append_nil _).symm⟩
  | read k ih =>
      obtain ⟨rest, hrest⟩ : ∃ rest, (RemoteFsTask.run access event (trace ++ [.checked access])
          (k access)).trace = trace ++ [.checked access] ++ rest := ih access
      exact ⟨.checked access :: rest, by rw [RemoteFsTask.run, hrest, List.append_assoc]; rfl⟩
  | call op k ih => exact ⟨[.called op], rfl⟩

/-- The answers of the providers keep what a handler first saw. -/
theorem callsKeep_offer {A : FsOp → Prop} (hA : ∀ op, A op → ¬ op.Acts) :
    CallsKeep (offerSpec first) A (fun trace => firstChecked trace = some first) where
  may op trace hop _ requestId roots heq :=
    absurd (.inr ⟨requestId, _, heq, by rw [heq]; exact id⟩) (hA op hop)
  keep op a trace trace' _ htrace hans := by
    rw [show trace' = trace ++ [.called op] from hans]
    exact firstChecked_append _ htrace

theorem wp_availableRemoteFsRoot {grant : RemoteFsGrant}
    (htrace : firstChecked trace = some first) :
    wp (offerSpec first) (availableRemoteFsRoot X grant)
      (fun root trace => firstChecked trace = some first ∧ ∀ r ∈ root, r.id = grant.id)
      (fun _ _ => False) trace := by
  have hlocal : CallsKeep (offerSpec first) FsOp.IsQuiet fun trace =>
      firstChecked trace = some first := callsKeep_offer fun op hop => hop.not_acts
  have hsaf : CallsKeep (offerSpec first) FsOp.IsSafQuery fun trace =>
      firstChecked trace = some first := callsKeep_offer fun op hop => hop.not_acts
  unfold availableRemoteFsRoot
  rw [wp_catching]
  cases grant.kind with
  | localPath =>
      dsimp only
      rw [wp_bind]
      refine wp_mono ((uses_quiet uses_resolveLocalRoot).keeps hlocal (fun _ h => h) _ htrace) ?_ ?_
      · rintro _ trace' htrace'
        exact wp_pure.mpr ⟨htrace', by simp⟩
      · rintro _ trace' htrace'
        exact wp_pure.mpr ⟨htrace', by simp⟩
  | androidSaf =>
      dsimp only
      rw [wp_bind]
      refine wp_mono ((uses_await FsOp.listSharedRoots trivial).keeps hsaf (fun _ h => h) _ htrace)
        (fun roots trace' htrace' => ?_) fun _ trace' htrace' => wp_pure.mpr ⟨htrace', by simp⟩
      split
      · exact wp_pure.mpr ⟨htrace', by simp⟩
      split
      · exact wp_pure.mpr ⟨htrace', by simp⟩
      rw [wp_bind]
      refine wp_mono ((uses_await (FsOp.getSafMetadata grant.locator) trivial).keeps hsaf
        (fun _ h => h) _ htrace') (fun metadata trace' htrace' => ?_)
        fun _ trace' htrace' => wp_pure.mpr ⟨htrace', by simp⟩
      exact wp_pure.mpr ⟨htrace', by simp⟩

theorem wp_offer_trusted {peer : RemoteFsPeer} {R : List Observed → Prop}
    (hread : ∀ access, (Unasked trace → access = first) → R (trace ++ [.checked access])) :
    wp (offerSpec first) (requireTrustedPeer X peer) (fun _ => R) (fun _ _ => True) trace := by
  unfold requireTrustedPeer
  rw [wp_bind, wp_require]
  split_ifs
  rw [wp_bind]
  refine wp_get trivial fun access trace' hreads => ?_
  obtain ⟨hfirst, rfl⟩ := hreads
  rw [wp_require]
  split_ifs
  exact hread access hfirst

/-- The roots that are collected are offered by the first snapshot. -/
theorem wp_offer_addRoot {roots : List RemoteFsRoot} {grant : RemoteFsGrant}
    (hgrant : grant ∈ first.grants) (htrace : firstChecked trace = some first)
    (hroots : ∀ root ∈ roots, OffersRoot first root.id) :
    wp (offerSpec first) (addRoot X first roots grant)
      (fun roots trace =>
        firstChecked trace = some first ∧ ∀ root ∈ roots, OffersRoot first root.id)
      (fun _ _ => True) trace := by
  unfold addRoot
  split_ifs with hskip
  · exact wp_pure.mpr ⟨htrace, hroots⟩
  rw [wp_bind]
  refine wp_mono (wp_availableRemoteFsRoot htrace) (fun root trace' h => ?_)
    fun _ _ _ => trivial
  refine wp_pure.mpr ⟨h.1, fun r hr => ?_⟩
  rcases List.mem_append.mp hr with hr | hr
  · exact hroots r hr
  · rw [Bool.or_eq_true, not_or] at hskip
    obtain ⟨hvalid, hone⟩ := hskip
    obtain ⟨g, hg⟩ := List.length_eq_one_iff.mp (by simpa using hone)
    -- the only grant of that root is the one at hand
    have hmem : grant ∈ matchingGrants first grant.id := List.mem_filter.mpr ⟨hgrant, by simp⟩
    rw [hg, List.mem_singleton] at hmem
    subst hmem
    rw [h.2 r (Option.mem_toList.mp hr)]
    exact ⟨grant, hg, by simpa using hvalid⟩

theorem wp_offer_roots {requestId : String} {peer : RemoteFsPeer} :
    wp (offerSpec first) (respondRemoteFsRoots X requestId peer) (fun _ _ => True)
      (fun _ _ => True) [] := by
  unfold respondRemoteFsRoots
  rw [wp_bind]
  have hnone : Unasked [] := fun o ho => by cases ho
  refine wp_offer_trusted fun access haccess => ?_
  obtain rfl := haccess hnone
  rw [wp_bind]
  refine wp_get trivial fun shown trace hreads => ?_
  obtain ⟨hshown, rfl⟩ := hreads
  obtain rfl : shown = access := by
    refine hshown fun o ho => ⟨access, ?_⟩
    simpa using ho
  rw [wp_bind]
  refine wp_mono (wp_foldl (I := fun roots trace => firstChecked trace = some shown ∧
    ∀ root ∈ roots, OffersRoot shown root.id) ⟨rfl, by simp⟩ fun roots grant trace hgrant h =>
      wp_offer_addRoot hgrant h.1 h.2) (fun roots trace h => ?_) fun _ _ he => he
  rw [wp_bind]
  refine wp_offer_trusted fun access _ => ?_
  refine wp_await (fun requestId' roots' heq => ?_) (fun _ _ _ => trivial) fun _ _ _ => trivial
  obtain rfl := RemoteFsReply.roots.inj (FsOp.respond.inj heq).2
  exact ⟨firstChecked_append _ h.1, h.2⟩

theorem wp_offer_handle (hevent : event.request = .roots) :
    wp (offerSpec first) (handleRemoteFsEvent X event) (fun _ _ => True) (fun _ _ => True) [] := by
  unfold handleRemoteFsEvent respondRemoteFs
  rw [hevent, wp_catching]
  refine wp_mono wp_offer_roots (fun _ _ _ => trivial) fun error trace _ => ?_
  rw [wp_catching]
  refine wp_await (fun _ _ heq => ?_) (fun _ _ _ => trivial) fun _ _ _ => wp_pure.mpr trivial
  cases (FsOp.respond.inj heq).2

end Announced

/-! ## §5  Every run -/

/-- The update withdraws nothing that a handler will not look at again: what
the handlers in flight are authorised for, and the roots that one may still
announce. -/
def Spares (X : RemoteFsExternals) (p : RemoteFsPool) (access : RemoteFsAccessConfig) : Prop :=
  ∀ task ∈ p.tasks,
    (InFlight task.trace → Authorises X task.event task.trace access) ∧
      ∀ rootId, task.MayAnnounce rootId → Shares task.trace access rootId false

/-- No update arrives while it would withdraw what a handler goes on using. -/
def UpdatesSpare (X : RemoteFsExternals) (p : RemoteFsPool) :
    TaskPool.Label FsAnswer RemoteFsEnv → Prop
  | .env (.update value) => Spares X p (storedAccess X value)
  | _ => True

/-- What every handler keeps under a snapshot. -/
structure Steady (X : RemoteFsExternals) (access : RemoteFsAccessConfig) (task : RemoteFsTask) :
    Prop where
  inFlight : InFlight task.trace → Authorises X task.event task.trace access
  rest : ∀ op k, task.rest = .call op k → ∀ a access',
    (InFlight task.trace → Authorises X task.event task.trace access') →
      wp (revocationSpec X task.event) (k a) (fun _ _ => True) (fun _ _ => True)
        (task.trace, access')
  announced : task.event.request = .roots →
    ∀ rootId, task.MayAnnounce rootId → Shares task.trace access rootId false

section Isolate

variable {X : RemoteFsExternals} {event : RemoteFsEvent} {trace : List Observed}
  {access : RemoteFsAccessConfig} {p : RemoteFsM Unit}

/-- A handler that runs is steady at its next await, and what it calls there is
permitted, if it announces only what is shared. -/
theorem steady_run
    (hp : wp (revocationSpec X event) p (fun _ _ => True) (fun _ _ => True) (trace, access))
    (hflight : InFlight trace → Authorises X event trace access)
    (hshares : event.request = .roots → ∀ rootId,
      Announces rootId (RemoteFsTask.run access event trace p).rest →
        Shares (RemoteFsTask.run access event trace p).trace access rootId false) :
    Steady X access (RemoteFsTask.run access event trace p) ∧
      ∀ op, (RemoteFsTask.run access event trace p).awaiting = some op → op.Acts →
        Permits X access (RemoteFsTask.run access event trace p) op := by
  induction p generalizing trace with
  | pure a =>
      refine ⟨⟨hflight, fun op k hrest => ?_, fun _ rootId h => ?_⟩, fun op hop => ?_⟩
      · cases hrest
      · obtain ⟨op, k, a, hrest, -⟩ := h
        cases hrest
      · cases hop
  | throw e =>
      refine ⟨⟨hflight, fun op k hrest => ?_, fun _ rootId h => ?_⟩, fun op hop => ?_⟩
      · cases hrest
      · obtain ⟨op, k, a, hrest, -⟩ := h
        cases hrest
      · cases hop
  | read k ih =>
      rw [wp_read] at hp
      refine ih access (hp.2 access _ ⟨rfl, rfl⟩) (fun h => ?_) hshares
      rcases touched_snoc.mp h.touched with htouched | ⟨op, heq, -⟩
      · exact (hflight (h.of_append htouched)).append _
      · cases heq
  | call op k ih =>
      rw [wp_call] at hp
      obtain ⟨⟨hacts, hroots⟩, hk⟩ := hp
      have hnow : InFlight (trace ++ [.called op]) →
          Authorises X event (trace ++ [.called op]) access := by
        intro h
        rcases touched_snoc.mp h.touched with htouched | ⟨op', heq, htouches⟩
        · exact (hflight (h.of_append htouched)).append _
        · obtain rfl := Observed.called.inj heq
          exact (hacts (.inl htouches)).append _
      refine ⟨⟨hnow, fun op' k' hrest a access' hlater => ?_, fun hevent rootId h => ?_⟩,
        fun op' hop hacts' => ?_⟩
      · cases hrest
        exact hk a _ ⟨rfl, hlater⟩
      · obtain ⟨op', k', a, hrest, h⟩ := h
        cases hrest
        exact hshares hevent rootId (.inr ⟨a, h⟩)
      · obtain rfl := Option.some.inj hop
        refine ⟨(hacts hacts').append _, fun requestId roots heq root hroot => ?_⟩
        exact hshares (hroots requestId roots heq) root.id
          (.inl ⟨requestId, roots, heq, root, hroot, rfl⟩)

theorem Steady.resume {task task' : RemoteFsTask} {a : FsAnswer} (h : Steady X access task)
    (hstep : task.resume access a = some task') :
    Steady X access task' ∧ ∀ op, task'.awaiting = some op → op.Acts →
      Permits X access task' op := by
  unfold RemoteFsTask.resume at hstep
  split at hstep
  · rename_i op k hrest
    split_ifs at hstep with hop
    obtain rfl := Option.some.inj hstep
    refine steady_run (h.rest op k hrest _ access h.inFlight) h.inFlight fun hevent rootId ha => ?_
    obtain ⟨rest, htrace⟩ : ∃ rest, (RemoteFsTask.run access task.event task.trace
        (k (hop ▸ a.result))).trace = task.trace ++ rest := trace_run
    rw [htrace]
    exact (h.announced hevent rootId ⟨op, k, _, hrest, announces_run ha⟩).append rest
  · cases hstep

theorem steady_start (access : RemoteFsAccessConfig) (event : RemoteFsEvent) :
    Steady X access (.run access event [] (handleRemoteFsEvent X event)) ∧
      ∀ op, (RemoteFsTask.run access event [] (handleRemoteFsEvent X event)).awaiting = some op →
        op.Acts → Permits X access (.run access event [] (handleRemoteFsEvent X event)) op := by
  refine steady_run (wp_handleRevocation access) (fun h => ?_) fun hevent rootId ha => ?_
  · obtain ⟨op, hmem, -⟩ := h.touched
    cases hmem
  · exact offered_run (wp_offer_handle hevent) (fun o ho => by cases ho) ha

/-- One step of the isolate keeps its handlers steady, and does what is
permitted. -/
theorem steady_step {q q' : RemoteFsPool} {l : TaskPool.Label FsAnswer RemoteFsEnv}
    (h : ∀ task ∈ q.tasks, Steady X q.shared task) (hok : UpdatesSpare X q l)
    (hstep : remoteFsStep X q l = some q') :
    (∀ task ∈ q'.tasks, Steady X q'.shared task) ∧ ActsPermitted X q' l := by
  cases l with
  | task i a =>
      obtain ⟨task, o, hi, ho, rfl⟩ := TaskPool.poolStep_task.mp hstep
      obtain ⟨task', hresume, rfl⟩ := Option.map_eq_some_iff.mp ho
      obtain ⟨hsteady, hacts⟩ := (h task (List.mem_of_getElem? hi)).resume hresume
      constructor
      · intro u hu
        rcases TaskPool.mem_advance hu with rfl | hu | hu
        · exact hsteady
        · exact h u hu
        · cases hu
      · intro u hu
        have hlen := (List.getElem?_eq_some_iff.mp hi).1
        obtain rfl : task' = u := by
          simpa [RemoteFsPool.moved, TaskPool.Pool.advance, hlen] using hu
        exact hacts
  | env e =>
      obtain ⟨access, ts, he, rfl⟩ := TaskPool.poolStep_env.mp hstep
      cases e with
      | update value =>
          obtain ⟨rfl, rfl⟩ := Prod.mk.inj (Option.some.inj he)
          refine ⟨fun task htask => ?_, fun task htask => by cases htask⟩
          have hmem : task ∈ q.tasks := by simpa [TaskPool.Pool.enter] using htask
          obtain ⟨hflight, hannounced⟩ := hok task hmem
          exact ⟨hflight, (h task hmem).rest, fun _ => hannounced⟩
      | request event =>
          obtain ⟨rfl, rfl⟩ := Prod.mk.inj (Option.some.inj he)
          obtain ⟨hsteady, hacts⟩ := steady_start (X := X) q.shared event
          constructor
          · intro task htask
            rcases List.mem_append.mp htask with htask | htask
            · exact h task htask
            · obtain rfl := List.mem_singleton.mp htask
              exact hsteady
          · intro task htask
            obtain rfl :
                RemoteFsTask.run q.shared event [] (handleRemoteFsEvent X event) = task := by
              simpa [RemoteFsPool.moved, TaskPool.Pool.enter] using htask
            exact hacts

/-- **Revocation takes effect**: in every run whose updates withdraw nothing
that a handler goes on using without another look, whatever a step does or
replies is permitted by the snapshot of that moment. -/
theorem revocation_takes_effect {q q' : RemoteFsPool}
    {l : TaskPool.Label FsAnswer RemoteFsEnv}
    (h : Run (remoteFsStep X) (UpdatesSpare X) RemoteFsPool.init q) (hok : UpdatesSpare X q l)
    (hstep : remoteFsStep X q l = some q') : ActsPermitted X q' l := by
  have hsteady : ∀ task ∈ q.tasks, Steady X q.shared task := by
    refine h.invariant (I := fun q => ∀ task ∈ q.tasks, Steady X q.shared task) ?_
      fun m l t hm hok hst => (steady_step hm hok hst).1
    simp [RemoteFsPool.init]
  exact (steady_step hsteady hok hstep).2

end Isolate

/-! ## §6  Renamed in time, and too late -/

namespace Sample

/-- The tree is not shared any more. -/
def noGrants : RemoteFsAccessConfig := ⟨["AA"], []⟩

/-- Move `a` into `sub` under the name `b`. -/
def moveToSub : RemoteFsEvent where
  requestId := "1"
  peer := ⟨"192.0.2.7", "AA"⟩
  request := .move ⟨"docs", "a"⟩ ⟨"docs", "sub"⟩ (some "b") false

def resolved (path : String) (document : SafDocument) : TaskPool.Label FsAnswer RemoteFsEnv :=
  .task 0 ⟨.resolveSafRelativePath "tree:docs" path, .ok document⟩

/-- The request, up to the call that moves the document. -/
def moveRequested : List (TaskPool.Label FsAnswer RemoteFsEnv) :=
  [.env (.request moveToSub), resolved "a" (safDocument "doc:a" "a" false),
    resolved "" (safDocument "tree:docs" "docs" true),
    resolved "sub" (safDocument "doc:sub" "sub" true),
    .task 0 ⟨.listSafDirectory "doc:sub", .ok []⟩, .task 0 ⟨.listSafDirectory "doc:sub", .ok []⟩]

/-- The document was moved. -/
def moved : TaskPool.Label FsAnswer RemoteFsEnv :=
  .task 0 ⟨.moveSafDocument "doc:a" "tree:docs" "doc:sub", .ok (safDocument "doc:a" "a" false)⟩

/-- The move goes on to rename the document under these grants. -/
def renames (grants : List RemoteFsGrant) (q : RemoteFsPool) : Bool :=
  decide (q.shared.grants = grants) && q.tasks[0]?.any fun task =>
    decide (task.event = moveToSub) &&
      decide (task.awaiting = some (.renameSafDocument "doc:a" "b"))

end Sample

/-- A move whose document is renamed while its tree is shared. -/
theorem revocation_renamed : ∃ q q',
    Run (remoteFsStep Sample.remoteFsExternals) (UpdatesSpare Sample.remoteFsExternals)
      RemoteFsPool.init q ∧
      remoteFsStep Sample.remoteFsExternals q Sample.moved = some q' ∧
      Sample.renames Sample.treeAccess.grants q' = true ∧
      ActsPermitted Sample.remoteFsExternals q' Sample.moved := by
  obtain ⟨q, hq, hcheck⟩ := exists_of_exec_any (remoteFsStep Sample.remoteFsExternals)
    RemoteFsPool.init (.env (.update Sample.treeAccess) :: Sample.moveRequested)
    (fun q => (remoteFsStep Sample.remoteFsExternals q Sample.moved).any
      (Sample.renames Sample.treeAccess.grants)) rfl
  obtain ⟨q', hq', hcheck⟩ := (Option.any_eq_true _ _).mp hcheck
  -- nothing runs yet when the tree is shared, and no other update arrives
  have hguard : Guarded (remoteFsStep Sample.remoteFsExternals)
      (UpdatesSpare Sample.remoteFsExternals) RemoteFsPool.init
      (.env (.update Sample.treeAccess) :: Sample.moveRequested) := by
    refine ⟨fun task htask => (by cases htask), fun m _ => ?_⟩
    refine guarded_of_forall (P := fun l => ∀ value, l ≠ .env (.update value)) ?_ ?_ m
    · intro s l hl
      cases l with
      | task i a => trivial
      | env e =>
          cases e with
          | update value => exact absurd rfl (hl value)
          | request event => trivial
    · simp [Sample.moveRequested, Sample.resolved]
  have hrun := run_of_exec hq hguard
  exact ⟨q, q', hrun, hq', hcheck, revocation_takes_effect hrun trivial hq'⟩

/-- Before the move is answered the tree is withdrawn; the moved document is
renamed all the same. -/
theorem revocation_renamed_late : ∃ q q',
    Reach (remoteFsStep Sample.remoteFsExternals) RemoteFsPool.init q ∧
      remoteFsStep Sample.remoteFsExternals q Sample.moved = some q' ∧
      ¬ ActsPermitted Sample.remoteFsExternals q' Sample.moved := by
  obtain ⟨q, hq, hcheck⟩ := exists_of_exec_any (remoteFsStep Sample.remoteFsExternals)
    RemoteFsPool.init (.env (.update Sample.treeAccess) :: Sample.moveRequested ++
      [.env (.update Sample.noGrants)])
    (fun q => (remoteFsStep Sample.remoteFsExternals q Sample.moved).any (Sample.renames [])) rfl
  obtain ⟨q', hq', hcheck⟩ := (Option.any_eq_true _ _).mp hcheck
  rw [Sample.renames, Bool.and_eq_true, Option.any_eq_true] at hcheck
  obtain ⟨hgrants, task, htask, hcheck⟩ := hcheck
  rw [Bool.and_eq_true] at hcheck
  refine ⟨q, q', reach_of_exec hq, hq', fun hpermitted => ?_⟩
  have hpermits := hpermitted task htask _ (of_decide_eq_true hcheck.2) (.inl (.inr trivial))
  have hroot : "docs" ∈ task.event.request.rootIds := by
    rw [of_decide_eq_true hcheck.1]
    exact List.mem_cons_self
  obtain ⟨began, grant, hstill⟩ := hpermits.1.2 "docs" hroot
  have hnow := hstill.now
  rw [matchingGrants, of_decide_eq_true hgrants] at hnow
  cases hnow

end FireBoxTransfer
