import FireBoxTransfer.RemoteFs.Provider

/-!
# The phases of a handler

Every handler but the one for the roots goes through the same phases: it looks
up the grants of its request, queries the provider, looks at the grants once
more, changes something if it has to, and replies. A property of all handlers
is proved by saying what holds in each phase and what leads from one to the
next.
-/

namespace FireBoxTransfer

open Program

/-! ## §1  Phases -/

/-- The roots that a request names. -/
def RemoteFsRequest.rootIds : RemoteFsRequest → List String
  | .roots => []
  | .list location _ _ => [location.rootId]
  | .metadata target => [target.rootId]
  | .createDirectory parent _ => [parent.rootId]
  | .rename source _ => [source.rootId]
  | .move source destinationParent _ _ => [source.rootId, destinationParent.rootId]
  | .delete target _ => [target.rootId]
  | .read target => [target.rootId]
  | .write target _ _ => [target.rootId]

def RemoteFsRequest.isWrite : RemoteFsRequest → Bool
  | .createDirectory _ _ | .rename _ _ | .move _ _ _ _ | .delete _ _ | .write _ _ _ => true
  | .roots | .list _ _ _ | .metadata _ | .read _ => false

def FsOp.IsErrorReply : FsOp → Prop
  | .respond _ (.error _) => True
  | _ => False

/-- `B` holds at the start, `I` while the handler queries, `J` right after it
looked at the grants, `K` once it called a change, `R` after the reply; `E`
is left when something is thrown. -/
structure Phases {W : Type*} (X : RemoteFsExternals) (event : RemoteFsEvent)
    (S : Spec RemoteFsAccessConfig RemoteFsError FsOp FsOp.Answer W) (B : W → Prop)
    (I J K : List RemoteFsGrant → W → Prop) (E R : W → Prop) : Prop where
  localStages : ∀ G, Stages S FsOp.IsQuiet FsOp.IsLocalChange (I G) (J G) (K G) E
  safStages : ∀ G, Stages S FsOp.IsSafQuery FsOp.IsSafChange (I G) (J G) (K G) E
  again : ∀ {G moved name uri destination},
    Leads S (K G) (K G) E (renameMoved moved name uri destination)
  settle : ∀ G w, J G w → I G w
  authorize : ∀ {rootId capability}, event.request.rootIds = [rootId] →
    (event.request.isWrite = true → isWriteCapability capability = true) → ∀ w, B w →
    wp S (authorizeGrant X event.peer rootId capability) (fun g => J [g]) (fun _ => E) w
  current : ∀ {g capability}, (∃ rootId, event.request.rootIds = [rootId]) →
    (event.request.isWrite = true → isWriteCapability capability = true) →
    Leads S (I [g]) (J [g]) E (ensureGrantCurrent X event.peer g capability)
  authorizePair : ∀ {source destination}, event.request.rootIds = [source, destination] →
    ∀ w, B w → wp S (authorizeGrant X event.peer source .move)
      (fun g w => wp S (authorizeGrant X event.peer destination .write)
        (fun g' => J [g, g']) (fun _ => E) w) (fun _ => E) w
  requireRename : ∀ {g g' source name}, source.rootId ∈ event.request.rootIds →
    Leads S (J [g, g']) (J [g, g']) E (requireRename X event.peer g source name)
  currentPair : ∀ {g g'}, Leads S (I [g, g']) (J [g, g']) E
    (ensureGrantCurrent X event.peer g .move >>= fun _ =>
      ensureGrantCurrent X event.peer g' .write)
  currentSame : ∀ {g g'}, g.id = g'.id →
    Leads S (I [g, g']) (J [g, g']) E (ensureGrantCurrent X event.peer g .move)
  reply : ∀ {G reply}, ¬ (FsOp.respond event.requestId reply).IsErrorReply →
    (∀ roots, reply ≠ .roots roots) →
    Leads S (J G) R E (respond event.requestId reply) ∧
      Leads S (K G) R E (respond event.requestId reply)

section Phases

variable {W : Type*} {X : RemoteFsExternals} {event : RemoteFsEvent}
  {S : Spec RemoteFsAccessConfig RemoteFsError FsOp FsOp.Answer W} {B E R : W → Prop}
  {I J K : List RemoteFsGrant → W → Prop} {G : List RemoteFsGrant} {α : Type}
  (h : Phases X event S B I J K E R)
include h

theorem Phases.waits (w : W) (hw : I G w) : E w := (h.localStages G).waits w hw

theorem Phases.checked (w : W) (hw : J G w) : E w := (h.localStages G).checked w hw

/-- A local query. -/
theorem Phases.quiet {p : RemoteFsM α} (hp : p.Uses FsOp.IsQuiet) : Leads S (I G) (I G) E p :=
  hp.keeps (h.localStages G).query h.waits

theorem Phases.safQuery {p : RemoteFsM α} (hp : p.Uses FsOp.IsSafQuery) :
    Leads S (I G) (I G) E p :=
  hp.keeps (h.safStages G).query h.waits

theorem Phases.require {c : Bool} {code : RemoteFsErrorCode} :
    Leads S (I G) (I G) E (require c code) := leads_require h.waits

theorem Phases.requireEntryPath {path : String} :
    Leads S (I G) (I G) E (requireEntryPath path) := h.require.bind fun _ => h.require

theorem Phases.answer {reply : RemoteFsReply}
    (herror : ¬ (FsOp.respond event.requestId reply).IsErrorReply)
    (hroots : ∀ roots, reply ≠ .roots roots) :
    Leads S (J G) R E (respond event.requestId reply) := (h.reply herror hroots).1

theorem Phases.answerChanged {reply : RemoteFsReply}
    (herror : ¬ (FsOp.respond event.requestId reply).IsErrorReply)
    (hroots : ∀ roots, reply ≠ .roots roots) :
    Leads S (K G) R E (respond event.requestId reply) := (h.reply herror hroots).2

/-- A handler of one root, once the root is granted. -/
theorem Phases.granted {rootId : String} {capability : RemoteFsCapability}
    {body : RemoteFsGrant → RemoteFsM Unit} (hroots : event.request.rootIds = [rootId])
    (hcap : event.request.isWrite = true → isWriteCapability capability = true)
    (hbody : ∀ g, Leads S (I [g]) R E (body g)) :
    Leads S B R E (authorizeGrant X event.peer rootId capability >>= body) := by
  intro w hw
  rw [wp_bind]
  refine wp_mono (h.authorize hroots hcap w hw) (fun g w hw => ?_) fun _ _ he => he
  exact hbody g w (h.settle _ w hw)

end Phases

/-! ## §2  Handlers of one root -/

section Requests

variable {W : Type*} {X : RemoteFsExternals} {requestId : String} {peer : RemoteFsPeer}
  {S : Spec RemoteFsAccessConfig RemoteFsError FsOp FsOp.Answer W} {B E R : W → Prop}
  {I J K : List RemoteFsGrant → W → Prop} {source target destinationParent : RemoteFsLocation}
  {name : String} {overwrite recursive : Bool}

theorem leads_list {cursor : Option String} {limit : ℕ}
    (h : Phases X ⟨requestId, peer, .list target cursor limit⟩ S B I J K E R) :
    Leads S B R E (respondRemoteFsList X requestId peer target cursor limit) := by
  unfold respondRemoteFsList
  refine h.granted rfl (fun hw => by cases hw) fun g => ?_
  refine h.require.bind fun _ => Leads.bind (J := I [g]) ?_ fun entries => ?_
  · split
    · exact h.quiet uses_listLocalDirectory
    · exact h.safQuery uses_listSafDirectory
  refine (h.quiet uses_decodeListCursor).bind fun offset => h.require.bind fun _ => ?_
  exact (h.current ⟨_, rfl⟩ fun hw => by cases hw).bind fun _ => h.answer id (by simp)

theorem leads_metadata
    (h : Phases X ⟨requestId, peer, .metadata target⟩ S B I J K E R) :
    Leads S B R E (respondRemoteFsMetadata X requestId peer target) := by
  unfold respondRemoteFsMetadata
  refine h.granted rfl (fun hw => by cases hw) fun g => ?_
  refine h.requireEntryPath.bind fun _ => Leads.bind (J := I [g]) ?_ fun entry => ?_
  · split
    · exact h.quiet <| uses_quiet uses_resolvedEntry
    · exact h.safQuery uses_safEntryForPath
  exact (h.current ⟨_, rfl⟩ fun hw => by cases hw).bind fun _ => h.answer id (by simp)

theorem leads_createDirectory
    (h : Phases X ⟨requestId, peer, .createDirectory target name⟩ S B I J K E R) :
    Leads S B R E (respondRemoteFsCreateDirectory X requestId peer target name) := by
  unfold respondRemoteFsCreateDirectory validateFileName
  refine h.granted rfl (fun _ => rfl) fun g => h.require.bind fun _ => h.require.bind fun _ => ?_
  have hcurrent : Leads S (I [g]) (J [g]) E (ensureGrantCurrent X peer g .createDirectory) :=
    h.current ⟨_, rfl⟩ fun _ => rfl
  refine Leads.bind ?_ fun entry => h.answerChanged (G := [g]) id (by simp)
  split
  · exact leads_createLocalDirectory (h.localStages [g]) hcurrent
  · exact leads_createSafDirectory (h.safStages [g]) hcurrent

theorem leads_rename (h : Phases X ⟨requestId, peer, .rename source name⟩ S B I J K E R) :
    Leads S B R E (respondRemoteFsRename X requestId peer source name) := by
  unfold respondRemoteFsRename validateFileName
  refine h.granted rfl (fun _ => rfl) fun g => h.requireEntryPath.bind fun _ =>
    h.require.bind fun _ => ?_
  have hcurrent : Leads S (I [g]) (J [g]) E (ensureGrantCurrent X peer g .rename) :=
    h.current ⟨_, rfl⟩ fun _ => rfl
  refine Leads.bind ?_ fun entry => h.answerChanged (G := [g]) id (by simp)
  split
  · exact leads_renameLocalEntry (h.localStages [g]) hcurrent
  · exact leads_renameSafEntry (h.safStages [g]) hcurrent

theorem leads_delete (h : Phases X ⟨requestId, peer, .delete target recursive⟩ S B I J K E R) :
    Leads S B R E (respondRemoteFsDelete X requestId peer target recursive) := by
  unfold respondRemoteFsDelete
  refine h.granted rfl (fun _ => rfl) fun g => h.requireEntryPath.bind fun _ => ?_
  have hcurrent : Leads S (I [g]) (J [g]) E (ensureGrantCurrent X peer g .delete) :=
    h.current ⟨_, rfl⟩ fun _ => rfl
  refine Leads.bind ?_ fun _ => h.answerChanged (G := [g]) id (by simp)
  split
  · exact leads_deleteLocalEntry (h.localStages [g]) hcurrent
  · exact leads_deleteSafEntry (h.safStages [g]) hcurrent

theorem leads_read (h : Phases X ⟨requestId, peer, .read target⟩ S B I J K E R) :
    Leads S B R E (respondRemoteFsRead X requestId peer target) := by
  unfold respondRemoteFsRead
  refine h.granted rfl (fun hw => by cases hw) fun g => h.requireEntryPath.bind fun _ => ?_
  have hcurrent : Leads S (I [g]) (J [g]) E (ensureGrantCurrent X peer g .read) :=
    h.current ⟨_, rfl⟩ fun hw => by cases hw
  split
  · unfold readLocal
    refine (h.quiet <| uses_quiet uses_resolveExistingLocal).bind fun resolved => ?_
    refine h.require.bind fun _ => h.require.bind fun _ => ?_
    refine (h.quiet <| uses_quiet uses_localEntry).bind fun entry => hcurrent.bind fun _ => ?_
    exact h.answer id (by simp)
  · unfold readSaf
    refine (h.safQuery uses_resolveSafDocument).bind fun document => h.require.bind fun _ => ?_
    refine hcurrent.bind fun _ => ?_
    refine ((h.safStages [g]).change (FsOp.openSafDocumentForReading document.uri)
      trivial).bind fun _ => ?_
    exact h.answerChanged id (by simp)

theorem leads_write {size : BitVec 64}
    (h : Phases X ⟨requestId, peer, .write target size overwrite⟩ S B I J K E R) :
    Leads S B R E (respondRemoteFsWrite X requestId peer target overwrite) := by
  unfold respondRemoteFsWrite
  refine h.granted rfl (fun _ => rfl) fun g => h.requireEntryPath.bind fun _ => ?_
  have hcurrent : Leads S (I [g]) (J [g]) E (ensureGrantCurrent X peer g .write) :=
    h.current ⟨_, rfl⟩ fun _ => rfl
  split
  · unfold writeLocal
    refine (h.quiet <| uses_quiet uses_prepareLocalWriteTarget).bind fun path =>
      hcurrent.bind fun _ => ?_
    exact h.answer id (by simp)
  · unfold writeSaf
    refine (leads_prepareSafWriteTarget (h.safStages [g]) hcurrent).bind fun _ => ?_
    exact h.answerChanged id (by simp)

/-! ## §3  Moves -/

theorem leads_move {newName : Option String}
    (h : Phases X ⟨requestId, peer, .move source destinationParent newName overwrite⟩
      S B I J K E R) :
    Leads S B R E (respondRemoteFsMove X requestId peer source destinationParent newName
      overwrite) := by
  intro w hw
  unfold respondRemoteFsMove
  rw [wp_bind]
  refine wp_mono (h.authorizePair rfl w hw) (fun g w hw => ?_) fun _ _ he => he
  rw [wp_bind]
  refine wp_mono hw (fun g' w hw => ?_) fun _ _ he => he
  have hrequire : ∀ {c : Bool} {code : RemoteFsErrorCode},
      Leads S (J [g, g']) (J [g, g']) E (require c code) := leads_require h.checked
  refine Leads.bind (hrequire.bind fun _ => hrequire) (fun _ => ?_) w hw
  refine hrequire.bind fun _ => hrequire.bind fun _ => ?_
  refine (h.requireRename List.mem_cons_self).bind fun _ => hrequire.bind fun _ => ?_
  refine Leads.mono ?_ (h.settle [g, g'])
  refine Leads.bind ?_ fun entry => h.answerChanged (G := [g, g']) id (by simp)
  split
  · exact leads_moveLocalEntry (h.localStages _) h.currentPair
  · exact leads_moveSafEntry (h.safStages _) h.currentSame h.again

end Requests

/-! ## §4  Every request -/

/-- **The phases carry every request** but the one for the roots, which looks
at no single grant. -/
theorem leads_respondRemoteFs {W : Type*} {X : RemoteFsExternals} {event : RemoteFsEvent}
    {S : Spec RemoteFsAccessConfig RemoteFsError FsOp FsOp.Answer W} {B E R : W → Prop}
    {I J K : List RemoteFsGrant → W → Prop} (h : Phases X event S B I J K E R)
    (hroots : event.request = .roots →
      Leads S B R E (respondRemoteFsRoots X event.requestId event.peer)) :
    Leads S B R E (respondRemoteFs X event) := by
  obtain ⟨requestId, peer, request⟩ := event
  cases request with
  | roots => exact hroots rfl
  | list => exact leads_list h
  | metadata => exact leads_metadata h
  | createDirectory => exact leads_createDirectory h
  | rename => exact leads_rename h
  | move => exact leads_move h
  | delete => exact leads_delete h
  | read => exact leads_read h
  | write => exact leads_write h

end FireBoxTransfer
