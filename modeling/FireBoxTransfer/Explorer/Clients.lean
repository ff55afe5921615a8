import FireBoxTransfer.Framework.Volume
import FireBoxTransfer.Explorer.Transfer

/-!
# What the service takes from its clients

A client reads its own paths; here each path of a root leads to a location of
one volume, so that two roots may lead to the same directory or to one inside
the other. A listing may leave out entries, and any call may fail half-way:
what is said of a call is what it leaves when it succeeds, and how far its
traces go when it fails.
-/

namespace FireBoxTransfer

open Program Volume

/-! ## §1  Clients -/

/-- Where the paths of a client lead, and what its listings show of what
stands in a directory. -/
structure Clients where
  locate : ClientId → ExplorerRoot → String → List String
  shows : ClientId → String → VolumeNode → Bool

/-- A listing of the directory at `loc`: its entries stand there, and nothing
is left out that the client shows. -/
structure Clients.Lists (C : Clients) (client : ClientId) (root : ExplorerRoot)
    (loc : List String) (d : Volume) (entries : List ExplorerFileEntry) : Prop where
  directory : d loc = some .directory
  entry : ∀ e ∈ entries, C.locate client root e.path = loc ++ [e.name] ∧ d (loc ++ [e.name]) ≠ none
  shown : ∀ name node, d (loc ++ [name]) = some node → C.shows client name node = true →
    ∃ e ∈ entries, e.name = name

/-- A file was written at `t` from what was read at `s`. -/
def Written (s t : List String) (d d' : Volume) : Prop :=
  ∃ bytes, d' = d.write t (.file bytes) ∧
    (s ≠ t → ∃ node, d s = some node ∧ node ≠ .directory ∧
      ∀ content, node = .file content → bytes = content)

/-- What was at `s` was moved to `t`, where at most a single node stood. -/
def Moved (s t : List String) (d d' : Volume) : Prop :=
  d s ≠ none ∧ (s = t ∨ ∀ rel, rel ≠ [] → d (t ++ rel) = none) ∧ d' = d.relocate s t

/-! ## §2  Calls -/

/-- What a call may answer and leave. A copy within one root is a program of its own, and
anything is let pass for it here. -/
def Clients.Answers (C : Clients) (d d' : Volume) :
    (op : ClientOp) → Except ExplorerFailure op.Answer → Prop
  | .getMetadata _ _ _, _ => d' = d
  | .listDirectory client root path, .ok listing =>
      d' = d ∧ C.Lists client root (C.locate client root path) d listing.entries
  | .listDirectory _ _ _, .error _ => d' = d
  | .createDirectory client root parentPath name, .ok created =>
      C.locate client root created.path = C.locate client root parentPath ++ [name] ∧
        d' = d.write (C.locate client root parentPath ++ [name]) .directory
  | .createDirectory client root parentPath name, .error _ =>
      OnlyAt (C.locate client root parentPath ++ [name]) d d'
  | .move client root entry destinationPath, .ok _ =>
      Moved (C.locate client root entry.path)
        (C.locate client root destinationPath ++ [entry.name]) d d'
  | .move client root entry destinationPath, .error _ =>
      d' = d ∨ Moved (C.locate client root entry.path)
        (C.locate client root destinationPath ++ [entry.name]) d d'
  | .copy _ _ _ _, _ => True
  | .delete client root entry, .ok _ => d' = d.remove (C.locate client root entry.path)
  | .delete client root entry, .error _ => Pruned (C.locate client root entry.path) d d'
  | .writeFile client root destinationPath fileName content _, .ok _ =>
      Written (C.locate content.client content.root content.entry.path)
        (C.locate client root destinationPath ++ [fileName]) d d'
  | .writeFile client root destinationPath fileName _ _, .error _ =>
      OnlyAt (C.locate client root destinationPath ++ [fileName]) d d'

/-! ## §3  Executions -/

/-- Executions of the service over a volume that nobody else changes. -/
def transferSpec (C : Clients) : Spec Unit ExplorerFailure ClientOp ClientOp.Answer Volume where
  mayRead _ := True
  reads d _ d' := d' = d
  mayCall _ _ := True
  answers op d a d' := a ≠ .error .outOfFuel ∧ C.Answers d d' op a

/-- The service is done. -/
def Ended (p : ExplorerM Unit) : Prop := p = .pure () ∨ ∃ e, p = .throw e

/-! ## §4  The locations of a transfer -/

namespace Clients

open ExplorerTransferService

section Locations

variable (C : Clients) (resolveClient : String → ClientId) (request : ExplorerTransferRequest)

/-- Where an entry of the selection stands. -/
def source (entry : ExplorerFileEntry) : List String :=
  C.locate (sourceSide resolveClient request).client request.sourceRoot entry.path

/-- The directory that the transfer goes to. -/
def destination : List String :=
  if sameSide resolveClient request then
    C.locate (sourceSide resolveClient request).client request.sourceRoot
      request.targetDirectory.path
  else
    C.locate (targetSide resolveClient request).client request.targetRoot
      request.targetDirectory.path

/-- Where an entry of the selection goes to. -/
def target (entry : ExplorerFileEntry) : List String :=
  C.destination resolveClient request ++ [entry.name]

/-- The transfer writes nothing where the selection stands. -/
def Apart (d₀ : Volume) : Prop :=
  ∀ e ∈ request.entries, ∀ f ∈ request.entries,
    Clear d₀ (C.source resolveClient request e) (C.target resolveClient request e)
      (C.source resolveClient request f)

end Locations

end Clients

end FireBoxTransfer
