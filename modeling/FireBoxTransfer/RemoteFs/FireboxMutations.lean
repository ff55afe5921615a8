import FireBoxTransfer.RemoteFs.Firebox

/-!
# Mutations at the core

The endpoints that create a directory, rename or move an entry check the
request field by field, hand it to the isolate and check that the entry it
answers with is the one that was asked for.
-/

namespace FireBoxTransfer

namespace Firebox

/-! ## §1  The endpoints -/

/-- What comes of an event that the isolate was asked to answer; no answer in
time, and an answer of another kind, is none. -/
def dispatchEntry (reply : Option RemoteFsReply) : RemoteFsResult RemoteFsEntry :=
  match reply with
  | some (.entry entry) => .ok entry
  | some (.error code) => .error code
  | _ => .error .unavailable

def requireEntryPath (location : RemoteFsLocation) : RemoteFsResult Unit :=
  check (location.path ≠ "") .invalidPath

section Endpoints

variable (isolate : RemoteFsRequest → Option RemoteFsReply)

def createDirectory (parent : RemoteFsLocation) (name : String) :
    RemoteFsResult RemoteFsEntry := do
  validateLocation parent
  validateFileName name
  let expectedPath := childPath parent.path name
  let entry ← dispatchEntry (isolate (.createDirectory parent name))
  validateExactEntry entry expectedPath
  check (entry.entryType = .directory) .internal
  pure entry

def rename (source : RemoteFsLocation) (newName : String) : RemoteFsResult RemoteFsEntry := do
  validateLocation source
  requireEntryPath source
  validateFileName newName
  let expectedPath := childPath (parentPath source.path) newName
  let entry ← dispatchEntry (isolate (.rename source newName))
  validateExactEntry entry expectedPath
  pure entry

def moveEntry (source destinationParent : RemoteFsLocation) (newName : Option String)
    (overwrite : Bool) : RemoteFsResult RemoteFsEntry := do
  validateLocation source
  requireEntryPath source
  validateLocation destinationParent
  (newName.map validateFileName).getD (pure ())
  let expectedPath :=
    childPath destinationParent.path (newName.getD (lastComponent source.path))
  let entry ← dispatchEntry (isolate (.move source destinationParent newName overwrite))
  validateExactEntry entry expectedPath
  pure entry

/-! ## §2  Every mutation -/

/-- The endpoint of a request that creates, renames or moves. -/
def mutate : RemoteFsRequest → RemoteFsResult RemoteFsEntry
  | .createDirectory parent name => createDirectory isolate parent name
  | .rename source newName => rename isolate source newName
  | .move source destinationParent newName overwrite =>
      moveEntry isolate source destinationParent newName overwrite
  | _ => .error .notFound

end Endpoints

/-- The path that the entry of a mutation shall have. -/
def expectedPath : RemoteFsRequest → Option String
  | .createDirectory parent name => some (childPath parent.path name)
  | .rename source newName => some (childPath (parentPath source.path) newName)
  | .move source destinationParent newName _ =>
      some (childPath destinationParent.path (newName.getD (lastComponent source.path)))
  | _ => none

/-- The checks of a mutation before it is dispatched. -/
def validateMutation : RemoteFsRequest → RemoteFsResult Unit
  | .createDirectory parent name => do
      validateLocation parent
      validateFileName name
  | .rename source newName => do
      validateLocation source
      requireEntryPath source
      validateFileName newName
  | .move source destinationParent newName _ => do
      validateLocation source
      requireEntryPath source
      validateLocation destinationParent
      (newName.map validateFileName).getD (pure ())
  | _ => .error .notFound

/-- The checks of the entry that a mutation is answered with. -/
def validateMutated (request : RemoteFsRequest) (path : String) (entry : RemoteFsEntry) :
    RemoteFsResult Unit := do
  validateExactEntry entry path
  match request with
  | .createDirectory _ _ => check (entry.entryType = .directory) .internal
  | _ => pure ()

/-- **A mutation is checked, dispatched and checked again.** -/
theorem mutate_eq {isolate : RemoteFsRequest → Option RemoteFsReply} {request : RemoteFsRequest}
    {path : String} (hpath : expectedPath request = some path)
    (hvalid : validateMutation request = .ok ()) :
    mutate isolate request = (do
      let entry ← dispatchEntry (isolate request)
      validateMutated request path entry
      pure entry) := by
  cases request with
  | createDirectory parent name =>
      obtain rfl := Option.some.inj hpath
      obtain ⟨hparent, hname⟩ := then_eq_ok.mp hvalid
      show createDirectory isolate parent name = _
      unfold createDirectory validateMutated
      rw [hparent, hname]
      show (dispatchEntry (isolate (.createDirectory parent name)) >>= fun entry => _) = _
      congr 1
      funext entry
      cases validateExactEntry entry (childPath parent.path name) <;> rfl
  | rename source newName =>
      obtain rfl := Option.some.inj hpath
      obtain ⟨hsource, hrest⟩ := then_eq_ok.mp hvalid
      obtain ⟨hentry, hname⟩ := then_eq_ok.mp hrest
      show rename isolate source newName = _
      unfold rename validateMutated
      rw [hsource, hentry, hname]
      show (dispatchEntry (isolate (.rename source newName)) >>= fun entry => _) = _
      congr 1
      funext entry
      cases validateExactEntry entry (childPath (parentPath source.path) newName) <;> rfl
  | move source destinationParent newName overwrite =>
      obtain rfl := Option.some.inj hpath
      obtain ⟨hsource, hrest⟩ := then_eq_ok.mp hvalid
      obtain ⟨hentry, hrest⟩ := then_eq_ok.mp hrest
      obtain ⟨hparent, hname⟩ := then_eq_ok.mp hrest
      show moveEntry isolate source destinationParent newName overwrite = _
      unfold moveEntry validateMutated
      rw [hsource, hentry, hparent, hname]
      show (dispatchEntry (isolate (.move source destinationParent newName overwrite)) >>=
        fun entry => _) = _
      congr 1
      funext entry
      cases validateExactEntry entry (childPath destinationParent.path
        (newName.getD (lastComponent source.path))) <;> rfl
  | _ => cases hpath

theorem bind_error {α β : Type} {x : RemoteFsResult α} {f : α → RemoteFsResult β}
    {code : RemoteFsErrorCode} (h : x = .error code) : x >>= f = .error code := by
  rw [h]
  rfl

/-- What fails after a check fails with more to do. -/
theorem then_error {α β : Type} {x : RemoteFsResult Unit} {f : Unit → RemoteFsResult α}
    {g : Unit → RemoteFsResult β} {code : RemoteFsErrorCode}
    (hfg : f () = .error code → g () = .error code) (h : x >>= f = .error code) :
    x >>= g = .error code := by
  cases x with
  | ok u => exact hfg h
  | error e =>
      obtain rfl := Except.error.inj h
      rfl

/-- **A mutation that fails a check is not dispatched.** -/
theorem mutate_refused {isolate : RemoteFsRequest → Option RemoteFsReply}
    {request : RemoteFsRequest} {code : RemoteFsErrorCode}
    (h : validateMutation request = .error code) : mutate isolate request = .error code := by
  cases request with
  | createDirectory parent name => exact then_error bind_error h
  | rename source newName => exact then_error (then_error bind_error) h
  | move source destinationParent newName overwrite =>
      exact then_error (then_error (then_error bind_error)) h
  | _ =>
      obtain rfl := Except.error.inj h
      rfl

end Firebox

end FireBoxTransfer
