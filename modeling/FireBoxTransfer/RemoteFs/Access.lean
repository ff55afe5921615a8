import FireBoxTransfer.RemoteFs.Model

/-!
# Authorisation of remote file requests

Every handler looks at the access snapshot when it starts and again right
before it acts or replies, so that an update takes effect while a request is
under way.
-/

namespace FireBoxTransfer

/-! ## §1  Trust and grants -/

def normalizeFingerprint (X : RemoteFsExternals) (value : String) : String :=
  X.toUpperCase (X.trim value)

/-- The setter of `_RemoteFsAccessHolder`. -/
def storedAccess (X : RemoteFsExternals) (value : RemoteFsAccessConfig) :
    RemoteFsAccessConfig where
  trustedFingerprints := value.trustedFingerprints.map (normalizeFingerprint X)
  grants := value.grants

def requireTrustedPeer (X : RemoteFsExternals) (peer : RemoteFsPeer) : RemoteFsM Unit := do
  let fingerprint := normalizeFingerprint X peer.certificateFingerprint
  require (fingerprint ≠ "") .unauthenticated
  let access ← Program.get
  require (access.trustedFingerprints.contains fingerprint) .untrustedDevice

def isWriteCapability : RemoteFsCapability → Bool
  | .write | .createDirectory | .rename | .move | .delete => true
  | .browse | .read => false

def matchingGrants (access : RemoteFsAccessConfig) (rootId : String) : List RemoteFsGrant :=
  access.grants.filter fun grant => grant.id = rootId

def authorizeGrant (X : RemoteFsExternals) (peer : RemoteFsPeer) (rootId : String)
    (capability : RemoteFsCapability) : RemoteFsM RemoteFsGrant := do
  requireTrustedPeer X peer
  let access ← Program.get
  match matchingGrants access rootId with
  | [grant] =>
      require (validPublicRoot grant) .rootNotFound
      require (!(grant.readOnly && isWriteCapability capability)) .readOnly
      pure grant
  | _ => fail .rootNotFound

def ensureGrantCurrent (X : RemoteFsExternals) (peer : RemoteFsPeer) (expected : RemoteFsGrant)
    (capability : RemoteFsCapability) : RemoteFsM Unit := do
  let current ← authorizeGrant X peer expected.id capability
  require (current.kind = expected.kind && current.locator = expected.locator &&
    current.readOnly = expected.readOnly) .permissionDenied

/-! ## §2  Announced capabilities -/

def rootCapabilities (grant : RemoteFsGrant) : List RemoteFsCapability :=
  if grant.readOnly then [.browse, .read]
  else [.browse, .read, .write, .createDirectory, .rename, .move, .delete]

def capabilityIf (c : Bool) (capability : RemoteFsCapability) : List RemoteFsCapability :=
  if c then [capability] else []

def safRootCapabilities (grant : RemoteFsGrant) (root : SafRoot) (metadata : SafDocument) :
    List RemoteFsCapability :=
  let result := .browse :: capabilityIf root.canRead .read
  if grant.readOnly || !root.canWrite then result
  else
    result ++ .write :: (capabilityIf metadata.canCreate .createDirectory ++
      capabilityIf metadata.canRename .rename ++ capabilityIf metadata.canMove .move ++
      capabilityIf metadata.canDelete .delete)

def localEntryCapabilities (grant : RemoteFsGrant) (type : FileSystemEntityType) :
    List RemoteFsCapability :=
  let result := capabilityIf (type = .directory) .browse ++ capabilityIf (type = .file) .read
  if grant.readOnly then result
  else
    result ++ capabilityIf (type = .directory) .createDirectory ++
      capabilityIf (type = .file) .write ++ [.rename, .move, .delete]

def safEntryCapabilities (document : SafDocument) (grant : RemoteFsGrant) :
    List RemoteFsCapability :=
  let result :=
    if document.isDirectory then [.browse] else capabilityIf document.canRead .read
  if grant.readOnly then result
  else
    result ++ capabilityIf document.canWrite .write ++
      capabilityIf document.canCreate .createDirectory ++
      capabilityIf document.canRename .rename ++ capabilityIf document.canMove .move ++
      capabilityIf document.canDelete .delete

end FireBoxTransfer
