import Mathlib.Algebra.GroupWithZero.Nat
import Mathlib.Data.List.Basic

/-!
# The explorer: entries, listings, transfers

What a panel of the explorer shows and what it asks of the client behind it.
Paths are opaque to the panels; each client reads its own.
-/

namespace FireBoxTransfer

/-! ## §1  Roots and entries -/

inductive ExplorerEntryKind where
  | file | directory
deriving DecidableEq

structure ExplorerCapabilities where
  browse : Bool
  read : Bool
  write : Bool
  createDirectory : Bool
  rename : Bool
  move : Bool
  delete : Bool
deriving DecidableEq

structure ExplorerRoot where
  id : String
  label : String
  initialPath : String
  capabilities : ExplorerCapabilities
deriving DecidableEq

structure ExplorerFileEntry where
  id : String
  name : String
  path : String
  kind : ExplorerEntryKind
  sizeBytes : Option ℕ
  modifiedAt : Option Int
  mimeType : Option String
  capabilities : Option ExplorerCapabilities
deriving DecidableEq

def ExplorerFileEntry.isDirectory (entry : ExplorerFileEntry) : Bool := entry.kind = .directory

/-! ## §2  Listings -/

structure ExplorerDirectoryRef where
  rootId : String
  path : String
  displayPath : String
  parentPath : Option String
deriving DecidableEq

structure ExplorerStorageInfo where
  totalBytes : ℕ
  freeBytes : ℕ
deriving DecidableEq

structure ExplorerDirectoryListing where
  location : ExplorerDirectoryRef
  entries : List ExplorerFileEntry
  capabilities : ExplorerCapabilities
  storage : Option ExplorerStorageInfo
deriving DecidableEq

/-! ## §3  Transfers -/

inductive ExplorerTransferOperation where
  | copy | move
deriving DecidableEq

structure ExplorerTransferRequest where
  sourcePanelId : String
  targetPanelId : String
  sourceRoot : ExplorerRoot
  sourceDirectory : ExplorerDirectoryRef
  entries : List ExplorerFileEntry
  targetRoot : ExplorerRoot
  targetDirectory : ExplorerDirectoryRef
  operation : ExplorerTransferOperation
deriving DecidableEq

/-! ## §4  Errors -/

structure RemoteFileSystemException where
  code : String
  message : String
  recoverable : Bool
deriving DecidableEq

abbrev ExplorerResult (α : Type) : Type := Except RemoteFileSystemException α

/-- An error that trying again does not help. -/
def explorerError (code message : String) : RemoteFileSystemException := ⟨code, message, false⟩

/-- Go on if the condition holds. -/
def explorerCheck (c : Bool) (error : RemoteFileSystemException) : ExplorerResult Unit :=
  if c then .ok () else .error error

end FireBoxTransfer
