import FireBoxTransfer.RemoteFs.Handlers

/-!
# The checks of the core

The server of the core validates a request before it hands it to the isolate,
and validates what the isolate answers before it replies. Its checks on names
and paths are written a second time, apart from those of the isolate.
-/

namespace FireBoxTransfer

namespace Firebox

/-! ## §1  Names and paths -/

abbrev RemoteFsResult (α : Type) : Type := Except RemoteFsErrorCode α

/-- Go on if the condition holds. -/
def check (c : Bool) (code : RemoteFsErrorCode) : RemoteFsResult Unit :=
  if c then .ok () else .error code

abbrev maxListLimit : ℕ := 1000
abbrev maxRootIdBytes : ℕ := 128
abbrev maxPathBytes : ℕ := 4096
abbrev maxNameBytes : ℕ := 1024
abbrev maxCursorBytes : ℕ := 1024

/-- `char::is_control`. -/
def isControl (ch : Char) : Bool :=
  ch.toNat ≤ 0x1f || (0x7f ≤ ch.toNat && ch.toNat ≤ 0x9f)

def anyControl (s : String) : Bool := s.toList.any isControl

def validateFileName (name : String) : RemoteFsResult Unit :=
  check (!(name = "" || name = "." || name = ".." || name.utf8ByteSize > maxNameBytes ||
    contains name '/' || contains name '\\' || anyControl name)) .invalidName

def isRootIdByte (ch : Char) : Bool :=
  isAsciiLetter ch || ch.isDigit || ch = '-' || ch = '_' || ch = '.' || ch = '~'

def validateRootId (rootId : String) : RemoteFsResult Unit :=
  check (!(rootId = "" || rootId.utf8ByteSize > maxRootIdBytes ||
    !rootId.toList.all isRootIdByte)) .invalidRequest

/-- A letter and a colon, both of one byte. -/
def isWindowsAbsolute (path : String) : Bool :=
  match path.toList with
  | first :: second :: _ => isAsciiLetter first && second = ':'
  | _ => false

def validateRelativePath (path : String) : RemoteFsResult Unit :=
  if path = "" then .ok ()
  else
    check (!(path.utf8ByteSize > maxPathBytes || path.toList.head? = some '/' ||
      path.toList.getLast? = some '/' || contains path '\\' || anyControl path ||
      isWindowsAbsolute path ||
      (splitSlash path).any fun c => c = "" || c = "." || c = "..")) .invalidPath

def validateLocation (location : RemoteFsLocation) : RemoteFsResult Unit := do
  validateRootId location.rootId
  validateRelativePath location.path

def parentPath (path : String) : String := parentRemotePath path

def childPath (parent name : String) : String :=
  if parent = "" then name else parent ++ "/" ++ name

/-- `path.rsplit('/').next()`. -/
def lastComponent (path : String) : String :=
  .ofList (path.toList.reverse.takeWhile (· ≠ '/')).reverse

/-! ## §2  Entries -/

/-- An optional text within its bound and without control characters. -/
def validText (bound : ℕ) (value : Option String) : Bool :=
  !value.any fun v => v.utf8ByteSize > bound || anyControl v

def validateEntry (entry : RemoteFsEntry) (expectedParent : Option String) :
    RemoteFsResult Unit := do
  (validateFileName entry.name).mapError fun _ => .internal
  (validateRelativePath entry.path).mapError fun _ => .internal
  match expectedParent with
  | some parent => check (entry.path = childPath parent entry.name) .internal
  | none => check (lastComponent entry.path = entry.name) .internal
  check (validText 64 entry.modified && validText 255 entry.mimeType) .internal

/-- The entry is the one that was asked for. -/
def validateExactEntry (entry : RemoteFsEntry) (expectedPath : String) : RemoteFsResult Unit := do
  validateEntry entry none
  check (entry.path = expectedPath) .internal

/-! ## §3  Pages -/

structure RemoteFsListRequest where
  location : RemoteFsLocation
  cursor : Option String
  limit : ℕ
deriving DecidableEq

def validCursor (cursor : String) : Bool :=
  !(cursor = "" || cursor.utf8ByteSize > maxCursorBytes || anyControl cursor)

def RemoteFsListRequest.validate (request : RemoteFsListRequest) : RemoteFsResult Unit := do
  validateLocation request.location
  check (1 ≤ request.limit && request.limit ≤ maxListLimit) .invalidRequest
  check (request.cursor.all validCursor) .invalidRequest

/-- The entries of a page one after the other; no path may be `seen` twice. -/
def validateEntries (parent : String) (seen : List String) :
    List RemoteFsEntry → RemoteFsResult Unit
  | [] => .ok ()
  | entry :: entries => do
      validateEntry entry (some parent)
      check (!seen.contains entry.path) .internal
      validateEntries parent (entry.path :: seen) entries

/-- What the server checks of the page that answers a request. -/
def validatePage (request : RemoteFsListRequest) (response : RemoteFsListResponse) :
    RemoteFsResult Unit := do
  check (response.entries.length ≤ request.limit) .internal
  validateEntries request.location.path [] response.entries
  check (response.nextCursor.all validCursor) .internal

/-! ## §4  Agreement -/

theorem check_eq_ok {c : Bool} {code : RemoteFsErrorCode} :
    check c code = .ok () ↔ c = true := by
  unfold check
  split <;> simp_all

/-- One check after the other. -/
theorem then_eq_ok {β : Type} {x : RemoteFsResult Unit} {f : Unit → RemoteFsResult β} {b : β} :
    x >>= f = .ok b ↔ x = .ok () ∧ f () = .ok b := by
  rw [Except.bind_eq_ok]
  constructor
  · rintro ⟨a, h⟩
    exact h
  · exact fun h => ⟨(), h⟩

theorem mapError_eq_ok {x : RemoteFsResult Unit} {f : RemoteFsErrorCode → RemoteFsErrorCode} :
    x.mapError f = .ok () ↔ x = .ok () := by
  cases x <;> simp [Except.mapError]

theorem anyControl_eq : anyControl = hasControlCharacter := rfl

theorem isWindowsAbsolute_eq : isWindowsAbsolute = isWindowsStyleAbsolute := rfl

/-- The isolate and the core accept the same names. -/
theorem validateFileName_eq_ok {name : String} :
    validateFileName name = .ok () ↔ validFileName name = true := by
  rw [validateFileName, check_eq_ok]
  simp [validFileName, anyControl, hasControlCharacter, isControl, maxNameBytes, and_assoc]

/-- The isolate and the core accept the same paths. -/
theorem validateRelativePath_eq_ok {path : String} :
    validateRelativePath path = .ok () ↔ validRelativePath path = true := by
  unfold validateRelativePath validRelativePath
  by_cases hempty : path = ""
  · simp [hempty]
  rw [if_neg hempty, if_neg hempty, check_eq_ok, anyControl_eq, isWindowsAbsolute_eq]
  -- what the core joins to one condition, the isolate asks in two steps
  generalize (decide (path.utf8ByteSize > 4096) || _ || _ || _ || _ || _) = syntactic
  generalize ((splitSlash path).any _) = dotted
  cases syntactic <;> cases dotted <;> simp

theorem childPath_eq : childPath = childRemotePath := rfl

end Firebox

end FireBoxTransfer
