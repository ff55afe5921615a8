import FireBoxTransfer.Framework.JsonValue
import FireBoxTransfer.RemoteFs.FireboxClient

/-!
# The wire format of the remote file system

The responses of the core as JSON values, written and read as their types say: a field that
is `None` is left out, and so is an empty list of the capabilities of an entry.
-/

namespace FireBoxTransfer

namespace Firebox

open JsonValue

/-! ## §1  Names -/

/-- A name of an enumeration is read if there is a value of that name. -/
def readName {α : Type} (name : α → String) (values : List α) (value : JsonValue) : Option α :=
  (asString value).bind fun text => values.find? fun a => name a = text

def capabilities : List RemoteFsCapability :=
  [.browse, .read, .write, .createDirectory, .rename, .move, .delete]

def capabilityJson (capability : RemoteFsCapability) : JsonValue := .str (capabilityName capability)

def readCapability : JsonValue → Option RemoteFsCapability := readName capabilityName capabilities

def readEntryType : JsonValue → Option RemoteFsEntryType :=
  readName entryTypeName [.file, .directory, .other]

theorem readCapability_json (capability : RemoteFsCapability) :
    readCapability (capabilityJson capability) = some capability := by
  cases capability <;> decide

theorem readEntryType_json (entryType : RemoteFsEntryType) :
    readEntryType (.str (entryTypeName entryType)) = some entryType := by
  cases entryType <;> decide

def capabilitiesJson (capabilities : List RemoteFsCapability) : JsonValue :=
  .arr (capabilities.map capabilityJson)

theorem asList_capabilities (capabilities : List RemoteFsCapability) :
    asList readCapability (capabilitiesJson capabilities) = some capabilities :=
  asList_map fun capability _ => readCapability_json capability

/-! ## §2  Roots -/

/-- A root as the core announces it. -/
structure RemoteFsRoot where
  id : String
  displayName : String
  capabilities : List RemoteFsCapability
  totalBytes : Option ℕ
  freeBytes : Option ℕ
deriving DecidableEq

def rootJson (root : RemoteFsRoot) : JsonValue :=
  .obj (("id", .str root.id) :: ("displayName", .str root.displayName) ::
    ("capabilities", capabilitiesJson root.capabilities) ::
    (optionalField "totalBytes" .num root.totalBytes ++
      (optionalField "freeBytes" .num root.freeBytes ++ [])))

def readRoot : JsonValue → Option RemoteFsRoot
  | .obj fields => do
      let id ← (fields.lookup "id").bind asString
      let displayName ← (fields.lookup "displayName").bind asString
      let capabilities ← (fields.lookup "capabilities").bind (asList readCapability)
      let totalBytes ← asOption asU64 (fields.lookup "totalBytes")
      let freeBytes ← asOption asU64 (fields.lookup "freeBytes")
      some ⟨id, displayName, capabilities, totalBytes, freeBytes⟩
  | _ => none

/-- The numbers of the source have 64 bits. -/
def IsU64 (value : Option ℕ) : Prop := ∀ n ∈ value, n < 2 ^ 64

theorem asOption_num {value : Option ℕ} (h : IsU64 value) :
    asOption asU64 (value.map .num) = some value :=
  asOption_map (fun n hn => if_pos (h n hn)) nofun

theorem asOption_str (value : Option String) : asOption asString (value.map .str) = some value :=
  asOption_map (fun _ _ => rfl) nofun

theorem readRoot_json {root : RemoteFsRoot} (htotal : IsU64 root.totalBytes)
    (hfree : IsU64 root.freeBytes) : readRoot (rootJson root) = some root := by
  have htotal' := asOption_num htotal
  have hfree' := asOption_num hfree
  rw [← lookup_optionalField_self "totalBytes" .num root.totalBytes
    (optionalField "freeBytes" .num root.freeBytes ++ [])
    (lookup_optionalField _ _ _ _ (by decide))] at htotal'
  rw [← lookup_optionalField_self "freeBytes" .num root.freeBytes [] rfl,
    ← lookup_optionalField "totalBytes" .num root.totalBytes _ (by decide)] at hfree'
  unfold readRoot rootJson
  simp only [List.lookup_cons]
  simp only [String.reduceBEq, Option.bind_some, asList_capabilities, htotal', hfree', asString]
  rfl

/-! ## §3  Entries -/

/-- The fields of an entry that may be left out. -/
def optionalFields (entry : RemoteFsEntry) : List (String × JsonValue) :=
  optionalField "size" .num entry.size ++ (optionalField "modified" .str entry.modified ++
    (optionalField "mimeType" .str entry.mimeType ++
      (optionalField "capabilities" capabilitiesJson
        ((some entry.capabilities).filter fun capabilities => !capabilities.isEmpty) ++ [])))

def entryJson (entry : RemoteFsEntry) : JsonValue :=
  .obj (("name", .str entry.name) :: ("path", .str entry.path) ::
    ("entryType", .str (entryTypeName entry.entryType)) :: optionalFields entry)

/-- The capabilities of an entry are none if they are left out. -/
def readCapabilities : Option JsonValue → Option (List RemoteFsCapability)
  | none => some []
  | some value => asList readCapability value

def readEntry : JsonValue → Option RemoteFsEntry
  | .obj fields => do
      let name ← (fields.lookup "name").bind asString
      let path ← (fields.lookup "path").bind asString
      let entryType ← (fields.lookup "entryType").bind readEntryType
      let size ← asOption asU64 (fields.lookup "size")
      let modified ← asOption asString (fields.lookup "modified")
      let mimeType ← asOption asString (fields.lookup "mimeType")
      let capabilities ← readCapabilities (fields.lookup "capabilities")
      some ⟨name, path, entryType, size, modified, mimeType, capabilities⟩
  | _ => none

/-- What is found under the keys of the fields that may be left out. -/
theorem lookup_optionalFields (entry : RemoteFsEntry) :
    (optionalFields entry).lookup "size" = entry.size.map .num ∧
      (optionalFields entry).lookup "modified" = entry.modified.map .str ∧
      (optionalFields entry).lookup "mimeType" = entry.mimeType.map .str ∧
      (optionalFields entry).lookup "capabilities" = ((some entry.capabilities).filter
        fun capabilities => !capabilities.isEmpty).map capabilitiesJson := by
  unfold optionalFields
  refine ⟨?_, ?_, ?_, ?_⟩
  · refine lookup_optionalField_self _ _ _ _ ?_
    rw [lookup_optionalField _ _ _ _ (by decide), lookup_optionalField _ _ _ _ (by decide),
      lookup_optionalField _ _ _ _ (by decide)]
    rfl
  · rw [lookup_optionalField _ _ _ _ (by decide)]
    refine lookup_optionalField_self _ _ _ _ ?_
    rw [lookup_optionalField _ _ _ _ (by decide), lookup_optionalField _ _ _ _ (by decide)]
    rfl
  · rw [lookup_optionalField _ _ _ _ (by decide), lookup_optionalField _ _ _ _ (by decide)]
    refine lookup_optionalField_self _ _ _ _ ?_
    rw [lookup_optionalField _ _ _ _ (by decide)]
    rfl
  · rw [lookup_optionalField _ _ _ _ (by decide), lookup_optionalField _ _ _ _ (by decide),
      lookup_optionalField _ _ _ _ (by decide)]
    exact lookup_optionalField_self _ _ _ _ rfl

/-- **An entry is read as it was written.** -/
theorem readEntry_json {entry : RemoteFsEntry} (hsize : IsU64 entry.size) :
    readEntry (entryJson entry) = some entry := by
  obtain ⟨hsize', hmodified, hmimeType, hcapabilities⟩ := lookup_optionalFields entry
  have hread : readCapabilities ((optionalFields entry).lookup "capabilities") =
      some entry.capabilities := by
    rw [hcapabilities]
    cases hlist : entry.capabilities with
    | nil => rfl
    | cons capability capabilities => exact asList_capabilities _
  unfold readEntry entryJson
  simp only [List.lookup_cons, String.reduceBEq, Option.bind_some, asString, hsize', hmodified,
    hmimeType, asOption_num hsize, asOption_str, readEntryType_json, hread]
  rfl

/-! ## §4  Responses -/

def rootsJson (roots : List RemoteFsRoot) : JsonValue := .obj [("roots", .arr (roots.map rootJson))]

def readRoots : JsonValue → Option (List RemoteFsRoot)
  | .obj fields => (fields.lookup "roots").bind (asList readRoot)
  | _ => none

def pageJson (response : RemoteFsListResponse) : JsonValue :=
  .obj (("entries", .arr (response.entries.map entryJson)) ::
    optionalField "nextCursor" .str response.nextCursor)

def readPage : JsonValue → Option RemoteFsListResponse
  | .obj fields => do
      let entries ← (fields.lookup "entries").bind (asList readEntry)
      let nextCursor ← asOption asString (fields.lookup "nextCursor")
      some ⟨entries, nextCursor⟩
  | _ => none

def mutationJson (entry : RemoteFsEntry) : JsonValue := .obj [("entry", entryJson entry)]

def readMutation : JsonValue → Option RemoteFsEntry
  | .obj fields => (fields.lookup "entry").bind readEntry
  | _ => none

theorem readRoots_json {roots : List RemoteFsRoot}
    (h : ∀ root ∈ roots, IsU64 root.totalBytes ∧ IsU64 root.freeBytes) :
    readRoots (rootsJson roots) = some roots :=
  asList_map fun root hroot => readRoot_json (h root hroot).1 (h root hroot).2

theorem readPage_json {response : RemoteFsListResponse}
    (h : ∀ entry ∈ response.entries, IsU64 entry.size) :
    readPage (pageJson response) = some response := by
  have hentries : asList readEntry (.arr (response.entries.map entryJson)) =
      some response.entries := asList_map fun entry hentry => readEntry_json (h entry hentry)
  have hcursor := asOption_str response.nextCursor
  rw [← lookup_optionalField_self "nextCursor" .str response.nextCursor [] rfl, List.append_nil]
    at hcursor
  unfold readPage pageJson
  simp only [List.lookup_cons, String.reduceBEq, Option.bind_some, hentries, hcursor]
  rfl

theorem readMutation_json {entry : RemoteFsEntry} (hsize : IsU64 entry.size) :
    readMutation (mutationJson entry) = some entry := readEntry_json hsize

def writtenJson (bytesWritten : ℕ) : JsonValue := .obj [("bytesWritten", .num bytesWritten)]

def readWritten : JsonValue → Option ℕ
  | .obj fields => (fields.lookup "bytesWritten").bind asU64
  | _ => none

theorem readWritten_json {bytesWritten : ℕ} (h : bytesWritten < 2 ^ 64) :
    readWritten (writtenJson bytesWritten) = some bytesWritten := if_pos h

/-! ## §5  Errors -/

def errorCodeName : RemoteFsErrorCode → String
  | .unauthenticated => "UNAUTHENTICATED"
  | .untrustedDevice => "UNTRUSTED_DEVICE"
  | .permissionDenied => "PERMISSION_DENIED"
  | .invalidRequest => "INVALID_REQUEST"
  | .invalidPath => "INVALID_PATH"
  | .invalidName => "INVALID_NAME"
  | .rootNotFound => "ROOT_NOT_FOUND"
  | .notFound => "NOT_FOUND"
  | .alreadyExists => "ALREADY_EXISTS"
  | .notDirectory => "NOT_DIRECTORY"
  | .isDirectory => "IS_DIRECTORY"
  | .directoryNotEmpty => "DIRECTORY_NOT_EMPTY"
  | .conflict => "CONFLICT"
  | .readOnly => "READ_ONLY"
  | .storageFull => "STORAGE_FULL"
  | .payloadTooLarge => "PAYLOAD_TOO_LARGE"
  | .unsupported => "UNSUPPORTED"
  | .busy => "BUSY"
  | .transferFailed => "TRANSFER_FAILED"
  | .unavailable => "UNAVAILABLE"
  | .internal => "INTERNAL"

def errorCodes : List RemoteFsErrorCode :=
  [.unauthenticated, .untrustedDevice, .permissionDenied, .invalidRequest, .invalidPath,
    .invalidName, .rootNotFound, .notFound, .alreadyExists, .notDirectory, .isDirectory,
    .directoryNotEmpty, .conflict, .readOnly, .storageFull, .payloadTooLarge, .unsupported,
    .busy, .transferFailed, .unavailable, .internal]

def errorJson (code : RemoteFsErrorCode) : JsonValue :=
  .obj [("code", .str (errorCodeName code)), ("message", .str (safeMessage code))]

def readError : JsonValue → Option (RemoteFsErrorCode × String)
  | .obj fields => do
      let code ← (fields.lookup "code").bind (readName errorCodeName errorCodes)
      let message ← (fields.lookup "message").bind asString
      some (code, message)
  | _ => none

/-! ## §6  Sizes -/

theorem size_optionalField {α : Type} (key : String) (write : α → JsonValue) (value : Option α)
    (hkey : stringSize key = key.length + 2) :
    sizeFields (optionalField key write value) + (optionalField key write value).length =
      jsonFieldSize key (fun a => (write a).size) value := by
  cases value with
  | none => rfl
  | some a =>
      change sizeFields [(key, write a)] + 1 = key.length + 4 + (write a).size
      rw [sizeFields, sizeFields, hkey]
      omega

theorem size_arr {α : Type} (write : α → JsonValue) (as : List α) :
    (JsonValue.arr (as.map write)).size = jsonListSize (fun a => (write a).size) as := by
  unfold jsonListSize
  rw [size, sizeValues_map, List.length_map]

/-- The size that the page of an entry was bounded with is that of its text. -/
theorem size_entryJson (entry : RemoteFsEntry) : (entryJson entry).size = jsonEntrySize entry := by
  have hsize : sizeFields (optionalField "size" .num entry.size) +
      (optionalField "size" .num entry.size).length =
      jsonFieldSize "size" (fun size => (toString size).length) entry.size :=
    size_optionalField "size" .num entry.size (by decide)
  have hmodified : sizeFields (optionalField "modified" .str entry.modified) +
      (optionalField "modified" .str entry.modified).length =
      jsonFieldSize "modified" stringSize entry.modified :=
    size_optionalField "modified" .str entry.modified (by decide)
  have hmimeType : sizeFields (optionalField "mimeType" .str entry.mimeType) +
      (optionalField "mimeType" .str entry.mimeType).length =
      jsonFieldSize "mimeType" stringSize entry.mimeType :=
    size_optionalField "mimeType" .str entry.mimeType (by decide)
  have hcapabilities := size_optionalField "capabilities" capabilitiesJson
    ((some entry.capabilities).filter fun capabilities => !capabilities.isEmpty) (by decide)
  have hlist : jsonFieldSize "capabilities"
      (fun capabilities => (capabilitiesJson capabilities).size)
      ((some entry.capabilities).filter fun capabilities => !capabilities.isEmpty) =
      if entry.capabilities = [] then 0
      else 16 + jsonListSize (fun c => stringSize (capabilityName c)) entry.capabilities := by
    cases hempty : entry.capabilities with
    | nil => rfl
    | cons capability capabilities =>
        rw [if_neg (List.cons_ne_nil _ _)]
        change 12 + 4 + (capabilitiesJson (capability :: capabilities)).size = _
        unfold capabilitiesJson
        rw [size_arr]
        rfl
  have hkeys : stringSize "name" = 6 ∧ stringSize "path" = 6 ∧ stringSize "entryType" = 11 := by
    decide
  unfold entryJson optionalFields jsonEntrySize
  rw [← hlist, ← hcapabilities, ← hmimeType, ← hmodified, ← hsize, size, sizeFields, sizeFields,
    sizeFields, sizeFields_append, sizeFields_append, sizeFields_append, sizeFields_append, hkeys.1,
    hkeys.2.1, hkeys.2.2, sizeFields]
  simp only [List.length_cons, List.length_append, List.length_nil, size]
  omega

theorem size_pageJson (response : RemoteFsListResponse) :
    (pageJson response).size = jsonPageSize response := by
  have hcursor := size_optionalField "nextCursor" .str response.nextCursor (by decide)
  have hentries := size_arr entryJson response.entries
  have hkey : stringSize "entries" = 9 := by decide
  have hsizes : (fun entry => (entryJson entry).size) = jsonEntrySize := funext size_entryJson
  rw [hsizes] at hentries
  unfold pageJson jsonPageSize
  rw [size, sizeFields, hkey, hentries, List.length_cons]
  change _ = 2 + 10 + jsonListSize jsonEntrySize response.entries +
    jsonFieldSize "nextCursor" (fun text => (JsonValue.str text).size) response.nextCursor
  rw [← hcursor]
  omega

end Firebox

end FireBoxTransfer
