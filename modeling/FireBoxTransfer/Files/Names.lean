import FireBoxTransfer.RemoteFs.Firebox

/-!
# Names of received files

A sender chooses the name of a file, with directories in it. Before the file is
saved the name is made legal for the file system of the platform, and where a
file has that name already a number is added to it.
-/

namespace FireBoxTransfer

open Firebox

/-! ## §1  Legal names -/

namespace Filename

def illegalWindowsChars : List Char := ['<', '>', ':', '"', '/', '\\', '|', '?', '*']

def illegalHfsChars : List Char := ['/', ':']

def illegalPosixChars : List Char := ['/']

/-- Device names that Windows reserves. -/
def reservedWindowsNames : List String :=
  ["con", "prn", "aux", "nul", "com1", "com2", "com3", "com4", "com5", "com6", "com7", "com8",
    "com9", "lpt1", "lpt2", "lpt3", "lpt4", "lpt5", "lpt6", "lpt7", "lpt8", "lpt9"]

def maxLen : ℕ := 255

inductive Rules where
  | windows | hfs | fat | posix | universal
deriving DecidableEq, Repr

def Rules.illegalChars : Rules → List Char
  | .windows | .fat => illegalWindowsChars
  | .hfs => illegalHfsChars
  | .posix => illegalPosixChars
  | .universal => []

def Rules.isIllegalChar (rules : Rules) (c : Char) : Bool :=
  isControl c ||
    match rules with
    | .universal => illegalWindowsChars.contains c || illegalHfsChars.contains c
    | rules => rules.illegalChars.contains c

def Rules.isWindowsLike (rules : Rules) : Bool := rules = .windows || rules = .universal

structure Options where
  replacement : List Char
  placeholder : List Char

def Options.default : Options := ⟨"_".toList, "untitled".toList⟩

/-- A trailing run of dots and blanks becomes one replacement. -/
def collapseTrailingRun (result replacement : List Char) : List Char :=
  let trimmed := (result.reverse.dropWhile fun c => c = '.' || c = ' ').reverse
  if trimmed.length ≠ result.length then trimmed ++ replacement else result

/-- The longest beginning of at most `max` bytes. -/
def truncateBytes : List Char → ℕ → List Char
  | [], _ => []
  | c :: value, max =>
      if c.utf8Size ≤ max then c :: truncateBytes value (max - c.utf8Size) else []

/-- `str::eq_ignore_ascii_case`. -/
def eqIgnoreAsciiCase (a b : List Char) : Bool := a.map Char.toLower = b.map Char.toLower

/-- The reserved name that the part before the first dot is. -/
def reservedPrefix (name : List Char) : Option String :=
  let stem := name.takeWhile (· ≠ '.')
  reservedWindowsNames.find? fun reserved => eqIgnoreAsciiCase stem reserved.toList

def isRelative (name : List Char) : Bool := name = ['.'] || name = ['.', '.']

def sanitizeWith (name : List Char) (rules : Rules) (options : Options) : List Char :=
  let result := name.flatMap fun c => if rules.isIllegalChar c then options.replacement else [c]
  let result :=
    if rules.isWindowsLike then
      let result := collapseTrailingRun result options.replacement
      match reservedPrefix result with
      | some reserved => options.replacement ++ result.drop reserved.length
      | none => result
    else result
  let result := truncateBytes result maxLen
  -- the cut may come right after a dot or a blank
  let result :=
    if rules.isWindowsLike then
      truncateBytes (collapseTrailingRun result options.replacement) maxLen
    else result
  if result.isEmpty || isRelative result then truncateBytes options.placeholder maxLen else result

/-- A name of one component, made legal. -/
def sanitize (name : String) (rules : Rules) : String :=
  .ofList (sanitizeWith name.toList rules .default)

/-- The last component of a path that is a name, made legal. -/
def sanitizePath (path : String) (rules : Rules) : String :=
  let segments := (path.toList.splitOn '/').flatMap (List.splitOn '\\')
  let last := segments.reverse.find? fun segment => !segment.isEmpty && !isRelative segment
  sanitize (.ofList (last.getD [])) rules

end Filename

/-! ## §2  Names of the application -/

/-- What the platform contributes: its paths and legal names, and the text
functions of the Dart library that follow Unicode. -/
structure SavePlatform where
  androidSdkInt : Option ℕ
  paths : PathContext
  rootPrefix : String → String
  rules : Filename.Rules
  toLowerCase : String → String
  encodeComponent : String → String
  decodeComponent : String → String
  /-- Paths with the same key lead to the same file. -/
  key : String → String
  /-- The document that Android creates for a name in a directory, when these
  files exist. -/
  createDocument : List String → String → String → String

namespace SavePlatform

variable (P : SavePlatform)

/-- The components of the name of a file; those that lead out are refused. -/
def sanitizeRelativeName (fileName : String) : Except String (List String) :=
  let parts := P.paths.split fileName
  if parts.any fun part => part = ".." || P.rootPrefix part ≠ "" then
    .error "Path traversal detected"
  else
    let components := (parts.filter fun part => part ≠ "." && part ≠ "").map fun part =>
      Filename.sanitize part P.rules
    .ok (if components.isEmpty then [Filename.sanitize "" P.rules] else components)

/-- `\s` in a regular expression. -/
def isRegexSpace (c : Char) : Bool :=
  (0x09 ≤ c.toNat && c.toNat ≤ 0x0d) || (0x2000 ≤ c.toNat && c.toNat ≤ 0x200a) ||
    [0x20, 0xa0, 0x1680, 0x2028, 0x2029, 0x202f, 0x205f, 0x3000, 0xfeff].contains c.toNat

/-- What `.` in a regular expression does not match. -/
def isLineTerminator (c : Char) : Bool := [0x0a, 0x0d, 0x2028, 0x2029].contains c.toNat

/-- The part before a number in parentheses, if there is one at the end. -/
def unnumbered? (name : List Char) : Option (List Char) :=
  match name.reverse with
  | ')' :: rest =>
      match rest.takeWhile Char.isDigit, rest.dropWhile Char.isDigit with
      | _ :: _, '(' :: space :: before =>
          if isRegexSpace space && !before.any isLineTerminator then some before.reverse else none
      | _, _ => none
  | _ => none

/-- The parts before and after the last dot. -/
def splitExtension? (name : List Char) : Option (List Char × List Char) :=
  if name.contains '.' then
    some (((name.reverse.dropWhile (· ≠ '.')).drop 1).reverse,
      (name.reverse.takeWhile (· ≠ '.')).reverse)
  else none

def withExtension (name ext : String) : String := if ext = "" then name else name ++ "." ++ ext

def withCount (name : String) (count : ℕ) : String :=
  let (fileName, ext) := match splitExtension? name.toList with
    | some (fileName, ext) => (fileName, P.toLowerCase (.ofList ext))
    | none => (name.toList, "")
  let fileName := (unnumbered? fileName).getD fileName
  withExtension (.ofList fileName ++ " (" ++ toString count ++ ")") ext

/-! ## §3  Names of the command line -/

/-- The `i`-th path that `unique_path` tries. -/
def uniqueCandidate (dir name : String) : ℕ → String
  | 0 => P.paths.joinAll [dir, name]
  | i + 1 =>
      let (stem, extension) := match splitExtension? name.toList with
        | some (stem, ext) => if stem.isEmpty then (name.toList, []) else (stem, '.' :: ext)
        | none => (name.toList, [])
      P.paths.joinAll [dir, .ofList (stem ++ " (".toList ++ (toString (i + 1)).toList ++
        ")".toList ++ extension)]

end SavePlatform

end FireBoxTransfer
