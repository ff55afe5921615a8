import FireBoxTransfer.Explorer.Model
import FireBoxTransfer.Framework.Runs
import Mathlib.Data.List.Nodup

/-!
# Navigation of a panel

A panel shows the listing of one directory and remembers the directories it came from. Listings
arrive in whatever order; each load has a number, and only the answer of the latest one is
shown. What an operation does with the back stack it does after its load, by what it saw before
it.
-/

namespace FireBoxTransfer

open Runs

/-! ## §1  The controller -/

inductive ExplorerLoadStatus where
  | idle | loading | ready | error
deriving DecidableEq

/-- What a panel shows, as far as loads change it. -/
structure ExplorerState where
  status : ExplorerLoadStatus
  roots : List ExplorerRoot
  activeRoot : Option ExplorerRoot
  listing : Option ExplorerDirectoryListing
  selectedPaths : List String
  searchQuery : String
  loadError : Option String
  operationError : Option String

/-- What an operation does with the back stack once its directory is open. -/
inductive AfterOpening where
  | nothing
  | add (previousLocation : ExplorerDirectoryRef)
  | clear
  | removeLast
deriving DecidableEq

/-- A load whose listing has yet to arrive. -/
structure PendingLoad where
  generation : ℕ
  root : ExplorerRoot
  path : String
  preserveSelection : Bool
  after : AfterOpening

/-- The future of `initialize`: it waits for the roots, and then for its load. -/
inductive Initialization where
  | idle
  | roots
  | load (generation : ℕ)
deriving DecidableEq

/-- `arrived` notes down the answers of the client, `answered` the loads whose answers changed
what is shown. -/
structure ExplorerController where
  preferredRootId : Option String
  backStack : List ExplorerDirectoryRef
  state : ExplorerState
  disposed : Bool
  requestGeneration : ℕ
  initialization : Initialization
  pending : List PendingLoad
  arrived : List (PendingLoad × ExplorerResult ExplorerDirectoryListing)
  answered : List ℕ

namespace ExplorerController

def new (preferredRootId : Option String) : ExplorerController where
  preferredRootId := preferredRootId
  backStack := []
  state := ⟨.idle, [], none, none, [], "", none, none⟩
  disposed := false
  requestGeneration := 0
  initialization := .idle
  pending := []
  arrived := []
  answered := []

def emit (c : ExplorerController) (state : ExplorerState) : ExplorerController :=
  if c.disposed then c else { c with state }

def isInitialized (c : ExplorerController) : Bool :=
  !c.state.roots.isEmpty && c.state.listing.isSome

/-! ## §2  Operations -/

/-- `_loadDirectory`, up to the request for the listing. -/
def loadDirectory (c : ExplorerController) (root : ExplorerRoot) (path : String)
    (preserveSelection : Bool) (after : AfterOpening) : ExplorerController :=
  if !root.capabilities.browse then
    c.emit { c.state with
      status := .error
      loadError := some "Esta ubicación no permite explorar archivos." }
  else
    let generation := c.requestGeneration + 1
    let c := { c with requestGeneration := generation }
    let c := c.emit { c.state with
      status := .loading, loadError := none, operationError := none }
    { c with pending := c.pending ++ [⟨generation, root, path, preserveSelection, after⟩] }

/-- `initialize` and `_initialize`, up to the request for the roots. -/
def initializeRoots (c : ExplorerController) : ExplorerController :=
  if c.isInitialized || c.initialization ≠ .idle then c
  else
    { c with initialization := .roots }.emit { c.state with
      status := .loading, loadError := none, operationError := none }

/-- The roots have arrived, or not. -/
def rootsListed (c : ExplorerController) (result : ExplorerResult (List ExplorerRoot)) :
    ExplorerController :=
  let c := { c with initialization := .idle }
  match result with
  | .error error => c.emit { c.state with status := .error, loadError := some error.message }
  | .ok roots =>
      if c.disposed then c
      else
        match roots.filter fun root => root.capabilities.browse with
        | [] => c.emit { c.state with
            status := .error
            loadError := some "No hay ubicaciones autorizadas para explorar." }
        | first :: others =>
            let roots := first :: others
            let activeRoot := (roots.find? fun root => some root.id = c.preferredRootId).getD first
            let c := (c.emit { c.state with
              roots := roots, activeRoot := some activeRoot, listing := none }).loadDirectory
                activeRoot activeRoot.initialPath false .nothing
            { c with initialization := .load c.requestGeneration }

def selectRoot (c : ExplorerController) (rootId : String) : ExplorerController :=
  match c.state.roots.find? fun root => root.id = rootId with
  | none => c
  | some target =>
      if some target.id = c.state.activeRoot.map ExplorerRoot.id then c
      else
        ({ c with backStack := [] }.emit { c.state with
          activeRoot := some target
          listing := none
          selectedPaths := []
          searchQuery := ""
          loadError := none
          operationError := none }).loadDirectory target target.initialPath false .nothing

def openDirectory (c : ExplorerController) (entry : ExplorerFileEntry) : ExplorerController :=
  match c.state.activeRoot, c.state.listing with
  | some root, some listing =>
      if !entry.isDirectory then c
      else c.loadDirectory root entry.path false (.add listing.location)
  | _, _ => c

/-- What `navigateTo` does after it has opened the directory. -/
def afterNavigation (rootChanged rememberCurrent : Bool)
    (previousLocation : Option ExplorerDirectoryRef) : AfterOpening :=
  match previousLocation with
  | none => .nothing
  | some previousLocation =>
      if rememberCurrent then
        if rootChanged then .clear else .add previousLocation
      else .nothing

def navigateTo (c : ExplorerController) (directory : ExplorerDirectoryRef)
    (rememberCurrent : Bool) : ExplorerController :=
  match c.state.roots.find? fun root => root.id = directory.rootId with
  | none => c
  | some root =>
      let rootChanged := some root.id ≠ c.state.activeRoot.map ExplorerRoot.id
      c.loadDirectory root directory.path false
        (afterNavigation rootChanged rememberCurrent
          (c.state.listing.map ExplorerDirectoryListing.location))

def goUp (c : ExplorerController) : ExplorerController :=
  match c.state.activeRoot, c.state.listing with
  | some root, some listing =>
      match c.backStack.getLast? with
      | some target => c.loadDirectory root target.path false .removeLast
      | none =>
          match listing.location.parentPath with
          | none => c
          | some parentPath => c.loadDirectory root parentPath false .nothing
  | _, _ => c

def reload (c : ExplorerController) : ExplorerController :=
  match c.state.activeRoot with
  | none => c
  | some root =>
      let path := match c.state.listing with
        | some listing => listing.location.path
        | none => root.initialPath
      c.loadDirectory root path true .nothing

def dispose (c : ExplorerController) : ExplorerController :=
  { c with disposed := true, requestGeneration := c.requestGeneration + 1 }

/-- An operation goes on after its load. -/
def continueAfter (c : ExplorerController) : AfterOpening → ExplorerController
  | .nothing => c
  | .add previousLocation => { c with backStack := c.backStack ++ [previousLocation] }
  | .clear => { c with backStack := [] }
  | .removeLast => { c with backStack := c.backStack.dropLast }

/-- The error of a load that is still the latest. -/
def loadFailed (c : ExplorerController) (load : PendingLoad) (message : String) :
    ExplorerController :=
  if !c.disposed && load.generation = c.requestGeneration then
    { c with answered := c.answered ++ [load.generation] }.emit { c.state with
      status := if c.state.listing = none then .error else .ready
      loadError := some message }
  else c

/-- `_loadDirectory` from the answer on, and the operation that waits for it. No other event
comes between the two. -/
def listed (c : ExplorerController) (load : PendingLoad)
    (result : ExplorerResult ExplorerDirectoryListing) : ExplorerController :=
  match result with
  | .error error => c.loadFailed load error.message
  | .ok listing =>
      if c.disposed || load.generation ≠ c.requestGeneration then c
      else if listing.location.rootId ≠ load.root.id then
        c.loadFailed load "La ubicación devuelta no pertenece a la raíz autorizada."
      else
        let retainedSelection := if load.preserveSelection then
          c.state.selectedPaths.filter fun selectedPath =>
            listing.entries.any fun entry => entry.path = selectedPath
          else []
        ({ c with answered := c.answered ++ [load.generation] }.emit
          { c.state with
            status := .ready
            activeRoot := some load.root
            listing := some listing
            selectedPaths := retainedSelection
            loadError := none }).continueAfter load.after

/-- An answer of the client arrives for the load at place `i`. -/
def answer (c : ExplorerController) (i : ℕ) (load : PendingLoad)
    (result : ExplorerResult ExplorerDirectoryListing) : ExplorerController :=
  let c := { c with
    initialization := if c.initialization = Initialization.load load.generation then .idle
      else c.initialization
    pending := c.pending.eraseIdx i
    arrived := c.arrived ++ [(load, result)] }
  c.listed load result

/-! ## §3  One step -/

/-- What happens to a panel. -/
inductive Event where
  | initializeRoots
  | rootsListed (result : ExplorerResult (List ExplorerRoot))
  | selectRoot (rootId : String)
  | openDirectory (entry : ExplorerFileEntry)
  | navigateTo (directory : ExplorerDirectoryRef) (rememberCurrent : Bool)
  | goUp
  | reload
  | dispose
  | listed (i : ℕ) (result : ExplorerResult ExplorerDirectoryListing)

def step (c : ExplorerController) : Event → Option ExplorerController
  | .initializeRoots => some c.initializeRoots
  | .rootsListed result =>
      if c.initialization = .roots then some (c.rootsListed result) else none
  | .selectRoot rootId => some (c.selectRoot rootId)
  | .openDirectory entry => some (c.openDirectory entry)
  | .navigateTo directory rememberCurrent => some (c.navigateTo directory rememberCurrent)
  | .goUp => some c.goUp
  | .reload => some c.reload
  | .dispose => some c.dispose
  | .listed i result => (c.pending[i]?).map fun load => c.answer i load result

/-- **The stack is not taken to another root**: `navigateTo` leads to another root only if it
remembers the current place or there is nothing to remember, and the roots arrive while there is
nothing to remember. -/
def KeepsRoot (c : ExplorerController) : Event → Prop
  | .navigateTo directory rememberCurrent => rememberCurrent = true ∨ c.backStack = [] ∨
      c.state.activeRoot.map ExplorerRoot.id = some directory.rootId
  | .rootsListed _ => c.backStack = []
  | _ => True

instance (c : ExplorerController) : ∀ e, Decidable (KeepsRoot c e)
  | .navigateTo directory rememberCurrent => inferInstanceAs (Decidable
      (rememberCurrent = true ∨ c.backStack = [] ∨
        c.state.activeRoot.map ExplorerRoot.id = some directory.rootId))
  | .rootsListed _ => inferInstanceAs (Decidable (c.backStack = []))
  | .initializeRoots | .selectRoot _ | .openDirectory _ | .goUp | .reload | .dispose
  | .listed _ _ => .isTrue trivial

/-- What a panel promises in every state: the back stack belongs to the active root, the
listing is an answer of the client for that root, and no answer changed what is shown after
that of a later load. -/
structure Navigates (c : ExplorerController) : Prop where
  stack : ∀ ref ∈ c.backStack, c.state.activeRoot.map ExplorerRoot.id = some ref.rootId
  shown : ∀ listing, c.state.listing = some listing → ∃ load, (load, .ok listing) ∈ c.arrived ∧
    load.generation ∈ c.answered ∧ c.state.activeRoot = some load.root ∧
    listing.location.rootId = load.root.id
  latest : c.answered.Pairwise (· < ·)

/-! ## §4  The invariant -/

/-- What an operation will do fits the root it leads to. -/
structure Fits (load : PendingLoad) (backStack : List ExplorerDirectoryRef) : Prop where
  add : ∀ previousLocation, load.after = .add previousLocation →
    previousLocation.rootId = load.root.id
  stack : load.after = .clear ∨ ∀ ref ∈ backStack, ref.rootId = load.root.id

/-- With what the loads under way will do; only the latest one will do anything. -/
structure Consistent (c : ExplorerController) : Prop extends Navigates c where
  empty : c.state.listing = none → c.backStack = []
  answeredLe : ∀ generation ∈ c.answered, generation ≤ c.requestGeneration
  pendingLe : ∀ load ∈ c.pending, load.generation ≤ c.requestGeneration
  fresh : ∀ load ∈ c.pending, load.generation ∉ c.answered
  nodup : (c.pending.map PendingLoad.generation).Nodup
  fits : ∀ load ∈ c.pending, load.generation = c.requestGeneration → Fits load c.backStack

section Invariant

variable {c c' : ExplorerController} {state : ExplorerState} {root : ExplorerRoot} {path : String}
  {preserveSelection : Bool} {after : AfterOpening} {load : PendingLoad}

/-! ### What is emitted -/

@[simp] theorem emit_backStack : (c.emit state).backStack = c.backStack := by
  unfold emit
  split <;> rfl

@[simp] theorem emit_pending : (c.emit state).pending = c.pending := by
  unfold emit
  split <;> rfl

@[simp] theorem emit_answered : (c.emit state).answered = c.answered := by
  unfold emit
  split <;> rfl

@[simp] theorem emit_requestGeneration :
    (c.emit state).requestGeneration = c.requestGeneration := by
  unfold emit
  split <;> rfl

theorem consistent_new {preferredRootId : Option String} : Consistent (new preferredRootId) where
  stack _ href := absurd href List.not_mem_nil
  shown listing hlisting := absurd hlisting (Option.some_ne_none listing).symm
  latest := List.Pairwise.nil
  empty _ := rfl
  answeredLe _ hgeneration := absurd hgeneration List.not_mem_nil
  pendingLe _ hload := absurd hload List.not_mem_nil
  fresh _ hload := absurd hload List.not_mem_nil
  nodup := List.nodup_nil
  fits _ hload := absurd hload List.not_mem_nil

/-- The root and the listing stay. -/
theorem Consistent.emit (h : Consistent c) (hroot : state.activeRoot = c.state.activeRoot)
    (hlisting : state.listing = c.state.listing) : Consistent (c.emit state) := by
  unfold ExplorerController.emit
  split
  · exact h
  · refine { h with stack := ?_, shown := ?_, empty := ?_ }
    · show ∀ ref ∈ c.backStack, state.activeRoot.map _ = _
      rw [hroot]
      exact h.stack
    · show ∀ listing, state.listing = _ → ∃ load, _ ∧ _ ∧ state.activeRoot = _ ∧ _
      rw [hroot, hlisting]
      exact h.shown
    · show state.listing = none → _
      rw [hlisting]
      exact h.empty

/-- Another root is shown, from its beginning. -/
theorem Consistent.emit_root (h : Consistent c) (hstack : c.backStack = [])
    (hlisting : state.listing = none) : Consistent (c.emit state) := by
  unfold ExplorerController.emit
  split
  · exact h
  · refine { h with stack := ?_, shown := ?_, empty := fun _ => hstack }
    · show ∀ ref ∈ c.backStack, _
      rw [hstack]
      nofun
    · show ∀ listing, state.listing = _ → _
      rw [hlisting]
      nofun

theorem Consistent.clear (h : Consistent c) : Consistent { c with backStack := [] } where
  stack := nofun
  shown := h.shown
  latest := h.latest
  empty _ := rfl
  answeredLe := h.answeredLe
  pendingLe := h.pendingLe
  fresh := h.fresh
  nodup := h.nodup
  fits load hload hlatest := ⟨(h.fits load hload hlatest).add, .inr nofun⟩

/-! ### Loads -/

/-- The loads under way are superseded. -/
theorem Consistent.next (h : Consistent c) :
    Consistent { c with requestGeneration := c.requestGeneration + 1 } where
  stack := h.stack
  shown := h.shown
  latest := h.latest
  empty := h.empty
  answeredLe generation hg := Nat.le_succ_of_le (h.answeredLe generation hg)
  pendingLe load hload := Nat.le_succ_of_le (h.pendingLe load hload)
  fresh := h.fresh
  nodup := h.nodup
  fits load hload hlatest := by
    have hle := h.pendingLe load hload
    exact absurd hlatest (Nat.ne_of_lt (Nat.lt_succ_of_le hle))

/-- A new load is under way, the latest one. -/
theorem Consistent.push (h : Consistent c) (hlatest : load.generation = c.requestGeneration)
    (hpending : ∀ other ∈ c.pending, other.generation < load.generation)
    (hanswered : ∀ generation ∈ c.answered, generation < load.generation)
    (hfits : Fits load c.backStack) : Consistent { c with pending := c.pending ++ [load] } where
  stack := h.stack
  shown := h.shown
  latest := h.latest
  empty := h.empty
  answeredLe := h.answeredLe
  pendingLe other hother := by
    rcases List.mem_append.mp hother with hother | hother
    · exact h.pendingLe other hother
    · rw [List.mem_singleton.mp hother]
      exact Nat.le_of_eq hlatest
  fresh other hother := by
    rcases List.mem_append.mp hother with hother | hother
    · exact h.fresh other hother
    · rw [List.mem_singleton.mp hother]
      exact fun hmem => Nat.lt_irrefl _ (hanswered _ hmem)
  nodup := by
    show ((c.pending ++ [load]).map _).Nodup
    rw [List.map_append]
    refine (List.perm_append_singleton _ _).nodup_iff.mpr (List.nodup_cons.mpr ⟨?_, h.nodup⟩)
    intro hmem
    obtain ⟨other, hother, heq⟩ := List.mem_map.mp hmem
    exact absurd heq (Nat.ne_of_lt (hpending other hother))
  fits other hother hother' := by
    rcases List.mem_append.mp hother with hother | hother
    · exact h.fits other hother hother'
    · rw [List.mem_singleton.mp hother]
      exact hfits

theorem Consistent.loadDirectory (h : Consistent c)
    (hfits : ∀ generation, Fits ⟨generation, root, path, preserveSelection, after⟩ c.backStack) :
    Consistent (c.loadDirectory root path preserveSelection after) := by
  unfold ExplorerController.loadDirectory
  split
  · exact h.emit rfl rfl
  · have hloading : Consistent ({ c with requestGeneration := c.requestGeneration + 1 }.emit
        { c.state with status := .loading, loadError := none, operationError := none }) :=
      h.next.emit rfl rfl
    refine hloading.push ?_ (fun other hother => ?_) (fun generation hgeneration => ?_) ?_
    · simp
    · simp only [emit_pending] at hother
      exact Nat.lt_succ_of_le (h.pendingLe other hother)
    · simp only [emit_answered] at hgeneration
      exact Nat.lt_succ_of_le (h.answeredLe generation hgeneration)
    · simp only [emit_backStack]
      exact hfits _

/-! ### Operations -/

/-- What the stack and the listing say of the root they belong to. -/
theorem Consistent.stack_root (h : Consistent c) (hroot : c.state.activeRoot = some root) :
    ∀ ref ∈ c.backStack, ref.rootId = root.id := by
  intro ref href
  have hstack := h.stack ref href
  rw [hroot] at hstack
  exact (Option.some.inj hstack).symm

theorem Consistent.listing_root {listing : ExplorerDirectoryListing} (h : Consistent c)
    (hroot : c.state.activeRoot = some root) (hlisting : c.state.listing = some listing) :
    listing.location.rootId = root.id := by
  obtain ⟨load, -, -, hactive, hid⟩ := h.shown listing hlisting
  rw [hroot] at hactive
  rw [hid, Option.some.inj hactive]

theorem Consistent.initialization (h : Consistent c) (i : Initialization) :
    Consistent { c with initialization := i } where
  stack := h.stack
  shown := h.shown
  latest := h.latest
  empty := h.empty
  answeredLe := h.answeredLe
  pendingLe := h.pendingLe
  fresh := h.fresh
  nodup := h.nodup
  fits := h.fits

theorem Consistent.initializeRoots (h : Consistent c) : Consistent c.initializeRoots := by
  unfold ExplorerController.initializeRoots
  split
  · exact h
  · exact (h.initialization .roots).emit rfl rfl

theorem Consistent.rootsListed (h : Consistent c) (hstack : c.backStack = [])
    (result : ExplorerResult (List ExplorerRoot)) : Consistent (c.rootsListed result) := by
  have hidle := h.initialization .idle
  unfold ExplorerController.rootsListed
  cases result with
  | error error => exact hidle.emit rfl rfl
  | ok roots =>
      simp only
      split
      · exact hidle
      · split
        · exact hidle.emit rfl rfl
        · refine ((hidle.emit_root hstack rfl).loadDirectory fun generation => ?_).initialization _
          simp only [emit_backStack]
          refine ⟨nofun, .inr ?_⟩
          rw [hstack]
          exact fun _ href => absurd href List.not_mem_nil

theorem Consistent.selectRoot (h : Consistent c) (rootId : String) :
    Consistent (c.selectRoot rootId) := by
  unfold ExplorerController.selectRoot
  split
  · exact h
  · split
    · exact h
    · refine (h.clear.emit_root rfl rfl).loadDirectory fun generation => ⟨nofun, .inr ?_⟩
      simp only [emit_backStack]
      exact fun _ href => absurd href List.not_mem_nil

theorem Consistent.openDirectory (h : Consistent c) (entry : ExplorerFileEntry) :
    Consistent (c.openDirectory entry) := by
  unfold ExplorerController.openDirectory
  split
  · rename_i root listing hroot hlisting
    split
    · exact h
    · refine h.loadDirectory fun generation => ⟨?_, .inr (h.stack_root hroot)⟩
      intro previousLocation hadd
      obtain rfl := AfterOpening.add.inj hadd
      exact h.listing_root hroot hlisting
  · exact h

/-- The stack goes on to the root that is opened, or is cleared. -/
theorem Consistent.navigateTo (h : Consistent c) {directory : ExplorerDirectoryRef}
    {rememberCurrent : Bool} (hkeeps : rememberCurrent = true ∨ c.backStack = [] ∨
      c.state.activeRoot.map ExplorerRoot.id = some directory.rootId) :
    Consistent (c.navigateTo directory rememberCurrent) := by
  unfold ExplorerController.navigateTo
  split
  · exact h
  · rename_i root hfind
    have hroot : root.id = directory.rootId := by simpa using List.find?_some hfind
    refine h.loadDirectory fun generation => ?_
    by_cases hsame : some root.id = c.state.activeRoot.map ExplorerRoot.id
    · obtain ⟨active, hactive, hid⟩ := Option.map_eq_some_iff.mp hsame.symm
      have hstack := h.stack_root hactive
      rw [hid] at hstack
      refine ⟨fun previousLocation hadd => ?_, .inr hstack⟩
      cases hlisting : c.state.listing with
      | none =>
          rw [hlisting] at hadd
          cases hadd
      | some listing =>
          have hlocation := h.listing_root hactive hlisting
          rw [hlisting] at hadd
          cases rememberCurrent with
          | false => cases hadd
          | true =>
              simp only [afterNavigation, Option.map_some, hsame, ne_eq, not_true_eq_false,
                decide_false, if_true, Bool.false_eq_true, if_false,
                AfterOpening.add.injEq] at hadd
              rw [← hadd, hlocation, hid]
    · cases hlisting : c.state.listing with
      | none =>
          refine ⟨nofun, .inr ?_⟩
          rw [h.empty hlisting]
          exact fun _ href => absurd href List.not_mem_nil
      | some listing =>
          cases rememberCurrent with
          | true =>
              have hclear : afterNavigation (decide (some root.id ≠
                  c.state.activeRoot.map ExplorerRoot.id)) true (some listing.location) =
                  .clear := by
                rw [decide_eq_true hsame]
                rfl
              rw [Option.map_some, hclear]
              exact ⟨nofun, .inl rfl⟩
          | false =>
              have hempty : c.backStack = [] := by
                rcases hkeeps with hremember | hempty | hactive
                · cases hremember
                · exact hempty
                · exact absurd (hactive.trans (congrArg some hroot.symm)).symm hsame
              refine ⟨nofun, .inr ?_⟩
              rw [hempty]
              exact fun _ href => absurd href List.not_mem_nil

theorem Consistent.goUp (h : Consistent c) : Consistent c.goUp := by
  unfold ExplorerController.goUp
  split
  · rename_i root listing hroot hlisting
    split
    · exact h.loadDirectory fun generation => ⟨nofun, .inr (h.stack_root hroot)⟩
    · split
      · exact h
      · exact h.loadDirectory fun generation => ⟨nofun, .inr (h.stack_root hroot)⟩
  · exact h

theorem Consistent.reload (h : Consistent c) : Consistent c.reload := by
  unfold ExplorerController.reload
  split
  · exact h
  · rename_i root hroot
    exact h.loadDirectory fun generation => ⟨nofun, .inr (h.stack_root hroot)⟩

theorem Consistent.dispose (h : Consistent c) : Consistent c.dispose where
  stack := h.stack
  shown := h.shown
  latest := h.latest
  empty := h.empty
  answeredLe := h.next.answeredLe
  pendingLe := h.next.pendingLe
  fresh := h.fresh
  nodup := h.nodup
  fits := h.next.fits

/-! ### Answers -/

/-- What is known of a load that has just left those under way. -/
structure Arrived (c : ExplorerController) (load : PendingLoad)
    (result : ExplorerResult ExplorerDirectoryListing) : Prop where
  arrived : (load, result) ∈ c.arrived
  fresh : load.generation ∉ c.answered
  others : ∀ other ∈ c.pending, other.generation ≠ load.generation
  fits : load.generation = c.requestGeneration → Fits load c.backStack

theorem Consistent.arrive (h : Consistent c) {i : ℕ} (hi : c.pending[i]? = some load)
    (result : ExplorerResult ExplorerDirectoryListing) (initialization : Initialization) :
    Consistent { c with
      initialization := initialization
      pending := c.pending.eraseIdx i
      arrived := c.arrived ++ [(load, result)] } ∧
    Arrived { c with
      initialization := initialization
      pending := c.pending.eraseIdx i
      arrived := c.arrived ++ [(load, result)] } load result := by
  have hload : load ∈ c.pending := List.mem_of_getElem? hi
  have hsub : (c.pending.eraseIdx i).Sublist c.pending := List.eraseIdx_sublist _ _
  constructor
  · constructor
    · constructor
      · exact h.stack
      · intro listing hlisting
        obtain ⟨other, hother, hshown⟩ := h.shown listing hlisting
        exact ⟨other, List.mem_append_left _ hother, hshown⟩
      · exact h.latest
    · exact h.empty
    · exact h.answeredLe
    · exact fun other hother => h.pendingLe other (hsub.mem hother)
    · exact fun other hother => h.fresh other (hsub.mem hother)
    · exact h.nodup.sublist (hsub.map _)
    · exact fun other hother => h.fits other (hsub.mem hother)
  · constructor
    · exact List.mem_append_right _ (List.mem_singleton_self _)
    · exact h.fresh load hload
    · -- all loads have different numbers
      intro other hother heq
      obtain ⟨j, hji, hj⟩ := List.mem_eraseIdx_iff_getElem?.mp hother
      have hlt : j < (c.pending.map PendingLoad.generation).length := by
        rw [List.length_map]
        exact (List.getElem?_eq_some_iff.mp hj).1
      refine hji ((List.getElem?_inj hlt h.nodup).mp ?_)
      rw [List.getElem?_map, List.getElem?_map, hj, hi]
      exact congrArg some heq
    · exact h.fits load hload

/-- The answer of the latest load counts. -/
theorem Consistent.answered {result : ExplorerResult ExplorerDirectoryListing}
    (h : Consistent c) (harrived : Arrived c load result)
    (hlatest : load.generation = c.requestGeneration) :
    Consistent { c with answered := c.answered ++ [load.generation] } where
  stack := h.stack
  shown listing hlisting := by
    obtain ⟨other, hother, hanswered, hshown⟩ := h.shown listing hlisting
    exact ⟨other, hother, List.mem_append_left _ hanswered, hshown⟩
  latest := by
    show (c.answered ++ [load.generation]).Pairwise (· < ·)
    refine List.pairwise_append.mpr ⟨h.latest, List.pairwise_singleton _ _, ?_⟩
    intro generation hgeneration other hother
    rw [List.mem_singleton.mp hother]
    have hle := h.answeredLe generation hgeneration
    refine Nat.lt_of_le_of_ne (hlatest ▸ hle) ?_
    rintro rfl
    exact harrived.fresh hgeneration
  empty := h.empty
  answeredLe generation hgeneration := by
    rcases List.mem_append.mp hgeneration with hgeneration | hgeneration
    · exact h.answeredLe generation hgeneration
    · rw [List.mem_singleton.mp hgeneration]
      exact Nat.le_of_eq hlatest
  pendingLe := h.pendingLe
  fresh other hother hmem := by
    rcases List.mem_append.mp hmem with hmem | hmem
    · exact h.fresh other hother hmem
    · exact harrived.others other hother (List.mem_singleton.mp hmem)
  nodup := h.nodup
  fits := h.fits

theorem Consistent.loadFailed {result : ExplorerResult ExplorerDirectoryListing}
    (h : Consistent c) (harrived : Arrived c load result) (message : String) :
    Consistent (c.loadFailed load message) := by
  unfold ExplorerController.loadFailed
  split
  · rename_i hcond
    rw [Bool.and_eq_true] at hcond
    have hlatest : load.generation = c.requestGeneration := of_decide_eq_true hcond.2
    exact (h.answered harrived hlatest).emit rfl rfl
  · exact h

/-- The listing of the latest load is shown, with a stack that fits it. -/
theorem Consistent.display {listing : ExplorerDirectoryListing} (h : Consistent c)
    (harrived : Arrived c load (.ok listing)) (hlatest : load.generation = c.requestGeneration)
    (hid : listing.location.rootId = load.root.id) (hactive : state.activeRoot = some load.root)
    (hlisting : state.listing = some listing) {backStack : List ExplorerDirectoryRef}
    (hstack : ∀ ref ∈ backStack, ref.rootId = load.root.id) :
    Consistent { c with
      answered := c.answered ++ [load.generation], state := state, backStack := backStack } := by
  have hanswered := h.answered harrived hlatest
  constructor
  · constructor
    · intro ref href
      show state.activeRoot.map _ = _
      rw [hactive]
      exact congrArg some (hstack ref href).symm
    · intro shown hshown
      obtain rfl := Option.some.inj (hlisting.symm.trans hshown)
      exact ⟨load, harrived.arrived, List.mem_append_right _ (List.mem_singleton_self _), hactive,
        hid⟩
    · exact hanswered.latest
  · intro hnone
    have hnone : state.listing = none := hnone
    rw [hlisting] at hnone
    cases hnone
  · exact hanswered.answeredLe
  · exact hanswered.pendingLe
  · exact hanswered.fresh
  · exact hanswered.nodup
  · -- the load was the latest one, and no other has its number
    intro other hother hother'
    exact absurd (hother'.trans hlatest.symm) (harrived.others other hother)

theorem Consistent.listed (h : Consistent c) (result : ExplorerResult ExplorerDirectoryListing)
    (harrived : Arrived c load result) : Consistent (c.listed load result) := by
  unfold ExplorerController.listed
  cases result with
  | error error => exact h.loadFailed harrived error.message
  | ok listing =>
      simp only
      split
      · exact h
      · rename_i hcond
        rw [Bool.or_eq_true, not_or] at hcond
        have hdisposed : c.disposed = false := by simpa using hcond.1
        have hlatest : load.generation = c.requestGeneration := by simpa using hcond.2
        split
        · exact h.loadFailed harrived _
        · rename_i hid
          have hid : listing.location.rootId = load.root.id := not_not.mp hid
          obtain ⟨hadd, hstack⟩ := harrived.fits hlatest
          unfold ExplorerController.emit
          rw [if_neg (by simp [hdisposed])]
          cases hafter : load.after with
          | nothing =>
              rw [hafter] at hstack
              exact h.display harrived hlatest hid rfl rfl (hstack.resolve_left nofun)
          | add previousLocation =>
              rw [hafter] at hstack
              refine h.display harrived hlatest hid rfl rfl fun ref href => ?_
              rcases List.mem_append.mp href with href | href
              · exact hstack.resolve_left nofun ref href
              · rw [List.mem_singleton.mp href]
                exact hadd previousLocation hafter
          | clear =>
              exact h.display harrived hlatest hid rfl rfl fun _ href =>
                absurd href List.not_mem_nil
          | removeLast =>
              rw [hafter] at hstack
              exact h.display harrived hlatest hid rfl rfl fun ref href =>
                hstack.resolve_left nofun ref ((List.dropLast_sublist _).mem href)

theorem Consistent.answer (h : Consistent c) {i : ℕ} (hi : c.pending[i]? = some load)
    (result : ExplorerResult ExplorerDirectoryListing) : Consistent (c.answer i load result) := by
  obtain ⟨hrest, harrived⟩ := h.arrive hi result
    (if c.initialization = Initialization.load load.generation then .idle
      else c.initialization)
  exact hrest.listed result harrived

/-- **One step** keeps the invariant, unless it takes the stack to another root. -/
theorem Consistent.step {e : Event} (h : Consistent c) (hkeeps : KeepsRoot c e)
    (hstep : step c e = some c') : Consistent c' := by
  cases e with
  | initializeRoots =>
      cases hstep
      exact h.initializeRoots
  | rootsListed result =>
      simp only [ExplorerController.step] at hstep
      split at hstep
      · cases hstep
        exact h.rootsListed hkeeps result
      · cases hstep
  | selectRoot rootId =>
      cases hstep
      exact h.selectRoot rootId
  | openDirectory entry =>
      cases hstep
      exact h.openDirectory entry
  | navigateTo directory rememberCurrent =>
      cases hstep
      exact h.navigateTo hkeeps
  | goUp =>
      cases hstep
      exact h.goUp
  | reload =>
      cases hstep
      exact h.reload
  | dispose =>
      cases hstep
      exact h.dispose
  | listed i result =>
      obtain ⟨load, hi, heq⟩ := Option.map_eq_some_iff.mp hstep
      cases heq
      exact h.answer hi result

/-- The answer of a load that was superseded changes nothing of what is shown. -/
theorem answer_superseded {i : ℕ} (result : ExplorerResult ExplorerDirectoryListing)
    (h : load.generation ≠ c.requestGeneration) :
    (c.answer i load result).state = c.state ∧
      (c.answer i load result).backStack = c.backStack := by
  cases result with
  | error error => simp [answer, ExplorerController.listed, ExplorerController.loadFailed, h]
  | ok listing => simp [answer, ExplorerController.listed, h]

end Invariant

/-! ## §5  Every run -/

/-- **A panel navigates within its root** in every run whose steps keep the stack with its root:
it keeps its promises, and the answer of a superseded load changes nothing. -/
theorem navigates_of_run {preferredRootId : Option String} {c : ExplorerController}
    (hrun : Run step KeepsRoot (new preferredRootId) c) :
    Navigates c ∧ ∀ i load result c', c.pending[i]? = some load →
      load.generation ≠ c.requestGeneration → step c (.listed i result) = some c' →
        c'.state = c.state ∧ c'.backStack = c.backStack := by
  have hc : Consistent c := hrun.invariant consistent_new fun c e c' h hkeeps hstep =>
    h.step hkeeps hstep
  refine ⟨hc.toNavigates, fun i load result c' hi hsuperseded hstep => ?_⟩
  obtain ⟨load', hi', heq⟩ := Option.map_eq_some_iff.mp hstep
  obtain rfl : load = load' := Option.some.inj (hi.symm.trans hi')
  cases heq
  exact answer_superseded result hsuperseded

/-! ## §6  A root that keeps the stack of another one -/

namespace Sample

def browsable (id : String) : ExplorerRoot :=
  ⟨id, id, "/", ⟨true, true, false, false, false, false, false⟩⟩

def refTo (rootId path : String) : ExplorerDirectoryRef := ⟨rootId, path, path, none⟩

def listingOf (rootId path : String) : ExplorerDirectoryListing :=
  ⟨refTo rootId path, [], (browsable rootId).capabilities, none⟩

def docs : ExplorerFileEntry := ⟨"docs", "docs", "/docs", .directory, none, none, none, none⟩

/-- A directory of the first root is opened, and then one of the second root. -/
def visits (rememberCurrent : Bool) : List Event :=
  [.initializeRoots, .rootsListed (.ok [browsable "a", browsable "b"]),
    .listed 0 (.ok (listingOf "a" "/")), .openDirectory docs,
    .listed 0 (.ok (listingOf "a" "/docs")), .navigateTo (refTo "b" "/") rememberCurrent,
    .listed 0 (.ok (listingOf "b" "/"))]

end Sample

/-- The stack is cleared on the way to the second root. -/
theorem navigates_remembering : ∃ c, Run step KeepsRoot (new none) c ∧
    c.state.activeRoot = some (Sample.browsable "b") ∧ c.backStack = [] ∧ Navigates c := by
  obtain ⟨c, hc, hcheck⟩ := exists_of_exec_any step (new none) (Sample.visits true)
    (fun c => decide (c.state.activeRoot = some (Sample.browsable "b")) &&
      decide (c.backStack = [])) (by decide)
  rw [Bool.and_eq_true, decide_eq_true_eq, decide_eq_true_eq] at hcheck
  have hrun : Run step KeepsRoot (new none) c := run_of_exec hc (by decide)
  exact ⟨c, hrun, hcheck.1, hcheck.2, (navigates_of_run hrun).1⟩

/-- Without remembering the place, the second root keeps the stack of the first one. -/
theorem stack_of_other_root : ∃ c, Reach step (new none) c ∧
    c.state.activeRoot = some (Sample.browsable "b") ∧
    c.backStack = [Sample.refTo "a" "/"] ∧ ¬ Navigates c := by
  obtain ⟨c, hc, hcheck⟩ := exists_of_exec_any step (new none) (Sample.visits false)
    (fun c => decide (c.state.activeRoot = some (Sample.browsable "b")) &&
      decide (c.backStack = [Sample.refTo "a" "/"])) (by decide)
  rw [Bool.and_eq_true, decide_eq_true_eq, decide_eq_true_eq] at hcheck
  refine ⟨c, reach_of_exec hc, hcheck.1, hcheck.2, fun h => ?_⟩
  have hstack := h.stack (Sample.refTo "a" "/") (by rw [hcheck.2]; exact List.mem_cons_self)
  rw [hcheck.1] at hstack
  exact absurd hstack (by decide)

end ExplorerController

end FireBoxTransfer
