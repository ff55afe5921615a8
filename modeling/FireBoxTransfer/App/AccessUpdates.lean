import FireBoxTransfer.App.Favorites
import FireBoxTransfer.RemoteFs.AccessControl
import Mathlib.Data.List.Perm.Basic

/-!
# Updates of who may access what

The shared directories and the favourites are two lists. An action reads its
list, writes a copy to the storage, publishes it to the provider of the access
snapshot, and gives the copy to its own provider in the end. The snapshot goes to
the server isolate as a message, and is stored there with its fingerprints in upper
case and without blanks around them. While an action waits, others may begin.
-/

namespace FireBoxTransfer

open Runs

/-! ## §1  Shared directories and grants -/

/-- A directory that is exposed to trusted devices. -/
structure SharedFileRoot where
  id : String
  name : String
  type : RemoteFsGrantKind
  locator : String
  readOnly : Bool
deriving DecidableEq

def toRemoteFsGrant (root : SharedFileRoot) : RemoteFsGrant where
  id := root.id
  displayName := root.name
  kind := root.type
  locator := root.locator
  readOnly := root.readOnly

/-- `SetRemoteFsGrantsAction`. -/
def setRemoteFsGrants (roots : List SharedFileRoot) (access : RemoteFsAccessConfig) :
    RemoteFsAccessConfig :=
  { access with grants := roots.map toRemoteFsGrant }

/-- `SetRemoteFsTrustedFingerprintsAction`. -/
def setRemoteFsTrustedFingerprints (favorites : List StoredFavorite)
    (access : RemoteFsAccessConfig) : RemoteFsAccessConfig :=
  { access with trustedFingerprints := fingerprints favorites }

/-! ## §2  The actions -/

/-- What an action makes of the list it reads: a new list that it persists, the
list as it is, or the list as it is after a microtask. -/
inductive ListEffect (α : Type) where
  | write (updated : List α)
  | keep
  | later

def ListEffect.apply {α : Type} (l : List α) : ListEffect α → List α
  | .write updated => updated
  | .keep | .later => l

inductive SharedRootAction where
  | add (root : SharedFileRoot)
  | update (root : SharedFileRoot)
  | remove (id : String)
deriving DecidableEq

def SharedRootAction.effect (state : List SharedFileRoot) :
    SharedRootAction → ListEffect SharedFileRoot
  | .add root =>
      match state.findIdx? fun entry => entry.locator = root.locator with
      | none => .write (state ++ [root])
      | some existing => .write (state.set existing root)
  | .update root =>
      match state.findIdx? fun entry => entry.id = root.id with
      | none => .keep
      | some index => .write (state.set index root)
  | .remove id => .write (state.filter fun entry => entry.id ≠ id)

inductive FavoriteAction where
  | add (device : StoredFavorite)
  | update (device : StoredFavorite)
  | remove (deviceFingerprint : String)
deriving DecidableEq

def FavoriteAction.effect (state : List StoredFavorite) : FavoriteAction → ListEffect StoredFavorite
  | .add device => .write (state ++ [device])
  | .update device =>
      match state.findIdx? fun e => e.id = device.id with
      | none => .later
      | some index => .write (state.set index device)
  | .remove deviceFingerprint =>
      match state.findIdx? fun e => e.fingerprint = deviceFingerprint with
      | none => .keep
      | some index => .write (state.eraseIdx index)

/-- The root that an action is about. -/
def SharedRootAction.about : SharedRootAction → String
  | .add root | .update root => root.id
  | .remove id => id

/-- The fingerprint that an action is about. -/
def FavoriteAction.about : FavoriteAction → String
  | .add device | .update device => device.fingerprint
  | .remove deviceFingerprint => deviceFingerprint

/-! ## §3  Running actions -/

/-- An action between two of its awaits. -/
inductive ListUpdate (α : Type) where
  | microtask
  | persist (updated : List α)
  | notify (updated : List α)
  | publish (updated : List α) (next : RemoteFsAccessConfig)
  | commit (updated : List α)
deriving DecidableEq

/-- One of the two services: what is persisted, the state of its provider, and
the actions that run. -/
structure ListService (α : Type) where
  persisted : List α
  state : List α
  running : List (ListUpdate α)
deriving DecidableEq

/-- The provider of the access snapshot, the messages on their way to the server
isolate, and the snapshot there. -/
structure AccessService where
  state : RemoteFsAccessConfig
  messages : List RemoteFsAccessConfig
  installed : RemoteFsAccessConfig
deriving DecidableEq

section Service

variable {α : Type}

/-- An action begins: it reads the list, and asks the storage to write. -/
def ListService.dispatch (sv : ListService α) (effect : ListEffect α) : ListService α :=
  { sv with
    running := sv.running ++ [
      match effect with
      | .write updated => .persist updated
      | .keep => .commit sv.state
      | .later => .microtask] }

/-- The next step of an action. `set` replaces the part of the snapshot that
comes from this list. -/
def ListUpdate.next (set : List α → RemoteFsAccessConfig → RemoteFsAccessConfig)
    (sv : ListService α) (ac : AccessService) :
    ListUpdate α → ListService α × AccessService × Option (ListUpdate α)
  | .microtask => (sv, ac, some (.commit sv.state))
  | .persist updated => ({ sv with persisted := updated }, ac, some (.notify updated))
  | .notify updated =>
      let next := set updated ac.state
      (sv, { ac with messages := ac.messages ++ [next] }, some (.publish updated next))
  | .publish updated next => (sv, { ac with state := next }, some (.commit updated))
  | .commit updated => ({ sv with state := updated }, ac, none)

def ListService.advance (set : List α → RemoteFsAccessConfig → RemoteFsAccessConfig)
    (sv : ListService α) (ac : AccessService) (i : ℕ) : Option (ListService α × AccessService) :=
  (sv.running[i]?).map fun update =>
    let (sv', ac', rest) := update.next set sv ac
    ({ sv' with running := sv.running.eraseIdx i ++ rest.toList }, ac')

/-- The snapshot that was sent, and is still to be taken over by its provider. -/
def ListService.publishing (sv : ListService α) : Option RemoteFsAccessConfig :=
  sv.running.findSome? fun
    | .publish _ next => some next
    | _ => none

def ListUpdate.notifies : ListUpdate α → Bool
  | .notify _ => true
  | _ => false

end Service

structure AccessState where
  roots : ListService SharedFileRoot
  favorites : ListService StoredFavorite
  access : AccessService
deriving DecidableEq

def accessOf (roots : List SharedFileRoot) (favorites : List StoredFavorite) :
    RemoteFsAccessConfig :=
  ⟨fingerprints favorites, roots.map toRemoteFsGrant⟩

/-- The server has been started with the persisted lists. -/
def AccessState.start (X : RemoteFsExternals) (roots : List SharedFileRoot)
    (favorites : List StoredFavorite) : AccessState where
  roots := ⟨roots, roots, []⟩
  favorites := ⟨favorites, favorites, []⟩
  access := ⟨accessOf roots favorites, [], storedAccess X (accessOf roots favorites)⟩

inductive AccessEvent where
  | root (action : SharedRootAction)
  | favorite (action : FavoriteAction)
  | advanceRoots (i : ℕ)
  | advanceFavorites (i : ℕ)
  | deliver
deriving DecidableEq

def accessStep (X : RemoteFsExternals) (s : AccessState) : AccessEvent → Option AccessState
  | .root action => some { s with roots := s.roots.dispatch (action.effect s.roots.state) }
  | .favorite action =>
      some { s with favorites := s.favorites.dispatch (action.effect s.favorites.state) }
  | .advanceRoots i =>
      (s.roots.advance setRemoteFsGrants s.access i).map fun (roots, access) =>
        { s with roots, access }
  | .advanceFavorites i =>
      (s.favorites.advance setRemoteFsTrustedFingerprints s.access i).map fun (favorites, access) =>
        { s with favorites, access }
  | .deliver =>
      match s.access.messages with
      | [] => none
      | message :: messages =>
          some { s with access := { s.access with messages, installed := storedAccess X message } }

/-! ## §4  One service -/

section Service

variable {α β : Type} {set : List α → RemoteFsAccessConfig → RemoteFsAccessConfig}
  {set' : List β → RemoteFsAccessConfig → RemoteFsAccessConfig} {sv sv' : ListService α}
  {target : List α} {access : RemoteFsAccessConfig} {ac ac' : AccessService} {i : ℕ}

/-- The list `target` is where it belongs: in the storage, in its provider, and
in the snapshot. -/
structure ListSettled (set : List α → RemoteFsAccessConfig → RemoteFsAccessConfig) (target : List α)
    (access : RemoteFsAccessConfig) (sv : ListService α) : Prop where
  state : sv.state = target
  persisted : sv.persisted = target
  access : set target access = access

/-- How far an action has brought the list `target`. -/
def ListUpdate.At (set : List α → RemoteFsAccessConfig → RemoteFsAccessConfig) (target : List α)
    (access : RemoteFsAccessConfig) (sv : ListService α) : ListUpdate α → Prop
  | .microtask => ListSettled set target access sv
  | .persist updated => updated = target
  | .notify updated => updated = target ∧ sv.persisted = target
  | .publish updated next => updated = target ∧ sv.persisted = target ∧ next = set target access
  | .commit updated => updated = target ∧ sv.persisted = target ∧ set target access = access

/-- At most one action runs, and brings the list `target`. -/
def Phase (set : List α → RemoteFsAccessConfig → RemoteFsAccessConfig) (target : List α)
    (access : RemoteFsAccessConfig) (sv : ListService α) : Prop :=
  match sv.running with
  | [] => ListSettled set target access sv
  | [update] => update.At set target access sv
  | _ :: _ :: _ => False

/-- The parts of the snapshot that come from the two lists are apart. -/
structure PartsApart (set : List α → RemoteFsAccessConfig → RemoteFsAccessConfig)
    (set' : List β → RemoteFsAccessConfig → RemoteFsAccessConfig) : Prop where
  idem : ∀ l access, set l (set l access) = set l access
  comm : ∀ l l' access, set' l' (set l access) = set l (set' l' access)

/-- What a step of an action does to the snapshot: nothing, or it sends the
part of its list, or the provider takes over what was sent. -/
inductive AccessMove (set : List α → RemoteFsAccessConfig → RemoteFsAccessConfig)
    (target : List α) (i : ℕ) (sv sv' : ListService α) (ac : AccessService) :
    AccessService → Prop where
  | rest (hsame : sv'.publishing = sv.publishing) : AccessMove set target i sv sv' ac ac
  | send (hnotifies : (sv.running[i]?).any ListUpdate.notifies = true)
      (hafter : sv'.publishing = some (set target ac.state)) :
      AccessMove set target i sv sv' ac
        { ac with messages := ac.messages ++ [set target ac.state] }
  | take (hbefore : sv.publishing = some (set target ac.state)) (hafter : sv'.publishing = none) :
      AccessMove set target i sv sv' ac { ac with state := set target ac.state }

theorem Phase.dispatch (h : Phase set target access sv) (hidle : sv.running = [])
    (effect : ListEffect α) : Phase set (effect.apply target) access (sv.dispatch effect) ∧
      (sv.dispatch effect).publishing = none ∧ sv.publishing = none := by
  unfold Phase at h
  rw [hidle] at h
  have hrunning : (sv.dispatch effect).running = [match effect with
      | .write updated => .persist updated
      | .keep => .commit sv.state
      | .later => .microtask] := by
    show sv.running ++ _ = _
    rw [hidle]
    rfl
  have hbefore : sv.publishing = none := by
    unfold ListService.publishing
    rw [hidle]
    rfl
  unfold Phase ListService.publishing
  rw [hrunning]
  cases effect with
  | write updated => exact ⟨rfl, rfl, hbefore⟩
  | keep => exact ⟨⟨h.state, h.persisted, h.access⟩, rfl, hbefore⟩
  | later => exact ⟨⟨h.state, h.persisted, h.access⟩, rfl, hbefore⟩

/-- **One step** of the only action. -/
theorem Phase.advance (hidem : ∀ l access, set l (set l access) = set l access)
    (h : Phase set target ac.state sv) (hst : sv.advance set ac i = some (sv', ac')) :
    Phase set target ac'.state sv' ∧ AccessMove set target i sv sv' ac ac' := by
  obtain ⟨update, hupdate, heq⟩ := Option.map_eq_some_iff.mp hst
  obtain ⟨persisted, state, running⟩ := sv
  match running, h with
  | [], h => cases hupdate
  | [update'], h =>
      obtain ⟨rfl, rfl⟩ : i = 0 ∧ update' = update := by
        cases i with
        | zero => exact ⟨rfl, Option.some.inj hupdate⟩
        | succ i => cases hupdate
      cases update' with
      | microtask =>
          cases heq
          exact ⟨⟨h.state, h.persisted, h.access⟩, .rest rfl⟩
      | persist updated =>
          cases heq
          exact ⟨⟨h, h⟩, .rest rfl⟩
      | notify updated =>
          obtain ⟨rfl, hpersisted⟩ := h
          cases heq
          exact ⟨⟨rfl, hpersisted, rfl⟩, .send rfl rfl⟩
      | publish updated next =>
          obtain ⟨rfl, hpersisted, rfl⟩ := h
          cases heq
          exact ⟨⟨rfl, hpersisted, hidem _ _⟩, .take rfl rfl⟩
      | commit updated =>
          obtain ⟨rfl, hpersisted, haccess⟩ := h
          cases heq
          exact ⟨⟨rfl, hpersisted, haccess⟩, .rest rfl⟩
  | _ :: _ :: _, h => cases h

/-- The other list, when the provider takes over a snapshot. -/
theorem Phase.frame (hapart : PartsApart set set') {target' : List β}
    (h : Phase set target access sv) (hidle : sv.publishing = none) :
    Phase set target (set' target' access) sv := by
  have hkeeps : set target access = access →
      set target (set' target' access) = set' target' access := by
    intro haccess
    rw [← hapart.comm, haccess]
  obtain ⟨persisted, state, running⟩ := sv
  match running, h with
  | [], h => exact ⟨h.state, h.persisted, hkeeps h.access⟩
  | [update], h =>
      cases update with
      | microtask => exact ⟨h.state, h.persisted, hkeeps h.access⟩
      | persist updated => exact h
      | notify updated => exact h
      | publish updated next => cases hidle
      | commit updated => exact ⟨h.1, h.2.1, hkeeps h.2.2⟩
  | _ :: _ :: _, h => cases h

end Service

/-! ## §5  Both services -/

/-- What will be installed by the messages on their way, or is. -/
def AccessService.latest (X : RemoteFsExternals) (ac : AccessService) : RemoteFsAccessConfig :=
  (ac.messages.getLast?.map (storedAccess X)).getD ac.installed

/-- One of two services at most has sent a snapshot that the provider does not
have yet, and none was sent after it. -/
structure Published (X : RemoteFsExternals) (pub pub' : Option RemoteFsAccessConfig)
    (ac : AccessService) : Prop where
  one : pub = none ∨ pub' = none
  sent : ∀ next, pub = some next ∨ pub' = some next → ac.latest X = storedAccess X next
  taken : pub = none → pub' = none → ac.latest X = storedAccess X ac.state

section Both

variable {X : RemoteFsExternals} {α : Type}
  {set : List α → RemoteFsAccessConfig → RemoteFsAccessConfig} {sv sv' : ListService α}
  {target : List α} {pub' : Option RemoteFsAccessConfig} {ac ac' : AccessService} {i : ℕ}

theorem Published.symm {pub : Option RemoteFsAccessConfig} (h : Published X pub pub' ac) :
    Published X pub' pub ac :=
  ⟨h.one.symm, fun next hnext => h.sent next hnext.symm, fun hpub hpub' => h.taken hpub' hpub⟩

theorem Published.move (h : Published X sv.publishing pub' ac)
    (hmove : AccessMove set target i sv sv' ac ac')
    (halone : (sv.running[i]?).any ListUpdate.notifies = true → pub' = none) :
    Published X sv'.publishing pub' ac' := by
  cases hmove with
  | rest hsame =>
      rw [hsame]
      exact h
  | send hnotifies hafter =>
      have hother := halone hnotifies
      have hlatest : ({ ac with messages := ac.messages ++ [set target ac.state] } :
          AccessService).latest X = storedAccess X (set target ac.state) := by
        unfold AccessService.latest
        rw [List.getLast?_append_of_ne_nil _ (List.cons_ne_nil _ _)]
        rfl
      rw [hafter, hother]
      refine ⟨.inr rfl, fun next hnext => ?_, fun hnone => by cases hnone⟩
      rcases hnext with hnext | hnext
      · exact hlatest.trans (congrArg (storedAccess X) (Option.some.inj hnext))
      · cases hnext
  | take hbefore hafter =>
      have hother : pub' = none := by
        rcases h.one with hnone | hnone
        · rw [hbefore] at hnone
          cases hnone
        · exact hnone
      have hlatest := h.sent _ (.inl hbefore)
      rw [hafter, hother]
      refine ⟨.inl rfl, fun next hnext => ?_, fun _ _ => hlatest⟩
      rcases hnext with hnext | hnext <;> cases hnext

end Both

/-- Both lists, and the snapshot. -/
structure AccessAt (X : RemoteFsExternals) (roots : List SharedFileRoot)
    (favorites : List StoredFavorite) (s : AccessState) : Prop where
  roots : Phase setRemoteFsGrants roots s.access.state s.roots
  favorites : Phase setRemoteFsTrustedFingerprints favorites s.access.state s.favorites
  published : Published X s.roots.publishing s.favorites.publishing s.access

/-- The fingerprints of favourites, as far as `key` tells them apart. -/
def favoriteKeys (key : String → String) (favorites : List StoredFavorite) : List String :=
  favorites.map fun favorite => key favorite.fingerprint

/-- The favourite to be removed is in the list once at most, and under no other
spelling of its fingerprint. -/
def FavoriteAction.Unambiguous (key : String → String) (state : List StoredFavorite) :
    FavoriteAction → Prop
  | .remove deviceFingerprint =>
      (favoriteKeys key state).count (key deviceFingerprint) ≤ 1 ∧
        ∀ favorite ∈ state, key favorite.fingerprint = key deviceFingerprint →
          favorite.fingerprint = deviceFingerprint
  | _ => True

/-- No action begins while another one of its list runs, and none publishes a
snapshot while the provider is still to take over the one of the other list. -/
def Alone (X : RemoteFsExternals) (s : AccessState) : AccessEvent → Prop
  | .root _ => s.roots.running = []
  | .favorite action =>
      s.favorites.running = [] ∧ action.Unambiguous (normalizeFingerprint X) s.favorites.state
  | .advanceRoots i =>
      (s.roots.running[i]?).any ListUpdate.notifies = true → s.favorites.publishing = none
  | .advanceFavorites i =>
      (s.favorites.running[i]?).any ListUpdate.notifies = true → s.roots.publishing = none
  | .deliver => True

theorem grants_apart : PartsApart setRemoteFsGrants setRemoteFsTrustedFingerprints :=
  ⟨fun _ _ => rfl, fun _ _ _ => rfl⟩

theorem fingerprints_apart : PartsApart setRemoteFsTrustedFingerprints setRemoteFsGrants :=
  ⟨fun _ _ => rfl, fun _ _ _ => rfl⟩

/-- The lists after an action. -/
def rootsAfter (roots : List SharedFileRoot) : AccessEvent → List SharedFileRoot
  | .root action => (action.effect roots).apply roots
  | _ => roots

def favoritesAfter (favorites : List StoredFavorite) : AccessEvent → List StoredFavorite
  | .favorite action => (action.effect favorites).apply favorites
  | _ => favorites

section Step

variable {X : RemoteFsExternals} {roots : List SharedFileRoot} {favorites : List StoredFavorite}
  {s s' : AccessState} {e : AccessEvent}

theorem Phase.idle {α : Type} {set : List α → RemoteFsAccessConfig → RemoteFsAccessConfig}
    {target : List α} {access : RemoteFsAccessConfig} {sv : ListService α}
    (h : Phase set target access sv) (hidle : sv.running = []) :
    ListSettled set target access sv := by
  unfold Phase at h
  rw [hidle] at h
  exact h

theorem Phase.move {α β : Type} {set : List α → RemoteFsAccessConfig → RemoteFsAccessConfig}
    {set' : List β → RemoteFsAccessConfig → RemoteFsAccessConfig} (hapart : PartsApart set set')
    {sv : ListService α} {target : List α} {other other' : ListService β} {target' : List β}
    {ac ac' : AccessService} {i : ℕ} (h : Phase set target ac.state sv)
    (hone : other.publishing = none ∨ sv.publishing = none)
    (hmove : AccessMove set' target' i other other' ac ac') : Phase set target ac'.state sv := by
  cases hmove with
  | rest hsame => exact h
  | send hnotifies hafter => exact h
  | take hbefore hafter =>
      refine h.frame hapart (hone.resolve_left fun hnone => ?_)
      rw [hbefore] at hnone
      cases hnone

/-- **One step** that no other action gets in the way of. -/
theorem AccessAt.step (h : AccessAt X roots favorites s) (hok : Alone X s e)
    (hst : accessStep X s e = some s') :
    AccessAt X (rootsAfter roots e) (favoritesAfter favorites e) s' := by
  cases e with
  | root action =>
      cases hst
      obtain ⟨hphase, hafter, hbefore⟩ := h.roots.dispatch hok (action.effect s.roots.state)
      have htarget : rootsAfter roots (.root action) =
          (action.effect s.roots.state).apply roots := by
        rw [(h.roots.idle hok).state]
        rfl
      have hpublished := h.published
      rw [hbefore, ← hafter] at hpublished
      rw [htarget]
      exact ⟨hphase, h.favorites, hpublished⟩
  | favorite action =>
      cases hst
      obtain ⟨hphase, hafter, hbefore⟩ :=
        h.favorites.dispatch hok.1 (action.effect s.favorites.state)
      have htarget : favoritesAfter favorites (.favorite action) =
          (action.effect s.favorites.state).apply favorites := by
        rw [(h.favorites.idle hok.1).state]
        rfl
      have hpublished := h.published
      rw [hbefore, ← hafter] at hpublished
      rw [htarget]
      exact ⟨h.roots, hphase, hpublished⟩
  | advanceRoots i =>
      obtain ⟨⟨sv', ac'⟩, hadvance, rfl⟩ := Option.map_eq_some_iff.mp hst
      obtain ⟨hphase, hmove⟩ := h.roots.advance grants_apart.idem hadvance
      exact ⟨hphase, h.favorites.move fingerprints_apart h.published.one hmove,
        h.published.move hmove hok⟩
  | advanceFavorites i =>
      obtain ⟨⟨sv', ac'⟩, hadvance, rfl⟩ := Option.map_eq_some_iff.mp hst
      obtain ⟨hphase, hmove⟩ := h.favorites.advance fingerprints_apart.idem hadvance
      exact ⟨h.roots.move grants_apart h.published.one.symm hmove, hphase,
        (h.published.symm.move hmove hok).symm⟩
  | deliver =>
      unfold accessStep at hst
      simp only at hst
      split at hst
      · cases hst
      · rename_i message messages hmessages
        cases hst
        have hlatest : ({ s.access with messages, installed := storedAccess X message } :
            AccessService).latest X = s.access.latest X := by
          unfold AccessService.latest
          rw [hmessages, List.getLast?_cons]
          cases messages.getLast? <;> rfl
        refine ⟨h.roots, h.favorites, h.published.one, fun next hnext => ?_, fun hpub hpub' => ?_⟩
        · exact hlatest.trans (h.published.sent next hnext)
        · exact hlatest.trans (h.published.taken hpub hpub')

end Step

/-! ## §6  Every run -/

/-- The identifiers of shared directories. -/
def rootIds (roots : List SharedFileRoot) : List String := roots.map fun root => root.id

def AccessEvent.root? : AccessEvent → Option SharedRootAction
  | .root action => some action
  | _ => none

def AccessEvent.favorite? : AccessEvent → Option FavoriteAction
  | .favorite action => some action
  | _ => none

/-- The last action about a shared directory. -/
def lastRoot (id : String) (events : List AccessEvent) : Option SharedRootAction :=
  ((events.filterMap AccessEvent.root?).filter fun action => action.about = id).getLast?

/-- The last action about a fingerprint, as far as `key` tells fingerprints apart. -/
def lastFavorite (key : String → String) (fingerprint : String) (events : List AccessEvent) :
    Option FavoriteAction :=
  ((events.filterMap AccessEvent.favorite?).filter fun action =>
    key action.about = key fingerprint).getLast?

/-- What the last action removed is in neither list, however it is spelled. -/
structure RemovedStay (keys : List (String → String)) (events : List AccessEvent)
    (roots : List SharedFileRoot) (favorites : List StoredFavorite) : Prop where
  roots : ∀ id, lastRoot id events = some (.remove id) → id ∉ rootIds roots
  favorites : ∀ key ∈ keys, ∀ fingerprint removed,
    lastFavorite key fingerprint events = some (.remove removed) →
      key fingerprint ∉ favoriteKeys key favorites

section Removal

variable {roots : List SharedFileRoot} {favorites : List StoredFavorite}
  {events : List AccessEvent} {id fingerprint : String} {key : String → String}
  {keys : List (String → String)}

theorem lastRoot_append (e : AccessEvent) : lastRoot id (events ++ [e]) =
    match e.root? with
    | some action => if action.about = id then some action else lastRoot id events
    | none => lastRoot id events := by
  unfold lastRoot
  rw [List.filterMap_append, List.filter_append]
  cases hroot : e.root? with
  | none => simp [hroot]
  | some action =>
      by_cases habout : action.about = id
      · simp [hroot, habout]
      · simp [hroot, habout]

theorem lastFavorite_append (e : AccessEvent) : lastFavorite key fingerprint (events ++ [e]) =
    match e.favorite? with
    | some action => if key action.about = key fingerprint then some action
        else lastFavorite key fingerprint events
    | none => lastFavorite key fingerprint events := by
  unfold lastFavorite
  rw [List.filterMap_append, List.filter_append]
  cases hfavorite : e.favorite? with
  | none => simp [hfavorite]
  | some action =>
      by_cases habout : key action.about = key fingerprint
      · simp [hfavorite, habout]
      · simp [hfavorite, habout]

/-- Replacing or appending an entry brings in its key only. -/
theorem not_mem_map_set {α : Type} {f : α → String} {l : List α} {x : α} {k : String} (hx : f x ≠ k)
    (hl : k ∉ l.map f) (i : ℕ) : k ∉ (l.set i x).map f := by
  intro hmem
  obtain ⟨y, hy, rfl⟩ := List.mem_map.mp hmem
  rcases List.mem_or_eq_of_mem_set hy with hy | rfl
  · exact hl (List.mem_map_of_mem hy)
  · exact hx rfl

theorem not_mem_map_append {α : Type} {f : α → String} {l : List α} {x : α} {k : String}
    (hx : f x ≠ k) (hl : k ∉ l.map f) : k ∉ (l ++ [x]).map f := by
  rw [List.map_append, List.mem_append, not_or]
  exact ⟨hl, fun hmem => hx (List.mem_singleton.mp hmem).symm⟩

theorem not_mem_root_effect {action : SharedRootAction} (habout : action.about ≠ id)
    (h : id ∉ rootIds roots) : id ∉ rootIds ((action.effect roots).apply roots) := by
  cases action with
  | add root =>
      unfold SharedRootAction.effect
      simp only
      split
      · exact not_mem_map_append (x := root) habout h
      · exact not_mem_map_set (x := root) habout h _
  | update root =>
      unfold SharedRootAction.effect
      simp only
      split
      · exact h
      · exact not_mem_map_set (x := root) habout h _
  | remove id' =>
      exact fun hmem => h ((List.filter_sublist.map _).subset hmem)

theorem not_mem_root_remove : id ∉ rootIds
    (((SharedRootAction.remove id).effect roots).apply roots) := by
  intro hmem
  obtain ⟨root, hroot, rfl⟩ := List.mem_map.mp hmem
  simpa using (List.mem_filter.mp hroot).2

theorem not_mem_favorite_effect {action : FavoriteAction}
    (habout : key action.about ≠ key fingerprint)
    (h : key fingerprint ∉ favoriteKeys key favorites) :
    key fingerprint ∉ favoriteKeys key ((action.effect favorites).apply favorites) := by
  cases action with
  | add device => exact not_mem_map_append (x := device) habout h
  | update device =>
      unfold FavoriteAction.effect
      simp only
      split
      · exact h
      · exact not_mem_map_set (x := device) habout h _
  | remove fingerprint' =>
      unfold FavoriteAction.effect
      simp only
      split
      · exact h
      · exact fun hmem => h (((List.eraseIdx_sublist _ _).map _).subset hmem)

/-- A fingerprint that is there once is gone after its removal. -/
theorem not_mem_favorite_remove
    (hone : (FavoriteAction.remove fingerprint).Unambiguous key favorites) :
    key fingerprint ∉ favoriteKeys key
      (((FavoriteAction.remove fingerprint).effect favorites).apply favorites) := by
  obtain ⟨hle, hspelled⟩ := hone
  unfold FavoriteAction.effect
  simp only
  split
  · rename_i hnone
    intro hmem
    obtain ⟨favorite, hfavorite, hkey⟩ := List.mem_map.mp hmem
    have hother := List.findIdx?_eq_none_iff.mp hnone favorite hfavorite
    exact absurd (hspelled favorite hfavorite hkey) (by simpa using hother)
  · rename_i index hindex
    obtain ⟨hlt, hfound, -⟩ := List.findIdx?_eq_some_iff_getElem.mp hindex
    have hperm := (List.getElem_cons_eraseIdx_perm hlt).map fun e : StoredFavorite =>
      key e.fingerprint
    have hsame : favorites[index].fingerprint = fingerprint := by simpa using hfound
    have hcount := hperm.count_eq (key fingerprint)
    rw [List.map_cons, hsame, List.count_cons_self] at hcount
    refine List.count_eq_zero.mp ?_
    unfold favoriteKeys at hle
    show ((favorites.eraseIdx index).map fun e => key e.fingerprint).count (key fingerprint) = 0
    omega

/-- Fingerprints that differ in their keys are different. -/
theorem FavoriteAction.Unambiguous.spelled {action : FavoriteAction}
    (h : action.Unambiguous key favorites) : action.Unambiguous (fun s => s) favorites := by
  cases action with
  | remove fingerprint =>
      refine ⟨le_trans ?_ h.1, fun _ _ hsame => hsame⟩
      have hcount := List.count_le_count_map (l := favoriteKeys (fun s => s) favorites)
        (f := key) (x := fingerprint)
      unfold favoriteKeys at hcount ⊢
      rwa [List.map_map] at hcount
  | _ => trivial

/-- **One step** leaves what was removed last out of the lists. -/
theorem RemovedStay.step (h : RemovedStay keys events roots favorites) {e : AccessEvent}
    (hone : ∀ action, e = .favorite action → ∀ key ∈ keys, action.Unambiguous key favorites) :
    RemovedStay keys (events ++ [e]) (rootsAfter roots e) (favoritesAfter favorites e) := by
  constructor
  · intro id hlast
    rw [lastRoot_append] at hlast
    cases e with
    | root action =>
        change (if action.about = id then _ else _) = _ at hlast
        split_ifs at hlast with habout
        · obtain rfl := Option.some.inj hlast
          exact not_mem_root_remove
        · exact not_mem_root_effect habout (h.roots id hlast)
    | favorite action => exact h.roots id hlast
    | advanceRoots i => exact h.roots id hlast
    | advanceFavorites i => exact h.roots id hlast
    | deliver => exact h.roots id hlast
  · intro key hkey fingerprint removed hlast
    rw [lastFavorite_append] at hlast
    have hbefore := h.favorites key hkey fingerprint removed
    cases e with
    | root action => exact hbefore hlast
    | favorite action =>
        change (if key action.about = key fingerprint then _ else _) = _ at hlast
        split_ifs at hlast with habout
        · obtain rfl := Option.some.inj hlast
          rw [← habout]
          exact not_mem_favorite_remove (hone _ rfl key hkey)
        · exact not_mem_favorite_effect habout (hbefore hlast)
    | advanceRoots i => exact hbefore hlast
    | advanceFavorites i => exact hbefore hlast
    | deliver => exact hbefore hlast

end Removal

/-- No action runs, and no message is on its way. -/
structure AccessState.Quiet (s : AccessState) : Prop where
  roots : s.roots.running = []
  favorites : s.favorites.running = []
  messages : s.access.messages = []

/-- The storage, the providers and the server isolate have the lists to which the
events lead one after the other, and nothing that was removed last. The isolate
trusts a fingerprint under all its spellings, so none of them is left. -/
structure AccessAgrees (X : RemoteFsExternals) (roots : List SharedFileRoot)
    (favorites : List StoredFavorite) (events : List AccessEvent) (s : AccessState) : Prop where
  roots : s.roots.state = events.foldl rootsAfter roots
  rootsPersisted : s.roots.persisted = s.roots.state
  favorites : s.favorites.state = events.foldl favoritesAfter favorites
  favoritesPersisted : s.favorites.persisted = s.favorites.state
  access : s.access.state = accessOf s.roots.state s.favorites.state
  installed : s.access.installed = storedAccess X s.access.state
  unshared : ∀ id, lastRoot id events = some (.remove id) → id ∉ rootIds s.roots.persisted ∧
    ∀ grant ∈ s.access.installed.grants, grant.id ≠ id
  unlisted : ∀ fingerprint removed,
    lastFavorite (fun s => s) fingerprint events = some (.remove removed) →
      fingerprint ∉ fingerprints s.favorites.persisted
  untrusted : ∀ fingerprint removed,
    lastFavorite (normalizeFingerprint X) fingerprint events = some (.remove removed) →
      (∀ favorite ∈ s.favorites.persisted, normalizeFingerprint X favorite.fingerprint ≠
        normalizeFingerprint X fingerprint) ∧
      normalizeFingerprint X fingerprint ∉ s.access.installed.trustedFingerprints

section Quiet

variable {X : RemoteFsExternals} {roots : List SharedFileRoot} {favorites : List StoredFavorite}
  {s : AccessState}

theorem accessAt_start : AccessAt X roots favorites (.start X roots favorites) where
  roots := ⟨rfl, rfl, rfl⟩
  favorites := ⟨rfl, rfl, rfl⟩
  published := ⟨.inl rfl, nofun, fun _ _ => rfl⟩

theorem ListService.publishing_idle {α : Type} {sv : ListService α} (h : sv.running = []) :
    sv.publishing = none := by
  unfold ListService.publishing
  rw [h]
  rfl

/-- **At rest** everything agrees. -/
theorem AccessAt.agrees {events : List AccessEvent}
    (h : AccessAt X (events.foldl rootsAfter roots) (events.foldl favoritesAfter favorites) s)
    (hremoved : RemovedStay [fun s => s, normalizeFingerprint X] events
      (events.foldl rootsAfter roots) (events.foldl favoritesAfter favorites))
    (hquiet : s.Quiet) : AccessAgrees X roots favorites events s := by
  have hroots := h.roots.idle hquiet.roots
  have hfavorites := h.favorites.idle hquiet.favorites
  have haccess : s.access.state = accessOf s.roots.state s.favorites.state := by
    rw [← hfavorites.access, ← hroots.access, hroots.state, hfavorites.state]
    rfl
  have hinstalled : s.access.installed = storedAccess X s.access.state := by
    have hlatest := h.published.taken (ListService.publishing_idle hquiet.roots)
      (ListService.publishing_idle hquiet.favorites)
    unfold AccessService.latest at hlatest
    rw [hquiet.messages] at hlatest
    exact hlatest
  refine ⟨hroots.state, hroots.persisted.trans hroots.state.symm, hfavorites.state,
    hfavorites.persisted.trans hfavorites.state.symm, haccess, hinstalled, fun id hlast => ?_,
    fun fingerprint removed hlast => ?_, fun fingerprint removed hlast => ?_⟩
  · have hgone := hremoved.roots id hlast
    rw [← hroots.state] at hgone
    rw [hroots.persisted, ← hroots.state, hinstalled, haccess]
    refine ⟨hgone, fun grant hgrant heq => hgone ?_⟩
    obtain ⟨root, hroot, rfl⟩ := List.mem_map.mp hgrant
    exact heq ▸ List.mem_map_of_mem (f := fun root : SharedFileRoot => root.id) hroot
  · have hgone := hremoved.favorites _ List.mem_cons_self fingerprint removed hlast
    rw [hfavorites.persisted]
    exact hgone
  · have hgone := hremoved.favorites _ (List.mem_cons_of_mem _ List.mem_cons_self)
      fingerprint removed hlast
    rw [hfavorites.persisted, hinstalled, haccess, hfavorites.state]
    refine ⟨fun favorite hfavorite heq => hgone (List.mem_map.mpr ⟨favorite, hfavorite, heq⟩),
      fun htrusted => hgone ?_⟩
    change _ ∈ (fingerprints _).map (normalizeFingerprint X) at htrusted
    unfold fingerprints at htrusted
    rwa [List.map_map] at htrusted

end Quiet

/-- The steps, and all events so far. -/
abbrev accessRun (X : RemoteFsExternals) : AccessState × List AccessEvent → AccessEvent →
    Option (AccessState × List AccessEvent) :=
  recorded (accessStep X) fun _ e => [e]

/-- The guard, next to the events. -/
def AloneSo (X : RemoteFsExternals) (q : AccessState × List AccessEvent) (e : AccessEvent) :
    Prop := Alone X q.1 e

/-- **No update is lost** in a run in which no action gets in the way of
another one. -/
theorem access_updated {X : RemoteFsExternals} {roots : List SharedFileRoot}
    {favorites : List StoredFavorite} {s : AccessState} {events : List AccessEvent}
    (hrun : Run (accessRun X) (AloneSo X) (.start X roots favorites, []) (s, events))
    (hquiet : s.Quiet) : AccessAgrees X roots favorites events s := by
  have hinv := hrun.invariant
    (I := fun q => AccessAt X (q.2.foldl rootsAfter roots)
        (q.2.foldl favoritesAfter favorites) q.1 ∧
      RemovedStay [fun s => s, normalizeFingerprint X] q.2 (q.2.foldl rootsAfter roots)
        (q.2.foldl favoritesAfter favorites))
    ⟨accessAt_start, nofun, fun _ _ _ _ => nofun⟩ ?_
  · obtain ⟨hat, hremoved⟩ := hinv
    exact hat.agrees hremoved hquiet
  · rintro ⟨m, before⟩ e ⟨t, after⟩ ⟨hat, hremoved⟩ hok hst
    obtain ⟨hstep, rfl⟩ := recorded_eq_some.mp hst
    simp only [List.foldl_append, List.foldl_cons, List.foldl_nil]
    refine ⟨hat.step hok hstep, hremoved.step fun action haction key hkey => ?_⟩
    subst haction
    rw [← (hat.favorites.idle hok.1).state]
    rcases List.mem_pair.mp hkey with rfl | rfl
    · exact hok.2.spelled
    · exact hok.2

instance (X : RemoteFsExternals) (s : AccessState) : ∀ e : AccessEvent, Decidable (Alone X s e)
  | .root _ => inferInstanceAs (Decidable (s.roots.running = []))
  | .favorite (.remove fingerprint) => inferInstanceAs (Decidable
      (s.favorites.running = [] ∧
        (favoriteKeys (normalizeFingerprint X) s.favorites.state).count
          (normalizeFingerprint X fingerprint) ≤ 1 ∧
        ∀ favorite ∈ s.favorites.state, normalizeFingerprint X favorite.fingerprint =
          normalizeFingerprint X fingerprint → favorite.fingerprint = fingerprint))
  | .favorite (.add _) | .favorite (.update _) =>
      inferInstanceAs (Decidable (s.favorites.running = [] ∧ True))
  | .advanceRoots i => inferInstanceAs (Decidable
      ((s.roots.running[i]?).any ListUpdate.notifies = true → s.favorites.publishing = none))
  | .advanceFavorites i => inferInstanceAs (Decidable
      ((s.favorites.running[i]?).any ListUpdate.notifies = true → s.roots.publishing = none))
  | .deliver => .isTrue trivial

instance (X : RemoteFsExternals) (q : AccessState × List AccessEvent) (e : AccessEvent) :
    Decidable (AloneSo X q e) := inferInstanceAs (Decidable (Alone X q.1 e))

instance (s : AccessState) : Decidable s.Quiet :=
  decidable_of_iff (s.roots.running = [] ∧ s.favorites.running = [] ∧ s.access.messages = [])
    ⟨fun ⟨hroots, hfavorites, hmessages⟩ => ⟨hroots, hfavorites, hmessages⟩,
      fun h => ⟨h.roots, h.favorites, h.messages⟩⟩

namespace Sample

def phoneFavorite : StoredFavorite := .fromValues "1" "F" "10.0.0.2" 53317 "Phone"

def documents : SharedFileRoot := ⟨"docs", "Documents", .localPath, "/home/documents", false⟩

/-- A favourite action runs alone. -/
def alone (action : FavoriteAction) : List AccessEvent :=
  [.favorite action, .advanceFavorites 0, .advanceFavorites 0, .advanceFavorites 0,
    .advanceFavorites 0, .deliver]

/-- A directory is shared while a favourite is added, and the favourite is
removed again. -/
def sharedMeanwhile : List AccessEvent :=
  [.favorite (.add phoneFavorite), .root (.add documents), .advanceFavorites 0, .advanceRoots 0,
    .advanceFavorites 0, .advanceFavorites 0, .advanceRoots 0, .advanceFavorites 0,
    .advanceRoots 0, .advanceRoots 0, .deliver, .deliver] ++ alone (.remove "F")

end Sample

/-- A directory is shared, and a favourite is trusted no longer. -/
theorem access_updated_meanwhile : ∃ q : AccessState × List AccessEvent,
    q.1.access.installed = ⟨[], [toRemoteFsGrant Sample.documents]⟩ ∧
      AccessAgrees Sample.remoteFsExternals [] [] q.2 q.1 := by
  obtain ⟨q, hq, hcheck⟩ := exists_of_exec_any (accessRun Sample.remoteFsExternals)
    (.start Sample.remoteFsExternals [] [], []) Sample.sharedMeanwhile
    (fun q => q.1.access.installed = ⟨[], [toRemoteFsGrant Sample.documents]⟩ ∧ q.1.Quiet)
    (by decide)
  obtain ⟨hinstalled, hquiet⟩ := of_decide_eq_true hcheck
  have hrun : Run (accessRun Sample.remoteFsExternals) (AloneSo Sample.remoteFsExternals)
      (.start Sample.remoteFsExternals [] [], []) q := run_of_exec hq (by decide)
  exact ⟨q, hinstalled, access_updated hrun hquiet⟩

/-! ## §7  A removal that is undone -/

namespace Sample

/-- A device of the neighbourhood renames a favourite while its removal is
written to the storage. -/
def renamedMeanwhile : List AccessEvent :=
  [.favorite (.remove "F"), .favorite (.update { phoneFavorite with «alias» := "New name" }),
    .advanceFavorites 0, .advanceFavorites 1, .advanceFavorites 1, .advanceFavorites 1,
    .advanceFavorites 0, .advanceFavorites 0, .advanceFavorites 0, .advanceFavorites 0,
    .deliver, .deliver]

/-- A favourite is added twice, and removed once. -/
def addedTwice : List AccessEvent :=
  alone (.add phoneFavorite) ++ alone (.add { phoneFavorite with id := "2" }) ++ alone (.remove "F")

end Sample

/-- A removal is lost when another action read the list before; and one after
the other, a favourite that was added twice is trusted after its removal. -/
theorem access_update_lost :
    (∃ q, Reach (accessRun Sample.remoteFsExternals)
        (.start Sample.remoteFsExternals [] [Sample.phoneFavorite], []) q ∧ q.1.Quiet ∧
      ¬ AccessAgrees Sample.remoteFsExternals [] [Sample.phoneFavorite] q.2 q.1) ∧
    ∃ q, Reach (accessRun Sample.remoteFsExternals) (.start Sample.remoteFsExternals [] [], []) q ∧
      q.1.Quiet ∧ ¬ AccessAgrees Sample.remoteFsExternals [] [] q.2 q.1 := by
  constructor
  · obtain ⟨q, hq, hcheck⟩ := exists_of_exec_any (accessRun Sample.remoteFsExternals)
      (.start Sample.remoteFsExternals [] [Sample.phoneFavorite], [])
      Sample.renamedMeanwhile (fun q => q.1.Quiet ∧ q.2 = Sample.renamedMeanwhile ∧
        q.1.access.installed.trustedFingerprints = ["F"] ∧ q.1.favorites.state ≠ []) (by decide)
    obtain ⟨hquiet, hevents, -, hstate⟩ := of_decide_eq_true hcheck
    refine ⟨q, reach_of_exec hq, hquiet, fun h => hstate ?_⟩
    rw [h.favorites, hevents]
    decide
  · obtain ⟨q, hq, hcheck⟩ := exists_of_exec_any (accessRun Sample.remoteFsExternals)
      (.start Sample.remoteFsExternals [] [], []) Sample.addedTwice
      (fun q => q.1.Quiet ∧ q.2 = Sample.addedTwice ∧
        q.1.access.installed.trustedFingerprints = ["F"]) (by decide)
    obtain ⟨hquiet, hevents, htrusted⟩ := of_decide_eq_true hcheck
    refine ⟨q, reach_of_exec hq, hquiet, fun h => (h.untrusted "F" "F" ?_).2 ?_⟩
    · rw [hevents]
      decide
    · rw [htrusted]
      exact List.mem_singleton_self _

end FireBoxTransfer
