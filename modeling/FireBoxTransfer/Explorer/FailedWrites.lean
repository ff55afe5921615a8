import FireBoxTransfer.Core.Save
import FireBoxTransfer.Explorer.LocalClient
import FireBoxTransfer.Explorer.NetworkFiles
import FireBoxTransfer.RemoteFs.Firebox

/-!
# What a failed write leaves

A write opens its target first and learns later that the content broke off, that it has
another size or that the disk is full. What was opened by then was created or truncated.
The client of Android's shared folders takes a document back that it created; the local
client and the server leave what was written, and so does the client of a remote device,
which asks the server.
-/

namespace FireBoxTransfer

open Firebox Runs

/-! ## §1  Targets -/

/-- A target of a write: what it held before, and the file once it is open. -/
structure WriteTarget where
  before : Option Bytes
  file : Option OpenFile

namespace WriteTarget

def now (t : WriteTarget) : Option Bytes :=
  match t.file with
  | none => t.before
  | some file => some file.content

/-- What is open was emptied first, and has got the beginning of `content`. -/
def Holds (t : WriteTarget) (content : Bytes) : Prop :=
  ∀ file, t.file = some file → file.old = [] ∧ file.accepted <+: content

end WriteTarget

/-! ## §2  Writes to the server -/

inductive WriteProvider where
  | localPath | androidSaf
deriving DecidableEq

/-- `PUT` of content. -/
structure RemoteWrite where
  provider : WriteProvider
  path : String
  size : ℕ
  overwrite : Bool
  body : List Frame
  before : Option Bytes

namespace RemoteWrite

/-- What the isolate answers about a target; a document of Android is created, or opened
and truncated, before it is answered. -/
def prepare (r : RemoteWrite) : RemoteFsResult SaveRequest :=
  if r.before.isSome && !r.overwrite then .error .alreadyExists
  else
    .ok
      { target := match r.provider with
          | .localPath => .path r.path
          | .androidSaf => .fd
        fileSize := r.size
        expectedSha256 := none
        body := r.body
        initial := match r.provider with
          | .localPath => r.before
          | .androidSaf => some [] }

/-- The target while the content is saved. -/
def target (r : RemoteWrite) (s : SaveState) : WriteTarget where
  before := r.before
  file := match r.provider with
    | .localPath => s.file
    | .androidSaf => some (s.file.getD ⟨[], [], []⟩)

end RemoteWrite

/-- The answer is an error, or the request was dropped. -/
def SaveState.Refused (s : SaveState) : Prop :=
  s.handler = .dropped ∨ ∃ result, s.handler = .done result ∧ result ≠ .success

section Server

variable {toHex : Bytes → String} {r : SaveRequest} {s t : SaveState} {acts : List UploadSaveAct}

/-- The handler does not touch the file. -/
theorem handlerStep_file (hstep : handlerStep toHex r s = some t) :
    t.writer = s.writer ∧ t.file = s.file := by
  unfold handlerStep at hstep
  split at hstep
  case h_1 | h_3 | h_4 =>
    obtain rfl := Option.some.inj hstep
    exact ⟨rfl, rfl⟩
  case h_2 | h_5 =>
    split_ifs at hstep
    · obtain rfl := Option.some.inj hstep
      exact ⟨rfl, rfl⟩
    · obtain rfl := Option.some.inj hstep
      exact ⟨rfl, rfl⟩
  case h_6 =>
    split at hstep
    · obtain rfl := Option.some.inj hstep
      exact ⟨rfl, rfl⟩
    · cases hstep
  all_goals cases hstep

theorem dropStep_file (hstep : uploadSaveStep toHex r s .drop = some t) :
    t.writer = s.writer ∧ t.file = s.file := by
  simp only [uploadSaveStep] at hstep
  split at hstep
  · cases hstep
  · cases hstep
  · obtain rfl := Option.some.inj hstep
    exact ⟨rfl, rfl⟩

theorem map_eq_none_iff {f : OpenFile → OpenFile} : s.file.map f = none ↔ s.file = none :=
  Option.map_eq_none_iff

end Server

/-! What the disk has taken of the body. -/

section Content

variable {toHex : Bytes → String} {r : SaveRequest} {s t : SaveState} {acts : List UploadSaveAct}

/-- What the handler has still to forward. -/
def SaveHandler.left : SaveHandler → Bytes
  | .forwarding rest => bodyBytes rest
  | .sending bytes rest => bytes ++ bodyBytes rest
  | .awaiting _ | .done _ | .dropped => []

/-- What the file was given. -/
def SaveState.given (s : SaveState) : Bytes := (s.file.map OpenFile.accepted).getD []

/-- The file was emptied first; what it was given, and what comes to it, is the beginning of
the body. -/
structure FollowsBody (r : SaveRequest) (s : SaveState) : Prop where
  opening : s.writer = .opening → s.file = none
  receiving : s.writer = .receiving → s.file ≠ none
  emptied : ∀ file, s.file = some file → file.old = []
  given : s.given <+: bodyBytes r.body
  coming : s.rxClosed = false →
    s.given ++ (s.queue.flatten ++ s.handler.left) <+: bodyBytes r.body

theorem FollowsBody.init : FollowsBody r r.init where
  opening _ := rfl
  receiving := nofun
  emptied := nofun
  given := List.nil_prefix
  coming _ := List.prefix_refl _

/-- The handler hands on what it has, or drops it. -/
theorem FollowsBody.handed (h : FollowsBody r s) (hwriter : t.writer = s.writer)
    (hfile : t.file = s.file)
    (hless : t.queue.flatten ++ t.handler.left <+: s.queue.flatten ++ s.handler.left) :
    FollowsBody r t := by
  have hgiven : t.given = s.given := by rw [SaveState.given, hfile, SaveState.given]
  have hclosed : t.rxClosed = s.rxClosed := by
    rw [SaveState.rxClosed, hwriter, SaveState.rxClosed]
  refine ⟨fun hpc => hfile.trans (h.opening (hwriter ▸ hpc)),
    fun hpc => hfile ▸ h.receiving (hwriter ▸ hpc),
    fun file hopen => h.emptied file (hfile ▸ hopen), hgiven ▸ h.given, fun hopen => ?_⟩
  rw [hclosed] at hopen
  rw [hgiven]
  exact ((List.prefix_append_right_inj _).mpr hless).trans (h.coming hopen)

theorem handlerStep_less (hstep : handlerStep toHex r s = some t) :
    t.queue.flatten ++ t.handler.left <+: s.queue.flatten ++ s.handler.left := by
  unfold handlerStep at hstep
  split at hstep
  case h_1 hpc | h_4 hpc =>
    obtain rfl := Option.some.inj hstep
    exact (List.prefix_append_right_inj _).mpr List.nil_prefix
  case h_2 bytes rest hpc =>
    rw [hpc]
    split_ifs at hstep with hempty
    · obtain rfl := Option.some.inj hstep
      rw [hempty]
      exact List.prefix_refl _
    · obtain rfl := Option.some.inj hstep
      exact List.prefix_refl _
  case h_3 hpc =>
    rw [hpc]
    obtain rfl := Option.some.inj hstep
    exact List.prefix_refl _
  case h_5 bytes rest hpc =>
    rw [hpc]
    split_ifs at hstep
    · obtain rfl := Option.some.inj hstep
      exact (List.prefix_append_right_inj _).mpr List.nil_prefix
    · obtain rfl := Option.some.inj hstep
      rw [List.flatten_append, List.flatten_singleton, List.append_assoc]
      exact List.prefix_refl _
  case h_6 hpc =>
    split at hstep
    · obtain rfl := Option.some.inj hstep
      exact (List.prefix_append_right_inj _).mpr List.nil_prefix
    · cases hstep
  all_goals cases hstep

theorem dropStep_less (hstep : uploadSaveStep toHex r s .drop = some t) :
    t.queue.flatten ++ t.handler.left <+: s.queue.flatten ++ s.handler.left := by
  simp only [uploadSaveStep] at hstep
  split at hstep
  · cases hstep
  · cases hstep
  · obtain rfl := Option.some.inj hstep
    exact (List.prefix_append_right_inj _).mpr List.nil_prefix

/-- A writer that has got past the opening. -/
theorem FollowsBody.written (hopening : t.writer ≠ .opening)
    (hreceiving : t.writer = .receiving → t.file ≠ none)
    (hemptied : ∀ file, t.file = some file → file.old = [])
    (hcoming : t.given ++ (t.queue.flatten ++ t.handler.left) <+: bodyBytes r.body) :
    FollowsBody r t :=
  ⟨fun hpc => absurd hpc hopening, hreceiving, hemptied,
    (List.prefix_append _ _).trans hcoming, fun _ => hcoming⟩

theorem FollowsBody.openTarget (hold : r.oldContent = []) (h : FollowsBody r s)
    (hpc : s.writer = .opening) (io : Io) : FollowsBody r (openTarget r s io) := by
  have hfile := h.opening hpc
  have hcoming := h.coming (by rw [SaveState.rxClosed, hpc])
  rw [SaveState.given, hfile] at hcoming
  have hopen :
      FollowsBody r { s with writer := .receiving, file := some ⟨r.oldContent, [], []⟩ } := by
    refine .written (fun heq => by cases heq) (fun _ heq => by cases heq) ?_ hcoming
    rintro _ ⟨⟩
    exact hold
  unfold FireBoxTransfer.openTarget
  cases htarget : r.target with
  | fd =>
      rw [SaveRequest.oldContent, htarget] at hopen
      cases io <;> exact hopen
  | path path =>
      rw [SaveRequest.oldContent, htarget] at hopen
      cases io with
      | ok n => exact hopen
      | err n e =>
          refine .written (fun heq => by cases heq) (fun heq => by cases heq) h.emptied ?_
          change ((s.file.map OpenFile.accepted).getD []) ++ _ <+: _
          rw [hfile]
          exact hcoming

/-- What a call of the writer adds to the file. -/
theorem given_map {f : OpenFile → OpenFile} {bytes : Bytes} (hfile : s.file ≠ none)
    (hf : ∀ file, (f file).accepted = file.accepted ++ bytes) :
    ((s.file.map f).map OpenFile.accepted).getD [] = s.given ++ bytes := by
  obtain ⟨file, hfile⟩ := Option.ne_none_iff_exists'.mp hfile
  rw [SaveState.given, hfile]
  exact hf file

theorem emptied_map {f : OpenFile → OpenFile} (hf : ∀ file, (f file).old = file.old)
    (hemptied : ∀ file, s.file = some file → file.old = []) :
    ∀ file, s.file.map f = some file → file.old = [] := by
  intro file hfile
  obtain ⟨before, hbefore, rfl⟩ := Option.map_eq_some_iff.mp hfile
  exact (hf before).trans (hemptied before hbefore)

theorem FollowsBody.writerStep {io : Io} (hold : r.oldContent = []) (h : FollowsBody r s)
    (hstep : writerStep r s io = some t) : FollowsBody r t := by
  unfold FireBoxTransfer.writerStep at hstep
  split at hstep
  case h_1 hpc =>
    obtain rfl := Option.some.inj hstep
    exact h.openTarget hold hpc io
  case h_2 hpc =>
    have hcoming := h.coming (by rw [SaveState.rxClosed, hpc])
    have hopen := h.receiving hpc
    have hmapped : ∀ f : OpenFile → OpenFile, s.file.map f ≠ none := fun f hnone =>
      hopen (Option.map_eq_none_iff.mp hnone)
    split at hstep
    · rename_i chunk queue hqueue
      rw [hqueue, List.flatten_cons, List.append_assoc, ← List.append_assoc] at hcoming
      have hwrite (n : ℕ) : ((s.file.map (·.write chunk n)).map OpenFile.accepted).getD [] =
          s.given ++ chunk :=
        given_map hopen fun file => OpenFile.accepted_write file chunk n
      simp only at hstep
      split_ifs at hstep
      · obtain rfl := Option.some.inj hstep
        exact ⟨nofun, nofun, h.emptied, h.given, nofun⟩
      · obtain rfl := Option.some.inj hstep
        cases io with
        | ok n =>
            refine .written (fun hopening => ?_) (fun _ => hmapped _)
              (emptied_map (fun _ => rfl) h.emptied) ?_
            · rw [writeChunk, hpc] at hopening
              cases hopening
            · change ((s.file.map (·.write chunk n)).map OpenFile.accepted).getD [] ++ _ <+: _
              rw [hwrite n]
              exact hcoming
        | err n e =>
            refine .written nofun nofun (emptied_map (fun _ => rfl) h.emptied) ?_
            change ((s.file.map (·.write chunk n)).map OpenFile.accepted).getD [] ++ _ <+: _
            rw [hwrite n]
            exact hcoming
    · split_ifs at hstep
      obtain rfl := Option.some.inj hstep
      have hflush : ((s.file.map OpenFile.flush).map OpenFile.accepted).getD [] =
          s.given ++ [] :=
        given_map hopen fun file => by rw [OpenFile.accepted_flush, List.append_nil]
      cases io with
      | ok n =>
          have hflushed : ((s.file.map OpenFile.flush).map OpenFile.accepted).getD [] ++
              (s.queue.flatten ++ s.handler.left) <+: bodyBytes r.body := by
            rw [hflush, List.append_nil]
            exact hcoming
          unfold flushFile
          simp only
          split_ifs
          · exact .written nofun nofun (emptied_map (fun _ => rfl) h.emptied) hflushed
          · exact .written nofun nofun (emptied_map (fun _ => rfl) h.emptied) hflushed
      | err n e =>
          refine .written nofun nofun (emptied_map (fun _ => rfl) h.emptied) ?_
          change ((s.file.map (·.write [] n)).map OpenFile.accepted).getD [] ++ _ <+: _
          rw [given_map hopen fun file => OpenFile.accepted_write file [] n, List.append_nil]
          exact hcoming
  case h_3 hpc =>
    have hcoming := h.coming (by rw [SaveState.rxClosed, hpc])
    split at hstep
    · obtain rfl := Option.some.inj hstep
      refine .written nofun nofun ?_ ?_
      · intro file hfile
        obtain ⟨before, -, rfl⟩ := Option.map_eq_some_iff.mp hfile
        rfl
      · change ((s.file.map OpenFile.truncate).map OpenFile.accepted).getD [] ++ _ <+: _
        rw [Option.map_map]
        exact hcoming
    · obtain rfl := Option.some.inj hstep
      exact .written nofun nofun h.emptied hcoming
  case h_4 => cases hstep

theorem FollowsBody.step {a : UploadSaveAct} (hold : r.oldContent = []) (h : FollowsBody r s)
    (hstep : uploadSaveStep toHex r s a = some t) : FollowsBody r t := by
  cases a with
  | handler =>
      obtain ⟨hwriter, hfile⟩ := handlerStep_file hstep
      exact h.handed hwriter hfile (handlerStep_less hstep)
  | writer io => exact h.writerStep hold hstep
  | drop =>
      obtain ⟨hwriter, hfile⟩ := dropStep_file hstep
      exact h.handed hwriter hfile (dropStep_less hstep)

end Content

namespace RemoteWrite

/-- A second try finds what the first one left. -/
def retry (r : RemoteWrite) (s : SaveState) : RemoteWrite :=
  { r with before := (r.target s).now, overwrite := false }

section Refused

variable {toHex : Bytes → String} {r : RemoteWrite} {prepared : SaveRequest}
  {acts : List UploadSaveAct} {s : SaveState}

end Refused

end RemoteWrite

/-! ## §3  Writes of the local client -/

/-- A disk, seen at one path, and the calls that it has answered. -/
structure DiskAt where
  target : WriteTarget
  calls : List (IoOp × Bool)

/-- What a call hands to the file at a path. -/
def IoOp.hands (path : String) : IoOp → Bytes
  | .addStream p bytes => if p = path then bytes else []
  | _ => []

namespace DiskAt

/-- The target was opened, and so it was truncated. -/
def Opened (path : String) (d : DiskAt) : Prop := (.openWrite path, true) ∈ d.calls

/-- What the content has brought. -/
def handed (path : String) (d : DiskAt) : Bytes := d.calls.flatMap fun call => call.1.hands path

end DiskAt

/-- What a call does to the target; what a failed write takes is up to the disk. -/
def targetAfter (path : String) : (op : IoOp) → Except ExplorerFailure (IoOp.Answer op) →
    WriteTarget → WriteTarget → Prop
  | .openWrite p, .ok _, t, t' =>
      t' = if p = path then { t with file := some ⟨[], [], []⟩ } else t
  | .addStream p bytes, .ok _, t, t' =>
      if p = path then ∃ n, t' = { t with file := t.file.map (·.write bytes n) } else t' = t
  | .addStream p bytes, .error _, t, t' =>
      if p = path then ∃ chunk n, chunk <+: bytes ∧
        t' = { t with file := t.file.map (·.write chunk n) }
      else t' = t
  | .close p, .ok _, t, t' =>
      t' = if p = path then { t with file := t.file.map OpenFile.flush } else t
  | .close p, .error _, t, t' =>
      if p = path then ∃ n, t' = { t with file := t.file.map (·.write [] n) } else t' = t
  | .length p, .ok n, t, t' => (p = path → t.now.map List.length = some n) ∧ t' = t
  | _, _, t, t' => t' = t

def diskAt (path : String) : Program.Spec Unit ExplorerFailure IoOp IoOp.Answer DiskAt where
  mayRead _ := True
  reads d _ d' := d' = d
  mayCall _ _ := True
  answers op d a d' :=
    targetAfter path op a d.target d'.target ∧ d'.calls = d.calls ++ [(op, a.isOk)]

/-- The calls that only look. -/
def IoOp.Looks : IoOp → Prop
  | .type _ | .directoryExists _ | .resolveSymbolicLinks _ | .list _ | .stat _ | .length _
  | .openRead _ => True
  | _ => False

section Local

variable {X : ExplorerExternals} {root : ExplorerRoot} {path : String} {before : Option Bytes}
  {d d' : DiskAt}

/-- The target is open if and only if it was opened, and has got the beginning of what the
content has brought. -/
structure FollowsContent (path : String) (before : Option Bytes) (d : DiskAt) : Prop where
  before : d.target.before = before
  opened : d.target.file = none ↔ ¬ d.Opened path
  holds : d.target.Holds (d.handed path)

/-- Nothing has been brought yet. -/
structure BeforeContent (path : String) (before : Option Bytes) (d : DiskAt) : Prop
    extends FollowsContent path before d where
  nothing : d.handed path = []

theorem handed_append {op : IoOp} {ok : Bool} (hcalls : d'.calls = d.calls ++ [(op, ok)]) :
    d'.handed path = d.handed path ++ op.hands path := by
  rw [DiskAt.handed, hcalls, List.flatMap_append]
  simp [DiskAt.handed]

theorem opened_append {op : IoOp} {ok : Bool} (hcalls : d'.calls = d.calls ++ [(op, ok)])
    (hop : (op, ok) ≠ (.openWrite path, true)) : d'.Opened path ↔ d.Opened path := by
  rw [DiskAt.Opened, hcalls, List.mem_append, List.mem_singleton]
  exact or_iff_left fun h => hop h.symm

/-- A call that does nothing to the target. -/
theorem FollowsContent.of_same {op : IoOp} {ok : Bool} (h : FollowsContent path before d)
    (htarget : d'.target = d.target) (hcalls : d'.calls = d.calls ++ [(op, ok)])
    (hop : (op, ok) ≠ (.openWrite path, true)) : FollowsContent path before d' where
  before := htarget ▸ h.before
  opened := by rw [htarget, opened_append hcalls hop, h.opened]
  holds file hfile := by
    rw [htarget] at hfile
    rw [handed_append hcalls]
    exact (h.holds file hfile).imp_right fun hprefix => hprefix.trans (List.prefix_append _ _)

theorem BeforeContent.of_same {op : IoOp} {ok : Bool} (h : BeforeContent path before d)
    (htarget : d'.target = d.target) (hcalls : d'.calls = d.calls ++ [(op, ok)])
    (hop : (op, ok) ≠ (.openWrite path, true)) (hhands : op.hands path = []) :
    BeforeContent path before d' where
  toFollowsContent := h.toFollowsContent.of_same htarget hcalls hop
  nothing := by rw [handed_append hcalls, h.nothing, hhands, List.nil_append]

/-- A target that is opened is emptied. -/
theorem BeforeContent.openWrite {p : String} (h : BeforeContent path before d) :
    Program.wp (diskAt path) (Program.await (IoOp.openWrite p) : LocalM Unit)
      (fun _ => BeforeContent path before) (fun _ => FollowsContent path before) d := by
  refine Program.wp_await (S := diskAt path) trivial (fun _ d' hans => ?_) fun e d' hans => ?_
  · obtain ⟨htarget, hcalls⟩ := hans
    by_cases hp : p = path
    · subst hp
      have htarget' : d'.target = { d.target with file := some ⟨[], [], []⟩ } := by
        rw [htarget]
        exact if_pos rfl
      have hopened : d'.Opened p := by
        rw [DiskAt.Opened, hcalls]
        exact List.mem_append_right _ (List.mem_singleton_self _)
      refine ⟨⟨?_, ?_, ?_⟩, ?_⟩
      · rw [htarget']
        exact h.before
      · rw [htarget']
        exact iff_of_false nofun (not_not.mpr hopened)
      · rw [htarget']
        rintro _ ⟨⟩
        exact ⟨rfl, List.nil_prefix⟩
      · rw [handed_append hcalls, h.nothing]
        rfl
    · have hsame : d'.target = d.target := htarget.trans (if_neg hp)
      refine h.of_same hsame hcalls (fun heq => hp ?_) rfl
      exact IoOp.openWrite.inj (Prod.mk.inj heq).1
  · exact (h.of_same hans.1 hans.2 (fun heq => (by cases heq)) rfl).toFollowsContent

theorem hands_addStream (bytes : Bytes) : (IoOp.addStream path bytes).hands path = bytes :=
  if_pos rfl

/-- The content is handed to the target, or a beginning of it. -/
theorem BeforeContent.written {bytes chunk : Bytes} {n : ℕ} {ok : Bool}
    (h : BeforeContent path before d) (hchunk : chunk <+: bytes)
    (htarget : d'.target = { d.target with file := d.target.file.map (·.write chunk n) })
    (hcalls : d'.calls = d.calls ++ [(IoOp.addStream path bytes, ok)]) :
    FollowsContent path before d' := by
  have hop : (IoOp.addStream path bytes, ok) ≠ (.openWrite path, true) := fun heq => by cases heq
  refine ⟨?_, ?_, ?_⟩
  · rw [htarget]
    exact h.before
  · rw [htarget, opened_append hcalls hop, ← h.opened]
    exact Option.map_eq_none_iff
  · intro file hfile
    rw [htarget] at hfile
    obtain ⟨opened, hopened, rfl⟩ := Option.map_eq_some_iff.mp hfile
    obtain ⟨hold, hprefix⟩ := h.holds opened hopened
    rw [h.nothing, List.prefix_nil] at hprefix
    refine ⟨hold, ?_⟩
    rw [OpenFile.accepted_write, hprefix, handed_append hcalls, h.nothing, hands_addStream]
    exact hchunk

theorem BeforeContent.addStream {p : String} {bytes : Bytes} (h : BeforeContent path before d) :
    Program.wp (diskAt path) (Program.await (IoOp.addStream p bytes) : LocalM Unit)
      (fun _ => FollowsContent path before) (fun _ => FollowsContent path before) d := by
  have hother {ok : Bool} {d' : DiskAt} (hp : p ≠ path) (htarget : d'.target = d.target)
      (hcalls : d'.calls = d.calls ++ [(.addStream p bytes, ok)]) : FollowsContent path before d' :=
    h.toFollowsContent.of_same htarget hcalls fun heq => (by cases heq)
  refine Program.wp_await (S := diskAt path) trivial (fun _ d' hans => ?_) fun e d' hans => ?_
  · obtain ⟨htarget, hcalls⟩ := hans
    unfold targetAfter at htarget
    simp only at htarget
    split_ifs at htarget with hp
    · subst hp
      obtain ⟨n, htarget⟩ := htarget
      exact h.written (List.prefix_refl _) htarget hcalls
    · exact hother hp htarget hcalls
  · obtain ⟨htarget, hcalls⟩ := hans
    unfold targetAfter at htarget
    simp only at htarget
    split_ifs at htarget with hp
    · subst hp
      obtain ⟨chunk, n, hchunk, htarget⟩ := htarget
      exact h.written hchunk htarget hcalls
    · exact hother hp htarget hcalls

/-- What is in the buffer reaches the disk, or a part of it. -/
theorem FollowsContent.flushed {f : OpenFile → OpenFile} {p : String} {ok : Bool}
    (h : FollowsContent path before d) (hold : ∀ file, (f file).old = file.old)
    (haccepted : ∀ file, (f file).accepted = file.accepted)
    (htarget : d'.target = { d.target with file := d.target.file.map f })
    (hcalls : d'.calls = d.calls ++ [(IoOp.close p, ok)]) : FollowsContent path before d' := by
  refine ⟨?_, ?_, ?_⟩
  · rw [htarget]
    exact h.before
  · rw [htarget, opened_append hcalls fun heq => (by cases heq), ← h.opened]
    exact Option.map_eq_none_iff
  · intro file hfile
    rw [htarget] at hfile
    obtain ⟨opened, hopened, rfl⟩ := Option.map_eq_some_iff.mp hfile
    rw [hold, haccepted, handed_append hcalls]
    exact (h.holds opened hopened).imp_right fun hprefix =>
      hprefix.trans (List.prefix_append _ _)

theorem FollowsContent.close {p : String} (h : FollowsContent path before d) :
    Program.wp (diskAt path) (Program.await (IoOp.close p) : LocalM Unit)
      (fun _ => FollowsContent path before) (fun _ => FollowsContent path before) d := by
  refine Program.wp_await (S := diskAt path) trivial (fun _ d' hans => ?_) fun e d' hans => ?_
  · obtain ⟨htarget, hcalls⟩ := hans
    by_cases hp : p = path
    · exact h.flushed (f := OpenFile.flush) (fun _ => rfl) OpenFile.accepted_flush
        (htarget.trans (if_pos hp)) hcalls
    · exact h.of_same (htarget.trans (if_neg hp)) hcalls fun heq => (by cases heq)
  · obtain ⟨htarget, hcalls⟩ := hans
    unfold targetAfter at htarget
    simp only at htarget
    split_ifs at htarget with hp
    · obtain ⟨n, htarget⟩ := htarget
      refine h.flushed (f := (·.write [] n)) (fun _ => rfl) (fun file => ?_) htarget hcalls
      rw [OpenFile.accepted_write, List.append_nil]
    · exact h.of_same htarget hcalls fun heq => (by cases heq)

end Local

/-! ## §4  Writes to a shared folder of Android -/

/-- The calls to Android and to the writer of the client of shared folders. -/
inductive SafClientOp where
  | resolve (path : String)
  | createSharedFile (parentUri name : String)
  /-- The content is streamed to the document, and the bytes are counted. -/
  | writeStream (uri : String) (expectedSize : ℕ)
  | delete (uri : String)

@[reducible] def SafClientOp.Answer : SafClientOp → Type
  | .resolve _ | .createSharedFile _ _ => String
  | .writeStream _ _ => ℕ
  | .delete _ => Unit

abbrev SafClientM : Type → Type := Program Unit ExplorerFailure SafClientOp SafClientOp.Answer

namespace AndroidSafClient

def failWith {α : Type} (code message : String) : SafClientM α :=
  .throw (.exception (explorerError code message))

def check (c : Bool) (code message : String) : SafClientM Unit :=
  if c then pure () else failWith code message

def validName (name : String) : Bool :=
  !(name = "" || name = "." || name = ".." || contains name '/' || contains name '\\' ||
    contains name (Char.ofNat 0))

/-- The document is created first, and deleted if the stream fails. -/
def writeFile (root : ExplorerRoot) (destinationPath fileName : String)
    (lengthBytes : Option ℕ) : SafClientM Unit := do
  check root.capabilities.write "permission_denied"
    "La operación no está permitida en esta ubicación."
  check (validName fileName) "invalid_name" "El nombre no es válido."
  match lengthBytes with
  | none => failWith "missing_size" "Se necesita el tamaño para escribir por streaming."
  | some length => do
      let parent ← Program.await (SafClientOp.resolve destinationPath)
      let created ← Program.await (SafClientOp.createSharedFile parent fileName)
      Program.catching (do
        let written ← Program.await (SafClientOp.writeStream created length)
        check (written = length) "length_mismatch"
          "Android escribió una cantidad de bytes inesperada.") fun e => do
        Program.catching (Program.await (SafClientOp.delete created)) fun _ => pure ()
        .throw e

end AndroidSafClient

/-- A shared folder, seen at one name. A document that is created while there is one of that
name gets another name. -/
structure SharedFolder where
  before : Option Bytes
  created : Option OpenFile
  deletionFailed : Bool

def SharedFolder.now (d : SharedFolder) : Option Bytes :=
  match d.before with
  | some bytes => some bytes
  | none => d.created.map OpenFile.content

section Shared

variable {root : ExplorerRoot} {destinationPath fileName : String} {lengthBytes : Option ℕ}

/-- After a failed write a document is left only if Android refused to delete it. -/
structure SharedFolder.Failed (before : Option Bytes) (d : SharedFolder) : Prop where
  before : d.before = before
  deleted : d.created = none ↔ d.deletionFailed = false

end Shared

/-! ## §5  Writes to a remote device -/

/-- A remote device, seen at one location: the write that it was asked for, and what has
become of it at the server. -/
structure RemoteTarget where
  provider : WriteProvider
  before : Option Bytes
  asked : Option RemoteWrite
  acts : List UploadSaveAct

namespace RemoteTarget

/-- What the server has come to, unless it has refused the write. -/
def saved (toHex : Bytes → String) (d : RemoteTarget) (r : RemoteWrite) : Option SaveState :=
  match r.prepare with
  | .ok prepared => exec (uploadSaveStep toHex prepared) prepared.init d.acts
  | .error _ => none

def now (toHex : Bytes → String) (d : RemoteTarget) : Option Bytes :=
  match d.asked with
  | none => d.before
  | some r =>
      match d.saved toHex r with
      | some s => (r.target s).now
      | none => d.before

end RemoteTarget

/-- The calls that do not overwrite. -/
def NetworkOp.Keeps : NetworkOp → Prop
  | .remoteFsWrite _ overwrite _ => overwrite = false
  | _ => True

section Remote

variable {location : RemoteFsLocation} {provider : WriteProvider} {before : Option Bytes}
  {d : RemoteTarget} {toHex : Bytes → String}

/-- Whatever was asked for may not overwrite. -/
structure RemoteTarget.Spares (provider : WriteProvider) (before : Option Bytes)
    (d : RemoteTarget) : Prop where
  before_eq : d.before = before
  provider_eq : d.provider = provider
  asked : ∀ r, d.asked = some r →
    r.provider = provider ∧ r.before = before ∧ r.overwrite = false

end Remote

/-! ## §6  A write that breaks off -/

namespace Sample

end Sample

end FireBoxTransfer
