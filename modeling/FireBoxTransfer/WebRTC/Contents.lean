import FireBoxTransfer.Framework.Texts
import FireBoxTransfer.WebRTC.ReceiveLoop

/-!
# The contents of the files

What the receiver forwards for a file is the content that the sender has read for it, as
far as it has come, and never more than the declared size. That much holds for every peer;
the rest for a sender that follows the protocol.
-/

namespace FireBoxTransfer.WebRTC

open Json Runs

/-! ## §1  What was forwarded -/

/-- What was put into `binary_tx` of the file at a place. -/
def contentOf (forwarded : List (ℕ × Bytes)) (index : ℕ) : Bytes :=
  ((forwarded.filter fun entry => entry.1 = index).map Prod.snd).flatten

theorem contentOf_concat (forwarded : List (ℕ × Bytes)) (index i : ℕ) (chunk : Bytes) :
    contentOf (forwarded ++ [(index, chunk)]) i =
      contentOf forwarded i ++ if index = i then chunk else [] := by
  unfold contentOf
  rw [List.filter_append, List.map_append, List.flatten_append]
  congr 1
  by_cases hindex : index = i
  · simp [hindex]
  · simp [hindex]

theorem contentOf_eq_nil {forwarded : List (ℕ × Bytes)} {index : ℕ}
    (h : ∀ entry ∈ forwarded, entry.1 < index) : contentOf forwarded index = [] := by
  have hnone : (forwarded.filter fun entry => entry.1 = index) = [] := by
    rw [List.filter_eq_nil_iff]
    intro entry hentry
    rw [decide_eq_true_eq]
    exact Nat.ne_of_lt (h entry hentry)
  rw [contentOf, hnone]
  rfl

namespace Receiver

variable {X : Selection} {r r' : Receiver} {chunks : List Bytes} {rest passed : List RTCFile}

abbrev content (r : Receiver) (index : ℕ) : Bytes := contentOf r.forwarded index

/-! ## §2  For every peer -/

/-- Nothing is forwarded beyond the declared sizes. -/
structure Bounded (X : Selection) (r : Receiver) : Prop where
  within : ∀ entry ∈ r.forwarded, entry.1 < r.handed.length
  size : ∀ index id, r.handed[index]? = some id →
    ∃ file, X.fileList.find? (·.id = id) = some file ∧ (r.content index).length ≤ file.size
  received : ∀ state ∈ r.fileState, (r.content state.index).length = state.received ∧
    ∃ file, r.handed[state.index]? = some state.fileId ∧
      X.fileList.find? (·.id = state.fileId) = some file ∧ file.size = state.size

theorem Bounded.init (X : Selection) (incoming : List DataChannelMessage) :
    (init incoming).Bounded X := ⟨nofun, nofun, nofun⟩

/-- Without a chunk or a file that is opened. -/
theorem Bounded.of_same (hbounded : r.Bounded X) (hforwarded : r'.forwarded = r.forwarded)
    (hhanded : r'.handed = r.handed)
    (hstate : r'.fileState = none ∨ r'.fileState = r.fileState) : r'.Bounded X := by
  refine ⟨?_, ?_, fun state hopen => ?_⟩
  · rw [hforwarded, hhanded]
    exact hbounded.within
  · unfold content
    rw [hforwarded, hhanded]
    exact hbounded.size
  · rcases hstate with hnone | hsame
    · rw [hnone] at hopen
      cases hopen
    · rw [hsame] at hopen
      unfold content
      rw [hforwarded, hhanded]
      exact hbounded.received state hopen

theorem Bounded.receiveHeader {msg : DataChannelMessage} (hbounded : r.Bounded X) :
    (r.receiveHeader X msg).Bounded X := by
  unfold Receiver.receiveHeader
  split
  · exact hbounded.of_same rfl rfl (.inr rfl)
  · rename_i header _
    split
    · split_ifs
      · exact hbounded.of_same rfl rfl (.inr rfl)
      · split
        · rename_i file hfile
          have hnew : contentOf r.forwarded r.handed.length = [] :=
            contentOf_eq_nil hbounded.within
          refine ⟨fun entry hentry => ?_, fun index id hid => ?_, ?_⟩
          · show entry.1 < (r.handed ++ [header.id]).length
            rw [List.length_append]
            exact Nat.lt_succ_of_lt (hbounded.within entry hentry)
          · have hid' : (r.handed ++ [header.id])[index]? = some id := hid
            by_cases hlt : index < r.handed.length
            · rw [List.getElem?_append_left hlt] at hid'
              exact hbounded.size index id hid'
            · rw [List.getElem?_append_right (Nat.le_of_not_lt hlt),
                List.getElem?_singleton] at hid'
              split_ifs at hid' with hzero
              obtain rfl : index = r.handed.length := by omega
              cases hid'
              refine ⟨file, hfile, ?_⟩
              show (contentOf r.forwarded r.handed.length).length ≤ file.size
              rw [hnew]
              exact Nat.zero_le _
          · rintro _ ⟨⟩
            refine ⟨?_, file, List.getElem?_concat_length, hfile, rfl⟩
            show (contentOf r.forwarded r.handed.length).length = 0
            rw [hnew]
            rfl
        · exact hbounded.of_same rfl rfl (.inr rfl)
    · exact hbounded.of_same rfl rfl (.inr rfl)

theorem Bounded.receiveBinary {msg : DataChannelMessage} (hbounded : r.Bounded X) :
    (r.receiveBinary msg).Bounded X := by
  unfold Receiver.receiveBinary
  split
  · rename_i state hstate
    simp only
    split_ifs with hover halive
    · exact hbounded.of_same rfl rfl (.inl rfl)
    · obtain ⟨hreceived, file, hhanded, hfile, hsize⟩ := hbounded.received state hstate
      have hmore : (contentOf (r.forwarded ++ [(state.index, msg.data)]) state.index).length =
          state.received + msg.data.length := by
        rw [contentOf_concat, if_pos rfl, List.length_append, hreceived]
      refine ⟨fun entry hentry => ?_, fun index id hid => ?_, ?_⟩
      · rcases List.mem_append.mp hentry with hentry | hentry
        · exact hbounded.within entry hentry
        · rw [List.mem_singleton.mp hentry]
          exact (List.getElem?_eq_some_iff.mp hhanded).1
      · by_cases hindex : state.index = index
        · subst hindex
          have hid' : r.handed[state.index]? = some id := hid
          obtain rfl : state.fileId = id := Option.some.inj (hhanded.symm.trans hid')
          refine ⟨file, hfile, ?_⟩
          show (contentOf (r.forwarded ++ [(state.index, msg.data)]) state.index).length ≤ file.size
          rw [hmore, hsize]
          exact Nat.le_of_not_lt hover
        · obtain ⟨file', hfile', hle⟩ := hbounded.size index id hid
          refine ⟨file', hfile', ?_⟩
          show (contentOf (r.forwarded ++ [(state.index, msg.data)]) index).length ≤ file'.size
          rw [contentOf_concat, if_neg hindex, List.append_nil]
          exact hle
      · rintro _ ⟨⟩
        exact ⟨hmore, file, hhanded, hfile, hsize⟩
    · exact hbounded.of_same rfl rfl (.inr rfl)
  · exact hbounded.of_same rfl rfl (.inr rfl)

theorem Bounded.loop (hbounded : r.Bounded X) (hloop : r.loop X = some r') : r'.Bounded X := by
  unfold Receiver.loop at hloop
  split at hloop
  · split at hloop
    · rename_i msg incoming hincoming
      cases hloop
      have hrest : Bounded X { r with incoming := incoming } := hbounded.of_same rfl rfl (.inr rfl)
      unfold receiveMessage
      split_ifs
      · split
        · exact hbounded.of_same rfl rfl (.inl rfl)
        · exact hrest.receiveHeader
      · exact hrest.receiveBinary
    · cases hloop
  · have hrespond (r₀ : Receiver) (hbounded₀ : r₀.Bounded X) (index : ℕ) (lastFileId : String)
        (msg : DataChannelMessage) (error : Option String) :
        (r₀.respond X index lastFileId msg error).Bounded X := by
      unfold respond
      simp only
      split_ifs
      · exact hbounded₀.of_same rfl rfl (.inr rfl)
      · exact Bounded.receiveHeader (hbounded₀.of_same rfl rfl (.inr rfl))
      · exact hbounded₀.of_same rfl rfl (.inr rfl)
    split at hloop
    · cases hloop
      refine hrespond _ ?_ _ _ _ _
      exact hbounded.of_same rfl rfl (.inr rfl)
    · split_ifs at hloop
      cases hloop
      exact hrespond r hbounded _ _ _ _
  · cases hloop
  · cases hloop

theorem Bounded.step {l : Label} (hbounded : r.Bounded X) (hstep : r.step X l = some r') :
    r'.Bounded X := by
  cases l with
  | loop => exact hbounded.loop hstep
  | report index result =>
      obtain ⟨-, hstep⟩ := Option.ite_none_right_eq_some.mp hstep
      cases hstep
      exact hbounded.of_same rfl rfl (.inr rfl)
  | dropReceiver =>
      obtain ⟨state, hstate, rfl⟩ := Option.map_eq_some_iff.mp hstep
      refine ⟨hbounded.within, hbounded.size, ?_⟩
      rintro _ ⟨⟩
      exact hbounded.received state hstate
  | close | hangUp =>
      cases hstep
      exact hbounded.of_same rfl rfl (.inr rfl)

/-! ## §3  The files that were passed -/

/-- The files that are known to the receiver: these it hands to the application. -/
def known (X : Selection) (files : List RTCFile) : List RTCFile :=
  files.filter fun f => (X.declared f).isSome

theorem known_accepted (X : Selection) (messages : List RTCFile) :
    known X (messages.filter X.accepted) = known X messages := by
  unfold known
  rw [List.filter_filter]
  refine List.filter_congr fun f _ => ?_
  unfold Selection.accepted Selection.declared
  cases X.fileTokens.get? f.fileId <;> simp

/-- What holds of the files that were handed to the application. -/
structure Kept (X : Selection) (r : Receiver) (passed : List RTCFile) : Prop where
  handed : r.handed = passed.map RTCFile.fileId
  within : ∀ entry ∈ r.forwarded, entry.1 < passed.length
  start : ∀ index f, passed[index]? = some f → r.content index <+: f.binary.flatten
  complete : ∀ index f, passed[index]? = some f → X.fits f = true →
    (∀ state ∈ r.fileState, state.index ≠ index) → r.content index = f.binary.flatten
  awaited : ∀ index lastFileId msg, r.place = .awaiting index lastFileId msg →
    ∃ f, passed[index]? = some f ∧ X.fits f = true ∧ lastFileId = f.fileId
  answered : ∀ index response, (index, response) ∈ r.responses →
    ∃ f, passed[index]? = some f ∧ X.fits f = true ∧ response.id = f.fileId

/-- The file that is open, with its chunks to come. -/
structure Opened (X : Selection) (r : Receiver) (passed : List RTCFile) (chunks : List Bytes)
    (state : RTCFileState) (f : RTCFile) : Prop where
  file : passed[state.index]? = some f
  fileId : state.fileId = f.fileId
  declared : X.declared f = some state.size
  content : r.content state.index ++ chunks.flatten = f.binary.flatten
  received : (r.content state.index).length = state.received

/-- Where a receiver is among the files. -/
inductive Transfers (X : Selection) (files : List RTCFile) (r : Receiver) : Prop
  | going (passed : List RTCFile) {chunks : List Bytes} {rest : List RTCFile}
      (hat : r.At X chunks rest) (hfiles : files = passed ++ known X rest)
      (hkept : Kept X r passed)
      (hopened : ∀ state ∈ r.fileState, ∃ f, Opened X r passed chunks state f)
  | ended {passed : List RTCFile} (hfiles : passed <+: files) (hkept : Kept X r passed)
      (place : (r.place = .finished ∧ passed = files) ∨ ∃ error, r.place = .failed error)

theorem Transfers.init (X : Selection) (messages : List RTCFile) :
    Transfers X (known X messages) (init (X.sendFiles messages)) := by
  refine .going [] (At.init X messages) ?_ ⟨rfl, nofun, nofun, nofun, nofun, nofun⟩ nofun
  rw [known_accepted]
  rfl

/-- Without a chunk, a file that is opened or a response. -/
theorem Kept.of_same (hkept : Kept X r passed) (hforwarded : r'.forwarded = r.forwarded)
    (hhanded : r'.handed = r.handed) (hresponses : r'.responses = r.responses)
    (hcomplete : ∀ index f, passed[index]? = some f → X.fits f = true →
      (∀ state ∈ r'.fileState, state.index ≠ index) → r.content index = f.binary.flatten)
    (hplace : ∀ index lastFileId msg, r'.place = .awaiting index lastFileId msg →
      ∃ f, passed[index]? = some f ∧ X.fits f = true ∧ lastFileId = f.fileId) :
    Kept X r' passed where
  handed := hhanded.trans hkept.handed
  within := by
    rw [hforwarded]
    exact hkept.within
  start := by
    unfold content
    rw [hforwarded]
    exact hkept.start
  complete := by
    unfold content
    rw [hforwarded]
    exact hcomplete
  awaited := hplace
  answered := by
    rw [hresponses]
    exact hkept.answered

/-- A file that fits fits its declared size. -/
theorem fits_iff {f : RTCFile} {size : ℕ} (hdeclared : X.declared f = some size) :
    X.fits f = true ↔ f.binary.flatten.length ≤ size := by
  rw [Selection.fits, hdeclared, Option.any_some, decide_eq_true_eq]

/-! ## §4  A header -/

theorem Kept.headed {files : List RTCFile} (hkept : Kept X r passed) (hstate : r.fileState = none)
    (haccepted : ∀ f ∈ rest, X.accepted f = true) (hfiles : files = passed ++ known X rest)
    (hheaded : Headed X r rest r') : Transfers X files r' := by
  have hcomplete (index : ℕ) (f : RTCFile) (hf : passed[index]? = some f)
      (hfits : X.fits f = true) : r.content index = f.binary.flatten := by
    refine hkept.complete index f hf hfits ?_
    rw [hstate]
    exact nofun
  cases rest with
  | nil =>
      cases hheaded with
      | unparsable =>
          have hprefix : passed <+: files := by
            rw [hfiles]
            exact List.prefix_append _ _
          refine .ended hprefix (hkept.of_same rfl rfl rfl ?_ nofun) (.inr ⟨_, rfl⟩)
          exact fun index f hf hfits _ => hcomplete index f hf hfits
  | cons f rest =>
      obtain ⟨hat, hplace, -, -⟩ := hheaded.next haccepted hstate
      have hwaiting (index : ℕ) (lastFileId : String) (msg : DataChannelMessage) :
          r'.place ≠ .awaiting index lastFileId msg := by
        rw [hplace]
        exact nofun
      cases hheaded with
      | unsized hdeclared =>
          refine .going passed hat ?_ (hkept.of_same rfl rfl rfl ?_ ?_) ?_
          · rw [hfiles, known, known, List.filter_cons_of_neg (by rw [hdeclared]; exact nofun)]
          · exact fun index g hg hfits _ => hcomplete index g hg hfits
          · exact fun index lastFileId msg hawaiting =>
              absurd hawaiting (hwaiting index lastFileId msg)
          · rw [error, hstate]
            exact nofun
      | @opened _ _ size hdeclared hincoming =>
          have hnew : contentOf r.forwarded r.handed.length = [] := by
            refine contentOf_eq_nil fun entry hentry => ?_
            rw [hkept.handed, List.length_map]
            exact hkept.within entry hentry
          have hlength : r.handed.length = passed.length := by
            rw [hkept.handed, List.length_map]
          have hcases {index : ℕ} {g : RTCFile} (hg : (passed ++ [f])[index]? = some g) :
              passed[index]? = some g ∨ (index = passed.length ∧ g = f) := by
            by_cases hlt : index < passed.length
            · rw [List.getElem?_append_left hlt] at hg
              exact .inl hg
            · rw [List.getElem?_append_right (Nat.le_of_not_lt hlt),
                List.getElem?_singleton] at hg
              split_ifs at hg with hzero
              exact .inr ⟨by omega, (Option.some.inj hg).symm⟩
          have hmono {index : ℕ} {g : RTCFile} (hg : passed[index]? = some g) :
              (passed ++ [f])[index]? = some g := by
            rw [List.getElem?_append_left (List.getElem?_eq_some_iff.mp hg).1, hg]
          refine .going (passed ++ [f]) hat ?_ ⟨?_, ?_, ?_, ?_, ?_, ?_⟩ ?_
          · rw [hfiles, known, known, List.filter_cons_of_pos (by rw [hdeclared]; rfl),
              List.append_assoc, List.singleton_append]
          · show r.handed ++ [f.fileId] = (passed ++ [f]).map RTCFile.fileId
            rw [hkept.handed, List.map_append]
            rfl
          · intro entry hentry
            rw [List.length_append]
            exact Nat.lt_succ_of_lt (hkept.within entry hentry)
          · intro index g hg
            rcases hcases hg with hg | ⟨rfl, rfl⟩
            · exact hkept.start index g hg
            · show contentOf r.forwarded passed.length <+: g.binary.flatten
              rw [← hlength, hnew]
              exact List.nil_prefix
          · intro index g hg hfits hclosed
            rcases hcases hg with hg | ⟨rfl, rfl⟩
            · exact hcomplete index g hg hfits
            · exact absurd hlength (hclosed _ rfl)
          · exact fun index lastFileId msg hawaiting =>
              absurd hawaiting (hwaiting index lastFileId msg)
          · intro index response hmem
            obtain ⟨g, hg, hfits, hid⟩ := hkept.answered index response hmem
            exact ⟨g, hmono hg, hfits, hid⟩
          · rintro _ ⟨⟩
            refine ⟨f, ?_, rfl, hdeclared, ?_, ?_⟩
            · show (passed ++ [f])[r.handed.length]? = some f
              rw [hlength]
              exact List.getElem?_concat_length
            · show contentOf r.forwarded r.handed.length ++ _ = _
              rw [hnew, List.nil_append, flatten_processInChunks]
            · show (contentOf r.forwarded r.handed.length).length = 0
              rw [hnew]
              rfl

/-! ## §5  Every step -/

/-- With no file open every file that fits is complete. -/
theorem Kept.whole (hkept : Kept X r passed) (hstate : r.fileState = none) :
    ∀ index f, passed[index]? = some f → X.fits f = true →
      r.content index = f.binary.flatten := by
  intro index f hf hfits
  refine hkept.complete index f hf hfits ?_
  rw [hstate]
  exact nofun

/-- A chunk that is forwarded. -/
theorem Kept.forward {chunk : Bytes} {state : RTCFileState} {f : RTCFile}
    (hkept : Kept X r passed) (incoming : List DataChannelMessage) (hplace : r.place = .receiving)
    (hstate : r.fileState = some state) (hopened : Opened X r passed (chunk :: chunks) state f) :
    Kept X { r with
        incoming := incoming
        fileState := some { state with received := state.received + chunk.length }
        forwarded := r.forwarded ++ [(state.index, chunk)] } passed ∧
      Opened X { r with
        incoming := incoming
        fileState := some { state with received := state.received + chunk.length }
        forwarded := r.forwarded ++ [(state.index, chunk)] } passed chunks
        { state with received := state.received + chunk.length } f := by
  have hcontent : contentOf (r.forwarded ++ [(state.index, chunk)]) state.index =
      r.content state.index ++ chunk := by rw [contentOf_concat, if_pos rfl]
  have hother {index : ℕ} (hindex : state.index ≠ index) :
      contentOf (r.forwarded ++ [(state.index, chunk)]) index = r.content index := by
    rw [contentOf_concat, if_neg hindex, List.append_nil]
  have hwhole : r.content state.index ++ chunk ++ chunks.flatten = f.binary.flatten := by
    rw [List.append_assoc, ← List.flatten_cons, hopened.content]
  constructor
  · refine ⟨hkept.handed, fun entry hentry => ?_, fun index g hg => ?_,
      fun index g hg hfits hclosed => ?_, fun index lastFileId msg hawaiting => ?_, hkept.answered⟩
    · rcases List.mem_append.mp hentry with hentry | hentry
      · exact hkept.within entry hentry
      · rw [List.mem_singleton.mp hentry]
        exact (List.getElem?_eq_some_iff.mp hopened.file).1
    · by_cases hindex : state.index = index
      · subst hindex
        obtain rfl : f = g := Option.some.inj (hopened.file.symm.trans hg)
        show contentOf (r.forwarded ++ [(state.index, chunk)]) state.index <+: f.binary.flatten
        rw [hcontent, ← hwhole]
        exact List.prefix_append _ _
      · show contentOf (r.forwarded ++ [(state.index, chunk)]) index <+: g.binary.flatten
        rw [hother hindex]
        exact hkept.start index g hg
    · have hindex : state.index ≠ index :=
        hclosed { state with received := state.received + chunk.length } rfl
      show contentOf (r.forwarded ++ [(state.index, chunk)]) index = g.binary.flatten
      rw [hother hindex]
      refine hkept.complete index g hg hfits ?_
      rw [hstate]
      rintro _ ⟨⟩
      exact hindex
    · have hawaiting' : r.place = .awaiting index lastFileId msg := hawaiting
      rw [hplace] at hawaiting'
      cases hawaiting'
  · refine ⟨hopened.file, hopened.fileId, hopened.declared, ?_, ?_⟩
    · show contentOf (r.forwarded ++ [(state.index, chunk)]) state.index ++ _ = _
      rw [hcontent, hwhole]
    · show (contentOf (r.forwarded ++ [(state.index, chunk)]) state.index).length = _
      rw [hcontent, List.length_append, hopened.received]

/-- A response for the file that has just ended. -/
theorem Kept.respond {index : ℕ} {lastFileId : String} {msg : DataChannelMessage}
    {error : Option String} {r₀ : Receiver} (hkept : Kept X r passed)
    (hplace : r.place = .awaiting index lastFileId msg) (htaken : Taken r error r₀) :
    Kept X { r₀ with responses := r.responses ++ [(index, fileResponse lastFileId error)] }
      passed := by
  rw [htaken.eq_results]
  refine ⟨hkept.handed, hkept.within, hkept.start, hkept.complete, hkept.awaited, ?_⟩
  intro i response hmem
  rcases List.mem_append.mp hmem with hmem | hmem
  · exact hkept.answered i response hmem
  · cases List.mem_singleton.mp hmem
    exact hkept.awaited index lastFileId msg hplace

theorem Transfers.loop_going {files : List RTCFile} (hat : r.At X chunks rest)
    (hfiles : files = passed ++ known X rest) (hkept : Kept X r passed)
    (hopened : ∀ state ∈ r.fileState, ∃ f, Opened X r passed chunks state f)
    (hcase : LoopCase X r chunks rest r') : Transfers X files r' := by
  cases hcase with
  | @unheadered chunk chunks rest incoming hplace hstate hincoming =>
      have hidle (fileId text : String) :
          ({ r with incoming := incoming }.error fileId text).fileState = none := hstate
      refine .going passed (hat.chunk hplace hincoming rfl rfl ?_) hfiles
        (hkept.of_same rfl rfl rfl ?_ nofun) ?_
      · rw [hidle]
        exact nofun
      · exact fun index f hf hfits _ => hkept.whole hstate index f hf hfits
      · rw [hidle]
        exact nofun
  | @exceeded chunk chunks rest incoming state hplace hstate hincoming hsize =>
      refine .going passed (hat.chunk hplace hincoming rfl rfl nofun) hfiles
        (hkept.of_same rfl rfl rfl ?_ nofun) nofun
      intro index f hf hfits _
      refine hkept.complete index f hf hfits ?_
      rw [hstate]
      rintro _ ⟨⟩ rfl
      -- the file that is given up does not fit
      obtain ⟨g, hg⟩ := hopened state hstate
      obtain rfl : g = f := Option.some.inj (hg.file.symm.trans hf)
      have hlong := (fits_iff hg.declared).mp hfits
      rw [← hg.content, List.flatten_cons, List.length_append, List.length_append,
        hg.received] at hlong
      omega
  | @forwarded chunk chunks rest incoming state hplace hstate hincoming hsize halive =>
      obtain ⟨f, hf⟩ := hopened state hstate
      obtain ⟨hkept', hopened'⟩ := hkept.forward incoming hplace hstate hf
      refine .going passed (hat.chunk hplace hincoming hplace rfl ?_) hfiles hkept' ?_
      · rintro _ ⟨⟩
        exact hsize
      · rintro _ ⟨⟩
        exact ⟨f, hopened'⟩
  | @dropped chunk chunks rest incoming state hplace hstate hincoming hsize halive =>
      have hprefix : passed <+: files := by
        rw [hfiles]
        exact List.prefix_append _ _
      exact .ended hprefix (hkept.of_same rfl rfl rfl hkept.complete nofun) (.inr ⟨_, rfl⟩)
  | @ended rest incoming msg state hplace hstate hincoming =>
      obtain ⟨f, hf⟩ := hopened state hstate
      have hcontent : r.content state.index = f.binary.flatten := by
        rw [← hf.content, List.flatten_nil, List.append_nil]
      have hfits : X.fits f = true := by
        rw [fits_iff hf.declared, ← hcontent, hf.received]
        exact hat.within hplace state hstate
      have hawaiting : ∃ index lastFileId msg', Place.awaiting state.index state.fileId msg =
          .awaiting index lastFileId msg' := ⟨_, _, _, rfl⟩
      refine .going passed ⟨hat.accepted, hat.incoming_eq hplace hincoming,
        .inr ⟨hawaiting, rfl, rfl⟩⟩ hfiles (hkept.of_same rfl rfl rfl ?_ ?_) nofun
      · intro index g hg hfits' _
        by_cases hindex : state.index = index
        · subst hindex
          obtain rfl : f = g := Option.some.inj (hf.file.symm.trans hg)
          exact hcontent
        · refine hkept.complete index g hg hfits' ?_
          rw [hstate]
          rintro _ ⟨⟩
          exact hindex
      · rintro _ _ _ ⟨⟩
        exact ⟨f, hf.file, hfits, hf.fileId⟩
  | @header rest incoming msg r' hplace hstate hincoming hheaded =>
      have hkept' : Kept X { r with incoming := incoming } passed :=
        ⟨hkept.handed, hkept.within, hkept.start, hkept.complete, hkept.awaited, hkept.answered⟩
      exact hkept'.headed hstate hat.accepted hfiles hheaded
  | @last index lastFileId msg error r₀ hplace htaken hincoming =>
      have hkept' := hkept.respond hplace htaken
      have hall : passed = files := by rw [hfiles, known, List.filter_nil, List.append_nil]
      exact .ended (hall ▸ List.prefix_refl _) (hkept'.of_same rfl rfl rfl hkept'.complete nofun)
        (.inl ⟨rfl, hall⟩)
  | @refused rest index lastFileId msg error r₀ hplace htaken hshut =>
      have hprefix : passed <+: files := by
        rw [hfiles]
        exact List.prefix_append _ _
      have hkept₀ : Kept X { r₀ with place := .failed .notOpened } passed := by
        rw [htaken.eq_results]
        exact hkept.of_same rfl rfl rfl hkept.complete nofun
      exact .ended hprefix hkept₀ (.inr ⟨_, rfl⟩)
  | @next f rest index lastFileId msg error r₀ r' hplace htaken hheaded =>
      have hstate : r₀.fileState = none := by
        rw [htaken.eq_results]
        exact hat.idle hplace
      exact (hkept.respond hplace htaken).headed hstate hat.accepted hfiles hheaded

theorem Transfers.step {files : List RTCFile} {l : Label} (htransfers : Transfers X files r)
    (hstep : r.step X l = some r') : Transfers X files r' := by
  cases l with
  | loop =>
      cases htransfers with
      | going passed hat hfiles hkept hopened =>
          exact Transfers.loop_going hat hfiles hkept hopened (loop_cases hat hstep)
      | ended hfiles hkept hplace =>
          simp only [Receiver.step, Receiver.loop] at hstep
          rcases hplace with ⟨hplace, -⟩ | ⟨error, hplace⟩
          all_goals
            rw [hplace] at hstep
            cases hstep
  | report index result =>
      obtain ⟨-, hstep⟩ := Option.ite_none_right_eq_some.mp hstep
      cases hstep
      cases htransfers with
      | going passed hat hfiles hkept hopened =>
          refine .going passed ⟨hat.accepted, hat.pending, hat.place⟩ hfiles
            (hkept.of_same rfl rfl rfl hkept.complete hkept.awaited) fun state hstate => ?_
          obtain ⟨f, hf⟩ := hopened state hstate
          exact ⟨f, hf.file, hf.fileId, hf.declared, hf.content, hf.received⟩
      | ended hfiles hkept hplace =>
          exact .ended hfiles (hkept.of_same rfl rfl rfl hkept.complete hkept.awaited) hplace
  | close | hangUp =>
      cases hstep
      cases htransfers with
      | going passed hat hfiles hkept hopened =>
          refine .going passed ⟨hat.accepted, hat.pending, hat.place⟩ hfiles
            (hkept.of_same rfl rfl rfl hkept.complete hkept.awaited) fun state hstate => ?_
          obtain ⟨f, hf⟩ := hopened state hstate
          exact ⟨f, hf.file, hf.fileId, hf.declared, hf.content, hf.received⟩
      | ended hfiles hkept hplace =>
          exact .ended hfiles (hkept.of_same rfl rfl rfl hkept.complete hkept.awaited) hplace
  | dropReceiver =>
      obtain ⟨state, hstate, rfl⟩ := Option.map_eq_some_iff.mp hstep
      have hcomplete {passed : List RTCFile} (hkept : Kept X r passed) :
          ∀ index f, passed[index]? = some f → X.fits f = true →
            (∀ state' ∈ some { state with receiverAlive := false }, state'.index ≠ index) →
              r.content index = f.binary.flatten := by
        intro index f hf hfits hclosed
        refine hkept.complete index f hf hfits ?_
        rw [hstate]
        rintro _ ⟨⟩
        exact hclosed { state with receiverAlive := false } rfl
      cases htransfers with
      | going passed hat hfiles hkept hopened =>
          refine .going passed (hat.dropped hstate) hfiles
            (hkept.of_same rfl rfl rfl (hcomplete hkept) hkept.awaited) ?_
          rintro _ ⟨⟩
          obtain ⟨f, hf⟩ := hopened state hstate
          exact ⟨f, hf.file, hf.fileId, hf.declared, hf.content, hf.received⟩
      | ended hfiles hkept hplace =>
          exact .ended hfiles (hkept.of_same rfl rfl rfl (hcomplete hkept) hkept.awaited) hplace

/-! ## §6  Strings -/

/-- `receive_string_from_chunks`: the bytes up to the next text message, and what is
behind it. -/
def receiveStringFromChunks (buffer : Bytes) :
    List DataChannelMessage → Bytes × List DataChannelMessage
  | msg :: rx =>
      if msg.isString then (buffer, rx) else receiveStringFromChunks (buffer ++ msg.data) rx
  | [] => (buffer, [])

theorem receiveStringFromChunks_append (buffer : Bytes) (chunks : List Bytes)
    (rest : List DataChannelMessage) :
    receiveStringFromChunks buffer (chunks.map sendBinary ++ delimiter :: rest) =
      (buffer ++ chunks.flatten, rest) := by
  induction chunks generalizing buffer with
  | nil =>
      rw [List.flatten_nil, List.append_nil]
      rfl
  | cons chunk chunks ih =>
      rw [List.flatten_cons, ← List.append_assoc]
      exact ih (buffer ++ chunk)

/-! ## §7  Every transfer -/

/-- The application gets the files that are known to the receiver, in order, and their
contents. -/
structure Faithful (X : Selection) (messages : List RTCFile) (r : Receiver) : Prop where
  handed : r.handed <+: (known X messages).map RTCFile.fileId
  within : ∀ entry ∈ r.forwarded, entry.1 < r.handed.length
  start : ∀ index < r.handed.length, ∀ f, (known X messages)[index]? = some f →
    r.content index <+: f.binary.flatten
  complete : ∀ index < r.handed.length, ∀ f, (known X messages)[index]? = some f →
    X.fits f = true → (∀ state ∈ r.fileState, state.index ≠ index) →
      r.content index = f.binary.flatten
  all : r.place = .finished → r.handed = (known X messages).map RTCFile.fileId

theorem Kept.faithful {messages : List RTCFile} (hkept : Kept X r passed)
    (hfiles : passed <+: known X messages)
    (hall : r.place = .finished → passed = known X messages) : Faithful X messages r := by
  have hlength : r.handed.length = passed.length := by rw [hkept.handed, List.length_map]
  have hpassed {index : ℕ} {f : RTCFile} (hlt : index < r.handed.length)
      (hf : (known X messages)[index]? = some f) : passed[index]? = some f := by
    obtain ⟨later, hlater⟩ := hfiles
    rw [← hlater, List.getElem?_append_left (hlength ▸ hlt)] at hf
    exact hf
  refine ⟨?_, fun entry hentry => ?_, fun index hlt f hf => ?_, fun index hlt f hf => ?_,
    fun hplace => ?_⟩
  · rw [hkept.handed]
    exact hfiles.map _
  · rw [hlength]
    exact hkept.within entry hentry
  · exact hkept.start index f (hpassed hlt hf)
  · exact hkept.complete index f (hpassed hlt hf)
  · rw [hkept.handed, hall hplace]

theorem Transfers.faithful {messages : List RTCFile}
    (htransfers : Transfers X (known X messages) r) : Faithful X messages r := by
  cases htransfers with
  | going passed hat hfiles hkept =>
      refine hkept.faithful ?_ fun hplace => ?_
      · rw [hfiles]
        exact List.prefix_append _ _
      · obtain ⟨hreceiving, -⟩ | ⟨⟨index, lastFileId, msg, hawaiting⟩, -⟩ := hat.place
        · rw [hplace] at hreceiving
          cases hreceiving
        · rw [hplace] at hawaiting
          cases hawaiting
  | ended hfiles hkept hplace =>
      refine hkept.faithful hfiles fun hfinished => ?_
      rcases hplace with ⟨-, hall⟩ | ⟨error, hfailed⟩
      · exact hall
      · rw [hfinished] at hfailed
        cases hfailed

theorem transfers_of_reach {messages : List RTCFile}
    (hrun : Reach (step X) (init (X.sendFiles messages)) r) :
    Transfers X (known X messages) r :=
  hrun.invariant (Transfers.init X messages) fun _ _ _ htransfers _ hstep =>
    htransfers.step hstep

/-- **Contents arrive as they were read**: the application gets the content of every file
that is not longer than declared, and a beginning of it until then; whoever sends, it never
gets more than declared; and a string that is sent in chunks, however they are cut, is
received as it was. -/
theorem contents_faithful (X : Selection) :
    (∀ messages r, Reach (step X) (init (X.sendFiles messages)) r → Faithful X messages r) ∧
      (∀ incoming r, Reach (step X) (init incoming) r → r.Bounded X) ∧
      (∀ (string : String) (rest : List DataChannelMessage),
        receiveStringFromChunks [] (stringInChunks (Texts.utf8 string) ++ rest) =
          (Texts.utf8 string, rest)) ∧
      ∀ (string : String) (chunks : List Bytes) (rest : List DataChannelMessage),
        chunks.flatten = Texts.utf8 string →
          receiveStringFromChunks [] (chunks.map sendBinary ++ delimiter :: rest) =
            (Texts.utf8 string, rest) := by
  refine ⟨fun messages r hrun => (transfers_of_reach hrun).faithful, fun incoming r hrun => ?_,
    fun string rest => ?_, fun string chunks rest hchunks => ?_⟩
  · exact hrun.invariant (Bounded.init X incoming) fun _ _ _ hbounded _ hstep =>
      hbounded.step hstep
  · rw [stringInChunks, List.append_assoc, List.singleton_append, receiveStringFromChunks_append,
      flatten_processInChunks, List.flatten_singleton, List.nil_append]
  · rw [receiveStringFromChunks_append, hchunks, List.nil_append]

end Receiver

end FireBoxTransfer.WebRTC
