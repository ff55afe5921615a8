import FireBoxTransfer.Core.IpAddr
import FireBoxTransfer.Framework.Texts

/-!
# The filter of network interfaces

An interface is ignored if a whitelist is given and none of its addresses
matches it, or a blacklist is given and one of them matches that. The matcher
takes a pattern apart at its first `*` and tries every length the wildcard may
have; its meaning is that the pattern's literal characters stand in the
address and each `*` is a text of one character at least without a dot.
-/

namespace FireBoxTransfer

/-! ## §1  The filter -/

theorem lt_length_of_splitOnce {sep : Char} {cs before behind : List Char}
    (h : Texts.splitOnce sep cs = some (before, behind)) : behind.length < cs.length := by
  obtain ⟨rfl, -⟩ := Texts.splitOnce_eq_some.mp h
  rw [List.length_append, List.length_cons]
  omega

/-- Matches the whole address against a pattern. -/
def matchesIpFilter (pattern address : List Char) : Bool :=
  match _hsplit : Texts.splitOnce '*' pattern with
  | none => pattern = address
  | some (before, rest) =>
      match address.dropPrefix? before with
      | none => false
      | some remainder =>
          -- a wildcard is not empty and crosses no dot
          let maxLen := remainder.idxOf '.'
          (List.range' 1 maxLen).any fun len => matchesIpFilter rest (remainder.drop len)
termination_by pattern.length
decreasing_by exact lt_length_of_splitOnce _hsplit

structure InterfaceFilter where
  whitelist : Option (List String)
  blacklist : Option (List String)

def anyAddressMatches (addresses : List IpAddr) (patterns : List String) : Bool :=
  addresses.any fun address => patterns.any fun pattern =>
    matchesIpFilter pattern.toList address.text

/-- An interface with these addresses must not be used. -/
def InterfaceFilter.isIgnored (filter : InterfaceFilter) (addresses : List IpAddr) : Bool :=
  match filter.whitelist with
  | some whitelist =>
      if !anyAddressMatches addresses whitelist then true
      else
        match filter.blacklist with
        | some blacklist => anyAddressMatches addresses blacklist
        | none => false
  | none =>
      match filter.blacklist with
      | some blacklist => anyAddressMatches addresses blacklist
      | none => false

/-! ## §2  What a pattern means -/

/-- Literal characters are equal, a `*` stands for a text that is not empty and
has no dot. -/
inductive GlobMatches : List Char → List Char → Prop where
  | nil : GlobMatches [] []
  | literal {c : Char} {pattern address : List Char} :
      c ≠ '*' → GlobMatches pattern address → GlobMatches (c :: pattern) (c :: address)
  | wildcard {text pattern address : List Char} :
      text ≠ [] → '.' ∉ text → GlobMatches pattern address →
        GlobMatches ('*' :: pattern) (text ++ address)

section Glob

variable {pattern address before : List Char}

theorem globMatches_wildcard : GlobMatches ('*' :: pattern) address ↔
    ∃ text rest, address = text ++ rest ∧ text ≠ [] ∧ '.' ∉ text ∧ GlobMatches pattern rest := by
  constructor
  · intro h
    cases h with
    | literal hc _ => exact absurd rfl hc
    | wildcard hne hdot h => exact ⟨_, _, rfl, hne, hdot, h⟩
  · rintro ⟨text, rest, rfl, hne, hdot, h⟩
    exact .wildcard hne hdot h

theorem globMatches_literals (hbefore : '*' ∉ before) : GlobMatches (before ++ pattern) address ↔
    ∃ rest, address = before ++ rest ∧ GlobMatches pattern rest := by
  induction before generalizing address with
  | nil => simp
  | cons c before ih =>
      have hc : c ≠ '*' := fun h => hbefore (h ▸ List.mem_cons_self)
      have hbefore : '*' ∉ before := fun h => hbefore (List.mem_cons_of_mem _ h)
      constructor
      · intro h
        cases h with
        | literal _ h =>
            obtain ⟨rest, rfl, hrest⟩ := (ih hbefore).mp h
            exact ⟨rest, rfl, hrest⟩
        | wildcard => exact absurd rfl hc
      · rintro ⟨rest, rfl, hrest⟩
        exact .literal hc ((ih hbefore).mpr ⟨rest, rfl, hrest⟩)

/-- A pattern without a wildcard is the address. -/
theorem globMatches_of_no_wildcard (h : '*' ∉ pattern) :
    GlobMatches pattern address ↔ pattern = address := by
  have hliterals : GlobMatches (pattern ++ []) address ↔ _ := globMatches_literals h
  rw [List.append_nil] at hliterals
  rw [hliterals]
  constructor
  · rintro ⟨rest, rfl, hrest⟩
    cases hrest
    exact (List.append_nil _).symm
  · rintro rfl
    exact ⟨[], (List.append_nil _).symm, .nil⟩

end Glob

/-! ## §3  The matcher decides it -/

section Matcher

variable {pattern address : List Char}

theorem matchesIpFilter_literal (h : '*' ∉ pattern) :
    matchesIpFilter pattern address = decide (pattern = address) := by
  rw [matchesIpFilter]
  split
  · rfl
  · rename_i hsplit
    rw [Texts.splitOnce_eq_none.mpr h] at hsplit
    cases hsplit

theorem matchesIpFilter_wildcard {before rest : List Char} (hbefore : '*' ∉ before) :
    matchesIpFilter (before ++ '*' :: rest) address = true ↔
      ∃ remainder, address = before ++ remainder ∧ ∃ len, 0 < len ∧
        len ≤ remainder.idxOf '.' ∧ matchesIpFilter rest (remainder.drop len) = true := by
  have hfirst : Texts.splitOnce '*' (before ++ '*' :: rest) = some (before, rest) :=
    Texts.splitOnce_eq_some.mpr ⟨rfl, hbefore⟩
  rw [matchesIpFilter]
  split
  · rename_i hsplit
    rw [hfirst] at hsplit
    cases hsplit
  · rename_i before' rest' hsplit
    rw [hfirst] at hsplit
    obtain ⟨rfl, rfl⟩ := Prod.mk.inj (Option.some.inj hsplit)
    cases hdrop : address.dropPrefix? before with
    | none =>
        refine iff_of_false nofun ?_
        rintro ⟨remainder, rfl, -⟩
        have hsome := List.dropPrefix?_eq_some_iff (l := before ++ remainder) (p := before)
          (s := remainder) |>.mpr ⟨before, rfl, BEq.rfl⟩
        rw [hdrop] at hsome
        cases hsome
    | some remainder =>
        obtain ⟨before', haddress, hbeq⟩ := List.dropPrefix?_eq_some_iff.mp hdrop
        obtain rfl := beq_iff_eq.mp hbeq
        show (List.range' 1 (remainder.idxOf '.')).any _ = true ↔ _
        rw [List.any_eq_true]
        constructor
        · rintro ⟨len, hlen, hmatch⟩
          have hlen := List.mem_range'_1.mp hlen
          exact ⟨remainder, haddress, len, by omega, by omega, hmatch⟩
        · rintro ⟨remainder', haddress', len, hpos, hle, hmatch⟩
          obtain rfl := List.append_cancel_left (haddress.symm.trans haddress')
          exact ⟨len, List.mem_range'_1.mpr (by omega), hmatch⟩

/-- A text without a dot at the front is as long as the first dot allows. -/
theorem length_le_idxOf {text rest : List Char} (h : '.' ∉ text) :
    text.length ≤ (text ++ rest).idxOf '.' := by
  rw [List.idxOf_append_of_notMem h]
  exact Nat.le_add_right _ _

theorem dot_not_mem_take {remainder : List Char} {len : ℕ} (h : len ≤ remainder.idxOf '.') :
    '.' ∉ remainder.take len := by
  induction remainder generalizing len with
  | nil => simp
  | cons c remainder ih =>
      cases len with
      | zero => simp
      | succ len =>
          have hc : c ≠ '.' := by
            rintro rfl
            rw [List.idxOf_cons_self] at h
            cases h
          rw [List.idxOf_cons_ne _ hc] at h
          rw [List.take_succ_cons]
          exact List.not_mem_cons_of_ne_of_not_mem (Ne.symm hc) (ih (Nat.le_of_succ_le_succ h))

/-- The matcher decides what the pattern means; the induction is on the length
of the pattern, which is cut at its first wildcard. -/
theorem matchesIpFilter_iff : ∀ pattern address : List Char,
    matchesIpFilter pattern address = true ↔ GlobMatches pattern address := by
  intro pattern
  induction hlen : pattern.length using Nat.strong_induction_on generalizing pattern with
  | _ n ih =>
      intro address
      cases hsplit : Texts.splitOnce '*' pattern with
      | none =>
          have hnone := Texts.splitOnce_eq_none.mp hsplit
          rw [matchesIpFilter_literal hnone, decide_eq_true_iff, globMatches_of_no_wildcard hnone]
      | some split =>
          obtain ⟨before, rest⟩ := split
          have hshort := lt_length_of_splitOnce hsplit
          have ih := ih rest.length (hlen ▸ hshort) rest rfl
          obtain ⟨rfl, hbefore⟩ := Texts.splitOnce_eq_some.mp hsplit
          rw [matchesIpFilter_wildcard hbefore, globMatches_literals hbefore]
          refine exists_congr fun remainder => and_congr_right fun _ => ?_
          rw [globMatches_wildcard]
          constructor
          · rintro ⟨len, hpos, hle, hmatch⟩
            have hlong : len ≤ remainder.length := hle.trans List.idxOf_le_length
            refine ⟨remainder.take len, remainder.drop len, (List.take_append_drop _ _).symm, ?_,
              dot_not_mem_take hle, (ih _).mp hmatch⟩
            intro hnil
            have htake := congrArg List.length hnil
            rw [List.length_take, List.length_nil] at htake
            omega
          · rintro ⟨text, behind, rfl, hne, hdot, hmatch⟩
            refine ⟨text.length, List.length_pos_iff.mpr hne, length_le_idxOf hdot, ?_⟩
            rw [List.drop_left]
            exact (ih _).mpr hmatch

end Matcher

/-! ## §4  The filter decides it -/

theorem anyAddressMatches_iff {addresses : List IpAddr} {patterns : List String} :
    anyAddressMatches addresses patterns = true ↔
      ∃ address ∈ addresses, ∃ pattern ∈ patterns, GlobMatches pattern.toList address.text := by
  unfold anyAddressMatches
  rw [List.any_eq_true]
  refine exists_congr fun address => and_congr_right fun _ => ?_
  rw [List.any_eq_true]
  exact exists_congr fun pattern => and_congr_right fun _ => matchesIpFilter_iff _ _

/-- **The filter means what its patterns mean.** -/
theorem isIgnored_iff (filter : InterfaceFilter) (addresses : List IpAddr) :
    filter.isIgnored addresses = true ↔
      (∃ whitelist, filter.whitelist = some whitelist ∧
        ¬ ∃ address ∈ addresses, ∃ pattern ∈ whitelist,
          GlobMatches pattern.toList address.text) ∨
      (∃ blacklist, filter.blacklist = some blacklist ∧
        ∃ address ∈ addresses, ∃ pattern ∈ blacklist,
          GlobMatches pattern.toList address.text) := by
  simp only [← anyAddressMatches_iff]
  obtain ⟨whitelist, blacklist⟩ := filter
  unfold InterfaceFilter.isIgnored
  cases whitelist with
  | none =>
      cases blacklist with
      | none => simp
      | some blacklist => simp
  | some whitelist =>
      cases blacklist with
      | none => simp
      | some blacklist =>
          cases anyAddressMatches addresses whitelist with
          | true => simp
          | false => simp

end FireBoxTransfer
