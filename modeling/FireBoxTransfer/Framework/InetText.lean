import Mathlib.Algebra.GroupWithZero.Nat
import Mathlib.Data.List.Basic
import Mathlib.Data.List.TakeWhile
import Mathlib.Data.Nat.Notation

/-!
# Texts of IP addresses

How the standard library of the program prints and parses IP addresses. An
IPv6 address is the list of its eight segments. The longest run of zero
segments is printed as `::`, the last two segments of a mapped address as an
IPv4 address. The parser reads groups up to `::` and then the groups behind it.
-/

namespace InetText

/-! ## §1  Digits -/

/-- `to_digit`, for a radix of at most sixteen. -/
def toDigit (radix : ℕ) (c : Char) : Option ℕ :=
  let d :=
    if '0' ≤ c && c ≤ '9' then c.toNat - '0'.toNat
    else if 'a' ≤ c && c ≤ 'f' then c.toNat - 'a'.toNat + 10
    else if 'A' ≤ c && c ≤ 'F' then c.toNat - 'A'.toNat + 10
    else radix
  if d < radix then some d else none

def isDigit (radix : ℕ) (c : Char) : Bool := (toDigit radix c).isSome

/-- The number that the digits stand for. -/
def value (radix : ℕ) (digits : List Char) : ℕ :=
  digits.foldl (fun n c => n * radix + (toDigit radix c).getD 0) 0

section Digits

variable {radix n : ℕ}

theorem toDigit_digitChar (hradix : radix ≤ 16) (hn : n < radix) :
    toDigit radix n.digitChar = some n := by
  have hall : ∀ r : Fin 17, ∀ d : Fin 16, d.val < r.val →
      toDigit r.val d.val.digitChar = some d.val := by decide
  exact hall ⟨radix, by omega⟩ ⟨n, by omega⟩ hn

theorem mem_toDigits_cases (hradix : 1 < radix) {c : Char} (hc : c ∈ Nat.toDigits radix n) :
    ∃ d < radix, c = d.digitChar := by
  induction n using Nat.strong_induction_on with
  | _ n ih =>
      rw [Nat.toDigits_eq_if hradix] at hc
      split at hc
      · rename_i hlt
        exact ⟨n, hlt, List.mem_singleton.mp hc⟩
      · rename_i hge
        rcases List.mem_append.mp hc with hc | hc
        · exact ih (n / radix) (Nat.div_lt_self (by omega) hradix) hc
        · exact ⟨n % radix, Nat.mod_lt _ (by omega), List.mem_singleton.mp hc⟩

theorem isDigit_of_mem_toDigits (hradix : 1 < radix) (hsixteen : radix ≤ 16) {c : Char}
    (hc : c ∈ Nat.toDigits radix n) : isDigit radix c = true := by
  obtain ⟨d, hd, rfl⟩ := mem_toDigits_cases hradix hc
  unfold isDigit
  rw [toDigit_digitChar hsixteen hd]
  rfl

theorem value_append (digits : List Char) (c : Char) :
    value radix (digits ++ [c]) = value radix digits * radix + (toDigit radix c).getD 0 :=
  List.foldl_concat ..

theorem value_toDigits (hradix : 1 < radix) (hsixteen : radix ≤ 16) :
    value radix (Nat.toDigits radix n) = n := by
  induction n using Nat.strong_induction_on with
  | _ n ih =>
      rw [Nat.toDigits_eq_if hradix]
      split
      · rename_i hlt
        have hone : value radix ([] ++ [n.digitChar]) = _ := value_append [] n.digitChar
        rw [toDigit_digitChar hsixteen hlt] at hone
        simpa [value] using hone
      · rename_i hge
        have hmod : n % radix < radix := Nat.mod_lt _ (by omega)
        rw [value_append, ih (n / radix) (Nat.div_lt_self (by omega) hradix),
          toDigit_digitChar hsixteen hmod, Option.getD_some]
        exact Nat.div_add_mod' n radix

end Digits

/-! ## §2  Numbers -/

/-- `read_number`: the digits as far as they go, at most so many, for a number
below the bound. -/
def readNumber (radix maxDigits : ℕ) (allowZeroPrefix : Bool) (bound : ℕ) (cs : List Char) :
    Option (ℕ × List Char) :=
  let digits := cs.takeWhile (isDigit radix)
  if digits.length > maxDigits || digits.isEmpty then none
  else if !allowZeroPrefix && cs.head? = some '0' && 1 < digits.length then none
  else if value radix digits < bound then
    some (value radix digits, cs.dropWhile (isDigit radix))
  else none

/-- `read_separator`: every item but the first is behind a separator. -/
def readSeparator {α : Type} (sep : Char) (index : ℕ) (inner : List Char → Option (α × List Char))
    (cs : List Char) : Option (α × List Char) :=
  if index = 0 then inner cs
  else
    match cs with
    | c :: cs => if c = sep then inner cs else none
    | [] => none

/-- The text does not go on with a digit. -/
def Stops (radix : ℕ) (cs : List Char) : Prop := ∀ c ∈ cs.head?, isDigit radix c = false

section Numbers

variable {radix maxDigits bound n : ℕ} {allowZeroPrefix : Bool} {cs rest : List Char}

theorem readNumber_of_stops (h : Stops radix cs) :
    readNumber radix maxDigits allowZeroPrefix bound cs = none := by
  have hnil : cs.takeWhile (isDigit radix) = [] := by
    cases cs with
    | nil => rfl
    | cons c cs => exact List.takeWhile_cons_of_neg (by simp [h c rfl])
  unfold readNumber
  rw [hnil]
  simp

theorem readNumber_toDigits (hradix : 1 < radix) (hsixteen : radix ≤ 16) (hmax : 0 < maxDigits)
    (hlt : n < radix ^ maxDigits) (hbound : n < bound) (hrest : Stops radix rest) :
    readNumber radix maxDigits true bound (Nat.toDigits radix n ++ rest) = some (n, rest) := by
  have hall : ∀ c ∈ Nat.toDigits radix n, isDigit radix c = true :=
    fun c hc => isDigit_of_mem_toDigits hradix hsixteen hc
  have htake : (Nat.toDigits radix n ++ rest).takeWhile (isDigit radix) = Nat.toDigits radix n := by
    rw [List.takeWhile_append_of_pos hall]
    cases rest with
    | nil => simp
    | cons c rest => simp [hrest c rfl]
  have hdrop : (Nat.toDigits radix n ++ rest).dropWhile (isDigit radix) = rest := by
    rw [List.dropWhile_append_of_pos hall]
    cases rest with
    | nil => rfl
    | cons c rest => exact List.dropWhile_cons_of_neg (by simp [hrest c rfl])
  have hlen := (Nat.length_toDigits_le_iff hradix hmax).mpr hlt
  unfold readNumber
  rw [htake, hdrop]
  dsimp only
  rw [value_toDigits hradix hsixteen, if_neg, if_neg (by simp), if_pos hbound]
  simp [Nat.not_lt.mpr hlen]

end Numbers

/-! ## §3  The parser -/

/-- The octets of an IPv4 address; no octal numbers. -/
def readOctets : ℕ → ℕ → List Char → Option (List ℕ × List Char)
  | _, 0, cs => some ([], cs)
  | i, n + 1, cs =>
      (readSeparator '.' i (readNumber 10 3 false 256) cs).bind fun g =>
        (readOctets (i + 1) n g.2).map fun r => (g.1 :: r.1, r.2)

def readIpv4Addr (cs : List Char) : Option (List ℕ × List Char) := readOctets 0 4 cs

/-- The two segments that four octets make. -/
def segmentsOfOctets : List ℕ → List ℕ
  | [one, two, three, four] => [one * 256 + two, three * 256 + four]
  | _ => []

/-- `read_groups`, from group `i` with `n` groups left: the groups, whether the
last two were an IPv4 address, and the rest. -/
def readGroups : ℕ → ℕ → List Char → List ℕ × Bool × List Char
  | _, 0, cs => ([], false, cs)
  | i, n + 1, cs =>
      -- an embedded IPv4 address takes two groups
      match if 0 < n then readSeparator ':' i readIpv4Addr cs else none with
      | some (octets, rest) => (segmentsOfOctets octets, true, rest)
      | none =>
          match readSeparator ':' i (readNumber 16 4 true 65536) cs with
          | some (group, rest) =>
              let r := readGroups (i + 1) n rest
              (group :: r.1, r.2)
          | none => ([], false, cs)

def readIpv6Addr (cs : List Char) : Option (List ℕ × List Char) :=
  let (head, headIpv4, rest) := readGroups 0 8 cs
  if head.length = 8 then some (head, rest)
  else if headIpv4 then none
  else
    match rest with
    | ':' :: ':' :: rest =>
        -- `::` stands for one group at least
        let (tail, _, rest) := readGroups 0 (8 - (head.length + 1)) rest
        some (head ++ List.replicate (8 - head.length - tail.length) 0 ++ tail, rest)
    | _ => none

/-- `parse` of an IPv6 address. -/
def parseIpv6 (cs : List Char) : Option (List ℕ) :=
  match readIpv6Addr cs with
  | some (segments, []) => some segments
  | _ => none

/-! ## §4  What it consumes -/

def isAddressChar (c : Char) : Bool := isDigit 16 c || c = ':' || c = '.'

/-- What stands before the rest are characters of an address. -/
def Consumes (cs rest : List Char) : Prop :=
  ∃ front, cs = front ++ rest ∧ ∀ c ∈ front, isAddressChar c = true

section Consumes

variable {cs rest rest' : List Char}

theorem Consumes.refl (cs : List Char) : Consumes cs cs := ⟨[], rfl, nofun⟩

theorem Consumes.trans (h : Consumes cs rest) (h' : Consumes rest rest') : Consumes cs rest' := by
  obtain ⟨front, rfl, hfront⟩ := h
  obtain ⟨front', rfl, hfront'⟩ := h'
  refine ⟨front ++ front', (List.append_assoc ..).symm, fun c hc => ?_⟩
  exact (List.mem_append.mp hc).elim (hfront c) (hfront' c)

theorem Consumes.cons {c : Char} (hc : isAddressChar c = true) (h : Consumes cs rest) :
    Consumes (c :: cs) rest := by
  obtain ⟨front, rfl, hfront⟩ := h
  exact ⟨c :: front, rfl, List.forall_mem_cons.mpr ⟨hc, hfront⟩⟩

theorem Consumes.mem (h : Consumes cs rest) {c : Char} (hc : c ∈ rest) : c ∈ cs := by
  obtain ⟨front, rfl, -⟩ := h
  exact List.mem_append_right _ hc

theorem isDigit_of_ten {c : Char} (h : isDigit 10 c = true) : isDigit 16 c = true := by
  unfold isDigit toDigit at h ⊢
  dsimp only at h ⊢
  split_ifs at h ⊢ <;> first | rfl | omega

theorem readNumber_consumes {radix maxDigits bound : ℕ} {allowZeroPrefix : Bool} {r : ℕ × List Char}
    (hradix : radix = 10 ∨ radix = 16)
    (h : readNumber radix maxDigits allowZeroPrefix bound cs = some r) : Consumes cs r.2 := by
  unfold readNumber at h
  dsimp only at h
  split_ifs at h
  obtain rfl := Option.some.inj h
  refine ⟨cs.takeWhile (isDigit radix), List.takeWhile_append_dropWhile.symm, fun c hc => ?_⟩
  have hdigit : isDigit 16 c = true := by
    have hc := List.mem_takeWhile_imp hc
    rcases hradix with rfl | rfl
    · exact isDigit_of_ten hc
    · exact hc
  unfold isAddressChar
  rw [hdigit]
  rfl

theorem readSeparator_consumes {α : Type} {sep : Char} {index : ℕ}
    {inner : List Char → Option (α × List Char)} {r : α × List Char}
    (hsep : isAddressChar sep = true)
    (hinner : ∀ cs r, inner cs = some r → Consumes cs r.2)
    (h : readSeparator sep index inner cs = some r) : Consumes cs r.2 := by
  unfold readSeparator at h
  split_ifs at h
  · exact hinner cs r h
  · split at h
    · split_ifs at h with heq
      exact (hinner _ r h).cons (heq ▸ hsep)
    · cases h

theorem readOctets_consumes {i n : ℕ} {r : List ℕ × List Char} (h : readOctets i n cs = some r) :
    Consumes cs r.2 := by
  induction n generalizing i cs r with
  | zero =>
      obtain rfl := Option.some.inj h
      exact .refl _
  | succ n ih =>
      obtain ⟨g, hg, h⟩ := Option.bind_eq_some_iff.mp h
      obtain ⟨r', hr', rfl⟩ := Option.map_eq_some_iff.mp h
      have hfirst : Consumes cs g.2 := readSeparator_consumes (by decide)
        (fun _ _ hnumber => readNumber_consumes (.inl rfl) hnumber) hg
      exact hfirst.trans (ih (r := r') hr')

theorem readGroups_consumes (i n : ℕ) : Consumes cs (readGroups i n cs).2.2 := by
  induction n generalizing i cs with
  | zero => exact .refl _
  | succ n ih =>
      rw [readGroups]
      split
      · rename_i octets rest hipv4
        split_ifs at hipv4
        exact readSeparator_consumes (r := (octets, rest)) (by decide)
          (fun _ _ hread => readOctets_consumes hread) hipv4
      · split
        · rename_i group rest hgroup
          have hfirst : Consumes cs rest := readSeparator_consumes (r := (group, rest)) (by decide)
            (fun _ _ hnumber => readNumber_consumes (.inr rfl) hnumber) hgroup
          have hrest : Consumes rest (readGroups (i + 1) n rest).2.2 := ih (i + 1)
          exact hfirst.trans hrest
        · exact .refl _

/-- An address is written with hexadecimal digits, colons and dots. -/
theorem parseIpv6_chars {segments : List ℕ} (h : parseIpv6 cs = some segments) :
    ∀ c ∈ cs, isAddressChar c = true := by
  have hall : Consumes cs [] := by
    unfold parseIpv6 at h
    split at h
    · rename_i segments' hread
      have hhead : Consumes cs _ := readGroups_consumes 0 8
      unfold readIpv6Addr at hread
      split at hread
      rename_i head headIpv4 rest hgroups
      rw [hgroups] at hhead
      split_ifs at hread
      · rw [← (Prod.mk.inj (Option.some.inj hread)).2]
        exact hhead
      · split at hread
        · rename_i rest'
          have hcolons : Consumes (':' :: ':' :: rest') rest' :=
            ((Consumes.refl rest').cons (by decide)).cons (by decide)
          have htail : Consumes rest' _ := readGroups_consumes 0 (8 - (head.length + 1))
          rw [← (Prod.mk.inj (Option.some.inj hread)).2]
          exact hhead.trans (hcolons.trans htail)
        · cases hread
    · cases h
  obtain ⟨front, rfl, hfront⟩ := hall
  rw [List.append_nil]
  exact hfront

/-- An IPv4 address has a dot. -/
theorem readIpv4Addr_of_no_dot (h : '.' ∉ cs) : readIpv4Addr cs = none := by
  cases hread : readIpv4Addr cs with
  | none => rfl
  | some r =>
      unfold readIpv4Addr readOctets at hread
      obtain ⟨first, hfirst, hread⟩ := Option.bind_eq_some_iff.mp hread
      obtain ⟨others, hothers, -⟩ := Option.map_eq_some_iff.mp hread
      unfold readOctets at hothers
      obtain ⟨second, hsecond, -⟩ := Option.bind_eq_some_iff.mp hothers
      have hconsumes : Consumes cs first.2 := readSeparator_consumes (by decide)
        (fun _ _ hnumber => readNumber_consumes (.inl rfl) hnumber) hfirst
      unfold readSeparator at hsecond
      rw [if_neg (by decide)] at hsecond
      split at hsecond
      · rename_i c rest hrest
        split_ifs at hsecond with hdot
        refine absurd (hconsumes.mem ?_) h
        rw [hrest, hdot]
        exact List.mem_cons_self
      · cases hsecond

end Consumes

/-! ## §5  Printing -/

def displayOctets (octets : List ℕ) : List Char :=
  ['.'].intercalate (octets.map (Nat.toDigits 10))

/-- `fmt_subslice`: the segments in hexadecimal, between colons. -/
def displayGroups : List ℕ → List Char
  | [] => []
  | first :: tail => Nat.toDigits 16 first ++ tail.flatMap fun s => ':' :: Nat.toDigits 16 s

structure Span where
  start : ℕ
  len : ℕ
deriving DecidableEq

/-- The run goes on with segment `i`, or begins there. -/
def Span.grow (current : Span) (i : ℕ) : Span :=
  ⟨if current.len = 0 then i else current.start, current.len + 1⟩

/-- The longest run of zero segments, the first one of those; `i` is the index
of the next segment. -/
def longestZeroes (longest current : Span) : ℕ → List ℕ → Span
  | _, [] => longest
  | i, segment :: segments =>
      if segment = 0 then
        let current := current.grow i
        longestZeroes (if longest.len < current.len then current else longest) current (i + 1)
          segments
      else longestZeroes longest ⟨0, 0⟩ (i + 1) segments

/-- `to_ipv4_mapped` is there. -/
def isIpv4Mapped (segments : List ℕ) : Bool := segments.take 6 = [0, 0, 0, 0, 0, 0xffff]

def octetsOfSegments (segments : List ℕ) : List ℕ := segments.flatMap fun s => [s / 256, s % 256]

/-- `fmt` of an IPv6 address. -/
def displayIpv6 (segments : List ℕ) : List Char :=
  if isIpv4Mapped segments then
    "::ffff:".toList ++ displayOctets (octetsOfSegments (segments.drop 6))
  else
    let zeroes := longestZeroes ⟨0, 0⟩ ⟨0, 0⟩ 0 segments
    if 1 < zeroes.len then
      displayGroups (segments.take zeroes.start) ++
        ':' :: ':' :: displayGroups (segments.drop (zeroes.start + zeroes.len))
    else displayGroups segments

example : String.ofList (displayIpv6 [0xfe80, 0, 0, 0, 0, 0, 0, 1]) = "fe80::1" := by decide

/-! ## §6  The run of zeroes -/

/-- The span lies among the first `i` segments, all of which it covers are zero. -/
structure Zeroes (segments : List ℕ) (i : ℕ) (span : Span) : Prop where
  le : span.start + span.len ≤ i
  zero : ∀ j, span.start ≤ j → j < span.start + span.len → segments[j]? = some 0

theorem zeroes_empty (segments : List ℕ) (i : ℕ) : Zeroes segments i ⟨0, 0⟩ :=
  ⟨Nat.zero_le i, fun _ _ hj => absurd hj (Nat.not_lt_zero _)⟩

theorem Zeroes.succ {segments : List ℕ} {i : ℕ} {span : Span} (h : Zeroes segments i span) :
    Zeroes segments (i + 1) span := ⟨Nat.le_succ_of_le h.le, h.zero⟩

theorem Zeroes.grow {segments : List ℕ} {i : ℕ} {current : Span}
    (h : Zeroes segments i current) (hend : current.len = 0 ∨ current.start + current.len = i)
    (hget : segments[i]? = some 0) :
    Zeroes segments (i + 1) (current.grow i) ∧
      (current.grow i).start + (current.grow i).len = i + 1 := by
  have hstop : (current.grow i).start + (current.grow i).len = i + 1 := by
    unfold Span.grow
    dsimp only
    split_ifs <;> omega
  refine ⟨⟨Nat.le_of_eq hstop, fun j hstart hj => ?_⟩, hstop⟩
  by_cases hi : j = i
  · rw [hi, hget]
  · unfold Span.grow at hstart hj
    dsimp only at hstart hj
    refine h.zero j ?_ ?_ <;> split_ifs at hstart hj <;> omega

theorem longestZeroes_zeroes {all : List ℕ} {longest current : Span} {i : ℕ} {segments : List ℕ}
    (hall : all.drop i = segments) (hi : i + segments.length = all.length)
    (hlongest : Zeroes all i longest) (hcurrent : Zeroes all i current)
    (hend : current.len = 0 ∨ current.start + current.len = i) :
    Zeroes all all.length (longestZeroes longest current i segments) := by
  induction segments generalizing longest current i with
  | nil =>
      rw [List.length_nil, Nat.add_zero] at hi
      rw [← hi]
      exact hlongest
  | cons segment segments ih =>
      have hdrop : all.drop (i + 1) = segments := by
        rw [← List.drop_drop, hall]
        rfl
      have hget : all[i]? = some segment := by
        rw [← List.head?_drop, hall]
        rfl
      have hlen : i + 1 + segments.length = all.length := by
        rw [List.length_cons] at hi
        omega
      unfold longestZeroes
      by_cases hzero : segment = 0
      · rw [if_pos hzero]
        obtain ⟨hgrown, hstop⟩ := hcurrent.grow hend (hzero ▸ hget)
        have hlonger : Zeroes all (i + 1)
            (if longest.len < (current.grow i).len then current.grow i else longest) := by
          split_ifs
          · exact hgrown
          · exact hlongest.succ
        exact ih hdrop hlen hlonger hgrown (.inr hstop)
      · rw [if_neg hzero]
        exact ih hdrop hlen hlongest.succ (zeroes_empty _ _) (.inl rfl)

/-- What stands before the run, the zeroes, and what stands behind it. -/
theorem zeroes_split {segments : List ℕ} {span : Span}
    (h : Zeroes segments segments.length span) :
    segments.take span.start ++ List.replicate span.len 0 ++
      segments.drop (span.start + span.len) = segments := by
  have hmiddle : (segments.drop span.start).take span.len = List.replicate span.len 0 := by
    refine List.eq_replicate_iff.mpr ⟨?_, fun b hb => ?_⟩
    · have hle := h.le
      rw [List.length_take, List.length_drop]
      omega
    · obtain ⟨j, hj, hget⟩ := List.mem_iff_getElem.mp hb
      have hget? := List.getElem?_eq_some_iff.mpr ⟨hj, hget⟩
      rw [List.length_take] at hj
      rw [List.getElem?_take_of_lt (by omega), List.getElem?_drop,
        h.zero _ (Nat.le_add_right _ _) (by omega)] at hget?
      exact (Option.some.inj hget?).symm
  calc segments.take span.start ++ List.replicate span.len 0 ++
        segments.drop (span.start + span.len)
      = segments.take span.start ++ ((segments.drop span.start).take span.len ++
          (segments.drop span.start).drop span.len) := by
        rw [hmiddle, List.drop_drop, List.append_assoc]
    _ = segments := by rw [List.take_append_drop, List.take_append_drop]

/-! ## §7  What is printed is parsed -/

/-- The characters of a printed address that is not mapped. -/
def isGroupChar (c : Char) : Bool := isDigit 16 c || c = ':'

theorem displayGroups_chars (gs : List ℕ) : ∀ c ∈ displayGroups gs, isGroupChar c = true := by
  have hdigits : ∀ n, ∀ c ∈ Nat.toDigits 16 n, isGroupChar c = true := by
    intro n c hc
    unfold isGroupChar
    rw [isDigit_of_mem_toDigits (by decide) (Nat.le_refl 16) hc]
    rfl
  cases gs with
  | nil => exact nofun
  | cons first tail =>
      intro c hc
      rcases List.mem_append.mp hc with hc | hc
      · exact hdigits first c hc
      · obtain ⟨s, -, hc⟩ := List.mem_flatMap.mp hc
        rcases List.mem_cons.mp hc with rfl | hc
        · decide
        · exact hdigits s c hc

theorem displayIpv6_chars {segments : List ℕ} (h : isIpv4Mapped segments = false) :
    ∀ c ∈ displayIpv6 segments, isGroupChar c = true := by
  intro c hc
  unfold displayIpv6 at hc
  rw [if_neg (by simp [h])] at hc
  dsimp only at hc
  split_ifs at hc
  · rcases List.mem_append.mp hc with hc | hc
    · exact displayGroups_chars _ c hc
    · rcases List.mem_cons.mp hc with rfl | hc
      · decide
      rcases List.mem_cons.mp hc with rfl | hc
      · decide
      · exact displayGroups_chars _ c hc
  · exact displayGroups_chars _ c hc

/-- A text at which no further group is read: its end, or `::`. -/
def EndsGroups (rest : List Char) : Prop := rest = [] ∨ ∃ more, rest = ':' :: ':' :: more

section Groups

variable {rest : List Char}

theorem EndsGroups.stops (h : EndsGroups rest) : Stops 16 rest := by
  rcases h with rfl | ⟨more, rfl⟩
  · exact nofun
  · rintro _ ⟨⟩
    decide

theorem readSeparator_of_no_dot {i : ℕ} (hdot : '.' ∉ rest) :
    readSeparator ':' i readIpv4Addr rest = none := by
  unfold readSeparator
  split_ifs
  · exact readIpv4Addr_of_no_dot hdot
  · cases rest with
    | nil => rfl
    | cons c cs =>
        have hcs : '.' ∉ cs := fun h => hdot (List.mem_cons_of_mem _ h)
        show (if c = ':' then readIpv4Addr cs else none) = none
        split_ifs
        · exact readIpv4Addr_of_no_dot hcs
        · rfl

/-- A group without a dot behind it is one segment. -/
theorem readGroups_succ (hdot : '.' ∉ rest) (i n : ℕ) : readGroups i (n + 1) rest =
    match readSeparator ':' i (readNumber 16 4 true 65536) rest with
    | some (group, rest) =>
        let r := readGroups (i + 1) n rest
        (group :: r.1, r.2)
    | none => ([], false, rest) := by
  have hipv4 : (if 0 < n then readSeparator ':' i readIpv4Addr rest else none) = none := by
    split_ifs
    · exact readSeparator_of_no_dot hdot
    · rfl
  rw [readGroups, hipv4]

theorem readGroups_of_ends (h : EndsGroups rest) (hdot : '.' ∉ rest) (i n : ℕ) :
    readGroups i n rest = ([], false, rest) := by
  cases n with
  | zero => rfl
  | succ n =>
      have hgroup : readSeparator ':' i (readNumber 16 4 true 65536) rest = none := by
        unfold readSeparator
        split_ifs
        · exact readNumber_of_stops h.stops
        · rcases h with rfl | ⟨more, rfl⟩
          · rfl
          · have hstops : Stops 16 (':' :: more) := by
              rintro _ ⟨⟩
              decide
            show readNumber 16 4 true 65536 (':' :: more) = none
            exact readNumber_of_stops hstops
      rw [readGroups_succ hdot, hgroup]

theorem readNumber_group {g : ℕ} (hg : g < 65536) (hrest : Stops 16 rest) :
    readNumber 16 4 true 65536 (Nat.toDigits 16 g ++ rest) = some (g, rest) :=
  readNumber_toDigits (by decide) (Nat.le_refl 16) (by decide) hg hg hrest

/-- Behind a group comes a colon or the end. -/
theorem stops_tail (h : EndsGroups rest) (tail : List ℕ) :
    Stops 16 ((tail.flatMap fun s => ':' :: Nat.toDigits 16 s) ++ rest) := by
  cases tail with
  | nil => exact h.stops
  | cons s tail =>
      rintro _ ⟨⟩
      decide

theorem not_mem_of_groupChars {cs : List Char} (h : ∀ c ∈ cs, isGroupChar c = true) : '.' ∉ cs :=
  fun hc => absurd (h _ hc) (by decide)

/-- The groups behind the first one. -/
theorem readGroups_tail (h : EndsGroups rest) (hdot : '.' ∉ rest) {tail : List ℕ}
    (htail : ∀ g ∈ tail, g < 65536) (i : ℕ) {n : ℕ} (hn : tail.length ≤ n) :
    readGroups (i + 1) n ((tail.flatMap fun s => ':' :: Nat.toDigits 16 s) ++ rest) =
      (tail, false, rest) := by
  induction tail generalizing i n with
  | nil => exact readGroups_of_ends h hdot _ _
  | cons g tail ih =>
      cases n with
      | zero => cases hn
      | succ n =>
          have hchars := displayGroups_chars (0 :: g :: tail)
          have hall : '.' ∉ ((g :: tail).flatMap fun s => ':' :: Nat.toDigits 16 s) ++ rest := by
            intro hc
            rcases List.mem_append.mp hc with hc | hc
            · exact not_mem_of_groupChars hchars (List.mem_append_right _ hc)
            · exact hdot hc
          have hread : readSeparator ':' (i + 1) (readNumber 16 4 true 65536)
              (((g :: tail).flatMap fun s => ':' :: Nat.toDigits 16 s) ++ rest) =
              some (g, (tail.flatMap fun s => ':' :: Nat.toDigits 16 s) ++ rest) := by
            rw [List.flatMap_cons, List.append_assoc]
            exact readNumber_group (htail g List.mem_cons_self) (stops_tail h tail)
          have hrest := ih (fun g' hg' => htail g' (List.mem_cons_of_mem _ hg')) (i + 1)
            (Nat.le_of_succ_le_succ hn)
          rw [readGroups_succ hall, hread]
          show (g :: (readGroups _ _ _).1, (readGroups _ _ _).2) = _
          rw [hrest]

theorem readGroups_displayGroups (h : EndsGroups rest) (hdot : '.' ∉ rest) {gs : List ℕ}
    (hgs : ∀ g ∈ gs, g < 65536) {n : ℕ} (hn : gs.length ≤ n) :
    readGroups 0 n (displayGroups gs ++ rest) = (gs, false, rest) := by
  cases gs with
  | nil => exact readGroups_of_ends h hdot _ _
  | cons g tail =>
      cases n with
      | zero => cases hn
      | succ n =>
          have hall : '.' ∉ displayGroups (g :: tail) ++ rest := by
            intro hc
            rcases List.mem_append.mp hc with hc | hc
            · exact not_mem_of_groupChars (displayGroups_chars _) hc
            · exact hdot hc
          have hread : readSeparator ':' 0 (readNumber 16 4 true 65536)
              (displayGroups (g :: tail) ++ rest) =
              some (g, (tail.flatMap fun s => ':' :: Nat.toDigits 16 s) ++ rest) := by
            rw [displayGroups, List.append_assoc]
            exact readNumber_group (hgs g List.mem_cons_self) (stops_tail h tail)
          have hrest := readGroups_tail h hdot (fun g' hg' => hgs g' (List.mem_cons_of_mem _ hg')) 0
            (Nat.le_of_succ_le_succ hn)
          rw [readGroups_succ hall, hread]
          show (g :: (readGroups _ _ _).1, (readGroups _ _ _).2) = _
          rw [hrest]

end Groups

/-- The groups before `::`, and those behind it. -/
theorem readIpv6Addr_of_groups {cs rest rest' : List Char} {head tail : List ℕ} {ipv4 : Bool}
    (hhead : readGroups 0 8 cs = (head, false, ':' :: ':' :: rest)) (hlen : head.length ≠ 8)
    (htail : readGroups 0 (8 - (head.length + 1)) rest = (tail, ipv4, rest')) :
    readIpv6Addr cs =
      some (head ++ List.replicate (8 - head.length - tail.length) 0 ++ tail, rest') := by
  unfold readIpv6Addr
  rw [hhead]
  dsimp only
  rw [if_neg hlen, if_neg (by decide)]
  show some (head ++ List.replicate (8 - head.length - (readGroups 0 _ rest).1.length) 0 ++
    (readGroups 0 _ rest).1, (readGroups 0 _ rest).2.2) = _
  rw [htail]

/-- **What is printed is parsed**, for an address that is not mapped. -/
theorem parseIpv6_displayIpv6 {segments : List ℕ} (hlen : segments.length = 8)
    (hsegments : ∀ s ∈ segments, s < 65536) (hmapped : isIpv4Mapped segments = false) :
    parseIpv6 (displayIpv6 segments) = some segments := by
  have hempty : EndsGroups [] := .inl rfl
  unfold displayIpv6
  rw [if_neg (by simp [hmapped])]
  dsimp only
  have hz : Zeroes segments segments.length (longestZeroes ⟨0, 0⟩ ⟨0, 0⟩ 0 segments) :=
    longestZeroes_zeroes rfl (Nat.zero_add _) (zeroes_empty _ _) (zeroes_empty _ _) (.inl rfl)
  generalize longestZeroes ⟨0, 0⟩ ⟨0, 0⟩ 0 segments = zeroes at hz
  have hle := hz.le
  split_ifs with hrun
  · have hhead : ∀ g ∈ segments.take zeroes.start, g < 65536 :=
      fun g hg => hsegments g (List.mem_of_mem_take hg)
    have htail : ∀ g ∈ segments.drop (zeroes.start + zeroes.len), g < 65536 :=
      fun g hg => hsegments g (List.mem_of_mem_drop hg)
    have hheadLen : (segments.take zeroes.start).length = zeroes.start := by
      rw [List.length_take]
      omega
    have htailLen : (segments.drop (zeroes.start + zeroes.len)).length =
        8 - (zeroes.start + zeroes.len) := by
      rw [List.length_drop, hlen]
    have hdot : '.' ∉ ':' :: ':' :: displayGroups (segments.drop (zeroes.start + zeroes.len)) := by
      intro hc
      have hc := (List.mem_cons.mp hc).resolve_left (by decide)
      have hc := (List.mem_cons.mp hc).resolve_left (by decide)
      exact not_mem_of_groupChars (displayGroups_chars _) hc
    have hreadHead := readGroups_displayGroups (.inr ⟨_, rfl⟩) hdot hhead (n := 8) (by omega)
    have hreadTail := readGroups_displayGroups hempty List.not_mem_nil htail
      (n := 8 - ((segments.take zeroes.start).length + 1)) (by omega)
    have hpad : 8 - zeroes.start - (segments.drop (zeroes.start + zeroes.len)).length =
        zeroes.len := by omega
    rw [List.append_nil] at hreadTail
    unfold parseIpv6
    rw [readIpv6Addr_of_groups hreadHead (by omega) hreadTail, hheadLen, hpad, zeroes_split hz]
  · have hread := readGroups_displayGroups hempty List.not_mem_nil hsegments (n := 8)
      (Nat.le_of_eq hlen)
    rw [List.append_nil] at hread
    unfold parseIpv6 readIpv6Addr
    rw [hread]
    dsimp only
    rw [if_pos hlen]

end InetText
