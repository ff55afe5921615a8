import FireBoxTransfer.Framework.Json
import Mathlib.Data.Nat.Digits.Defs

/-!
# Formats that are printed and parsed

A format prints a value so that it can be parsed from the front of whatever follows. Formats
are put together from texts, strings, numbers, sequences and lists, as JSON documents are.
-/

/-! ## §1  Formats -/

structure Printed (α : Type*) where
  print : α → Bytes
  parse : Bytes → Option (α × Bytes)
  parse_print : ∀ a rest, parse (print a ++ rest) = some (a, rest)

namespace Printed

variable {α β : Type*}

/-- All of a text. -/
def parseAll (f : Printed α) (bs : Bytes) : Option α :=
  match f.parse bs with
  | some (a, []) => some a
  | _ => none

theorem parseAll_print (f : Printed α) (a : α) : f.parseAll (f.print a) = some a := by
  have hparse := f.parse_print a []
  rw [List.append_nil] at hparse
  unfold parseAll
  rw [hparse]

/-- What is printed as a value of another type. -/
def map (f : Printed α) (toPrinted : β → α) (ofPrinted : α → Option β)
    (h : ∀ b, ofPrinted (toPrinted b) = some b) : Printed β where
  print b := f.print (toPrinted b)
  parse bs := (f.parse bs).bind fun r => (ofPrinted r.1).map fun b => (b, r.2)
  parse_print b rest := by rw [f.parse_print, Option.bind_some, h, Option.map_some]

def string : Printed String where
  print := Json.writeString
  parse := Json.readString
  parse_print := Json.readString_write

/-- A value behind a text. -/
def behind (text : String) (f : Printed α) : Printed α where
  print a := text.toUTF8.data.toList ++ f.print a
  parse bs := (Json.expect text bs).bind f.parse
  parse_print a rest := by
    rw [List.append_assoc, Json.expect_append, Option.bind_some, f.parse_print]

/-- A value before a text. -/
def before (f : Printed α) (text : String) : Printed α where
  print a := f.print a ++ text.toUTF8.data.toList
  parse bs := (f.parse bs).bind fun r => (Json.expect text r.2).map fun rest => (r.1, rest)
  parse_print a rest := by
    rw [List.append_assoc, f.parse_print, Option.bind_some, Json.expect_append]
    rfl

def seq (f : Printed α) (g : Printed β) : Printed (α × β) where
  print p := f.print p.1 ++ g.print p.2
  parse bs := (f.parse bs).bind fun r => (g.parse r.2).map fun r' => ((r.1, r'.1), r'.2)
  parse_print p rest := by
    rw [List.append_assoc, f.parse_print, Option.bind_some, g.parse_print]
    rfl

/-! ## §2  Numbers -/

def isDigit (b : UInt8) : Bool := 48 ≤ b && b ≤ 57

def printNumber (n : ℕ) : Bytes :=
  if n = 0 then [48] else (Nat.digits 10 n).reverse.map fun d => UInt8.ofNat (48 + d)

def readNumber (digits : Bytes) : ℕ :=
  Nat.ofDigits 10 (digits.reverse.map fun b => b.toNat - 48)

theorem isDigit_ofNat {d : ℕ} (hd : d < 10) :
    isDigit (UInt8.ofNat (48 + d)) = true ∧ (UInt8.ofNat (48 + d)).toNat - 48 = d := by
  have hall : ∀ d : Fin 10, isDigit (UInt8.ofNat (48 + d)) = true ∧
      (UInt8.ofNat (48 + d)).toNat - 48 = d := by decide
  exact hall ⟨d, hd⟩

theorem isDigit_of_mem_printNumber {n : ℕ} {b : UInt8} (hb : b ∈ printNumber n) :
    isDigit b = true := by
  unfold printNumber at hb
  split at hb
  · obtain rfl := List.mem_singleton.mp hb
    rfl
  · obtain ⟨d, hd, rfl⟩ := List.mem_map.mp hb
    exact (isDigit_ofNat (Nat.digits_lt_base (by decide) (List.mem_reverse.mp hd))).1

theorem readNumber_printNumber (n : ℕ) : readNumber (printNumber n) = n := by
  unfold readNumber printNumber
  split
  case isTrue hn =>
    subst hn
    rfl
  case isFalse =>
    rw [← List.map_reverse, List.reverse_reverse, List.map_map]
    have hdigits : (Nat.digits 10 n).map
        ((fun b : UInt8 => b.toNat - 48) ∘ fun d => UInt8.ofNat (48 + d)) = Nat.digits 10 n := by
      refine (List.map_congr_left fun d hd => ?_).trans (List.map_id _)
      exact (isDigit_ofNat (Nat.digits_lt_base (by decide) hd)).2
    rw [hdigits, Nat.ofDigits_digits]

/-- A number and the comma behind it. -/
def numberComma : Printed ℕ where
  print n := printNumber n ++ [44]
  parse bs :=
    match bs.dropWhile isDigit with
    | 44 :: rest => some (readNumber (bs.takeWhile isDigit), rest)
    | _ => none
  parse_print n rest := by
    have hdigits : ∀ b ∈ printNumber n, isDigit b = true := fun _ => isDigit_of_mem_printNumber
    have hcomma : isDigit 44 = false := rfl
    rw [List.append_assoc, List.singleton_append,
      List.dropWhile_append_of_pos hdigits, List.takeWhile_append_of_pos hdigits]
    simp [hcomma, readNumber_printNumber]

/-! ## §3  Lists -/

/-- The texts of a list: of the empty one, before the first item, between two and behind the
last. The last can be told from what is between two. -/
structure Brackets where
  empty : String
  first : String
  between : String
  last : String
  not_empty : ∀ bs, Json.expect empty (first.toUTF8.data.toList ++ bs) = none
  not_between : ∀ bs, Json.expect between (last.toUTF8.data.toList ++ bs) = none
  between_pos : 0 < between.toUTF8.data.toList.length

section Items

variable (f : Printed α) (b : Brackets)

def printItems : List α → Bytes
  | [] => b.last.toUTF8.data.toList
  | a :: as => b.between.toUTF8.data.toList ++ (f.print a ++ printItems as)

def parseItems : ℕ → Bytes → Option (List α × Bytes)
  | 0, _ => none
  | fuel + 1, bs =>
      match Json.expect b.between bs with
      | some bs => (f.parse bs).bind fun r =>
          (parseItems fuel r.2).map fun r' => (r.1 :: r'.1, r'.2)
      | none => (Json.expect b.last bs).map fun rest => ([], rest)

theorem parseItems_print (as : List α) (rest : Bytes) {fuel : ℕ} (hfuel : as.length < fuel) :
    parseItems f b fuel (printItems f b as ++ rest) = some (as, rest) := by
  induction as generalizing fuel with
  | nil =>
      cases fuel with
      | zero => exact absurd hfuel (Nat.not_lt_zero _)
      | succ fuel =>
          simp only [parseItems, printItems, b.not_between, Json.expect_append, Option.map_some]
  | cons a as ih =>
      cases fuel with
      | zero => exact absurd hfuel (Nat.not_lt_zero _)
      | succ fuel =>
          have hih := ih (Nat.lt_of_succ_lt_succ hfuel)
          simp only [parseItems, printItems, List.append_assoc, Json.expect_append, f.parse_print,
            Option.bind_some, hih, Option.map_some]

theorem length_le_printItems (as : List α) : as.length ≤ (printItems f b as).length := by
  induction as with
  | nil => exact Nat.zero_le _
  | cons a as ih =>
      have hpos := b.between_pos
      simp only [printItems, List.length_cons, List.length_append]
      omega

/-- As many items as there are. -/
def list : Printed (List α) where
  print
    | [] => b.empty.toUTF8.data.toList
    | a :: as => b.first.toUTF8.data.toList ++ (f.print a ++ printItems f b as)
  parse bs :=
    match Json.expect b.empty bs with
    | some rest => some ([], rest)
    | none => (Json.expect b.first bs).bind fun bs => (f.parse bs).bind fun r =>
        (parseItems f b (r.2.length + 1) r.2).map fun r' => (r.1 :: r'.1, r'.2)
  parse_print as rest := by
    cases as with
    | nil => simp only [Json.expect_append]
    | cons a as =>
        have hfuel : as.length < (printItems f b as ++ rest).length + 1 := by
          have hle := length_le_printItems f b as
          rw [List.length_append]
          omega
        simp only [List.append_assoc, b.not_empty, Json.expect_append, f.parse_print,
          Option.bind_some, parseItems_print f b as rest hfuel, Option.map_some]

end Items

end Printed
