import FireBoxTransfer.Core.Model

/-!
# The PIN check of prepare-upload

`check_pin` counts failed attempts per address in a bounded cache of the
least recently used kind. The cache is a list, most recently used first.
-/

namespace FireBoxTransfer

/-! ## §1  The cache -/

structure LruCache (κ α : Type) where
  cap : ℕ
  entries : List (κ × α)

namespace LruCache

variable {κ α : Type} [DecidableEq κ]

def new (cap : ℕ) : LruCache κ α := ⟨cap, []⟩

/-- A hit moves the entry to the front. -/
def get (c : LruCache κ α) (k : κ) : Option α × LruCache κ α :=
  match c.entries.lookup k with
  | none => (none, c)
  | some v => (some v, { c with entries := (k, v) :: c.entries.filter (·.1 ≠ k) })

def pop (c : LruCache κ α) (k : κ) : LruCache κ α :=
  { c with entries := c.entries.filter (·.1 ≠ k) }

/-- The new entry goes to the front; the last one is evicted when a new key
would exceed the capacity. -/
def put (c : LruCache κ α) (k : κ) (v : α) : LruCache κ α :=
  { c with entries := ((k, v) :: c.entries.filter (·.1 ≠ k)).take c.cap }

end LruCache

/-! ## §2  The check -/

def maxPinAttempts : ℕ := 3

/-- The part of `check_pin` under the lock of `pin_attempts`, for a server
that requires a PIN. -/
def checkPin (requiredPin : String) (attempts : LruCache IpAddr ℕ)
    (query : AssocMap String String) (ip : IpAddr) :
    Except AppError Unit × LruCache IpAddr ℕ :=
  let (found, attempts) := attempts.get ip
  let count := found.getD 0
  if count ≥ maxPinAttempts then
    (.error (.message .tooManyRequests "Too many requests"), attempts)
  else
    match query.get? "pin" with
    | some pin =>
        if pin = requiredPin then (.ok (), attempts.pop ip)
        else (.error (.message .unauthorized "Invalid PIN"), attempts.put ip (count + 1))
    | none => (.error (.message .unauthorized "PIN required"), attempts)

end FireBoxTransfer
