import Echo.Lib.LinkedMap

/-! The cache of `session_cache.dart`: sessions by reference under a key, oldest use first.
Every operation that drops an entry also names the reference whose session it zeroes. -/
namespace Echo.Client
open Echo.Lib

structure Entry where
  session : Nat
  lastAccessed : Nat

abbrev SessionCache (κ : Type) := LinkedMap κ Entry

namespace SessionCache
variable {κ : Type} [DecidableEq κ]

def ttl : Nat := 24 * 60 * 60 * 1000
def maxEntries : Nat := 200

def expired (now : Nat) (e : Entry) : Bool := ttl ≤ now - e.lastAccessed

def containsKey (c : SessionCache κ) (key : κ) : Bool := (c.find key).isSome

def isFresh (c : SessionCache κ) (key : κ) (now : Nat) : Bool :=
  match c.find key with
  | none => false
  | some e => !expired now e

def get (c : SessionCache κ) (key : κ) (now : Nat) : Option Nat × SessionCache κ × List Nat :=
  match c.find key with
  | none => (none, c, [])
  | some e =>
    if expired now e then (none, c.erase key, [e.session])
    else (some e.session, c.insert key ⟨e.session, now⟩, [])

/-- The least recently used entries, as many as there are beyond `maxEntries`. -/
def overflow (c : SessionCache κ) : List (κ × Entry) := c.entries.take (c.entries.length - maxEntries)

def trim (c : SessionCache κ) : SessionCache κ := c.dropFirst (c.entries.length - maxEntries)

/-- The session a `put` replaces, unless it is the same object. -/
def replaced (c : SessionCache κ) (key : κ) (session : Nat) : List Nat :=
  match c.find key with
  | none => []
  | some e => if e.session = session then [] else [e.session]

def put (c : SessionCache κ) (key : κ) (session now : Nat) : SessionCache κ × List Nat :=
  let full := c.insert key ⟨session, now⟩
  (trim full, replaced c key session ++ (overflow full).map fun e => e.2.session)

def remove (c : SessionCache κ) (key : κ) : SessionCache κ × List Nat :=
  match c.find key with
  | none => (c, [])
  | some e => (c.erase key, [e.session])

def evictExpired (c : SessionCache κ) (now : Nat) : SessionCache κ × List Nat :=
  (c.keep fun e => !expired now e.2,
    (c.entries.filter fun e => expired now e.2).map fun e => e.2.session)

theorem overflow_few (c : SessionCache κ) (key : κ) (e : Entry) :
    (c.insert key e).entries.length - maxEntries ≤ (c.erase key).entries.length := by
  simp only [LinkedMap.insert, List.length_append, List.length_singleton, maxEntries]
  omega

theorem put_zeroed (c : SessionCache κ) (key : κ) (session now : Nat) :
    (put c key session now).2 =
      replaced c key session ++ (overflow (c.insert key ⟨session, now⟩)).map fun e => e.2.session := rfl

theorem mem_of_overflow {c : SessionCache κ} {e : κ × Entry} (front : e ∈ overflow c) : e ∈ c.entries := by
  unfold overflow at front
  exact List.mem_of_mem_take front

theorem not_mem_overflow (c : SessionCache κ) (key : κ) (e : Entry) :
    key ∉ (overflow (c.insert key e)).map Prod.fst :=
  LinkedMap.not_mem_take_insert c key e (overflow_few c key e)

theorem find_put_self (c : SessionCache κ) (key : κ) (session now : Nat) :
    (put c key session now).1.find key = some ⟨session, now⟩ :=
  LinkedMap.find_dropFirst_insert c key _ (overflow_few c key _)

theorem find_put {c : SessionCache κ} {key other : κ} (apart : other ≠ key) (session now : Nat) :
    (put c key session now).1.find other =
      if other ∈ (overflow (c.insert key ⟨session, now⟩)).map Prod.fst then none else c.find other := by
  have dropped := LinkedMap.find_dropFirst (c.insert key ⟨session, now⟩)
    ((c.insert key ⟨session, now⟩).entries.length - maxEntries) other
  rw [LinkedMap.find_insert apart] at dropped
  exact dropped

end SessionCache
end Echo.Client
