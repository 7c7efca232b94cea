import TripleCube.Assoc
import TripleCube.Total

/-! Bounded caches with two queues and a memory of what was evicted. New keys enter the small
queue. A key that was read more than once by the time it reaches the head of that queue moves
on to the main queue; any other is evicted and remembered in the ghost queue, and a key that
comes back while it is remembered goes straight to main. Eviction from main gives keys that
were read another round, with one read fewer. -/
namespace TripleCube

structure CacheEntry (α : Type) where
  value : α
  /-- Reads since the key came in, less the rounds they have bought; at most three. -/
  frequency : Nat
  deriving DecidableEq

structure Cache (κ α : Type) where
  /-- How many values are kept; zero keeps none. -/
  capacity : Nat
  small : List κ := []
  main : List κ := []
  ghost : List κ := []
  entries : Assoc κ (CacheEntry α) := []
  hits : Nat := 0
  misses : Nat := 0
  deriving DecidableEq

namespace Cache

variable {κ α : Type} [DecidableEq κ]

def ofCapacity (capacity : Nat) : Cache κ α := { capacity }

/-- Reads beyond this many count no more. -/
def maxFrequency : Nat := 3

/-- The length past which the small queue is evicted from first. -/
def maxSmall (c : Cache κ α) : Nat := max (c.capacity / 10) 1

def size (c : Cache κ α) : Nat := c.entries.length

def isEmpty (c : Cache κ α) : Bool := c.entries.isEmpty

/-- Reads a value. A hit raises the frequency of its key, and no queue changes. -/
def get? (c : Cache κ α) (key : κ) : Option α × Cache κ α :=
  match c.entries.find? key with
  | none => (none, { c with misses := c.misses + 1 })
  | some entry =>
    let raise (e : CacheEntry α) := { e with frequency := min (e.frequency + 1) maxFrequency }
    (some entry.value, { c with entries := c.entries.modify key raise, hits := c.hits + 1 })

/-- The sum of all frequencies. -/
def totalFrequency (entries : Assoc κ (CacheEntry α)) : Nat :=
  total (fun entry => entry.2.frequency) entries

def lower (entry : CacheEntry α) : CacheEntry α := { entry with frequency := entry.frequency - 1 }

theorem totalFrequency_modify_lower_le (entries : Assoc κ (CacheEntry α)) (key : κ) :
    totalFrequency (entries.modify key lower) ≤ totalFrequency entries := by
  induction entries with
  | nil => simp [totalFrequency, Assoc.modify]
  | cons entry rest ih =>
    simp only [totalFrequency, Assoc.modify, List.map_cons, total_cons] at ih ⊢
    grind [lower]

theorem totalFrequency_modify_lower_lt {entries : Assoc κ (CacheEntry α)} {key : κ}
    {entry : CacheEntry α} (found : entries.find? key = some entry)
    (read : 0 < entry.frequency) :
    totalFrequency (entries.modify key lower) < totalFrequency entries := by
  induction entries with
  | nil => simp at found
  | cons first rest ih =>
    have others := totalFrequency_modify_lower_le rest key
    rw [Assoc.find?_cons] at found
    simp only [totalFrequency, Assoc.modify, List.map_cons, total_cons] at ih others ⊢
    grind [lower]

/-- Evicts from a main queue: each key at the head that was read goes to the back with one
read fewer, and the first that was not loses its entry. -/
def rotate (main : List κ) (entries : Assoc κ (CacheEntry α)) :
    List κ × Assoc κ (CacheEntry α) :=
  match main with
  | [] => ([], entries)
  | key :: rest =>
    match _found : entries.find? key with
    | some entry =>
      if _read : 0 < entry.frequency then rotate (rest ++ [key]) (entries.modify key lower)
      else (rest, entries.erase key)
    | none => (rest, entries.erase key)
termination_by totalFrequency entries
decreasing_by exact totalFrequency_modify_lower_lt _found _read

def evictMain (c : Cache κ α) : Cache κ α :=
  let (main, entries) := rotate c.main c.entries
  { c with main, entries }

/-- Remembers a key, and forgets the oldest one if there is no room. -/
def remember (c : Cache κ α) (key : κ) : Cache κ α :=
  let ghost := if c.capacity ≤ c.ghost.length then c.ghost.drop 1 else c.ghost
  { c with ghost := ghost ++ [key] }

def frequency (c : Cache κ α) (key : κ) : Nat :=
  match c.entries.find? key with
  | none => 0
  | some entry => entry.frequency

/-- Evicts from the keys of the small queue: those at the head that were read more than once
move to main, and the first that was not loses its entry and is remembered. When all have
moved, main is evicted from instead. -/
def evictFrom : List κ → Cache κ α → Cache κ α
  | [], c => evictMain { c with small := [] }
  | key :: rest, c =>
    if 1 < c.frequency key then evictFrom rest { c with main := c.main ++ [key] }
    else remember { c with small := rest, entries := c.entries.erase key } key

def evictSmall (c : Cache κ α) : Cache κ α := evictFrom c.small c

/-- Drops one entry. -/
def evict (c : Cache κ α) : Cache κ α :=
  if c.maxSmall < c.small.length ∨ c.main.isEmpty then c.evictSmall else c.evictMain

/-- Evicts until there is room for one more entry. -/
def makeRoom (c : Cache κ α) : Cache κ α :=
  if c.capacity ≤ c.size then
    let evicted := c.evict
    if evicted.size < c.size then makeRoom evicted else evicted
  else c
termination_by c.size

/-- Stores a value. A key that is already there keeps its place. -/
def insert (c : Cache κ α) (key : κ) (value : α) : Cache κ α :=
  if c.capacity = 0 then c
  else if (c.entries.find? key).isSome then
    { c with entries := c.entries.modify key fun entry => { entry with value } }
  else
    let c := c.makeRoom
    let entries := c.entries.insert key ⟨value, 0⟩
    if key ∈ c.ghost then { c with ghost := c.ghost.erase key, main := c.main ++ [key], entries }
    else { c with small := c.small ++ [key], entries }

/-- Drops everything but the counts of hits and misses. -/
def clear (c : Cache κ α) : Cache κ α :=
  { capacity := c.capacity, hits := c.hits, misses := c.misses }

end Cache

end TripleCube
