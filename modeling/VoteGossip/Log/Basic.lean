import VoteGossip.Log.Window

/-!
An append-only log with bounded retention.

Every entry gets the next position when it is written and keeps it for good. Removal leaves a
tombstone, so later positions stay valid; tombstones at the front are pruned at once, and the
oldest slots are evicted whenever the window outgrows the retention. Readers keep a position of
their own and learn from `get` whether the entry there is live, removed, behind the window or not
written yet.

The log publishes the position behind the last one written. Each publication has a version number
of its own, by which waiting readers tell whether something was published since they last looked.
-/

set_option autoImplicit false

namespace VoteGossip

inductive Slot (Entry : Type) where
  | ready (entry : Entry)
  /-- The entry was removed and its tombstone is still there. -/
  | removed
  /-- The position lies before the window. -/
  | evicted
  | pending
  deriving DecidableEq

def Slot.ready? {Entry : Type} : Slot Entry → Option Entry
  | .ready entry => some entry
  | _ => none

/-- A log whose window holds at most `retention` slots. -/
structure Log (Entry : Type) where
  retention : Nat
  window : Log.Window Entry
  written : Nat
  version : Nat

namespace Log

variable {Entry : Type}

/-- An empty log. A window cannot be held below one slot. -/
def empty (maxRetained : Nat) : Log Entry :=
  { retention := max maxRetained 1
    window := .empty
    written := 0
    version := 0 }

structure Appended (Entry : Type) where
  log : Log Entry
  position : Nat
  evicted : List Entry

/-- Writes an entry at the next position and publishes. As long as the window has outgrown the
retention it lets go of its oldest slot. -/
def push (log : Log Entry) (entry : Entry) : Appended Entry :=
  let position := log.window.stop
  let grown := log.window.append entry
  let (evicted, left) := grown.evict (grown.retained - log.retention)
  let kept := left.prune
  { log :=
      { log with
        window := kept
        written := kept.stop
        version := log.version + 1 }
    position
    evicted }

/-- Takes the live entry at a position out of the log; `none` where there is no live entry. -/
def remove? (log : Log Entry) (position : Nat) : Option (Entry × Log Entry) :=
  match log.window.entry? position with
  | some entry => some (entry, { log with window := log.window.remove position })
  | none => none

def entries (log : Log Entry) : List Entry := log.window.entries

/-- Takes every live entry out. What was written so far is evicted from then on. -/
def clear (log : Log Entry) : Log Entry :=
  { log with window := log.window.drained }

def get (log : Log Entry) (position : Nat) : Slot Entry :=
  if position < log.window.base then .evicted
  else
    match log.window.slots[position - log.window.base]? with
    | some (some entry) => .ready entry
    | some none => .removed
    | none => .pending

/-- The position of the oldest live entry: no tombstone is ever left in front. -/
def front (log : Log Entry) : Option Nat :=
  if log.window.retained = 0 then none else some log.window.base

def size (log : Log Entry) : Nat := log.window.live

def isEmpty (log : Log Entry) : Bool := log.size == 0

def retained (log : Log Entry) : Nat := log.window.retained

end Log

end VoteGossip
