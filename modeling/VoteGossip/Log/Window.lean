/-!
The retained stretch of a log.

A window holds consecutive positions from `base` on. A slot is live or a tombstone. Slots are added
at the back and leave only at the front, and each that leaves moves the base on by one. The number
of live slots is carried along, so it never has to be counted.
-/

set_option autoImplicit false

namespace VoteGossip.Log

/-- The slot at an index belongs to the position so many after `base`; `none` is a tombstone. -/
structure Window (Entry : Type) where
  base : Nat
  slots : Array (Option Entry)
  live : Nat

namespace Window

variable {Entry : Type}

def empty : Window Entry :=
  { base := 0, slots := #[], live := 0 }

def stop (window : Window Entry) : Nat := window.base + window.slots.size

def retained (window : Window Entry) : Nat := window.slots.size

def entry? (window : Window Entry) (position : Nat) : Option Entry :=
  if position < window.base then none
  else window.slots[position - window.base]?.join

def entries (window : Window Entry) : List Entry :=
  window.slots.toList.filterMap id

def append (window : Window Entry) (entry : Entry) : Window Entry :=
  { window with
    slots := window.slots.push (some entry)
    live := window.live + 1 }

def dropFront (window : Window Entry) : Window Entry :=
  { window with
    base := window.base + 1
    slots := window.slots.extract 1 }

/-- Lets go of the tombstones in front of the oldest live entry, but of no more than `count`. -/
def pruneUpTo : Nat → Window Entry → Window Entry
  | 0, window => window
  | count + 1, window =>
      match window.slots[0]? with
      | some none => pruneUpTo count window.dropFront
      | _ => window

def prune (window : Window Entry) : Window Entry :=
  window.pruneUpTo window.slots.size

/-- Lets go of the `count` oldest slots. Answers with the entries of those that were live, oldest
first. -/
def evict : Nat → Window Entry → List Entry × Window Entry
  | 0, window => ([], window)
  | count + 1, window =>
      match window.slots[0]?.join with
      | some entry =>
          let (evicted, kept) := evict count { window.dropFront with live := window.live - 1 }
          (entry :: evicted, kept)
      | none => evict count window.dropFront

def bury (window : Window Entry) (position : Nat) : Window Entry :=
  { window with
    slots := window.slots.setIfInBounds (position - window.base) none
    live := window.live - 1 }

def remove (window : Window Entry) (position : Nat) : Window Entry :=
  (window.bury position).prune

/-- The window behind everything that was ever written, holding nothing. -/
def drained (window : Window Entry) : Window Entry :=
  { base := window.stop, slots := #[], live := 0 }

end Window

end VoteGossip.Log
