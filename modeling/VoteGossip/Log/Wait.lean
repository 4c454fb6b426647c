import VoteGossip.Log.Basic

/-!
Waiting on a log.

A wait is polled until it is over. The first poll looks at the log and, if there is nothing to
report, remembers the version it looked at; a later poll looks again only if a newer version has
been published. One kind waits for a live entry, the other for the position after a given one to
be written.
-/

set_option autoImplicit false

namespace VoteGossip.Log

variable {Entry : Type}

inductive Awaited where
  | entries
  | successor (position : Nat)
  deriving DecidableEq

/-- Positions are 64-bit numbers, and the one after the last is the last again. -/
def lastPosition : Nat := UInt64.size - 1

def offers (log : Log Entry) : Awaited → Bool
  | .entries => !log.isEmpty
  | .successor position => decide (min (position + 1) lastPosition < log.written)

inductive Progress where
  | fresh
  /-- Polled without success; nothing newer than this version has been looked at. -/
  | parked (seen : Nat)
  | done
  deriving DecidableEq

structure Wait where
  awaited : Awaited
  progress : Progress
  deriving DecidableEq

namespace Wait

def on (awaited : Awaited) : Wait := { awaited, progress := .fresh }

def isDone (wait : Wait) : Bool := wait.progress == .done

def look (wait : Wait) (log : Log Entry) : Wait :=
  { wait with progress := if log.offers wait.awaited then .done else .parked log.version }

def poll (wait : Wait) (log : Log Entry) : Wait :=
  match wait.progress with
  | .fresh => wait.look log
  | .parked seen => if seen = log.version then wait else wait.look log
  | .done => wait

end Wait

end VoteGossip.Log
