/-!
How much an event matters to whoever watches the node.
-/

set_option autoImplicit false

namespace VoteGossip

inductive Severity where
  | error
  | warning
  | info
  | debug
  | trace
  deriving DecidableEq

namespace Severity

def label : Severity → String
  | error => "ERROR"
  | warning => "WARN"
  | info => "INFO"
  | debug => "DEBUG"
  | trace => "TRACE"

def line (severity : Severity) (text : String) : String :=
  severity.label ++ " " ++ text

end Severity

end VoteGossip
