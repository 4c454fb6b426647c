import Std.Data.ExtTreeMap
import VoteGossip.NodeId

/-!
The chain height that each node last reported. A node without a report is not an error: it may
have connected a moment ago.
-/

set_option autoImplicit false

namespace VoteGossip

abbrev Heights := Std.ExtTreeMap NodeId UInt64

namespace Heights

def reported? (heights : Heights) (node : NodeId) : Option UInt64 := heights[node]?

def report (heights : Heights) (node : NodeId) (height : UInt64) : Heights :=
  heights.insert node height

def forget (heights : Heights) (node : NodeId) : Heights := heights.erase node

end Heights

end VoteGossip
