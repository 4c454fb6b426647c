import VoteGossip.Tx

/-!
Validity checks that an application puts in front of the pool.
-/

set_option autoImplicit false

namespace VoteGossip

abbrev Validator := Tx → Except String Unit

namespace Validator

def acceptAll : Validator := fun _ => .ok ()

def evenLength : Validator := fun tx =>
  if tx.size % 2 = 1 then .error "odd length" else .ok ()

/-- Takes payloads without a zero byte only, and says where the first one stands. -/
def noZeroByte : Validator := fun tx =>
  match tx.payload.findIdx? (· == 0) with
  | some index => .error s!"zero byte at {index}"
  | none => .ok ()

end Validator

end VoteGossip
