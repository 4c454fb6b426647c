/-!
What reading a configuration file can come to, before anybody looks at the text.
-/

set_option autoImplicit false

namespace VoteGossip

inductive FileFault where
  | missing
  | directory
  /-- Its bytes are not valid UTF-8. -/
  | notText
  deriving DecidableEq

def FileFault.message : FileFault → String
  | .missing => "No such file or directory (os error 2)"
  | .directory => "Is a directory (os error 21)"
  | .notText => "stream did not contain valid UTF-8"

def fileText (bytes : List UInt8) : Except FileFault String :=
  match String.fromUTF8? ⟨bytes.toArray⟩ with
  | some text => .ok text
  | none => .error .notText

end VoteGossip
