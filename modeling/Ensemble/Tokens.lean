import Ensemble.Decimal.Binary
import Ensemble.Message

/-!
# Estimated size of messages

Four bytes of text count as one token, rounded up. The number of bytes is first rounded to the 24
bits of a short float.
-/

namespace Ensemble.Tokens

def ofSize (bytes : Nat) : Nat := (Decimal.shortened 24 bytes + 3) / 4

def ofText (s : String) : Nat := ofSize s.utf8ByteSize

/-- Every message costs ten tokens more than its texts. -/
def ofMessage (m : Message) : Nat :=
  ofText m.content + (m.calls.map fun c => ofText c.name + ofText c.arguments).foldl (· + ·) 0 + 10

def total (ms : List Message) : Nat := (ms.map ofMessage).foldl (· + ·) 0

def exceeds (limit : Nat) (ms : List Message) : Bool := limit < total ms

end Ensemble.Tokens
