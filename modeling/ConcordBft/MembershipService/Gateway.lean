import ConcordBft.Lib.LittleEndian
import ConcordBft.Messages
import ConcordBft.SimpleClient.Replies

set_option autoImplicit false

/-! # The gateway of the membership service (`tests/membership_service/client.cpp`)

`SayHello` copies the name of a gRPC request into a buffer of the same size and passes it to
`sendRequest`, which sends it in a `ClientRequestMsg`; the handler of a replica gets what this message
holds. An update is as long as the buffer. The length of a read is multiplied by eight, so a read goes
on with what is in memory behind the buffer. -/

namespace ConcordBft.MembershipService

open Checked LittleEndian SimpleClient SimpleClientImp

end ConcordBft.MembershipService
