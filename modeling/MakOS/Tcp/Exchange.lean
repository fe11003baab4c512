/-
`tcp_exchange` of the x86 network driver: it sends a request on a new connection and returns the payload of one
segment of the answer.
-/
import MakOS.Tcp.InOrder
import MakOS.Tcp.Send

namespace MakOS.Tcp

structure Arrival extends Segment (Vector UInt8 4) where
  acknowledgment : UInt32
  deriving DecidableEq

/-- What a look at the receiver finds: nothing, a frame that `receive_frame` refuses, or a frame. A frame that is not
a TCP segment for this machine, or has a wrong length or checksum, is passed over. -/
inductive Poll
  | idle
  | refused
  | other
  | arrival (segment : Arrival)

/-- The arguments of `tcp_exchange`; of the output only its length matters. -/
structure Exchange where
  remoteIp : Vector UInt8 4
  remotePort : UInt16
  sourcePort : UInt16
  request : List UInt8
  outputLength : Nat

namespace Exchange

def clientSequence : UInt32 := 0x4d414b54

def expectedAck (exchange : Exchange) : UInt32 := clientSequence + 1 + UInt32.ofNat exchange.request.length

/-- The tests that `receive_tcp_synack` and `receive_tcp_payload` have in common -/
def takes (exchange : Exchange) (segment : Arrival) (acknowledgment : UInt32) : Bool :=
  segment.sourceIp == exchange.remoteIp && segment.sourcePort == exchange.remotePort &&
    segment.destinationPort == exchange.sourcePort && segment.acknowledgment == acknowledgment

/-- The sequence number of the peer, and what arrives after it -/
def receiveTcpSynack (exchange : Exchange) : (turns : Nat) → List Poll → Option (UInt32 × List Poll)
  | 0, _ | _, [] => none
  | turns + 1, .arrival segment :: polls =>
    if exchange.takes segment (clientSequence + 1) && segment.flags &&& 0x12 == 0x12 then some (segment.sequence, polls)
    else exchange.receiveTcpSynack turns polls
  | turns + 1, _ :: polls => exchange.receiveTcpSynack turns polls

/-- The segment whose payload, sequence number and FIN are returned -/
def receiveTcpPayload (exchange : Exchange) : (turns : Nat) → List Poll → Option Arrival
  | 0, _ | _, [] => none
  | turns + 1, .arrival segment :: polls =>
    if exchange.takes segment exchange.expectedAck && segment.flags &&& 0x10 != 0 && !segment.payload.isEmpty then
      some segment
    else exchange.receiveTcpPayload turns polls
  | _, .refused :: _ => none
  | turns + 1, _ :: polls => exchange.receiveTcpPayload turns polls

variable {exchange : Exchange} {polls rest : List Poll} {turns : Nat} {serverSequence initial : UInt32}
  {stream : List UInt8} {segment : Arrival}

/-- The segment that a call takes its data from -/
def accepted (exchange : Exchange) (polls : List Poll) : Option Arrival :=
  (exchange.receiveTcpSynack 50000000 polls).bind fun synack => exchange.receiveTcpPayload 80000000 synack.2

end Exchange

end MakOS.Tcp
