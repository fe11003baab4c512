/-
The receiving side of a connected TCP socket (`aarch64_virtio_net`, `aarch64_socket`): segments are
taken in sequence only, into a buffer that `receive_from` drains. The code for IPv4 and for IPv6 is the
same but for the addresses.
-/
import MakOS.Data.Buffer

namespace MakOS.Tcp

open Data

abbrev tcpReceiveCapacity : Nat := 32768

/-! ## Connections -/

/-- An arriving segment, as far as a connection looks at it. -/
structure Segment (Address : Type) where
  sourceIp : Address
  sourcePort : UInt16
  destinationPort : UInt16
  sequence : UInt32
  flags : UInt8
  payload : List UInt8
  deriving DecidableEq

structure Connection (Address : Type) where
  remoteIp : Address
  localPort : UInt16
  remotePort : UInt16
  transmitSequence : UInt32
  receiveSequence : UInt32
  receiveWindow : UInt16
  closed : Bool
  peerEof : Bool
  deriving DecidableEq

/-- The acknowledgment that is sent: an empty segment with flag `ACK`. -/
structure Ack where
  sequence : UInt32
  acknowledgment : UInt32
  window : UInt16
  deriving DecidableEq

structure Ingress where
  length : Nat
  closed : Bool
  deriving DecidableEq

section

variable {Address : Type} [DecidableEq Address]

namespace Segment

def fin (segment : Segment Address) : Bool := segment.flags &&& 0x01 != 0

def rst (segment : Segment Address) : Bool := segment.flags &&& 0x04 != 0

end Segment

def windowOf (available : Nat) : UInt16 := UInt16.ofNat (min available 65535)

namespace Connection

def carries (connection : Connection Address) (segment : Segment Address) : Bool :=
  segment.sourceIp == connection.remoteIp && segment.sourcePort == connection.remotePort &&
    segment.destinationPort == connection.localPort

def ack (connection : Connection Address) : Ack :=
  ⟨connection.transmitSequence, connection.receiveSequence, connection.receiveWindow⟩

def advance (connection : Connection Address) (length : Nat) : Connection Address :=
  { connection with receiveSequence := connection.receiveSequence + UInt32.ofNat length }

/-- The connection after a FIN was taken. A FIN after a reset does not make an end of stream. -/
def finish (connection : Connection Address) : Connection Address :=
  { connection with
    receiveSequence := connection.receiveSequence + 1
    peerEof := if connection.closed then connection.peerEof else true
    closed := true }

def taking (connection : Connection Address) (segment : Segment Address) : Connection Address :=
  if segment.fin then (connection.advance segment.payload.length).finish else connection.advance segment.payload.length

end Connection

/-- What `tcp_ingest` makes of a segment of the connection: the connection it leaves, what it writes to
the output and what it sends. -/
structure Ingested (Address : Type) where
  connection : Connection Address
  ingress : Ingress
  written : List UInt8
  ack : Option Ack

/-- Take the payload and the FIN of a segment that is in sequence and fits. -/
def take (connection : Connection Address) (segment : Segment Address) (room : Nat) : Ingested Address :=
  let connection := { connection.taking segment with receiveWindow := windowOf (room - segment.payload.length) }
  ⟨connection, ⟨segment.payload.length, connection.closed⟩, segment.payload,
    if !segment.payload.isEmpty || connection.closed then some connection.ack else none⟩

/-- `tcp_ingest` with an output of the given length; `none` if the segment is not for the connection. -/
def ingest (connection : Connection Address) (segment : Segment Address) (room : Nat) : Option (Ingested Address) :=
  if !connection.carries segment then none
  else if segment.rst then some ⟨{ connection with closed := true, peerEof := false }, ⟨0, true⟩, [], none⟩
  else if segment.sequence ≠ connection.receiveSequence then
    let connection := { connection with receiveWindow := windowOf room }
    some ⟨connection, ⟨0, connection.closed⟩, [], some connection.ack⟩
  else if segment.payload.length > room then
    let connection := { connection with receiveWindow := 0 }
    some ⟨connection, ⟨0, false⟩, [], some connection.ack⟩
  else some (take connection segment room)

/-- The window after a read, and the acknowledgment that tells the peer if it grew. -/
def updateReceiveWindow (connection : Connection Address) (available : Nat) : Connection Address × Option Ack :=
  let updated := { connection with receiveWindow := windowOf available }
  if connection.closed || windowOf available ≤ connection.receiveWindow then (updated, none)
  else (updated, some updated.ack)

end

def tcpIngest : Connection (Vector UInt8 4) → Segment (Vector UInt8 4) → Nat → Option (Ingested (Vector UInt8 4)) := ingest
def tcp6Ingest : Connection (Vector UInt8 16) → Segment (Vector UInt8 16) → Nat → Option (Ingested (Vector UInt8 16)) := ingest

def tcpUpdateReceiveWindow : Connection (Vector UInt8 4) → Nat → Connection (Vector UInt8 4) × Option Ack :=
  updateReceiveWindow
def tcp6UpdateReceiveWindow : Connection (Vector UInt8 16) → Nat → Connection (Vector UInt8 16) × Option Ack :=
  updateReceiveWindow

variable {Address : Type} [DecidableEq Address]

theorem written_le {connection : Connection Address} {segment : Segment Address} {room : Nat} {result : Ingested Address}
    (h : ingest connection segment room = some result) : result.written.length ≤ room := by
  unfold ingest at h
  split at h
  · cases h
  split at h
  · cases h
    exact Nat.zero_le _
  split at h
  · cases h
    exact Nat.zero_le _
  split at h
  · cases h
    exact Nat.zero_le _
  · rename_i hroom
    cases h
    exact Nat.le_of_not_lt hroom

/-! ## Sockets -/

/-- A connected socket: its connection, and what arrived and was not received yet. -/
structure Socket (Address : Type) where
  connection : Connection Address
  buffer : Buffer UInt8 tcpReceiveCapacity

structure Received (Address : Type) where
  count : Nat
  bytes : List UInt8
  remoteIp : Address
  remotePort : UInt16

namespace Socket

/-- A socket as `connect` leaves it. -/
def connected (remoteIp : Address) (localPort remotePort : UInt16) (transmitSequence receiveSequence : UInt32)
    (receiveWindow : UInt16) : Socket Address :=
  ⟨⟨remoteIp, localPort, remotePort, transmitSequence, receiveSequence, receiveWindow, false, false⟩, .empty 0⟩

/-- One segment's turn in `pump`. A segment of another connection does not get here. -/
def arrive (socket : Socket Address) (segment : Segment Address) : Socket Address × Option Ingress × Option Ack :=
  if socket.connection.carries segment then
    let buffer := socket.buffer.compact
    match h : ingest socket.connection segment buffer.room with
    | none => ({ socket with buffer }, none, none)
    | some result =>
      (⟨result.connection, buffer.append result.written (written_le h)⟩, some result.ingress, result.ack)
  else (socket, none, none)

/-- `receive_from` with an output of the given length. -/
def receiveFrom (socket : Socket Address) (size : Nat) : Option (Received Address) × Socket Address × Option Ack :=
  if size = 0 then (none, socket, none)
  else if socket.buffer.available ≠ 0 then
    let count := min size socket.buffer.available
    let buffer := socket.buffer.consume count (Nat.min_le_right _ _)
    let updated := updateReceiveWindow socket.connection (tcpReceiveCapacity - buffer.available)
    (some ⟨count, socket.buffer.read count, socket.connection.remoteIp, socket.connection.remotePort⟩,
      ⟨updated.1, buffer⟩, updated.2)
  else if socket.connection.peerEof then
    (some ⟨0, [], socket.connection.remoteIp, socket.connection.remotePort⟩, socket, none)
  else (none, socket, none)

end Socket

/-! ## Events -/

inductive Event (Address : Type)
  | segment (segment : Segment Address)
  | receive (size : Nat)

structure Output (Address : Type) where
  ingress : Option Ingress
  received : Option (Received Address)
  ack : Option Ack

def Socket.step (socket : Socket Address) : Event Address → Socket Address × Output Address
  | .segment segment =>
    let result := socket.arrive segment
    (result.1, ⟨result.2.1, none, result.2.2⟩)
  | .receive size =>
    let result := socket.receiveFrom size
    (result.2.1, ⟨none, result.1, result.2.2⟩)

def Socket.run (socket : Socket Address) : List (Event Address) → Socket Address × List (Output Address)
  | [] => (socket, [])
  | event :: events =>
    let rest := (socket.step event).1.run events
    (rest.1, (socket.step event).2 :: rest.2)

/-! ## What a segment does -/

/-- The segment is taken: it is for the connection, not a reset, in sequence, and it fits. -/
def Socket.takes (socket : Socket Address) (segment : Segment Address) : Bool :=
  socket.connection.carries segment && !segment.rst && segment.sequence == socket.connection.receiveSequence &&
    decide (segment.payload.length ≤ tcpReceiveCapacity - socket.buffer.available)

end MakOS.Tcp
