/-
The socket table (`aarch64_socket`). A local port comes from a counter when the socket is made, and from `bind`; a
frame that arrives goes to the first socket in the table that fits it.
-/
import MakOS.Data.Slots
import MakOS.Tcp.Socket

namespace MakOS.Net

open Data

abbrev maxSockets : Nat := 128
abbrev socketHandleFirst : Nat := 0x101
abbrev socketHandleLast : Nat := 0x3ff
abbrev udpResponseCapacity : Nat := 1536
abbrev udpQueueDepth : Nat := 2
abbrev firstAutomaticPort : UInt16 := 49152

abbrev Ipv4 := Vector UInt8 4
abbrev Ipv6 := Vector UInt8 16

inductive Domain
  | inet
  | inet6
  deriving DecidableEq, Repr

inductive Kind
  | stream
  | dgram
  deriving DecidableEq, Repr

inductive Protocol
  | tcp
  | udp
  deriving DecidableEq, Repr

inductive IpAddress
  | v4 (bytes : Ipv4)
  | v6 (bytes : Ipv6)
  deriving DecidableEq

def IpAddress.domain : IpAddress → Domain
  | .v4 _ => .inet
  | .v6 _ => .inet6

structure Endpoint where
  address : IpAddress
  port : UInt16
  deriving DecidableEq

structure Datagram where
  source : Endpoint
  payload : List UInt8
  deriving DecidableEq

structure Socket where
  used : Bool
  generation : UInt32
  handle : Nat
  ownerPid : Nat
  domain : Domain
  kind : Kind
  protocol : Protocol
  connected : Bool
  nonblocking : Bool
  closeOnExec : Bool
  remoteIp : Ipv4
  remoteIpv6 : Ipv6
  remotePort : UInt16
  localPort : UInt16
  tcp : Option (Tcp.Connection Ipv4)
  tcp6 : Option (Tcp.Connection Ipv6)
  /-- The bytes that arrived and were not received -/
  received : Buffer UInt8 Tcp.tcpReceiveCapacity
  /-- The datagrams that arrived and were not received, at most `UDP_QUEUE_DEPTH` of them -/
  datagrams : List Datagram

/-- `Socket::EMPTY`; nobody looks at the domain and the kind of a socket that is not used. -/
def Socket.empty : Socket :=
  ⟨false, 0, 0, 0, .inet, .stream, .tcp, false, false, false, Vector.replicate 4 0, Vector.replicate 16 0, 0, 0, none,
    none, .empty 0, []⟩

def Socket.remoteEndpoint (socket : Socket) : Endpoint :=
  ⟨match socket.domain with
    | .inet6 => .v6 socket.remoteIpv6
    | .inet => .v4 socket.remoteIp, socket.remotePort⟩

def validRemote : IpAddress → Bool
  | .v4 address => address ≠ Vector.replicate 4 0 && address ≠ Vector.replicate 4 255
  | .v6 address =>
    -- an IPv4-mapped address needs a translation that there is not
    let mapped := address.toList.take 10 == List.replicate 10 0 && (address.toList.drop 10).take 2 == [0xff, 0xff]
    address ≠ Vector.replicate 16 0 && address.toList.head? ≠ some 0xff && !mapped

structure State where
  sockets : Slots Socket maxSockets
  nextGeneration : UInt32
  nextHandle : Nat
  nextPort : UInt16

def State.initial : State := ⟨Slots.replicate maxSockets .empty, 1, socketHandleFirst, firstAutomaticPort⟩

/-- The addresses of the machine; `none` before it is configured -/
structure Config where
  ipv4 : Option Ipv4
  ipv6 : Option Ipv6

/-- An address that a socket may be bound to -/
def Config.accepts (config : Config) : IpAddress → Bool
  | .v4 address => address = Vector.replicate 4 0 || address = config.ipv4.getD (Vector.replicate 4 0)
  | .v6 address => address = Vector.replicate 16 0 || address = config.ipv6.getD (Vector.replicate 16 0)

def Socket.withRemote (socket : Socket) : IpAddress → Socket
  | .v4 remoteIp => { socket with remoteIp }
  | .v6 remoteIpv6 => { socket with remoteIpv6 }

namespace State

def set (s : State) (index : Fin maxSockets) (socket : Socket) : State :=
  { s with sockets := s.sockets.set index socket }

def resolveIndex (s : State) (pid handle : Nat) : Option (Fin maxSockets) :=
  position (fun socket => socket.used && socket.handle == handle && socket.ownerPid == pid) s.sockets

/-! ## Making a socket -/

/-- What the arguments of `create` ask for -/
def socketType (domain kind protocol : UInt64) : Option (Domain × Kind × Protocol) := do
  let (kind', protocol') ←
    if kind &&& 0xf = 2 ∧ (protocol = 0 ∨ protocol = 17) then some (Kind.dgram, Protocol.udp)
    else if kind &&& 0xf = 1 ∧ (protocol = 0 ∨ protocol = 6) then some (Kind.stream, Protocol.tcp)
    else none
  let domain' ← if domain = 2 then some Domain.inet else if domain = 10 then some Domain.inet6 else none
  if kind &&& ~~~(0xf ||| 0x800 ||| 0x80000) ≠ 0 then none else some (domain', kind', protocol')

def handleAfter (handle : Nat) : Nat := if handle = socketHandleLast then socketHandleFirst else handle + 1

/-- The loop of `create`: once around the handles -/
def searchHandle (s : State) : Nat → Nat → Option Nat
  | 0, _ => none
  | turns + 1, handle =>
    if !(s.sockets.toList.any fun socket => socket.used && socket.handle == handle) then some handle
    else if handleAfter handle = s.nextHandle then none
    else s.searchHandle turns (handleAfter handle)

def freeHandle (s : State) : Option Nat :=
  s.searchHandle (socketHandleLast - socketHandleFirst + 1) (min (max s.nextHandle socketHandleFirst) socketHandleLast)

def automaticPort (s : State) : UInt16 := max s.nextPort firstAutomaticPort

def created (pid handle : Nat) (generation : UInt32) (type : Domain × Kind × Protocol) (kind : UInt64)
    (localPort : UInt16) : Socket :=
  { Socket.empty with
    used := true, generation, handle, ownerPid := pid, domain := type.1, kind := type.2.1, protocol := type.2.2
    nonblocking := kind &&& 0x800 ≠ 0, closeOnExec := kind &&& 0x80000 ≠ 0, localPort }

def create (pid : Nat) (domain kind protocol : UInt64) (s : State) : Option Nat × State :=
  match socketType domain kind protocol with
  | none => (none, s)
  | some type => match position (fun socket => !socket.used) s.sockets with
    | none => (none, s)
    | some index =>
      let generation := max s.nextGeneration 1
      let s := { s with nextGeneration := max (generation + 1) 1 }
      match s.freeHandle with
      | none => (none, s)
      | some handle =>
        let localPort := s.automaticPort
        let nextPort := if localPort = 65535 then firstAutomaticPort else localPort + 1
        (some handle, { s with nextHandle := handleAfter handle, nextPort }.set index
          (created pid handle generation type kind localPort))

/-! ## Local and remote endpoints -/

inductive Errno
  | badDescriptor
  | invalid
  | notAvailable
  | inUse
  deriving DecidableEq, Repr

/-- Another socket that the test passes has the port. -/
def taken (s : State) (index : Fin maxSockets) (port : UInt16) (test : Socket → Bool) : Bool :=
  (List.finRange maxSockets).any fun candidate => candidate ≠ index && s.sockets[candidate].used &&
    test s.sockets[candidate] && s.sockets[candidate].localPort == port

/-- The last part of a bind: port 0 keeps the port of the socket. -/
def bindPort (s : State) (index : Fin maxSockets) (port : UInt16) (test : Socket → Bool) : Except Errno Unit × State :=
  if port ≠ 0 && s.taken index port test then (.error .inUse, s)
  else (.ok (), if port ≠ 0 then s.set index { s.sockets[index] with localPort := port } else s)

def bindEndpoint (config : Config) (pid handle : Nat) (endpoint : Endpoint) (s : State) : Except Errno Unit × State :=
  match s.resolveIndex pid handle with
  | none => (.error .badDescriptor, s)
  | some index =>
    let socket := s.sockets[index]
    if socket.domain ≠ endpoint.address.domain || socket.connected then (.error .invalid, s)
    else if !config.accepts endpoint.address then (.error .notAvailable, s)
    else s.bindPort index endpoint.port fun other => other.domain = socket.domain && other.protocol = socket.protocol

/-- Operation 16 of `control`, the older bind: it looks at the sockets of every domain and protocol. -/
def controlBind (config : Config) (pid handle : Nat) (family : UInt16) (ipv4 : Ipv4) (port : UInt16) (s : State) :
    Except Errno Unit × State :=
  match s.resolveIndex pid handle with
  | none => (.error .badDescriptor, s)
  | some index =>
    if family ≠ 2 || !config.accepts (.v4 ipv4) then (.error .notAvailable, s)
    else s.bindPort index port fun _ => true

/-- The socket that `connect` is about, as it is looked up at its start -/
def connectIdentity (s : State) (pid handle : Nat) (remote : Endpoint) : Option (Fin maxSockets × UInt32) := do
  if remote.port = 0 || !validRemote remote.address then none
  let index ← s.resolveIndex pid handle
  if s.sockets[index].connected || s.sockets[index].domain ≠ remote.address.domain then none
  some (index, s.sockets[index].generation)

/-- The end of `connect`, after the handshake of a stream. Other calls may come in between. -/
def connectCommit (pid : Nat) (index : Fin maxSockets) (generation : UInt32) (remote : Endpoint)
    (tcp : Option (Tcp.Connection Ipv4)) (tcp6 : Option (Tcp.Connection Ipv6)) (s : State) : Bool × State :=
  let current := s.sockets[index]
  if !current.used || current.generation ≠ generation || current.ownerPid ≠ pid then (false, s)
  else
    (true, s.set index { current.withRemote remote.address with
      connected := true, remotePort := remote.port, tcp, tcp6, datagrams := [] })

def close (pid handle : Nat) (s : State) : Bool × State :=
  match s.resolveIndex pid handle with
  | none => (false, s)
  | some index => (true, s.set index .empty)

/-- One round of `close_all` and, with the flag, of `close_on_exec` -/
def closeFirst (pid : Nat) (onExec : Bool) (s : State) : Bool × State :=
  match position (fun socket => socket.used && socket.ownerPid == pid && (!onExec || socket.closeOnExec)) s.sockets with
  | none => (false, s)
  | some index => (true, s.set index .empty)

/-! ## Arriving frames -/

/-- The socket takes a datagram from the source for the port. -/
def wantsDatagram (source : Endpoint) (port : UInt16) (socket : Socket) : Bool :=
  socket.used && socket.domain = source.address.domain && socket.kind = .dgram && socket.protocol = .udp &&
    socket.localPort == port && (!socket.connected || socket.remoteEndpoint = source)

/-- The socket takes a segment from the source for the port. -/
def wantsSegment (source : Endpoint) (port : UInt16) (socket : Socket) : Bool :=
  socket.used && socket.domain = source.address.domain && socket.connected && socket.kind = .stream &&
    socket.protocol = .tcp && socket.remoteEndpoint = source && socket.localPort == port

/-- A datagram's turn in `pump`: a full queue loses its oldest datagram. -/
def pumpDatagram (source : Endpoint) (port : UInt16) (payload : List UInt8) (s : State) : Option Nat × State :=
  match position (wantsDatagram source port) s.sockets with
  | none => (none, s)
  | some index =>
    if payload.length > udpResponseCapacity then (none, s)
    else
      let socket := s.sockets[index]
      let waiting := if socket.datagrams.length = udpQueueDepth then socket.datagrams.drop 1 else socket.datagrams
      (some socket.handle, s.set index { socket with datagrams := waiting ++ [⟨source, payload⟩] })

/-- What the connection makes of a segment -/
def ingested {Address : Type} [DecidableEq Address] (connection : Option (Tcp.Connection Address))
    (buffer : Buffer UInt8 Tcp.tcpReceiveCapacity) (segment : Tcp.Segment Address) :
    Option (Tcp.Connection Address) × Buffer UInt8 Tcp.tcpReceiveCapacity :=
  match connection with
  | none => (none, buffer)
  | some connection => match h : Tcp.ingest connection segment buffer.room with
    | none => (some connection, buffer)
    | some result => (some result.connection, buffer.append result.written (Tcp.written_le h))

/-- A segment's turn in `pump` -/
def pumpSegment (segment : Tcp.Segment Ipv4) (s : State) : State :=
  match position (wantsSegment ⟨.v4 segment.sourceIp, segment.sourcePort⟩ segment.destinationPort) s.sockets with
  | none => s
  | some index =>
    let result := ingested s.sockets[index].tcp s.sockets[index].received.compact segment
    s.set index { s.sockets[index] with tcp := result.1, received := result.2 }

/-- The same for IPv6 -/
def pumpSegment6 (segment : Tcp.Segment Ipv6) (s : State) : State :=
  match position (wantsSegment ⟨.v6 segment.sourceIp, segment.sourcePort⟩ segment.destinationPort) s.sockets with
  | none => s
  | some index =>
    let result := ingested s.sockets[index].tcp6 s.sockets[index].received.compact segment
    s.set index { s.sockets[index] with tcp6 := result.1, received := result.2 }

end State

end MakOS.Net
