/-
Local ports. `bind` looks whether a socket of the same domain and protocol has the port. `create` does not look: its
counter comes around to ports that are still in use, and to ports that a `bind` took. In the runs where this does not
happen no two sockets have the same port, and a frame has one socket to go to.
-/
import MakOS.Data.Guarded
import MakOS.Net.Sockets

namespace MakOS.Net

open Data State

/-- A call, or one of its parts under the lock -/
inductive Call
  | create (pid : Nat) (domain kind protocol : UInt64)
  | bindEndpoint (config : Config) (pid handle : Nat) (endpoint : Endpoint)
  | controlBind (config : Config) (pid handle : Nat) (family : UInt16) (ipv4 : Ipv4) (port : UInt16)
  /-- With any socket and any connections, so also with those of a socket that others changed since -/
  | connectCommit (pid : Nat) (index : Fin maxSockets) (generation : UInt32) (remote : Endpoint)
      (tcp : Option (Tcp.Connection Ipv4)) (tcp6 : Option (Tcp.Connection Ipv6))
  | close (pid handle : Nat)
  | closeFirst (pid : Nat) (onExec : Bool)
  | datagram (source : Endpoint) (port : UInt16) (payload : List UInt8)
  | segment (segment : Tcp.Segment Ipv4)
  | segment6 (segment : Tcp.Segment Ipv6)

def step (s : State) : Call → State
  | .create pid domain kind protocol => (s.create pid domain kind protocol).2
  | .bindEndpoint config pid handle endpoint => (s.bindEndpoint config pid handle endpoint).2
  | .controlBind config pid handle family ipv4 port => (s.controlBind config pid handle family ipv4 port).2
  | .connectCommit pid index generation remote tcp tcp6 => (s.connectCommit pid index generation remote tcp tcp6).2
  | .close pid handle => (s.close pid handle).2
  | .closeFirst pid onExec => (s.closeFirst pid onExec).2
  | .datagram source port payload => (s.pumpDatagram source port payload).2
  | .segment segment => s.pumpSegment segment
  | .segment6 segment => s.pumpSegment6 segment

def run (calls : List Call) : State := calls.foldl step .initial

/-- Two sockets that the same frames are for -/
def Socket.Clashes (a b : Socket) : Prop :=
  a.used = true ∧ b.used = true ∧ a.domain = b.domain ∧ a.protocol = b.protocol ∧ a.localPort = b.localPort

instance Socket.decidableClashes (a b : Socket) : Decidable (a.Clashes b) := inferInstanceAs (Decidable (_ ∧ _))

/-- No two sockets of one domain and protocol have the same local port. -/
def PortsUnique (s : State) : Prop := ∀ i j : Fin maxSockets, i ≠ j → ¬ s.sockets[i].Clashes s.sockets[j]

/-- No socket of the kind that is made has the next automatic port. -/
def Call.Admits (s : State) : Call → Prop
  | .create _ domain kind protocol => ∀ type ∈ State.socketType domain kind protocol, ∀ i : Fin maxSockets,
      ¬ s.sockets[i].Clashes (State.created 0 0 0 type kind s.automaticPort)
  | _ => True

instance Call.decidableAdmits (s : State) : (call : Call) → Decidable (call.Admits s)
  | .create _ domain kind protocol => inferInstanceAs (Decidable (∀ type ∈ State.socketType domain kind protocol, _))
  | .bindEndpoint .. | .controlBind .. | .connectCommit .. | .close .. | .closeFirst .. | .datagram .. | .segment ..
  | .segment6 .. => isTrue trivial

variable {s : State} {i : Fin maxSockets} {socket : Socket}

theorem Socket.Clashes.symm {a b : Socket} (h : a.Clashes b) : b.Clashes a :=
  ⟨h.2.1, h.1, h.2.2.1.symm, h.2.2.2.1.symm, h.2.2.2.2.symm⟩

theorem PortsUnique.place (h : PortsUnique s) (hnew : ∀ j, j ≠ i → ¬ s.sockets[j].Clashes socket) :
    PortsUnique (s.set i socket) := by
  intro j k hne
  rw [State.set, getElem_set, getElem_set]
  split
  · rename_i hj
    subst hj
    rw [if_neg (Ne.symm hne)]
    exact fun hclash => hnew k (Ne.symm hne) hclash.symm
  split
  · rename_i hj hk
    exact hnew j hj
  · exact h j k hne

/-- A socket may change, but for its domain, protocol and port, or go away. -/
theorem PortsUnique.update (h : PortsUnique s)
    (hkeep : socket.used = true → s.sockets[i].used = true ∧ socket.domain = s.sockets[i].domain ∧
      socket.protocol = s.sockets[i].protocol ∧ socket.localPort = s.sockets[i].localPort) :
    PortsUnique (s.set i socket) := by
  refine h.place fun j hj hclash => h j i hj ?_
  obtain ⟨hused, hdomain, hprotocol, hport⟩ := hkeep hclash.2.1
  exact ⟨hclash.1, hused, hclash.2.2.1.trans hdomain, hclash.2.2.2.1.trans hprotocol, hclash.2.2.2.2.trans hport⟩

theorem PortsUnique.remove (h : PortsUnique s) : PortsUnique (s.set i .empty) :=
  h.update fun hused => by cases hused

/-- A bind that looks at every socket that could clash -/
theorem PortsUnique.bindPort (h : PortsUnique s) (port : UInt16)
    {test : Socket → Bool}
    (htest : ∀ other, other.domain = s.sockets[i].domain → other.protocol = s.sockets[i].protocol → test other = true) :
    PortsUnique (s.bindPort i port test).2 := by
  unfold State.bindPort
  split
  · exact h
  rename_i hfree
  split
  · rename_i hport
    refine h.place fun j hj hclash => hfree ?_
    rw [Bool.and_eq_true, taken, List.any_eq_true]
    refine ⟨by simpa using hport, j, List.mem_finRange j, ?_⟩
    simp [hj, hclash.1, htest _ hclash.2.2.1 hclash.2.2.2.1, hclash.2.2.2.2]
  · exact h

theorem PortsUnique.create (h : PortsUnique s) {pid : Nat} {domain kind protocol : UInt64}
    (hadmits : (Call.create pid domain kind protocol).Admits s) : PortsUnique (s.create pid domain kind protocol).2 := by
  unfold State.create
  split
  · exact h
  rename_i type htype
  split
  · exact h
  dsimp only
  split
  · exact h
  · exact PortsUnique.place h fun j _ hclash => hadmits type htype j hclash

theorem step_unique (h : PortsUnique s) (call : Call) (hadmits : call.Admits s) : PortsUnique (step s call) := by
  cases call with
  | create pid domain kind protocol => exact h.create hadmits
  | bindEndpoint config pid handle endpoint =>
    rw [step, bindEndpoint]
    split
    · exact h
    dsimp only
    split
    · exact h
    split
    · exact h
    · exact h.bindPort _ fun other hdomain hprotocol => by simp [hdomain, hprotocol]
  | controlBind config pid handle family ipv4 port =>
    rw [step, controlBind]
    split
    · exact h
    · split
      · exact h
      · exact h.bindPort _ fun _ _ _ => rfl
  | connectCommit pid index generation remote tcp tcp6 =>
    rw [step, connectCommit]
    split
    · exact h
    · refine h.update ?_
      cases remote.address with
      | v4 remoteIp | v6 remoteIpv6 => exact fun hused => ⟨hused, rfl, rfl, rfl⟩
  | close pid handle =>
    rw [step, close]
    split
    · exact h
    · exact h.remove
  | closeFirst pid onExec =>
    rw [step, closeFirst]
    split
    · exact h
    · exact h.remove
  | datagram source port payload =>
    rw [step, pumpDatagram]
    split
    · exact h
    split
    · exact h
    · exact h.update fun hused => ⟨hused, rfl, rfl, rfl⟩
  | segment segment =>
    rw [step, pumpSegment]
    split
    · exact h
    · exact h.update fun hused => ⟨hused, rfl, rfl, rfl⟩
  | segment6 segment =>
    rw [step, pumpSegment6]
    split
    · exact h
    · exact h.update fun hused => ⟨hused, rfl, rfl, rfl⟩

theorem unique_initial : PortsUnique .initial := by
  intro i j _ hclash
  have hused := hclash.1
  rw [initial, getElem_replicate] at hused
  cases hused

theorem PortsUnique.target (h : PortsUnique s) (source : Endpoint) (port : UInt16) :
    (position (wantsDatagram source port) s.sockets = some i ↔
      wantsDatagram source port s.sockets[i] = true) ∧
    (position (wantsSegment source port) s.sockets = some i ↔
      wantsSegment source port s.sockets[i] = true) := by
  refine ⟨position_eq_some_of_unique fun j k hj hk => ?_, position_eq_some_of_unique fun j k hj hk => ?_⟩
  · by_contra hne
    simp only [wantsDatagram, Bool.and_eq_true, decide_eq_true_eq, beq_iff_eq] at hj hk
    obtain ⟨⟨⟨⟨⟨hj, hjd⟩, -⟩, hjp⟩, hjl⟩, -⟩ := hj
    obtain ⟨⟨⟨⟨⟨hk, hkd⟩, -⟩, hkp⟩, hkl⟩, -⟩ := hk
    exact h j k hne ⟨hj, hk, hjd.trans hkd.symm, hjp.trans hkp.symm, hjl.trans hkl.symm⟩
  by_contra hne
  simp only [wantsSegment, Bool.and_eq_true, decide_eq_true_eq, beq_iff_eq] at hj hk
  obtain ⟨⟨⟨⟨⟨⟨hj, hjd⟩, -⟩, -⟩, hjp⟩, -⟩, hjl⟩ := hj
  obtain ⟨⟨⟨⟨⟨⟨hk, hkd⟩, -⟩, -⟩, hkp⟩, -⟩, hkl⟩ := hk
  exact h j k hne ⟨hj, hk, hjd.trans hkd.symm, hjp.trans hkp.symm, hjl.trans hkl.symm⟩

/-- In a run whose automatic ports are free when they are given, no two sockets clash, and each datagram and segment
goes to the one socket that wants it. -/
theorem local_ports_unique {calls : List Call} (h : Guarded step (fun s call => call.Admits s) .initial calls) :
    PortsUnique (run calls) ∧ ∀ (source : Endpoint) (port : UInt16) (i : Fin maxSockets),
      (position (wantsDatagram source port) (run calls).sockets = some i ↔
        wantsDatagram source port (run calls).sockets[i] = true) ∧
      (position (wantsSegment source port) (run calls).sockets = some i ↔
        wantsSegment source port (run calls).sockets[i] = true) := by
  have hunique : PortsUnique (run calls) :=
    @Guarded.foldl _ _ _ _ PortsUnique _ (fun _ call hs hadmits => step_unique hs call hadmits) _ unique_initial h
  exact ⟨hunique, fun source port i => hunique.target source port⟩

/-- Process 1 makes a datagram socket and binds it to a port; then process 2 makes one. -/
def bound (port : UInt16) : List Call :=
  [.create 1 2 2 0, .bindEndpoint ⟨none, none⟩ 1 0x101 ⟨.v4 (Vector.replicate 4 0), port⟩, .create 2 2 2 0]

theorem local_ports_unique_dns :
    Guarded step (fun s call => call.Admits s) .initial (bound 53) ∧ PortsUnique (run (bound 53)) := by
  have h : Guarded step (fun s call => call.Admits s) .initial (bound 53) := by decide +kernel
  exact ⟨h, (local_ports_unique h).1⟩

theorem firstSocket_lt : 0 < maxSockets := by decide

theorem secondSocket_lt : 1 < maxSockets := by decide

/-- The port that is bound is the next automatic one: both sockets have it, and the frames for the second one go to the
first. -/
theorem automatic_port_taken :
    (run (bound 49153)).sockets[(⟨0, firstSocket_lt⟩ : Fin maxSockets)].Clashes
        (run (bound 49153)).sockets[(⟨1, secondSocket_lt⟩ : Fin maxSockets)] ∧
      wantsDatagram ⟨.v4 (Vector.replicate 4 1), 53⟩ 49153
        (run (bound 49153)).sockets[(⟨1, secondSocket_lt⟩ : Fin maxSockets)] = true ∧
      position (wantsDatagram ⟨.v4 (Vector.replicate 4 1), 53⟩ 49153) (run (bound 49153)).sockets =
        some ⟨0, firstSocket_lt⟩ := by
  decide +kernel

end MakOS.Net
