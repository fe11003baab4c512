/-
What the receiver gets of the peer's stream: what was received and what is buffered are together the
stream up to the sequence number that is acknowledged. A stream of 2^32 - 1 bytes is the exception:
after its FIN the sequence number is that of its first byte again, and a late duplicate of the first
segment is taken once more.
-/
import MakOS.Tcp.Stream

namespace MakOS.Tcp

open Data Socket

variable {Address : Type} [DecidableEq Address]

/-! ## The peer -/

/-- A segment of the peer's stream: its payload is what the stream has at its sequence number, and a FIN
is only where the stream ends. -/
def Genuine (stream : List UInt8) (initial : UInt32) (segment : Segment Address) : Prop :=
  ∃ offset, offset + segment.payload.length ≤ stream.length ∧ segment.sequence = initial + UInt32.ofNat offset ∧
    segment.payload = (stream.drop offset).take segment.payload.length ∧
    (segment.fin = true → offset + segment.payload.length = stream.length)

/-- No payload is taken once the FIN of the stream was. -/
def NothingAfterFin (stream : List UInt8) (initial : UInt32) (socket : Socket Address) (segment : Segment Address) : Prop :=
  socket.connection.closed = true → socket.connection.receiveSequence = initial + UInt32.ofNat stream.length + 1 →
    socket.takes segment = true → segment.payload = []

variable {initial : UInt32} {n : Nat}

/-- Sequence numbers tell the offsets of a stream apart. -/
theorem offset_unique {m : Nat} (hm : m < 2 ^ 32) (hn : n < 2 ^ 32)
    (h : initial + UInt32.ofNat m = initial + UInt32.ofNat n) : m = n := by
  have := congrArg UInt32.toNat h
  simp only [UInt32.toNat_add, UInt32.toNat_ofNat'] at this
  omega

/-- A shorter stream has no segment that would be in sequence after its FIN. -/
theorem nothingAfterFin_of_short {stream : List UInt8} {socket : Socket Address}
    {segment : Segment Address} (hshort : stream.length + 1 < 2 ^ 32) (hgenuine : Genuine stream initial segment) :
    NothingAfterFin stream initial socket segment := by
  intro _ hseq htakes
  obtain ⟨-, -, hin, -⟩ := takes_iff.1 htakes
  obtain ⟨offset, hle, hoffset, -, -⟩ := hgenuine
  have hone : initial + UInt32.ofNat offset = initial + UInt32.ofNat (stream.length + 1) := by
    rw [← hoffset, hin, hseq, UInt32.ofNat_add, UInt32.add_assoc]
    rfl
  have := offset_unique (by omega) hshort hone
  omega

/-! ## What a run shows -/

def received (outputs : List (Output Address)) : List UInt8 := outputs.flatMap fun output => output.received.elim [] (·.bytes)

def accepted (outputs : List (Output Address)) : Nat := (outputs.map fun output => output.ingress.elim 0 (·.length)).sum

def Socket.tookFin : Socket Address → List (Event Address) → Bool
  | _, [] => false
  | socket, .segment segment :: events => (socket.takes segment && segment.fin) || (socket.arrive segment).1.tookFin events
  | socket, .receive size :: events => (socket.receiveFrom size).2.1.tookFin events

/-! ## The invariant -/

/-- What was received and what is buffered are the first bytes of the stream, as many as were taken; the
FIN was taken only after all of them. -/
structure InOrder (stream : List UInt8) (initial : UInt32) (socket : Socket Address) (bytes : List UInt8) (count : Nat)
    (fin : Bool) : Prop where
  le : count ≤ stream.length
  bytes : bytes ++ socket.buffer.contents = stream.take count
  sequence : socket.connection.receiveSequence = initial + UInt32.ofNat count + (if fin then 1 else 0)
  ended : fin = true → count = stream.length ∧ socket.connection.closed = true

section Step

variable {stream bytes : List UInt8} {initial : UInt32} {socket : Socket Address} {segment : Segment Address}
  {count : Nat} {fin : Bool}

variable (h : InOrder stream initial socket bytes count fin)
include h

theorem InOrder.taken (hlen : stream.length < 2 ^ 32)
    (hgenuine : Genuine stream initial segment) (hquiet : NothingAfterFin stream initial socket segment)
    (ht : socket.takes segment = true) :
    InOrder stream initial (socket.arrive segment).1 bytes (count + segment.payload.length) (fin || segment.fin) := by
  have htaken := arrive_taken ht
  obtain ⟨-, -, hin, -⟩ := takes_iff.1 ht
  obtain ⟨offset, hle, hoffset, hpayload, hend⟩ := hgenuine
  have hcount := h.le
  cases fin with
  | false =>
    have hsame : initial + UInt32.ofNat offset = initial + UInt32.ofNat count := by
      rw [← hoffset, hin, h.sequence]
      simp
    obtain rfl := offset_unique (by omega) (by omega) hsame
    refine ⟨hle, ?_, ?_, fun hf => ⟨hend (by simpa using hf), ?_⟩⟩
    · rw [htaken.contents, ← List.append_assoc, h.bytes, hpayload, List.length_take, List.length_drop, Nat.min_eq_left (by omega),
        ← List.take_add]
    · rw [htaken.sequence, h.sequence, UInt32.ofNat_add, ← UInt32.add_assoc]
      simp
    · rw [htaken.closed, Bool.or_eq_true]
      exact .inr (by simpa using hf)
  | true =>
    -- after the FIN only an empty segment can be in sequence, and not the one with the FIN
    obtain ⟨hall, hclosed⟩ := h.ended rfl
    have hempty := hquiet hclosed (by rw [h.sequence, hall]; rfl) ht
    have hnofin : segment.fin = false := by
      by_contra hf
      rw [Bool.not_eq_false] at hf
      have hlast := hend hf
      rw [hempty, List.length_nil, Nat.add_zero] at hlast
      have hwrap := hoffset.symm.trans (hin.trans h.sequence)
      rw [hlast, hall, if_pos rfl] at hwrap
      have := congrArg UInt32.toNat hwrap
      simp only [UInt32.toNat_add, UInt32.toNat_one] at this
      omega
    refine ⟨by rw [hempty]; exact h.le, ?_, ?_, fun _ => ⟨by rw [hempty]; exact hall, ?_⟩⟩
    · rw [htaken.contents, hempty]
      simpa using h.bytes
    · rw [htaken.sequence, h.sequence, hempty, hnofin]
      simp
    · rw [htaken.closed, hclosed, Bool.true_or]

theorem InOrder.ignored (ht : socket.takes segment = false) :
    InOrder stream initial (socket.arrive segment).1 bytes count fin := by
  have hignored := arrive_ignored ht
  refine ⟨h.le, ?_, ?_, fun hf => ⟨(h.ended hf).1, ?_⟩⟩
  · rw [hignored.contents]
    exact h.bytes
  · rw [hignored.sequence]
    exact h.sequence
  rcases hignored.flags with ⟨hc, -⟩ | ⟨hc, -⟩
  · rw [hc]
    exact (h.ended hf).2
  · exact hc

omit [DecidableEq Address] in
theorem InOrder.receiveFrom (size : Nat) :
    InOrder stream initial (socket.receiveFrom size).2.1 (bytes ++ (socket.receiveFrom size).1.elim [] (·.bytes)) count fin := by
  have hdrained := receiveFrom_drained socket size
  refine ⟨h.le, ?_, ?_, fun hf => ⟨(h.ended hf).1, ?_⟩⟩
  · rw [List.append_assoc, ← hdrained.contents]
    exact h.bytes
  · rw [hdrained.sequence]
    exact h.sequence
  · rw [hdrained.closed]
    exact (h.ended hf).2

omit h

/-- A segment that is not taken counts for nothing. -/
theorem ingress_ignored (ht : socket.takes segment = false) : (socket.arrive segment).2.1.elim 0 (·.length) = 0 := by
  have hignored := arrive_ignored ht
  cases hi : (socket.arrive segment).2.1 with
  | none => rfl
  | some ingress => exact hignored.length ingress hi

theorem InOrder.run (h : InOrder stream initial socket bytes count fin) (hlen : stream.length < 2 ^ 32)
    (events : List (Event Address)) (hgenuine : ∀ segment, .segment segment ∈ events → Genuine stream initial segment)
    (hquiet : socket.Meets (NothingAfterFin stream initial) events) :
    InOrder stream initial (socket.run events).1 (bytes ++ received (socket.run events).2)
      (count + accepted (socket.run events).2) (fin || socket.tookFin events) := by
  induction events generalizing socket bytes count fin with
  | nil => simpa [run, received, accepted, tookFin] using h
  | cons event events ih =>
    have hrest : ∀ segment, .segment segment ∈ events → Genuine stream initial segment :=
      fun segment hs => hgenuine segment (List.mem_cons_of_mem _ hs)
    cases event with
    | segment segment =>
      obtain ⟨hq, hquiet⟩ := hquiet
      cases ht : socket.takes segment with
      | true =>
        obtain ⟨closed, hlength⟩ := (arrive_taken ht).length
        have := ih (h.taken hlen (hgenuine segment List.mem_cons_self) hq ht) hrest hquiet
        simpa [run, step, received, accepted, tookFin, ht, hlength, Nat.add_assoc, Bool.or_assoc] using this
      | false =>
        have := ih (h.ignored ht) hrest hquiet
        simpa [run, step, received, accepted, tookFin, ht, ingress_ignored ht] using this
    | receive size =>
      have := ih (h.receiveFrom size) hrest hquiet
      simpa [run, step, received, accepted, tookFin, List.append_assoc] using this

end Step

/-- An acknowledgment carries the sequence number that the event leaves. -/
theorem ack_step (socket : Socket Address) (event : Event Address) (ack : Ack) (h : (socket.step event).2.ack = some ack) :
    ack.acknowledgment = (socket.step event).1.connection.receiveSequence := by
  cases event with
  | segment segment =>
    cases ht : socket.takes segment with
    | true => exact (arrive_taken ht).ack ack h
    | false => exact (arrive_ignored ht).ack ack h
  | receive size =>
    have hdrained := receiveFrom_drained socket size
    rw [hdrained.ack ack h]
    exact hdrained.sequence.symm

/-- The bytes received are the first bytes of the peer's stream, the buffer does not overflow, and what
is acknowledged is the number of bytes taken, and one more after the FIN; in every run in which no
payload is taken after the FIN. -/
theorem received_in_order (stream : List UInt8) (hlen : stream.length < 2 ^ 32) (remoteIp : Address)
    (localPort remotePort : UInt16) (transmitSequence initial : UInt32) (receiveWindow : UInt16)
    (events : List (Event Address)) (hgenuine : ∀ segment, .segment segment ∈ events → Genuine stream initial segment)
    (hquiet : (connected remoteIp localPort remotePort transmitSequence initial receiveWindow).Meets
      (NothingAfterFin stream initial) events) :
    received ((connected remoteIp localPort remotePort transmitSequence initial receiveWindow).run events).2 <+: stream ∧
    ((connected remoteIp localPort remotePort transmitSequence initial receiveWindow).run events).1.buffer.available ≤
      tcpReceiveCapacity ∧
    ((connected remoteIp localPort remotePort transmitSequence initial receiveWindow).run
        events).1.connection.receiveSequence = initial +
      UInt32.ofNat (accepted ((connected remoteIp localPort remotePort transmitSequence initial receiveWindow).run events).2) +
      (if (connected remoteIp localPort remotePort transmitSequence initial receiveWindow).tookFin events then 1 else 0) ∧
    ∀ event ack, (((connected remoteIp localPort remotePort transmitSequence initial receiveWindow).run
        events).1.step event).2.ack = some ack →
      ack.acknowledgment = (((connected remoteIp localPort remotePort transmitSequence initial receiveWindow).run
        events).1.step event).1.connection.receiveSequence := by
  have hrun := (show InOrder stream initial (connected remoteIp localPort remotePort transmitSequence initial
      receiveWindow) [] 0 false from ⟨Nat.zero_le _, rfl, by simp [connected], nofun⟩).run hlen events
    hgenuine hquiet
  rw [List.nil_append, Nat.zero_add, Bool.false_or] at hrun
  refine ⟨?_, Buffer.available_le _, hrun.sequence, fun event ack => ack_step _ event ack⟩
  exact (List.prefix_append _ _).trans (hrun.bytes ▸ List.take_prefix _ _)

theorem received_in_order_of_two :
    received ((connected (#v[10, 0, 2, 2] : Vector UInt8 4) 80 443 0 7 0).run
      [.segment ⟨#v[10, 0, 2, 2], 443, 80, 7, 0x11, [65, 66]⟩, .receive 1]).2 = [65] ∧
    received ((connected (#v[10, 0, 2, 2] : Vector UInt8 4) 80 443 0 7 0).run
      [.segment ⟨#v[10, 0, 2, 2], 443, 80, 7, 0x11, [65, 66]⟩, .receive 1]).2 <+: [65, 66] := by
  have hgenuine : Genuine [65, 66] 7 (⟨#v[10, 0, 2, 2], 443, 80, 7, 0x11, [65, 66]⟩ : Segment (Vector UInt8 4)) :=
    ⟨0, by decide, rfl, rfl, fun _ => rfl⟩
  refine ⟨rfl, (received_in_order [65, 66] (by norm_num) #v[10, 0, 2, 2] 80 443 0 7 0
    [.segment ⟨#v[10, 0, 2, 2], 443, 80, 7, 0x11, [65, 66]⟩, .receive 1] ?_
    ⟨nothingAfterFin_of_short (by norm_num) hgenuine, trivial⟩).1⟩
  intro segment hs
  simp only [List.mem_cons, Event.segment.injEq, List.not_mem_nil, or_false, reduceCtorEq] at hs
  subst hs
  exact hgenuine

/-! ## A stream of 2^32 - 1 bytes -/

def byteSegment (offset : Nat) : Segment (Vector UInt8 4) := ⟨#v[10, 0, 2, 2], 443, 80, UInt32.ofNat offset, 0x10, [0]⟩

def finSegment (offset : Nat) : Segment (Vector UInt8 4) := ⟨#v[10, 0, 2, 2], 443, 80, UInt32.ofNat offset, 0x11, []⟩

@[simp] theorem rst_byteSegment (offset : Nat) : (byteSegment offset).rst = false := by
  simp only [Segment.rst, byteSegment]
  decide
@[simp] theorem fin_byteSegment (offset : Nat) : (byteSegment offset).fin = false := by
  simp only [Segment.fin, byteSegment]
  decide
@[simp] theorem rst_finSegment (offset : Nat) : (finSegment offset).rst = false := by
  simp only [Segment.rst, finSegment]
  decide
@[simp] theorem fin_finSegment (offset : Nat) : (finSegment offset).fin = true := by
  simp only [Segment.fin, finSegment]
  decide

/-- Each of the first bytes arrives and is received. -/
def bytewise : Nat → List (Event (Vector UInt8 4))
  | 0 => []
  | n + 1 => bytewise n ++ [.segment (byteSegment n), .receive 1]

theorem run_append (socket : Socket Address) (events events' : List (Event Address)) : socket.run (events ++ events') =
    (((socket.run events).1.run events').1, (socket.run events).2 ++ ((socket.run events).1.run events').2) := by
  induction events generalizing socket with
  | nil => rfl
  | cons event events ih => simp [run, ih]

omit [DecidableEq Address] in
theorem received_append (outputs outputs' : List (Output Address)) :
    received (outputs ++ outputs') = received outputs ++ received outputs' := List.flatMap_append

/-- The socket has taken some bytes, and all of them were received. -/
structure Idle (socket : Socket (Vector UInt8 4)) (count : Nat) : Prop where
  sequence : socket.connection.receiveSequence = UInt32.ofNat count
  contents : socket.buffer.contents = []
  carries : ∀ offset, socket.connection.carries (byteSegment offset) = true

variable {socket : Socket (Vector UInt8 4)} {count offset : Nat}

theorem Idle.takes (h : Idle socket count)
    (hsame : UInt32.ofNat offset = UInt32.ofNat count) : socket.takes (byteSegment offset) = true := by
  have havailable : socket.buffer.available = 0 := by
    rw [← Buffer.length_contents, h.contents]
    rfl
  refine takes_iff.2 ⟨h.carries offset, rst_byteSegment offset, ?_, ?_⟩
  · rw [h.sequence]
    exact hsame
  · rw [havailable]
    simp [byteSegment]

theorem Idle.byte (h : Idle socket count) (hsame : UInt32.ofNat offset = UInt32.ofNat count) :
    Idle (socket.run [.segment (byteSegment offset), .receive 1]).1 (count + 1) ∧
      received (socket.run [.segment (byteSegment offset), .receive 1]).2 = [0] := by
  have htaken := arrive_taken (h.takes hsame)
  set arrived := (socket.arrive (byteSegment offset)).1
  have hcontents : arrived.buffer.contents = [0] := by
    rw [htaken.contents, h.contents]
    rfl
  have hdrained := receiveFrom_drained arrived 1
  have havailable : arrived.buffer.available = 1 := by
    rw [← Buffer.length_contents, hcontents]
    rfl
  have hread : (arrived.receiveFrom 1).1.elim [] (·.bytes) = [0] := by
    simp only [receiveFrom, havailable, Nat.one_ne_zero, if_false, ne_eq, not_false_eq_true, if_true, Option.elim_some,
      Nat.min_self]
    rw [Buffer.read_eq _ (by rw [havailable]), hcontents]
    rfl
  have hleft := hdrained.contents
  rw [hcontents, hread] at hleft
  refine ⟨⟨?_, ?_, fun other => ?_⟩, ?_⟩
  · show (arrived.receiveFrom 1).2.1.connection.receiveSequence = _
    rw [hdrained.sequence, htaken.sequence, h.sequence, fin_byteSegment]
    simp [byteSegment]
  · show (arrived.receiveFrom 1).2.1.buffer.contents = []
    simpa using hleft
  · show (arrived.receiveFrom 1).2.1.connection.carries (byteSegment other) = true
    rw [hdrained.carries, htaken.carries]
    exact h.carries other
  · simpa [received, run, step] using hread

theorem idle_bytewise (h : Idle socket 0) (n : Nat) :
    Idle (socket.run (bytewise n)).1 n ∧ (received (socket.run (bytewise n)).2).length = n := by
  induction n with
  | zero => exact ⟨h, rfl⟩
  | succ n ih =>
    obtain ⟨hidle, hbytes⟩ := ih.1.byte (rfl : UInt32.ofNat n = UInt32.ofNat n)
    rw [bytewise, run_append]
    refine ⟨hidle, ?_⟩
    rw [received_append, List.length_append, ih.2, hbytes]
    rfl

theorem genuine_byte (h : offset < n) : Genuine (List.replicate n (0 : UInt8)) 0 (byteSegment offset) := by
  refine ⟨offset, ?_, ?_, ?_, fun hf => absurd hf (by simp)⟩
  · rw [List.length_replicate]
    exact h
  · exact (UInt32.zero_add _).symm
  rw [List.drop_replicate, List.take_replicate]
  have : min (byteSegment offset).payload.length (n - offset) = 1 := by
    simp only [byteSegment, List.length_singleton]
    omega
  rw [this]
  rfl

theorem mem_bytewise {segment : Segment (Vector UInt8 4)} (h : .segment segment ∈ bytewise n) :
    ∃ offset, offset < n ∧ segment = byteSegment offset := by
  induction n with
  | zero => exact absurd h List.not_mem_nil
  | succ n ih =>
    rw [bytewise, List.mem_append] at h
    rcases h with h | h
    · obtain ⟨offset, hlt, he⟩ := ih h
      exact ⟨offset, Nat.lt_succ_of_lt hlt, he⟩
    · simp only [List.mem_cons, Event.segment.injEq, List.not_mem_nil, or_false, reduceCtorEq] at h
      exact ⟨n, Nat.lt_succ_self n, h⟩

/-- The FIN of a stream of 2^32 - 1 bytes takes the sequence number back to the start. -/
theorem Idle.fin (hn : n + 1 = 2 ^ 32) (h : Idle socket n) : Idle (socket.run [.segment (finSegment n)]).1 0 := by
  have havailable : socket.buffer.available = 0 := by
    rw [← Buffer.length_contents, h.contents]
    rfl
  have htakes : socket.takes (finSegment n) = true := by
    refine takes_iff.2 ⟨h.carries n, rst_finSegment n, h.sequence.symm, ?_⟩
    simp [finSegment]
  have htaken := arrive_taken htakes
  refine ⟨?_, ?_, fun other => ?_⟩
  · show (socket.arrive (finSegment n)).1.connection.receiveSequence = _
    have hwrap : UInt32.ofNat (n + 1) = UInt32.ofNat 0 := by
      rw [hn]
      rfl
    rw [htaken.sequence, h.sequence, ← hwrap, fin_finSegment]
    simp [finSegment]
  · show (socket.arrive (finSegment n)).1.buffer.contents = []
    rw [htaken.contents, h.contents]
    rfl
  · show (socket.arrive (finSegment n)).1.connection.carries (byteSegment other) = true
    rw [htaken.carries]
    exact h.carries other

/-- All of a stream of 2^32 - 1 bytes is received, its FIN is taken, and then a duplicate of its first
segment is received again. -/
theorem first_byte_received_again : ∃ (stream : List UInt8) (events : List (Event (Vector UInt8 4))),
    stream.length < 2 ^ 32 ∧ (∀ segment, .segment segment ∈ events → Genuine stream 0 segment) ∧
      ¬ received ((connected (#v[10, 0, 2, 2] : Vector UInt8 4) 80 443 0 0 0).run events).2 <+: stream := by
  -- the length is kept opaque, so that nothing tries to compute the run
  obtain ⟨n, hn⟩ : ∃ n, n + 1 = 2 ^ 32 := ⟨2 ^ 32 - 1, rfl⟩
  refine ⟨List.replicate n 0, bytewise n ++ ([.segment (finSegment n)] ++ [.segment (byteSegment 0), .receive 1]), ?_, ?_, ?_⟩
  · rw [List.length_replicate]
    omega
  · intro segment hs
    simp only [List.mem_append, List.mem_cons, Event.segment.injEq, List.not_mem_nil, or_false, reduceCtorEq] at hs
    rcases hs with hs | rfl | rfl
    · obtain ⟨offset, hlt, rfl⟩ := mem_bytewise hs
      exact genuine_byte hlt
    · exact ⟨n, by simp [finSegment], (UInt32.zero_add _).symm, by simp [finSegment], fun _ => by simp [finSegment]⟩
    · exact genuine_byte (by omega)
  · intro hprefix
    have hstart : Idle (connected (#v[10, 0, 2, 2] : Vector UInt8 4) 80 443 0 0 0) 0 := ⟨rfl, rfl, fun _ => rfl⟩
    obtain ⟨hidle, hlength⟩ := idle_bytewise hstart n
    obtain ⟨-, hagain⟩ := (hidle.fin hn).byte (rfl : UInt32.ofNat 0 = UInt32.ofNat 0)
    have hle := hprefix.length_le
    rw [run_append, run_append, received_append, received_append, List.length_append, List.length_append, hlength, hagain,
      List.length_replicate, List.length_singleton] at hle
    omega

end MakOS.Tcp
