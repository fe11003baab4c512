/-
What one segment and one read do to a socket, and the end of the stream. Nothing stops a segment with
payload from being taken after the FIN, so the end of the stream is final only as long as none comes.
-/
import MakOS.Tcp.Socket

namespace MakOS.Tcp

open Data Connection

variable {Address : Type} [DecidableEq Address]

/-! ## One event -/

namespace Socket

variable {socket : Socket Address} {segment : Segment Address}

theorem takes_iff : socket.takes segment = true ↔ socket.connection.carries segment = true ∧ segment.rst = false ∧
    segment.sequence = socket.connection.receiveSequence ∧
      segment.payload.length ≤ tcpReceiveCapacity - socket.buffer.available := by
  simp [takes, and_assoc]

structure Taken (socket : Socket Address) (segment : Segment Address)
    (result : Socket Address × Option Ingress × Option Ack) : Prop where
  contents : result.1.buffer.contents = socket.buffer.contents ++ segment.payload
  sequence : result.1.connection.receiveSequence = socket.connection.receiveSequence +
    UInt32.ofNat segment.payload.length + (if segment.fin then 1 else 0)
  closed : result.1.connection.closed = (socket.connection.closed || segment.fin)
  eof : result.1.connection.peerEof = (socket.connection.peerEof || (segment.fin && !socket.connection.closed))
  length : ∃ closed, result.2.1 = some ⟨segment.payload.length, closed⟩
  ack : ∀ ack, result.2.2 = some ack → ack.acknowledgment = result.1.connection.receiveSequence
  carries : ∀ other, result.1.connection.carries other = socket.connection.carries other

structure Ignored (socket : Socket Address) (result : Socket Address × Option Ingress × Option Ack) : Prop where
  contents : result.1.buffer.contents = socket.buffer.contents
  sequence : result.1.connection.receiveSequence = socket.connection.receiveSequence
  flags : result.1.connection.closed = socket.connection.closed ∧ result.1.connection.peerEof = socket.connection.peerEof ∨
    result.1.connection.closed = true ∧ result.1.connection.peerEof = false
  length : ∀ ingress, result.2.1 = some ingress → ingress.length = 0
  ack : ∀ ack, result.2.2 = some ack → ack.acknowledgment = result.1.connection.receiveSequence

/-- What `arrive` does once the segment is known to be for the connection. -/
theorem arrive_some {result : Ingested Address} (hc : socket.connection.carries segment = true)
    (h : ingest socket.connection segment socket.buffer.compact.room = some result) :
    socket.arrive segment = (⟨result.connection, socket.buffer.compact.append result.written (written_le h)⟩,
      some result.ingress, result.ack) := by
  unfold arrive
  rw [if_pos hc]
  simp only
  split
  · rename_i hnone
    rw [hnone] at h
    cases h
  · rename_i result' hsome
    obtain rfl : result' = result := Option.some.inj (hsome.symm.trans h)
    rfl

theorem arrive_taken (h : socket.takes segment = true) : Taken socket segment (socket.arrive segment) := by
  obtain ⟨hc, hrst, hseq, hfits⟩ := takes_iff.1 h
  have hroom : ¬ segment.payload.length > socket.buffer.compact.room := by
    rw [Buffer.room_compact]
    omega
  have hingest : ingest socket.connection segment socket.buffer.compact.room =
      some (take socket.connection segment socket.buffer.compact.room) := by
    simp [ingest, hc, hrst, hseq, hroom, ne_eq]
  rw [arrive_some hc hingest]
  refine ⟨?_, ?_, ?_, ?_, ⟨_, rfl⟩, ?_, ?_⟩
  · simp [take]
  · simp only [take, taking]
    split
    · rfl
    · exact (UInt32.add_zero _).symm
  · simp only [take, taking]
    cases segment.fin <;> simp [finish, advance]
  · simp only [take, taking]
    cases segment.fin <;> cases hcl : socket.connection.closed <;> simp [finish, advance, hcl]
  · intro ack hack
    simp only [take] at hack ⊢
    split at hack
    · rw [← Option.some.inj hack]
      rfl
    · cases hack
  · intro other
    simp only [take, taking]
    split <;> rfl

theorem arrive_ignored (h : socket.takes segment = false) : Ignored socket (socket.arrive segment) := by
  by_cases hc : socket.connection.carries segment = true
  · have hnot : ¬ (segment.rst = false ∧ segment.sequence = socket.connection.receiveSequence ∧
        segment.payload.length ≤ tcpReceiveCapacity - socket.buffer.available) := by
      intro hall
      rw [takes_iff.2 ⟨hc, hall⟩] at h
      cases h
    obtain ⟨result, hingest, hwritten, hlen, hseq, hflags, hack⟩ : ∃ result,
        ingest socket.connection segment socket.buffer.compact.room = some result ∧ result.written = [] ∧
        result.ingress.length = 0 ∧ result.connection.receiveSequence = socket.connection.receiveSequence ∧
        (result.connection.closed = socket.connection.closed ∧ result.connection.peerEof = socket.connection.peerEof ∨
          result.connection.closed = true ∧ result.connection.peerEof = false) ∧
        ∀ ack, result.ack = some ack → ack.acknowledgment = result.connection.receiveSequence := by
      unfold ingest
      rw [hc]
      simp only [Bool.not_true, Bool.false_eq_true, if_false]
      split
      · exact ⟨_, rfl, rfl, rfl, rfl, .inr ⟨rfl, rfl⟩, nofun⟩
      rename_i hrst
      split
      · exact ⟨_, rfl, rfl, rfl, rfl, .inl ⟨rfl, rfl⟩, fun _ h => by cases h; rfl⟩
      rename_i hseq
      split
      · exact ⟨_, rfl, rfl, rfl, rfl, .inl ⟨rfl, rfl⟩, fun _ h => by cases h; rfl⟩
      · rename_i hroom
        rw [Buffer.room_compact] at hroom
        exact absurd ⟨by simpa using hrst, not_not.1 hseq, by omega⟩ hnot
    rw [arrive_some hc hingest]
    refine ⟨?_, hseq, hflags, fun ingress hi => ?_, hack⟩
    · simp [hwritten]
    · rw [← Option.some.inj hi]
      exact hlen
  · unfold arrive
    rw [if_neg hc]
    exact ⟨rfl, rfl, .inl ⟨rfl, rfl⟩, nofun, nofun⟩

/-- A read takes bytes from the front of the buffer, or tells the end of the stream where there are
none, or does nothing. -/
structure Drained (socket : Socket Address) (result : Option (Received Address) × Socket Address × Option Ack) : Prop where
  contents : socket.buffer.contents = (result.1.elim [] (·.bytes)) ++ result.2.1.buffer.contents
  count : ∀ received, result.1 = some received → received.count = received.bytes.length
  eof : ∀ received, result.1 = some received → received.count = 0 →
    socket.buffer.contents = [] ∧ socket.connection.peerEof = true
  sequence : result.2.1.connection.receiveSequence = socket.connection.receiveSequence
  closed : result.2.1.connection.closed = socket.connection.closed
  peerEof : result.2.1.connection.peerEof = socket.connection.peerEof
  carries : ∀ [DecidableEq Address] other, result.2.1.connection.carries other = socket.connection.carries other
  ack : ∀ ack, result.2.2 = some ack → ack.acknowledgment = socket.connection.receiveSequence

omit [DecidableEq Address] in
theorem receiveFrom_drained (socket : Socket Address) (size : Nat) : Drained socket (socket.receiveFrom size) := by
  unfold receiveFrom
  split
  · exact ⟨rfl, fun _ h => (by cases h), fun _ h => (by cases h), rfl, rfl, rfl, fun _ => rfl, fun _ h => (by cases h)⟩
  split
  · have hle := Nat.min_le_right size socket.buffer.available
    have hread := socket.buffer.read_eq hle
    refine ⟨?_, ?_, ?_, ?_, ?_, ?_, ?_, ?_⟩
    · simp only [Buffer.contents_consume, hread]
      exact (List.take_append_drop _ _).symm
    · intro received h
      rw [← Option.some.inj h]
      simp only [hread, List.length_take, Buffer.length_contents]
      omega
    · intro received h hzero
      rw [← Option.some.inj h] at hzero
      simp only at hzero
      omega
    · simp only [updateReceiveWindow]
      split <;> rfl
    · simp only [updateReceiveWindow]
      split <;> rfl
    · simp only [updateReceiveWindow]
      split <;> rfl
    · intro _ other
      simp only [updateReceiveWindow]
      split <;> rfl
    · intro ack h
      simp only [updateReceiveWindow] at h
      split at h
      · cases h
      · cases h
        rfl
  · rename_i hnone
    rw [not_not] at hnone
    have hempty : socket.buffer.contents = [] := by
      rw [← List.length_eq_zero_iff, Buffer.length_contents]
      exact hnone
    split
    · rename_i heof
      exact ⟨rfl, fun _ h => (by cases h; rfl), fun _ _ _ => ⟨hempty, heof⟩, rfl, rfl, rfl, fun _ => rfl, fun _ h => (by cases h)⟩
    · exact ⟨rfl, fun _ h => (by cases h), fun _ h => (by cases h), rfl, rfl, rfl, fun _ => rfl, fun _ h => (by cases h)⟩

/-! ## Runs -/

def Meets (condition : Socket Address → Segment Address → Prop) : Socket Address → List (Event Address) → Prop
  | _, [] => True
  | socket, .segment segment :: events => condition socket segment ∧ Meets condition (socket.arrive segment).1 events
  | socket, .receive size :: events => Meets condition (socket.receiveFrom size).2.1 events

/-! ## The end of the stream -/

/-- Once the connection is closed, no payload is taken any more. -/
def NothingAfterClose (socket : Socket Address) (segment : Segment Address) : Prop :=
  socket.connection.closed = true → socket.takes segment = true → segment.payload = []

/-- An end of stream was told: nothing is left to read. -/
structure Ended (socket : Socket Address) : Prop where
  closed : socket.connection.closed = true
  contents : socket.buffer.contents = []

theorem Ended.arrive (h : Ended socket) (hquiet : NothingAfterClose socket segment) : Ended (socket.arrive segment).1 := by
  cases ht : socket.takes segment with
  | true =>
    have htaken := arrive_taken ht
    refine ⟨?_, ?_⟩
    · rw [htaken.closed, h.closed, Bool.true_or]
    · rw [htaken.contents, h.contents, hquiet h.closed ht, List.append_nil]
  | false =>
    have hignored := arrive_ignored ht
    refine ⟨?_, ?_⟩
    · rcases hignored.flags with ⟨hc, -⟩ | ⟨hc, -⟩
      · rw [hc, h.closed]
      · exact hc
    · rw [hignored.contents, h.contents]

omit [DecidableEq Address] in
theorem Ended.receiveFrom (h : Ended socket) (size : Nat) : Ended (socket.receiveFrom size).2.1 ∧
    ∀ received, (socket.receiveFrom size).1 = some received → received.count = 0 := by
  have hdrained := receiveFrom_drained socket size
  have hcontents := hdrained.contents
  rw [h.contents, List.nil_eq, List.append_eq_nil_iff] at hcontents
  refine ⟨⟨by rw [hdrained.closed, h.closed], hcontents.2⟩, fun received hr => ?_⟩
  rw [hdrained.count received hr]
  rw [hr, Option.elim_some] at hcontents
  rw [hcontents.1, List.length_nil]

theorem Ended.run (h : Ended socket) (events : List (Event Address)) (hquiet : socket.Meets NothingAfterClose events) :
    ∀ output ∈ (socket.run events).2, ∀ received, output.received = some received → received.count = 0 := by
  induction events generalizing socket with
  | nil => exact fun output ho => absurd ho List.not_mem_nil
  | cons event events ih =>
    cases event with
    | segment segment =>
      intro output ho
      rcases List.mem_cons.1 ho with rfl | ho
      · exact nofun
      · exact ih (h.arrive hquiet.1) hquiet.2 output ho
    | receive size =>
      intro output ho
      obtain ⟨hended, hcount⟩ := h.receiveFrom size
      rcases List.mem_cons.1 ho with rfl | ho
      · exact hcount
      · exact ih hended hquiet output ho

/-- An end of stream comes from a FIN, which closes the connection. -/
def EofCloses (socket : Socket Address) : Prop := socket.connection.peerEof = true → socket.connection.closed = true

theorem EofCloses.arrive (h : EofCloses socket) (segment : Segment Address) : EofCloses (socket.arrive segment).1 := by
  intro heof
  cases ht : socket.takes segment with
  | true =>
    have htaken := arrive_taken ht
    rw [htaken.eof, Bool.or_eq_true] at heof
    rw [htaken.closed, Bool.or_eq_true]
    rcases heof with heof | heof
    · exact .inl (h heof)
    · exact .inr (Bool.and_eq_true_iff.1 heof).1
  | false =>
    have hignored := arrive_ignored ht
    rcases hignored.flags with ⟨hc, he⟩ | ⟨hc, -⟩
    · rw [hc]
      exact h (he ▸ heof)
    · exact hc

omit [DecidableEq Address] in
theorem EofCloses.receiveFrom (h : EofCloses socket) (size : Nat) : EofCloses (socket.receiveFrom size).2.1 := by
  have hdrained := receiveFrom_drained socket size
  intro heof
  rw [hdrained.closed]
  exact h (hdrained.peerEof ▸ heof)

theorem eof_final_run (h : EofCloses socket) (events : List (Event Address))
    (hquiet : socket.Meets NothingAfterClose events) :
    (socket.run events).2.Pairwise fun earlier later =>
      (∃ received, earlier.received = some received ∧ received.count = 0) →
        ∀ received, later.received = some received → received.count = 0 := by
  induction events generalizing socket with
  | nil => exact List.Pairwise.nil
  | cons event events ih =>
    cases event with
    | segment segment =>
      refine List.Pairwise.cons ?_ (ih (h.arrive segment) hquiet.2)
      rintro output - ⟨received, hr, -⟩
      cases hr
    | receive size =>
      refine List.Pairwise.cons ?_ (ih (h.receiveFrom size) hquiet)
      rintro output ho ⟨received, hr, hzero⟩
      have hdrained := receiveFrom_drained socket size
      obtain ⟨hcontents, heof⟩ := hdrained.eof received hr hzero
      exact ((⟨h heof, hcontents⟩ : Ended socket).receiveFrom size).1.run events hquiet output ho

end Socket

/-- Once `receive_from` has told the end of the stream it never returns a byte again, in every run in
which no segment with payload is taken after the connection was closed. -/
theorem eof_is_final (remoteIp : Address) (localPort remotePort : UInt16) (transmitSequence receiveSequence : UInt32)
    (receiveWindow : UInt16) (events : List (Event Address))
    (hquiet : (Socket.connected remoteIp localPort remotePort transmitSequence receiveSequence receiveWindow).Meets
      Socket.NothingAfterClose events) :
    ((Socket.connected remoteIp localPort remotePort transmitSequence receiveSequence receiveWindow).run events).2.Pairwise
      fun earlier later => (∃ received, earlier.received = some received ∧ received.count = 0) →
        ∀ received, later.received = some received → received.count = 0 :=
  Socket.eof_final_run (fun heof => by cases heof) events hquiet

theorem eof_is_final_of_fin :
    ((Socket.connected (#v[10, 0, 2, 2] : Vector UInt8 4) 80 443 0 7 0).run
      [.segment ⟨#v[10, 0, 2, 2], 443, 80, 7, 0x11, []⟩, .receive 1, .receive 1]).2.map (fun output => output.received.map (·.count)) =
        [none, some 0, some 0] ∧
    ((Socket.connected (#v[10, 0, 2, 2] : Vector UInt8 4) 80 443 0 7 0).run [.segment ⟨#v[10, 0, 2, 2], 443, 80, 7, 0x11, []⟩, .receive 1, .receive 1]).2.Pairwise
      fun earlier later => (∃ received, earlier.received = some received ∧ received.count = 0) →
        ∀ received, later.received = some received → received.count = 0 :=
  ⟨rfl, eof_is_final #v[10, 0, 2, 2] 80 443 0 7 0 _ ⟨fun _ _ => rfl, trivial⟩⟩

/-- A segment that follows the FIN is taken like any other. -/
theorem bytes_after_eof :
    ((Socket.connected (#v[10, 0, 2, 2] : Vector UInt8 4) 80 443 0 7 0).run [.segment ⟨#v[10, 0, 2, 2], 443, 80, 7, 0x11, []⟩, .receive 1,
      .segment ⟨#v[10, 0, 2, 2], 443, 80, 8, 0x10, [65]⟩, .receive 1]).2.map (fun output => output.received.map (·.count)) =
        [none, some 0, none, some 1] := rfl

end MakOS.Tcp
