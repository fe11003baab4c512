/-
The sending side of a connected TCP socket (`tcp_send` and `tcp6_send`): a payload is cut into segments that go to
the device one after the other, until one of them fails.
-/
import MakOS.Tcp.Socket

namespace MakOS.Tcp

abbrev tcpPayloadMax : Nat := 1400

/-- What becomes of a segment: `send_chunk` succeeds, it fails before the device has the segment, or it fails although
the device has it, as when the device takes too long to answer. -/
inductive Transmit
  | done
  | refused
  | unconfirmed
  deriving DecidableEq

structure Outgoing (Address : Type) where
  remoteIp : Address
  localPort : UInt16
  remotePort : UInt16
  sequence : UInt32
  acknowledgment : UInt32
  flags : UInt8
  window : UInt16
  payload : List UInt8
  deriving DecidableEq

variable {Address : Type}

def Connection.outgoing (connection : Connection Address) (flags : UInt8) (payload : List UInt8) : Outgoing Address :=
  ⟨connection.remoteIp, connection.localPort, connection.remotePort, connection.transmitSequence,
    connection.receiveSequence, flags, connection.receiveWindow, payload⟩

/-- What a call returns, the connection it leaves and the segments that the device got. -/
structure Sending (Address : Type) where
  result : Option Nat
  connection : Connection Address
  wire : List (Outgoing Address)

/-- The loop, with the bytes that are left -/
def sendRest (outcomes : Nat → Transmit) (connection : Connection Address) (sent round : Nat) (rest : List UInt8) :
    Sending Address :=
  if rest = [] then ⟨some sent, connection, []⟩
  else
    let count := min rest.length tcpPayloadMax
    let segment := connection.outgoing (if count = rest.length then 0x18 else 0x10) (rest.take count)
    match outcomes round with
    | .refused => ⟨none, connection, []⟩
    | .unconfirmed => ⟨none, connection, [segment]⟩
    | .done =>
      let connection := { connection with transmitSequence := connection.transmitSequence + UInt32.ofNat count }
      let sending := sendRest outcomes connection (sent + count) (round + 1) (rest.drop count)
      { sending with wire := segment :: sending.wire }
termination_by rest.length
decreasing_by
  have := List.length_pos_iff.2 ‹_›
  simp only [List.length_drop, tcpPayloadMax]
  omega

def tcpSend (outcomes : Nat → Transmit) (connection : Connection Address) (payload : List UInt8) : Sending Address :=
  if connection.closed || payload.isEmpty then ⟨none, connection, []⟩ else sendRest outcomes connection 0 0 payload

namespace Sending

/-- The bytes that the device got -/
def handed (sending : Sending Address) : List UInt8 := sending.wire.flatMap Outgoing.payload

/-- The device got as many bytes as the result says, none without a result, and the sequence number went on by them. -/
def Exact (connection : Connection Address) (payload : List UInt8) (sending : Sending Address) : Prop :=
  sending.result.getD 0 ≤ payload.length ∧ sending.handed = payload.take (sending.result.getD 0) ∧
    sending.connection.transmitSequence = connection.transmitSequence + UInt32.ofNat (sending.result.getD 0)

end Sending

/-- The number of segments of a payload -/
def segments (payload : List UInt8) : Nat := (payload.length + (tcpPayloadMax - 1)) / tcpPayloadMax

variable {outcomes : Nat → Transmit}

/-- The segments from a round on all go out. -/
def AllDone (outcomes : Nat → Transmit) (round : Nat) (rest : List UInt8) : Prop :=
  ∀ k < segments rest, outcomes (round + k) = .done

theorem segments_drop {rest : List UInt8} (h : rest ≠ []) :
    segments rest = segments (rest.drop (min rest.length tcpPayloadMax)) + 1 := by
  have := List.length_pos_iff.2 h
  simp only [segments, List.length_drop, tcpPayloadMax]
  omega

theorem allDone_iff {rest : List UInt8} (h : rest ≠ []) (round : Nat) :
    AllDone outcomes round rest ↔
      outcomes round = .done ∧ AllDone outcomes (round + 1) (rest.drop (min rest.length tcpPayloadMax)) := by
  simp only [AllDone, segments_drop h, Nat.forall_lt_succ_left, Nat.add_zero, Nat.add_assoc, Nat.add_comm 1]

theorem sendRest_done (connection : Connection Address) (sent round : Nat) (rest : List UInt8)
    (h : AllDone outcomes round rest) :
    (sendRest outcomes connection sent round rest).result = some (sent + rest.length) ∧
      (sendRest outcomes connection sent round rest).handed = rest ∧
      (sendRest outcomes connection sent round rest).connection.transmitSequence =
        connection.transmitSequence + UInt32.ofNat rest.length := by
  fun_induction sendRest outcomes connection sent round rest with
  | case1 => simp [Sending.handed]
  | case2 _ _ _ _ hne hround | case3 _ _ _ _ hne _ _ hround => simp [allDone_iff hne, hround] at h
  | case4 connection sent round rest hne count segment hround next sending ih =>
    obtain ⟨hresult, hhanded, hsequence⟩ := ih ((allDone_iff hne round).1 h).2
    have hlength : count + (rest.drop count).length = rest.length := by
      rw [List.length_drop]
      omega
    refine ⟨?_, ?_, ?_⟩
    · rw [← hlength, ← Nat.add_assoc]
      exact hresult
    · calc segment.payload ++ sending.handed = rest.take count ++ rest.drop count := by rw [hhanded]; rfl
        _ = rest := List.take_append_drop count rest
    · rw [hsequence, ← hlength, UInt32.ofNat_add, ← UInt32.add_assoc]

theorem sendRest_failed (connection : Connection Address) (sent round : Nat) (rest : List UInt8)
    (h : ¬AllDone outcomes round rest) : (sendRest outcomes connection sent round rest).result = none := by
  fun_induction sendRest outcomes connection sent round rest with
  | case1 => simp [AllDone, segments, tcpPayloadMax] at h
  | case2 | case3 => rfl
  | case4 _ _ round _ hne _ _ hround _ _ ih => exact ih fun hdone => h ((allDone_iff hne round).2 ⟨hround, hdone⟩)

theorem handed_ne_nil (connection : Connection Address) (sent round : Nat) {rest : List UInt8} (hne : rest ≠ [])
    (h : outcomes round ≠ .refused) : (sendRest outcomes connection sent round rest).handed ≠ [] := by
  rw [sendRest]
  cases hround : outcomes round with
  | refused => exact absurd hround h
  | done | unconfirmed => simp [Sending.handed, Connection.outgoing, hne]

/-- A caller may trust the result exactly when the call sends nothing or when no segment fails. -/
theorem tcpSend_exact_iff (outcomes : Nat → Transmit) (connection : Connection Address) (payload : List UInt8) :
    (tcpSend outcomes connection payload).Exact connection payload ↔
      connection.closed = true ∨ payload = [] ∨ outcomes 0 = .refused ∨
        ∀ round < segments payload, outcomes round = .done := by
  have hdone : (∀ round < segments payload, outcomes round = .done) ↔ AllDone outcomes 0 payload := by
    simp [AllDone]
  rw [hdone]
  by_cases hclosed : connection.closed
  · simp [tcpSend, hclosed, Sending.Exact, Sending.handed]
  by_cases hne : payload = []
  · simp [tcpSend, hne, Sending.Exact, Sending.handed]
  have hsend : tcpSend outcomes connection payload = sendRest outcomes connection 0 0 payload := by
    simp [tcpSend, hclosed, hne]
  simp only [hclosed, hne, hsend, Bool.false_eq_true, false_or]
  constructor
  · intro ⟨_, hhanded, _⟩
    by_contra hnot
    push Not at hnot
    rw [sendRest_failed _ _ _ _ hnot.2] at hhanded
    exact handed_ne_nil _ _ _ hne hnot.1 hhanded
  rintro (hrefused | hall)
  · rw [sendRest, if_neg hne]
    simp [hrefused, Sending.Exact, Sending.handed]
  · obtain ⟨hresult, hhanded, hsequence⟩ := sendRest_done connection 0 0 payload hall
    simp [Sending.Exact, hresult, hhanded, hsequence]

/-- The second of two segments is refused: 1400 bytes are out, and the call returns nothing. -/
theorem tcpSend_second_refused :
    let connection : Connection Unit := ⟨(), 1, 2, 0, 0, 0, false, false⟩
    let payload := List.replicate 1401 0
    let sending := tcpSend (fun round => if round = 0 then .done else .refused) connection payload
    sending.result = none ∧ sending.handed = payload.take 1400 ∧ sending.connection.transmitSequence = 1400 := by
  generalize hp : List.replicate 1401 (0 : UInt8) = payload
  have hlength : payload.length = 1401 := by rw [← hp, List.length_replicate]
  have hne : payload ≠ [] := List.ne_nil_of_length_pos (by omega)
  have hdrop : payload.drop 1400 ≠ [] := by simp [hlength]
  have hrest (connection : Connection Unit) (sent : Nat) :
      sendRest (fun round => if round = 0 then .done else .refused) connection sent 1 (payload.drop 1400) =
        ⟨none, connection, []⟩ := by
    rw [sendRest, if_neg hdrop]
    rfl
  simp only [tcpSend]
  rw [sendRest]
  simp [hlength, hne, hrest, tcpPayloadMax, Sending.handed, Connection.outgoing]

end MakOS.Tcp
