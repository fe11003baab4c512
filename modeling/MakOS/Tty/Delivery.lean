/-
Which signal a task takes: of those that are pending, not blocked and not ignored the first one, where those sent
to the task come before those sent to the process and lower numbers come first. The loops of `wait_interrupted` and
`deliver_pending` find it, and take the ignored signals before it on the way.
-/
import MakOS.Tty.Signals

namespace MakOS.Tty

open Data

def Supported (signal : Nat) : Prop := 1 ≤ signal ∧ signal ≤ signalCount

instance decidableSupported (signal : Nat) : Decidable (Supported signal) := inferInstanceAs (Decidable (_ ∧ _))

variable {signal other : Nat} {mask : Word}

/-! ## Bits of a mask -/

variable (h : Supported signal)
include h

theorem Supported.lt : signal - 1 < 64 := by
  have := h.2
  unfold signalCount at this
  omega

theorem Supported.bit_inj (h' : Supported other) : signal - 1 = other - 1 ↔ signal = other := by
  have := h.1
  have := h'.1
  omega

theorem signalIndex_of_supported : signalIndex signal = some ⟨signal - 1, signalIndex_lt h⟩ :=
  dif_pos h

omit h

theorem signalIndex_eq_none (h : ¬ Supported signal) : signalIndex signal = none := dif_neg h

theorem signalBit_of_supported (h : Supported signal) : signalBit signal = some (BitVec.twoPow 64 (signal - 1)) := by
  rw [signalBit, signalIndex_of_supported h, Option.map_some]

theorem has_zero (signal : Nat) : has 0 signal = false := BitVec.getLsbD_zero

theorem has_or (a b : Word) (signal : Nat) : has (a ||| b) signal = (has a signal || has b signal) := BitVec.getLsbD_or

theorem has_and_not (a b : Word) (signal : Nat) : has (a &&& ~~~b) signal = (has a signal && !has b signal) :=
  getLsbD_and_not a b

include h

theorem has_or_bit (h' : Supported other) :
    has (mask ||| (signalBit signal).getD 0) other = (has mask other || decide (other = signal)) := by
  rw [signalBit_of_supported h, Option.getD_some, has, getLsbD_or_twoPow h.lt, has]
  simp only [h'.bit_inj h]

theorem has_and_not_bit (h' : Supported other) :
    has (mask &&& ~~~(signalBit signal).getD 0) other = (has mask other && decide (other ≠ signal)) := by
  rw [signalBit_of_supported h, Option.getD_some, has, getLsbD_and_not_twoPow, has]
  simp [h'.bit_inj h]

theorem has_sanitize :
    has (sanitizeSignalMask mask) signal = (has mask signal && decide (signal ≠ sigkill) && decide (signal ≠ sigstop)) := by
  have hkill : Supported sigkill := by decide
  have hstop : Supported sigstop := by decide
  rw [sanitizeSignalMask, has, getLsbD_and_not_twoPow, getLsbD_and_not_twoPow, has]
  simp [h.bit_inj hkill, h.bit_inj hstop]

theorem test_bit : (mask &&& (signalBit signal).getD 0 != 0) = has mask signal := by
  rw [signalBit_of_supported h]
  exact and_twoPow_ne_zero h.lt

omit h

theorem mem_range_supported : signal ∈ List.range' 1 signalCount ↔ Supported signal := by
  rw [List.mem_range'_1, Supported]
  omega

theorem firstSignal_eq_some : firstSignal mask = some signal ↔
    Supported signal ∧ has mask signal = true ∧ ∀ other, Supported other → other < signal → has mask other = false := by
  rw [firstSignal, List.find?_range'_eq_some, mem_range_supported]
  constructor
  · rintro ⟨htest, hsupported, hbefore⟩
    rw [test_bit hsupported] at htest
    refine ⟨hsupported, htest, fun other hother hlt => ?_⟩
    have hclear := hbefore other hother.1 hlt
    rwa [test_bit hother, Bool.not_eq_true'] at hclear
  rintro ⟨hsupported, hset, hbefore⟩
  refine ⟨(test_bit hsupported).trans hset, hsupported, fun other hle hlt => ?_⟩
  have hother : Supported other := ⟨hle, hlt.le.trans hsupported.2⟩
  rw [test_bit hother, hbefore other hother hlt]
  rfl

theorem firstSignal_eq_none : firstSignal mask = none ↔ ∀ signal, Supported signal → has mask signal = false := by
  rw [firstSignal, List.find?_range'_eq_none]
  constructor
  · intro h signal hsupported
    have hlt : signal < 1 + signalCount := by have := hsupported.2; omega
    have hclear := h signal hsupported.1 hlt
    rwa [test_bit hsupported, Bool.not_eq_true'] at hclear
  intro h signal hle hlt
  have hsupported : Supported signal := ⟨hle, by omega⟩
  rw [test_bit hsupported, h signal hsupported]
  rfl

theorem mask_eq_zero : mask = 0 ↔ ∀ signal, Supported signal → has mask signal = false := by
  constructor
  · rintro rfl signal -
    exact has_zero signal
  intro h
  refine bits_eq_zero.2 fun i => ?_
  by_cases hi : i < 64
  · have hsupported : Supported (i + 1) := ⟨by omega, by unfold signalCount; omega⟩
    exact h (i + 1) hsupported
  · exact BitVec.getLsbD_of_ge mask i (by omega)

/-! ## The order of delivery -/

namespace Pair

/-- The signals sent to the task, or those sent to the process -/
def pending (pair : Pair) (taskDirected : Bool) : Word := if taskDirected then pair.2.pending else pair.1.pending

/-- A signal is pending and not blocked. -/
def ready (pair : Pair) (signal : Nat) (taskDirected : Bool) : Bool :=
  has (pair.pending taskDirected) signal && !has pair.2.blocked signal

/-- The signals that come before another one -/
def Before (other : Nat × Bool) (signal : Nat × Bool) : Prop :=
  (other.2 = true ∧ signal.2 = false) ∨ (other.2 = signal.2 ∧ other.1 < signal.1)

/-- The signal is taken and not ignored, and what comes before it is ignored. -/
structure First (pair : Pair) (signal : Nat) (taskDirected : Bool) : Prop where
  supported : Supported signal
  ready : pair.ready signal taskDirected = true
  taken : pair.1.ignores signal = false
  before : ∀ other directed, Supported other → Before (other, directed) (signal, taskDirected) →
    pair.ready other directed = true → pair.1.ignores other = true

variable {pair : Pair} {taskDirected : Bool}

theorem ready_task (pair : Pair) (signal : Nat) :
    pair.ready signal true = has (pair.2.pending &&& ~~~pair.2.blocked) signal := (has_and_not _ _ _).symm

theorem ready_process (pair : Pair) (signal : Nat) :
    pair.ready signal false = has (pair.1.pending &&& ~~~pair.2.blocked) signal := (has_and_not _ _ _).symm

/-- The ready signals of one kind are looked at, those of the task if there are any. -/
theorem nextSignal_eq (pair : Pair) : ∃ directed mask, pair.nextSignal = (firstSignal mask).map (·, directed) ∧
    (∀ other, pair.ready other directed = has mask other) ∧
    (directed = false ↔ ∀ other, Supported other → pair.ready other true = false) := by
  simp only [ready_task pair, ← mask_eq_zero]
  unfold nextSignal
  split
  · rename_i hsome
    exact ⟨true, _, rfl, ready_task pair, by simpa using hsome⟩
  · rename_i hnone
    exact ⟨false, _, rfl, ready_process pair, by simpa using hnone⟩

theorem nextSignal_eq_some : pair.nextSignal = some (signal, taskDirected) ↔
    Supported signal ∧ pair.ready signal taskDirected = true ∧
      ∀ other directed, Supported other → Before (other, directed) (signal, taskDirected) →
        pair.ready other directed = false := by
  obtain ⟨kind, mask, hnext, hmask, hkind⟩ := pair.nextSignal_eq
  rw [hnext, Option.map_eq_some_iff]
  constructor
  · rintro ⟨first, hfirst, heq⟩
    cases heq
    obtain ⟨hsupported, hset, hbefore⟩ := firstSignal_eq_some.1 hfirst
    refine ⟨hsupported, (hmask signal).trans hset, fun other directed hother hlt => ?_⟩
    rcases hlt with ⟨rfl, hd⟩ | ⟨rfl, hlt⟩
    · exact hkind.1 hd other hother
    · exact (hmask other).trans (hbefore other hother hlt)
  · rintro ⟨hsupported, hready, hbefore⟩
    obtain rfl : kind = taskDirected := by
      cases taskDirected with
      | true =>
        refine Bool.eq_true_of_not_eq_false fun hd => ?_
        rw [hkind.1 hd signal hsupported] at hready
        cases hready
      -- were something ready for the task, that would come first
      | false => exact hkind.2 fun other hother => hbefore other true hother (.inl ⟨rfl, rfl⟩)
    refine ⟨signal, firstSignal_eq_some.2 ⟨hsupported, ?_, fun other hother hlt => ?_⟩, rfl⟩
    · rw [← hmask, hready]
    · rw [← hmask]
      exact hbefore other kind hother (.inr ⟨rfl, hlt⟩)

theorem nextSignal_eq_none : pair.nextSignal = none ↔
    ∀ signal directed, Supported signal → pair.ready signal directed = false := by
  obtain ⟨kind, mask, hnext, hmask, hkind⟩ := pair.nextSignal_eq
  rw [hnext, Option.map_eq_none_iff, firstSignal_eq_none]
  simp only [← hmask]
  constructor
  · intro h signal directed hsupported
    cases kind with
    | true => cases hkind.2 h
    | false =>
      cases directed with
      | true => exact hkind.1 rfl signal hsupported
      | false => exact h signal hsupported
  · exact fun h signal => h signal kind

/-! ## Taking a signal -/

theorem take_ready (h : Supported signal) (hother : Supported other) (directed : Bool) :
    (pair.take signal taskDirected).ready other directed =
      (pair.ready other directed && !(decide (other = signal) && (directed == taskDirected))) := by
  unfold take ready pending
  cases taskDirected <;> cases directed <;>
    simp only [Bool.false_eq_true, if_false, if_true, has_and_not_bit h hother]
  all_goals simp [Bool.and_right_comm]

@[simp] theorem take_action : (pair.take signal taskDirected).1.action = pair.1.action := by
  unfold take
  split <;> rfl

@[simp] theorem take_ignores : (pair.take signal taskDirected).1.ignores = pair.1.ignores := by
  unfold take
  split <;> rfl

def count (pair : Pair) : Nat := bitCount pair.2.pending + bitCount pair.1.pending

theorem count_le (pair : Pair) : pair.count ≤ 2 * signalCount := by
  have hle : ∀ mask : Word, bitCount mask ≤ 64 := fun mask =>
    (Finset.card_filter_le _ _).trans_eq (Finset.card_range _)
  have htask := hle pair.2.pending
  have hprocess := hle pair.1.pending
  unfold count signalCount
  omega

theorem take_count (h : Supported signal) (hready : pair.ready signal taskDirected = true) :
    (pair.take signal taskDirected).count < pair.count := by
  rw [ready, Bool.and_eq_true] at hready
  unfold take count
  rw [signalBit_of_supported h]
  cases taskDirected with
  | true => exact Nat.add_lt_add_right (bitCount_clear_lt hready.1) _
  | false => exact Nat.add_lt_add_left (bitCount_clear_lt hready.1) _

/-! ## The loop -/

theorem first_of_next (hnext : pair.nextSignal = some (signal, taskDirected)) (htaken : pair.1.ignores signal = false) :
    pair.First signal taskDirected := by
  obtain ⟨hsupported, hready, hbefore⟩ := nextSignal_eq_some.1 hnext
  refine ⟨hsupported, hready, htaken, fun other directed hother hlt hotherReady => ?_⟩
  rw [hbefore other directed hother hlt] at hotherReady
  cases hotherReady

theorem before_or_before (a b : Nat × Bool) : a = b ∨ Before a b ∨ Before b a := by
  obtain ⟨s, d⟩ := a
  obtain ⟨s', d'⟩ := b
  unfold Before
  cases d <;> cases d' <;> simp
  all_goals omega

theorem First.unique {directed : Bool} (h : pair.First signal taskDirected) (h' : pair.First other directed) :
    (signal, taskDirected) = (other, directed) := by
  rcases before_or_before (signal, taskDirected) (other, directed) with heq | hlt | hlt
  · exact heq
  · have hignored := h'.before signal taskDirected h.supported hlt h.ready
    rw [h.taken] at hignored
    cases hignored
  · have hignored := h.before other directed h'.supported hlt h'.ready
    rw [h'.taken] at hignored
    cases hignored

/-- Taking an ignored signal does not change what is taken in the end. -/
theorem first_take (hsupported : Supported other) (hignored : pair.1.ignores other = true) (directed : Bool) :
    (pair.take other directed).First signal taskDirected ↔ pair.First signal taskDirected := by
  have hready : ∀ s d, Supported s → pair.1.ignores s = false →
      (pair.take other directed).ready s d = pair.ready s d := by
    intro s d hs htaken
    rw [take_ready hsupported hs]
    have hne : s ≠ other := by
      rintro rfl
      rw [htaken] at hignored
      cases hignored
    simp [hne]
  constructor
  · rintro ⟨h, hset, htaken, hbefore⟩
    rw [take_ignores] at htaken
    refine ⟨h, (hready _ _ h htaken).symm.trans hset, htaken, fun s d hs hlt hsready => ?_⟩
    by_contra hne
    rw [Bool.not_eq_true] at hne
    have := hbefore s d hs hlt ((hready s d hs hne).trans hsready)
    rw [take_ignores, hne] at this
    cases this
  · rintro ⟨h, hset, htaken, hbefore⟩
    refine ⟨h, (hready _ _ h htaken).trans hset, by rwa [take_ignores], fun s d hs hlt hsready => ?_⟩
    rw [take_ignores]
    refine hbefore s d hs hlt ?_
    rw [take_ready hsupported hs, Bool.and_eq_true] at hsready
    exact hsready.1

/-- With enough turns the loop ends at the signal that is taken. -/
theorem skipIgnored_next {turns : Nat} : ∀ {pair : Pair}, pair.count ≤ turns →
    ((pair.skipIgnored turns).nextSignal = some (signal, taskDirected) ↔ pair.First signal taskDirected) := by
  induction turns with
  | zero =>
    intro pair hcount
    rw [skipIgnored]
    constructor
    · intro hnext
      obtain ⟨hsupported, hready, -⟩ := nextSignal_eq_some.1 hnext
      have := take_count hsupported hready
      omega
    · intro hfirst
      have := take_count hfirst.supported hfirst.ready
      omega
  | succ turns ih =>
    intro pair hcount
    rw [skipIgnored]
    cases hnext : pair.nextSignal with
    | none =>
      simp only [hnext, reduceCtorEq, false_iff]
      intro hfirst
      have hready := nextSignal_eq_none.1 hnext signal taskDirected hfirst.supported
      rw [hfirst.ready] at hready
      cases hready
    | some next =>
      obtain ⟨first, directed⟩ := next
      dsimp only
      obtain ⟨hsupported, hready, -⟩ := nextSignal_eq_some.1 hnext
      split
      · rename_i hignored
        have hless := take_count hsupported hready
        rw [ih (by omega), first_take hsupported hignored]
      rename_i htaken
      rw [hnext]
      have hfirst := first_of_next hnext (by simpa using htaken)
      constructor
      · intro heq
        cases heq
        exact hfirst
      · intro h
        rw [hfirst.unique h]

theorem settled_next : pair.settled.nextSignal = some (signal, taskDirected) ↔ pair.First signal taskDirected :=
  skipIgnored_next pair.count_le

/-! ## What the loop leaves -/

/-- Only ignored signals are taken. -/
structure Narrowed (pair pair' : Pair) : Prop where
  process : pair'.1 = { pair.1 with pending := pair'.1.pending }
  task : pair'.2 = { pair.2 with pending := pair'.2.pending }
  kept : ∀ signal directed, Supported signal → pair.1.ignores signal = false →
    has (pair'.pending directed) signal = has (pair.pending directed) signal

theorem Narrowed.refl (pair : Pair) : Narrowed pair pair := ⟨rfl, rfl, fun _ _ _ _ => rfl⟩

theorem Narrowed.ignores {pair' : Pair} (h : Narrowed pair pair') : pair'.1.ignores = pair.1.ignores := by
  rw [h.process]
  rfl

theorem Narrowed.trans {pair' pair'' : Pair} (h : Narrowed pair pair') (h' : Narrowed pair' pair'') :
    Narrowed pair pair'' := by
  refine ⟨?_, ?_, fun signal directed hsupported htaken => ?_⟩
  · rw [h'.process, h.process]
  · rw [h'.task, h.task]
  · rw [h'.kept signal directed hsupported (by rwa [h.ignores]), h.kept signal directed hsupported htaken]

theorem take_narrowed (h : Supported signal) (hignored : pair.1.ignores signal = true) :
    Narrowed pair (pair.take signal taskDirected) := by
  have hne : ∀ other, pair.1.ignores other = false → other ≠ signal := by
    rintro other htaken rfl
    rw [htaken] at hignored
    cases hignored
  cases taskDirected with
  | true =>
    refine ⟨rfl, rfl, fun other directed hother htaken => ?_⟩
    cases directed with
    | true => exact (has_and_not_bit h hother).trans (by simp [hne other htaken, pending])
    | false => rfl
  | false =>
    refine ⟨rfl, rfl, fun other directed hother htaken => ?_⟩
    cases directed with
    | true => rfl
    | false => exact (has_and_not_bit h hother).trans (by simp [hne other htaken, pending])

theorem skipIgnored_narrowed (turns : Nat) (pair : Pair) : Narrowed pair (pair.skipIgnored turns) := by
  induction turns generalizing pair with
  | zero => exact .refl pair
  | succ turns ih =>
    rw [skipIgnored]
    split
    · rename_i first directed hnext
      split
      · rename_i hignored
        have hsupported := (nextSignal_eq_some.1 hnext).1
        exact (take_narrowed hsupported hignored).trans (ih _)
      · exact .refl pair
    · exact .refl pair

theorem settled_narrowed (pair : Pair) : Narrowed pair pair.settled := skipIgnored_narrowed _ pair

/-- What a delivery does: it finds nothing to take, or takes a signal with its default action, or starts a
handler. Signals are not pending any more; the mask is the task's own. -/
inductive Delivered (pair : Pair) (frame : Frame) : Pair × Delivery × Frame → Prop
  | nothing {pending : Word} {process : ProcessState} : (∀ signal directed, ¬ pair.First signal directed) →
      Delivered pair frame ((process, { pair.2 with pending }), .none, frame)
  | acted {signal : Nat} {directed : Bool} {pending : Word} {process : ProcessState} : pair.First signal directed →
      (pair.1.action signal).handler = sigDfl →
      Delivered pair frame ((process, { { pair.2 with pending }.leaveWait with blocked := pair.2.restoredMask }),
        if signal = sigtstp then .stop signal else .terminate signal, frame)
  | caught {signal : Nat} {directed : Bool} {pending : Word} {process : ProcessState} : pair.First signal directed →
      (pair.1.action signal).handler ≠ sigDfl →
      Delivered pair frame
        ((process, { pair.2 with pending }.enterHandler (pair.1.action signal) signal frame), .handler,
          frame.forHandler (pair.1.action signal) signal)

theorem settled_take_task (signal : Nat) (directed : Bool) :
    ∃ pending, (pair.settled.take signal directed).2 = { pair.2 with pending } := by
  have hsettled := pair.settled_narrowed.task
  cases directed with
  | true =>
    refine ⟨(pair.settled.take signal true).2.pending, ?_⟩
    unfold take
    rw [if_pos rfl, hsettled]
  | false => exact ⟨pair.settled.2.pending, hsettled⟩

theorem settled_take_action (signal : Nat) (directed : Bool) :
    (pair.settled.take signal directed).1.action = pair.1.action := by
  rw [take_action, pair.settled_narrowed.process]
  rfl

theorem deliver_cases (pair : Pair) (frame : Frame) : Delivered pair frame (pair.deliver frame) := by
  unfold deliver
  cases hnext : pair.settled.nextSignal with
  | none =>
    rw [show pair.settled = (pair.settled.1, pair.settled.2) from rfl, pair.settled_narrowed.task]
    refine .nothing fun signal directed hfirst => ?_
    rw [settled_next.2 hfirst] at hnext
    cases hnext
  | some next =>
    obtain ⟨signal, directed⟩ := next
    have hfirst := settled_next.1 hnext
    obtain ⟨pending, htask⟩ := @settled_take_task pair signal directed
    have haction := @settled_take_action pair signal directed
    dsimp only
    unfold act
    rw [haction, htask]
    by_cases hdefault : (pair.1.action signal).handler = sigDfl
    · rw [if_pos (by rw [hdefault]; rfl)]
      exact .acted hfirst hdefault
    · rw [if_neg (by simpa using hdefault)]
      exact .caught hfirst hdefault

end Pair

end MakOS.Tty
