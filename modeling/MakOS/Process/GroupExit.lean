/-
The end of a thread group that the first CPU brings about (`begin_remote_group_stop`), while threads of the
group are anywhere in their system calls on other CPUs. A thread answers the stop when it goes back to user
mode. The first CPU also serves the requests of other CPUs for the block and the network device, but not
while it waits for the answers: its interrupts are masked and the loop does not serve. Time, and with it the
deadlines that end a wait for good, are left out; a stop that never completes is one that runs into them.
-/
import MakOS.Data.Fair
import MakOS.Data.Slots

namespace MakOS.Process

open MakOS.Data

/-- The devices that only the first CPU drives: `queue_request` and `queue_tx_request` -/
inductive Device
  | block
  | transmit
  deriving DecidableEq, Repr

/-- What a system call has left to do. -/
inductive Operation
  | work
  | request (device : Device)
  deriving DecidableEq, Repr

/-- `SLOT_FREE` to `SLOT_DONE` -/
inductive SlotState
  | free
  | writing
  | ready
  | servicing
  | done
  deriving DecidableEq, Repr

/-- Where a CPU is. -/
inductive Place
  | user
  | kernel (rest : List Operation)
  | writing (device : Device) (slot : Fin 8) (rest : List Operation)
  | waiting (device : Device) (slot : Fin 8) (rest : List Operation)
  deriving DecidableEq, Repr

/-- `begin_remote_group_stop`: nothing is published, the targets are, the other CPUs are notified, all have answered. -/
inductive Phase
  | begun
  | published
  | spinning
  | finished
  deriving DecidableEq, Repr

/-- `REMOTE_GROUP_STOP_TARGET_MASK` and `REMOTE_GROUP_STOP_ACK_MASK` are `targets` and `acks`. A CPU that has answered
does not run the group any more. -/
structure ExitMachine (R : Nat) where
  phase : Phase
  member : Fin R → Bool
  places : Fin R → Place
  slots : Device → Slots SlotState 8
  targets : Fin R → Bool
  acks : Fin R → Bool

/-- A turn of the first CPU, or of another one with the call it enters if it is in user mode. -/
inductive Turn (R : Nat)
  | owner
  | other (cpu : Fin R) (call : List Operation)
  deriving DecidableEq, Repr

def Turn.of {R : Nat} (cpu : Fin R) : Turn R → Prop
  | .owner => False
  | .other cpu' _ => cpu' = cpu

namespace ExitMachine

variable {R : Nat}

/-- A stop begins, with the other CPUs anywhere. -/
def start (member : Fin R → Bool) (places : Fin R → Place) (slots : Device → Slots SlotState 8) : ExitMachine R :=
  ⟨.begun, member, places, slots, fun _ => false, fun _ => false⟩

def ownerStep (m : ExitMachine R) : ExitMachine R :=
  match m.phase with
  | .begun => { m with phase := .published, targets := m.member }
  | .published => { m with phase := if ∀ cpu, m.targets cpu = false then .finished else .spinning }
  | .spinning => if ∀ cpu, m.targets cpu = true → m.acks cpu = true then { m with phase := .finished } else m
  | .finished => m

def place (m : ExitMachine R) (cpu : Fin R) (place : Place) : ExitMachine R :=
  { m with places := Function.update m.places cpu place }

def setSlot (m : ExitMachine R) (device : Device) (slot : Fin 8) (state : SlotState) : ExitMachine R :=
  { m with slots := Function.update m.slots device ((m.slots device).set slot state) }

/-- `stop_remote_group_member` on the way to user mode -/
def returnToUser (m : ExitMachine R) (cpu : Fin R) : ExitMachine R :=
  if m.targets cpu then { m with acks := Function.update m.acks cpu true } else m.place cpu .user

def notified (m : ExitMachine R) : Bool := m.phase == .spinning || m.phase == .finished

def otherStep (m : ExitMachine R) (cpu : Fin R) (call : List Operation) : ExitMachine R :=
  if m.acks cpu then m
  else match m.places cpu with
    | .user => if m.targets cpu && m.notified then m.returnToUser cpu else m.place cpu (.kernel call)
    | .kernel [] => m.returnToUser cpu
    | .kernel (.work :: rest) => m.place cpu (.kernel rest)
    | .kernel (.request device :: rest) =>
      match slot? (fun state => state == SlotState.free) (m.slots device) with
      | none => m.place cpu (.kernel rest)
      | some slot => (m.setSlot device slot .writing).place cpu (.writing device slot rest)
    | .writing device slot rest => (m.setSlot device slot .ready).place cpu (.waiting device slot rest)
    | .waiting device slot rest =>
      if (m.slots device)[slot] = .done then (m.setSlot device slot .free).place cpu (.kernel rest) else m

def step (m : ExitMachine R) : Turn R → ExitMachine R
  | .owner => m.ownerStep
  | .other cpu call => m.otherStep cpu call

/-- A CPU waits for a request that is not done. -/
def Stuck (m : ExitMachine R) (cpu : Fin R) : Prop :=
  m.acks cpu = false ∧ ∃ device slot rest, m.places cpu = .waiting device slot rest ∧ (m.slots device)[slot] ≠ .done

/-! ## One step -/

variable {m : ExitMachine R} {cpu other : Fin R} {device : Device} {slot : Fin 8}

/-- What does not change in a step of another CPU. -/
structure Framed (m : ExitMachine R) (cpu : Fin R) (m' : ExitMachine R) : Prop where
  phase : m'.phase = m.phase
  member : m'.member = m.member
  targets : m'.targets = m.targets
  places : ∀ other, other ≠ cpu → m'.places other = m.places other
  acks : ∀ other, other ≠ cpu → m'.acks other = m.acks other
  acked : m.acks cpu = true → m'.acks cpu = true
  undone : ∀ device (slot : Fin 8), (m.slots device)[slot] ≠ .done → (m'.slots device)[slot] ≠ .done

theorem Framed.refl (m : ExitMachine R) (cpu : Fin R) : Framed m cpu m :=
  ⟨rfl, rfl, rfl, fun _ _ => rfl, fun _ _ => rfl, id, fun _ _ => id⟩

theorem framed_place (place : Place) : Framed m cpu (m.place cpu place) :=
  ⟨rfl, rfl, rfl, fun _ h => Function.update_of_ne h _ _, fun _ _ => rfl, id, fun _ _ => id⟩

theorem framed_setSlot {state : SlotState} (hs : state ≠ .done) (place : Place) :
    Framed m cpu ((m.setSlot device slot state).place cpu place) := by
  refine ⟨rfl, rfl, rfl, fun _ h => Function.update_of_ne h _ _, fun _ _ => rfl, id, fun device' slot' hne => ?_⟩
  show (Function.update m.slots device ((m.slots device).set slot state) device')[slot'] ≠ .done
  grind

theorem framed_returnToUser : Framed m cpu (m.returnToUser cpu) := by
  unfold returnToUser
  split
  · exact ⟨rfl, rfl, rfl, fun _ _ => rfl, fun _ h => Function.update_of_ne h _ _, fun _ => Function.update_self ..,
      fun _ _ => id⟩
  · exact framed_place _

theorem framed_otherStep (m : ExitMachine R) (cpu : Fin R) (call : List Operation) : Framed m cpu (m.otherStep cpu call) := by
  unfold otherStep
  split
  · exact .refl m cpu
  split
  · split
    · exact framed_returnToUser
    · exact framed_place _
  · exact framed_returnToUser
  · exact framed_place _
  · split
    · exact framed_place _
    · exact framed_setSlot (by decide) _
  · exact framed_setSlot (by decide) _
  · split
    · exact framed_setSlot (by decide) _
    · exact .refl m cpu

theorem ownerStep_frame (m : ExitMachine R) : m.ownerStep.member = m.member ∧ m.ownerStep.places = m.places ∧
    m.ownerStep.slots = m.slots ∧ m.ownerStep.acks = m.acks := by
  grind [ownerStep]

/-- A CPU that waits does so for good: only the first CPU finishes requests. -/
theorem Stuck.step (h : m.Stuck cpu) (turn : Turn R) : (m.step turn).Stuck cpu := by
  obtain ⟨hack, device, slot, rest, hplace, hundone⟩ := h
  cases turn with
  | owner =>
    obtain ⟨-, hplaces, hslots, hacks⟩ := m.ownerStep_frame
    exact ⟨(congrFun hacks cpu).trans hack, device, slot, rest, (congrFun hplaces cpu).trans hplace, by
      show (m.ownerStep.slots device)[slot] ≠ .done
      rwa [hslots]⟩
  | other cpu' call =>
    have hframe := framed_otherStep m cpu' call
    by_cases heq : cpu = cpu'
    · subst heq
      have hsame : m.otherStep cpu call = m := by
        unfold otherStep
        rw [if_neg (by simp [hack]), hplace]
        exact if_neg hundone
      exact ⟨by show (m.otherStep cpu call).acks cpu = false; rw [hsame, hack], device, slot, rest, by
        show (m.otherStep cpu call).places cpu = _
        rw [hsame, hplace], hframe.undone device slot hundone⟩
    · exact ⟨(hframe.acks cpu heq).trans hack, device, slot, rest, (hframe.places cpu heq).trans hplace,
        hframe.undone device slot hundone⟩

/-! ## The stop -/

/-- The members of the group are the targets once they are published, no other CPU answers, and the stop is finished
when all have answered. -/
structure Stopping (member : Fin R → Bool) (m : ExitMachine R) : Prop where
  same : m.member = member
  targets : m.targets = if m.phase = .begun then fun _ => false else member
  finished : m.phase = .finished → ∀ cpu, member cpu = true → m.acks cpu = true

theorem Stopping.step {member : Fin R → Bool} (h : Stopping member m) (turn : Turn R) : Stopping member (m.step turn) := by
  cases turn with
  | owner =>
    show Stopping member m.ownerStep
    refine ⟨m.ownerStep_frame.1.trans h.same, ?_, fun hf cpu hc => ?_⟩
    · have := h.same
      have := h.targets
      grind [ownerStep]
    · have ht : m.phase ≠ .begun → m.targets cpu = member cpu := fun hp => by rw [h.targets, if_neg hp]
      have := h.finished
      grind [ownerStep]
  | other cpu call =>
    have hframe := framed_otherStep m cpu call
    have hphase : (m.step (.other cpu call)).phase = m.phase := hframe.phase
    refine ⟨hframe.member.trans h.same, ?_, fun hf other hc => ?_⟩
    · exact hframe.targets.trans (by rw [hphase]; exact h.targets)
    have hack := h.finished (hphase ▸ hf) other hc
    by_cases heq : other = cpu
    · subst heq
      exact hframe.acked hack
    · exact (hframe.acks other heq).trans hack

variable {member : Fin R → Bool} {places : Fin R → Place} {slots : Device → Slots SlotState 8} {schedule : Nat → Turn R}

variable (h : Stopping member m)
include h

theorem Stopping.trace (schedule : Nat → Turn R) (n : Nat) : Stopping member (trace ExitMachine.step m schedule n) :=
  trace_stable (Stopping member) (fun _ t hs => hs.step t) (Nat.zero_le n) h

omit h

end ExitMachine

end MakOS.Process
