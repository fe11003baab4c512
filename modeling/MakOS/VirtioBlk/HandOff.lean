/-
The way of a slot. Its state, the caller and the service call that have it, and what was carried out for it go together
at every stage, and a step of one of them takes its own slot to the next stage and touches no other.
-/
import MakOS.VirtioBlk.Service

namespace MakOS.VirtioBlk.HandOff

/-- Where a slot is on its way: what its caller (with its buffer) and its service call are at -/
inductive Stage (k : Fin serviceSlots) (slot : Slot) : Option (Caller × List UInt8) → Option Servicer → Prop
  | free (hstate : slot.state = .free) (hlog : slot.log = []) : Stage k slot none none
  | claimed {call : Call} {buffer : List UInt8} (hstate : slot.state = .writing) (hlog : slot.log = [])
      (haccepted : call.request.accepted = true) (hbuffer : call.requestFrom buffer = call.request) :
      Stage k slot (some (.claimed call k, buffer)) none
  | filled {call : Call} {buffer : List UInt8} (hstate : slot.state = .writing) (hlog : slot.log = [])
      (haccepted : call.request.accepted = true) (hrequest : slot.request = call.request) :
      Stage k slot (some (.filled call k, buffer)) none
  | ready {call : Call} {buffer : List UInt8} (hstate : slot.state = .ready) (hlog : slot.log = [])
      (haccepted : call.request.accepted = true) (hrequest : slot.request = call.request) :
      Stage k slot (some (.waiting call k, buffer)) none
  | taken {call : Call} {buffer : List UInt8} (hstate : slot.state = .servicing) (hlog : slot.log = [])
      (haccepted : call.request.accepted = true) (hrequest : slot.request = call.request) :
      Stage k slot (some (.waiting call k, buffer)) (some (.claimed k))
  | loaded {call : Call} {buffer : List UInt8} (hstate : slot.state = .servicing) (hlog : slot.log = [])
      (haccepted : call.request.accepted = true) :
      Stage k slot (some (.waiting call k, buffer)) (some (.loaded k call.request))
  | executed {call : Call} {buffer : List UInt8} {request : ServiceRequest} {result : Bool}
      (hstate : slot.state = .servicing) (hlog : Answered slot.log call result (request.data.take call.buffer.length)) :
      Stage k slot (some (.waiting call k, buffer)) (some (.executed k request result))
  | written {call : Call} {buffer : List UInt8} (hstate : slot.state = .servicing)
      (hlog : Answered slot.log call slot.result (slot.request.data.take call.buffer.length)) :
      Stage k slot (some (.waiting call k, buffer)) (some (.written k))
  | done {call : Call} {buffer : List UInt8} (hstate : slot.state = .done)
      (hlog : Answered slot.log call slot.result (slot.request.data.take call.buffer.length)) :
      Stage k slot (some (.waiting call k, buffer)) none
  | collected {call : Call} {buffer : List UInt8} {result : Bool} (hstate : slot.state = .done)
      (hlog : Answered slot.log call result buffer) : Stage k slot (some (.collected call k result, buffer)) none

def Holds (slot : Nat → Option (Fin serviceSlots)) (k : Fin serviceSlots) (holder : Option Nat) : Prop :=
  ∀ i, slot i = some k ↔ holder = some i

/-- A slot has at most one caller and at most one service call, and they and it go together. -/
def Placed (s : State) (k : Fin serviceSlots) : Prop :=
  ∃ c v, Holds (fun i => (s.callers i).slot) k c ∧ Holds (fun i => (s.servicers i).slot) k v ∧
    Stage k (s.slots k) (c.map fun i => (s.callers i, s.buffers i)) (v.map s.servicers)

structure Inv (s : State) : Prop where
  placed : ∀ k, Placed s k
  scanning : ∀ c call next, s.callers c = .scanning call next →
    call.request.accepted = true ∧ call.requestFrom (s.buffers c) = call.request
  answered : ∀ r ∈ s.returns, Answered r.log r.call r.result r.buffer

section Holding

variable {f g : Nat → Option (Fin serviceSlots)} {j k : Fin serviceSlots} {c : Nat} {holder other : Option Nat}

theorem Holds.eq (h : Holds f k holder) (hc : f c = some k) : holder = some c := (h c).1 hc

theorem Holds.unique (h : Holds f k holder) (h' : Holds f k other) : holder = other :=
  Option.ext fun i => (h i).symm.trans (h' i)

/-- A slot that the one that moves neither comes from nor goes to -/
theorem Holds.frame (h : Holds f j holder) (hoff : ∀ i, i ≠ c → g i = f i) (hf : f c ≠ some j) (hg : g c ≠ some j) :
    Holds g j holder := by
  intro i
  by_cases hi : i = c
  · subst hi
    exact ⟨fun heq => absurd heq hg, fun heq => absurd ((h i).2 heq) hf⟩
  · rw [hoff i hi]
    exact h i

/-- The one that moves has the slot after it, or none has it. -/
theorem Holds.move (h : Holds f k holder) (hat : f c = holder.map fun _ => k) (hoff : ∀ i, i ≠ c → g i = f i) :
    Holds g k (if g c = some k then some c else none) := by
  intro i
  by_cases hi : i = c
  · split <;> simp_all
  rw [hoff i hi]
  refine ⟨fun heq => absurd ?_ hi, fun heq => ?_⟩
  · obtain rfl := h.eq heq
    exact Option.some.inj (h.eq hat)
  · split at heq
    · exact absurd (Option.some.inj heq).symm hi
    · cases heq

theorem at_slot {at_ : Option (Fin serviceSlots)} (hat : at_ = holder.map fun _ => k) (hj : at_ = some j) : j = k := by
  cases holder with
  | none => cases hj.symm.trans hat
  | some i => exact Option.some.inj (hj.symm.trans hat)

end Holding

variable {s t : State} {k : Fin serviceSlots} {c v : Nat}

/-- A slot that a caller neither comes from nor goes to -/
theorem Placed.frame_caller (h : Placed s k) (hbefore : (s.callers c).slot ≠ some k)
    (hafter : (t.callers c).slot ≠ some k) (hslot : t.slots k = s.slots k)
    (hcallers : ∀ i, i ≠ c → t.callers i = s.callers i ∧ t.buffers i = s.buffers i)
    (hservicers : t.servicers = s.servicers) : Placed t k := by
  obtain ⟨holder, server, hheld, hserved, hstage⟩ := h
  have hview : (holder.map fun i => (t.callers i, t.buffers i)) = holder.map fun i => (s.callers i, s.buffers i) := by
    cases holder with
    | none => rfl
    | some i =>
      have hi : i ≠ c := fun heq => hbefore (by rw [← heq]; exact (hheld i).2 rfl)
      rw [Option.map_some, Option.map_some, (hcallers i hi).1, (hcallers i hi).2]
  refine ⟨holder, server, hheld.frame (fun i hi => by rw [(hcallers i hi).1]) hbefore hafter,
    by rw [hservicers]; exact hserved, ?_⟩
  rw [hslot, hview, hservicers]
  exact hstage

/-- A slot that a service call neither comes from nor goes to -/
theorem Placed.frame_servicer (h : Placed s k) (hbefore : (s.servicers v).slot ≠ some k)
    (hafter : (t.servicers v).slot ≠ some k) (hslot : t.slots k = s.slots k)
    (hservicers : ∀ i, i ≠ v → t.servicers i = s.servicers i) (hcallers : t.callers = s.callers)
    (hbuffers : t.buffers = s.buffers) : Placed t k := by
  obtain ⟨holder, server, hheld, hserved, hstage⟩ := h
  have hview : server.map t.servicers = server.map s.servicers := by
    cases server with
    | none => rfl
    | some i =>
      have hi : i ≠ v := fun heq => hbefore (by rw [← heq]; exact (hserved i).2 rfl)
      rw [Option.map_some, Option.map_some, hservicers i hi]
  refine ⟨holder, server, by rw [hcallers]; exact hheld,
    hserved.frame (fun i hi => by rw [hservicers i hi]) hbefore hafter, ?_⟩
  rw [hslot, hview, hcallers, hbuffers]
  exact hstage

variable (h : Inv s)
include h

/-- A caller that has a slot, with the slot -/
theorem Inv.atCaller (hc : (s.callers c).slot = some k) : ∃ servicer, Holds (fun i => (s.callers i).slot) k (some c) ∧
      Stage k (s.slots k) (some (s.callers c, s.buffers c)) servicer := by
  obtain ⟨holder, server, hheld, -, hstage⟩ := h.placed k
  obtain rfl := hheld.eq hc
  exact ⟨_, hheld, hstage⟩

/-- A service call that has a slot, with the slot -/
theorem Inv.atServicer (hv : (s.servicers v).slot = some k) :
    ∃ caller, Holds (fun i => (s.servicers i).slot) k (some v) ∧
      Stage k (s.slots k) caller (some (s.servicers v)) := by
  obtain ⟨holder, server, -, hserved, hstage⟩ := h.placed k
  obtain rfl := hserved.eq hv
  exact ⟨_, hserved, hstage⟩

/-- A step of a caller at its slot, or to a slot that it gets -/
theorem Inv.advance_caller {holder : Option Nat} {slot : Slot} {caller : Caller} {buffers : Nat → List UInt8}
    (hheld : Holds (fun i => (s.callers i).slot) k holder) (hat : (s.callers c).slot = holder.map fun _ => k)
    (hafter : ∀ j, caller.slot = some j → j = k) (hscanning : ∀ call next, caller ≠ .scanning call next)
    (hbuffers : ∀ i, i ≠ c → buffers i = s.buffers i)
    (hstage : ∀ servicer, Stage k (s.slots k) (holder.map fun i => (s.callers i, s.buffers i)) servicer →
      Stage k slot (caller.slot.map fun _ => (caller, buffers c)) servicer) :
    Inv { (s.setSlot k slot).setCaller c caller with buffers } := by
  refine ⟨fun j => ?_, fun i call next hi => ?_, h.answered⟩
  · by_cases hj : j = k
    · subst hj
      obtain ⟨other, server, hother, hserved, hold⟩ := h.placed j
      obtain rfl := hother.unique hheld
      refine ⟨_, server, hheld.move hat (fun i hi => by simp [hi]), hserved, ?_⟩
      have hnew := hstage _ hold
      cases hslot : caller.slot with
      | none => simpa [hslot] using hnew
      | some i =>
        obtain rfl := hafter i hslot
        simpa [hslot] using hnew
    · exact (h.placed j).frame_caller (fun heq => hj (at_slot hat heq)) (fun heq => hj (hafter j (by simpa using heq)))
        (by simp [hj]) (fun i hi => ⟨by simp [hi], hbuffers i hi⟩) rfl
  · by_cases hic : i = c
    · subst hic
      exact absurd hi (by simpa using hscanning call next)
    · simp only [hbuffers i hic]
      exact h.scanning i call next (by simpa [hic] using hi)

/-- A step of a caller that has a slot -/
theorem Inv.step_caller {slot : Slot} {old caller : Caller} {buffers : Nat → List UInt8}
    (hc : s.callers c = old) (hat : old.slot = some k) (hafter : ∀ j, caller.slot = some j → j = k)
    (hscanning : ∀ call next, caller ≠ .scanning call next) (hbuffers : ∀ i, i ≠ c → buffers i = s.buffers i)
    (hstage : ∀ servicer, Stage k (s.slots k) (some (old, s.buffers c)) servicer →
      Stage k slot (caller.slot.map fun _ => (caller, buffers c)) servicer) :
    Inv { (s.setSlot k slot).setCaller c caller with buffers } := by
  subst hc
  obtain ⟨_, hheld, -⟩ := h.atCaller hat
  exact h.advance_caller hheld hat hafter hscanning hbuffers hstage

/-- A step of a service call at its slot, or to a slot that it gets -/
theorem Inv.advance_servicer {server : Option Nat} {slot : Slot} {servicer : Servicer}
    (hserved : Holds (fun i => (s.servicers i).slot) k server) (hat : (s.servicers v).slot = server.map fun _ => k)
    (hafter : ∀ j, servicer.slot = some j → j = k)
    (hstage : ∀ caller, Stage k (s.slots k) caller (server.map s.servicers) →
      Stage k slot caller (servicer.slot.map fun _ => servicer)) : Inv ((s.setSlot k slot).setServicer v servicer) := by
  refine ⟨fun j => ?_, h.scanning, h.answered⟩
  by_cases hj : j = k
  · subst hj
    obtain ⟨holder, other, hheld, hother, hold⟩ := h.placed j
    obtain rfl := hother.unique hserved
    refine ⟨holder, _, hheld, hserved.move hat (fun i hi => by simp [hi]), ?_⟩
    have hnew := hstage _ hold
    cases hslot : servicer.slot with
    | none => simpa [hslot] using hnew
    | some i =>
      obtain rfl := hafter i hslot
      simpa [hslot] using hnew
  · exact (h.placed j).frame_servicer (fun heq => hj (at_slot hat heq)) (fun heq => hj (hafter j (by simpa using heq)))
      (by simp [hj]) (fun i hi => by simp [hi]) rfl rfl

/-- A step of a service call that has a slot -/
theorem Inv.step_servicer {slot : Slot} {old servicer : Servicer} (hv : s.servicers v = old)
    (hat : old.slot = some k) (hafter : ∀ j, servicer.slot = some j → j = k)
    (hstage : ∀ caller, Stage k (s.slots k) caller (some old) →
      Stage k slot caller (servicer.slot.map fun _ => servicer)) : Inv ((s.setSlot k slot).setServicer v servicer) := by
  subst hv
  obtain ⟨_, hserved, -⟩ := h.atServicer hat
  exact h.advance_servicer hserved hat hafter hstage

/-! ## The steps of a caller -/

/-- A caller that has no slot goes on without one. -/
theorem Inv.move_caller {caller : Caller} {bytes : List UInt8} (hbefore : (s.callers c).slot = none)
    (hafter : caller.slot = none)
    (hscanning : ∀ call next, caller = .scanning call next →
      call.request.accepted = true ∧ call.requestFrom bytes = call.request) :
    Inv { s.setCaller c caller with buffers := Function.update s.buffers c bytes } := by
  refine ⟨fun k => (h.placed k).frame_caller (by rw [hbefore]; simp) (by simp [hafter]) rfl (fun i hi => by simp [hi])
    rfl, fun i call next hi => ?_, h.answered⟩
  by_cases hic : i = c
  · subst hic
    simp only [State.setCaller, Function.update_self] at hi ⊢
    exact hscanning call next hi
  · simp only [State.setCaller, Function.update_of_ne hic] at hi ⊢
    exact h.scanning i call next hi

theorem Inv.set_caller {caller : Caller} (hbefore : (s.callers c).slot = none) (hafter : caller.slot = none)
    (hscanning : ∀ call next, caller = .scanning call next →
      call.request.accepted = true ∧ call.requestFrom (s.buffers c) = call.request) : Inv (s.setCaller c caller) := by
  have hmoved := h.move_caller hbefore hafter hscanning
  rwa [Function.update_eq_self] at hmoved

theorem Inv.edit (c : Nat) (bytes : List UInt8) : Inv (s.edit c bytes) := by
  unfold State.edit
  split
  · rename_i hidle
    have hnone : (s.callers c).slot = none := by rw [hidle]; rfl
    have hmoved := @Inv.move_caller s c h _ bytes hnone hnone (fun call next heq => by rw [hidle] at heq; cases heq)
    rwa [State.setCaller, Function.update_eq_self] at hmoved
  · exact h

theorem Inv.enter (c : Nat) (kind : Kind) (device : Nat) (lba : UInt32) : Inv (s.enter c kind device lba) := by
  unfold State.enter
  split
  · rename_i hidle
    split
    · rename_i haccepted
      refine h.set_caller (by rw [hidle]; rfl) rfl ?_
      rintro call next heq
      cases heq
      refine ⟨haccepted, ?_⟩
      by_cases hflush : kind = .flush
      · simp [Call.request, Call.requestFrom, State.arguments, hflush]
      · rw [Call.request, State.arguments, if_neg hflush]
    · exact h
  · exact h

/-- A slot that is free has no caller. -/
theorem Inv.unheld (hstate : (s.slots k).state = .free) : Holds (fun i => (s.callers i).slot) k none := by
  obtain ⟨holder, server, hheld, -, hstage⟩ := h.placed k
  generalize hholder : holder.map _ = caller, server.map _ = servicer at hstage
  cases hstage with
  | free =>
    obtain rfl := Option.map_eq_none_iff.1 hholder
    exact hheld
  | ready hother | claimed hother | filled hother | taken hother | loaded hother | executed hother | written hother
  | done hother | collected hother =>
    rw [hstate] at hother
    cases hother

theorem Inv.claim (c : Nat) : Inv (s.claim c) := by
  unfold State.claim
  split
  · rename_i call next hscanning
    obtain ⟨haccepted, hbuffer⟩ := h.scanning c call next hscanning
    have hnone : (s.callers c).slot = none := by rw [hscanning]; rfl
    split
    · split
      · rename_i hfree
        refine h.advance_caller (h.unheld hfree) hnone (by simp [Caller.slot]) (by simp) (fun _ _ => rfl)
          fun servicer hstage => ?_
        cases hstage with
        | free hstate hlog => exact .claimed rfl hlog haccepted hbuffer
      refine h.set_caller hnone rfl ?_
      rintro other at_ heq
      cases heq
      exact ⟨haccepted, hbuffer⟩
    · exact h.set_caller hnone rfl fun other at_ heq => by cases heq
  · exact h

theorem Inv.fill (c : Nat) : Inv (s.fill c) := by
  unfold State.fill
  split
  · rename_i call k hcaller
    refine h.step_caller hcaller rfl (by simp [Caller.slot]) (by simp) (fun _ _ => rfl) fun servicer hstage => ?_
    cases hstage with
    | claimed hstate hlog haccepted hbuffer => exact .filled hstate hlog haccepted hbuffer
  · exact h

theorem Inv.publish (c : Nat) : Inv (s.publish c) := by
  unfold State.publish
  split
  · rename_i call k hcaller
    refine h.step_caller hcaller rfl (by simp [Caller.slot]) (by simp) (fun _ _ => rfl) fun servicer hstage => ?_
    cases hstage with
    | filled hstate hlog haccepted hrequest => exact .ready rfl hlog haccepted hrequest
  · exact h

/-- A caller that sees `DONE` finds the answer to its own call. -/
theorem Inv.collect (c : Nat) : Inv (s.collect c) := by
  unfold State.collect
  split
  · rename_i call k hcaller
    split
    · rename_i hdone
      rw [show s.setCaller c (.collected call k (s.slots k).result) =
        (s.setSlot k (s.slots k)).setCaller c (.collected call k (s.slots k).result) by simp]
      refine h.step_caller hcaller rfl (by simp [Caller.slot]) (by simp) (fun i hi => ?_) fun servicer hstage => ?_
      · split <;> simp [hi]
      cases hstage with
      | done hstate hlog =>
        obtain ⟨e, he, hrequest, hresult, hdata⟩ := hlog
        refine .collected hstate ⟨e, he, hrequest, hresult, fun hread htrue => ?_⟩
        rw [if_pos ⟨htrue, hread⟩, Function.update_self]
        exact hdata hread htrue
      | ready hstate | taken hstate | loaded hstate | executed hstate | written hstate =>
        rw [hdone] at hstate
        cases hstate
    · exact h
  · exact h

/-- A call returns with the answer to its own request. -/
theorem Inv.release (c : Nat) : Inv (s.release c) := by
  unfold State.release
  split
  · rename_i call k result hcaller
    have hslot : (s.callers c).slot = some k := by rw [hcaller]; rfl
    obtain ⟨_, -, hold⟩ := h.atCaller hslot
    have hfreed : Inv ((s.setSlot k { s.slots k with state := .free, log := [] }).setCaller c .idle) := by
      refine h.step_caller hcaller rfl (by simp [Caller.slot]) (by simp) (fun _ _ => rfl) fun servicer hstage => ?_
      cases hstage with
      | collected => exact .free rfl rfl
    refine ⟨hfreed.placed, hfreed.scanning, fun r hr => (List.mem_append.1 hr).elim (h.answered r) fun hnew => ?_⟩
    obtain rfl := List.mem_singleton.1 hnew
    rw [hcaller] at hold
    cases hold with
    | collected hstate hlog => exact hlog
  · exact h

/-! ## The steps of a service call -/

/-- A service call that has no slot goes on without one. -/
theorem Inv.move_servicer {servicer : Servicer} (hbefore : (s.servicers v).slot = none)
    (hafter : servicer.slot = none) : Inv (s.setServicer v servicer) :=
  ⟨fun k => (h.placed k).frame_servicer (by rw [hbefore]; simp) (by simp [hafter]) rfl (fun i hi => by simp [hi]) rfl rfl,
    h.scanning, h.answered⟩

theorem Inv.serve (v : Nat) : Inv (s.serve v) := by
  unfold State.serve
  split
  · rename_i hidle
    exact h.move_servicer (by rw [hidle]; rfl) rfl
  · exact h

/-- A slot that is ready has no service call. -/
theorem Inv.unserved (hstate : (s.slots k).state = .ready) : Holds (fun i => (s.servicers i).slot) k none := by
  obtain ⟨holder, server, -, hserved, hstage⟩ := h.placed k
  generalize holder.map _ = caller, hserver : server.map s.servicers = servicer at hstage
  cases hstage with
  | ready =>
    obtain rfl := Option.map_eq_none_iff.1 hserver
    exact hserved
  | free hother | claimed hother | filled hother | taken hother | loaded hother | executed hother | written hother
  | done hother | collected hother =>
    rw [hstate] at hother
    cases hother

theorem Inv.take (v : Nat) : Inv (s.take v) := by
  unfold State.take
  split
  · rename_i next hscanning
    have hnone : (s.servicers v).slot = none := by rw [hscanning]; rfl
    split
    · split
      · rename_i hready
        refine h.advance_servicer (h.unserved hready) hnone (by simp [Servicer.slot]) fun caller hstage => ?_
        cases hstage with
        | ready hstate hlog haccepted hrequest => exact .taken rfl hlog haccepted hrequest
        | free hother | claimed hother | filled hother | done hother | collected hother =>
          rw [hready] at hother
          cases hother
      · exact h.move_servicer hnone rfl
    · exact h.move_servicer hnone rfl
  · exact h

theorem Inv.load (v : Nat) : Inv (s.load v) := by
  unfold State.load
  split
  · rename_i k hservicer
    suffices hstep : Inv ((s.setSlot k (s.slots k)).setServicer v (.loaded k (s.slots k).request)) by
      rwa [State.setSlot, Function.update_eq_self] at hstep
    refine h.step_servicer hservicer rfl (by simp [Servicer.slot]) fun caller hstage => ?_
    cases hstage with
    | taken hstate hlog haccepted hrequest =>
      rw [hrequest]
      exact .loaded hstate hlog haccepted
  · exact h

/-- The second check does not fail, and the request is carried out for the first time. -/
theorem Inv.execute (v : Nat) (result : Bool) (bytes : Nat → UInt8) : Inv (s.execute v result bytes) := by
  unfold State.execute
  split
  · rename_i k request hservicer
    have hslot : (s.servicers v).slot = some k := by rw [hservicer]; rfl
    obtain ⟨_, -, hold⟩ := h.atServicer hslot
    have hfirst : request.accepted = true := by
      rw [hservicer] at hold
      cases hold with
      | loaded hstate hlog haccepted => exact haccepted
    rw [if_pos hfirst]
    refine h.step_servicer hservicer rfl (by simp [Servicer.slot]) fun caller hstage => ?_
    cases hstage with
    | loaded hstate hlog haccepted =>
      exact .executed hstate ⟨_, (congrArg (· ++ _) hlog).trans (List.nil_append _), rfl, rfl, fun _ _ => rfl⟩
  · exact h

theorem Inv.writeBack (v : Nat) : Inv (s.writeBack v) := by
  unfold State.writeBack
  split
  · rename_i k request result hservicer
    refine h.step_servicer hservicer rfl (by simp [Servicer.slot]) fun caller hstage => ?_
    cases hstage with
    | executed hstate hlog => exact .written hstate hlog
  · exact h

theorem Inv.finish (v : Nat) : Inv (s.finish v) := by
  unfold State.finish
  split
  · rename_i k hservicer
    refine h.step_servicer hservicer rfl (by simp [Servicer.slot]) fun caller hstage => ?_
    cases hstage with
    | written hstate hlog => exact .done rfl hlog
  · exact h

theorem step_inv (action : Action) : Inv (step s action) := by
  cases action with
  | edit => exact h.edit ..
  | enter => exact h.enter ..
  | claim c => exact h.claim c
  | fill c => exact h.fill c
  | publish c => exact h.publish c
  | collect c => exact h.collect c
  | release c => exact h.release c
  | serve v => exact h.serve v
  | take v => exact h.take v
  | load v => exact h.load v
  | execute => exact h.execute ..
  | writeBack v => exact h.writeBack v
  | finish v => exact h.finish v

omit h

theorem initial_inv : Inv .initial where
  placed k := ⟨none, none, fun i => by simp [State.initial, Caller.slot], fun i => by simp [State.initial, Servicer.slot],
    .free rfl rfl⟩
  scanning c call next h := by cases h
  answered r h := by cases h

theorem run_inv (actions : List Action) : Inv (run actions) :=
  List.foldlRecOn actions step initial_inv fun _ h action _ => step_inv h action

end MakOS.VirtioBlk.HandOff
