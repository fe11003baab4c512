/-
What the stages of a slot give its users: a caller gets the answer to its own request, nobody reads its buffer after
that, and a service call takes up every request that it finds ready.
-/
import MakOS.VirtioBlk.HandOff

namespace MakOS.VirtioBlk.HandOff

variable {s t : State} {k : Fin serviceSlots} {c v : Nat}

/-- Another caller's buffer -/
theorem idle_buffer_unread {bytes : List UInt8} {action : Action} (hidle : s.callers c = .idle)
    (hother : action.caller ≠ some c) : step (s.edit c bytes) action = (step s action).edit c bytes := by
  have hne : ∀ {i}, action.caller = some i → c ≠ i := fun hi heq => hother (heq ▸ hi)
  have hedit : s.edit c bytes = { s with buffers := Function.update s.buffers c bytes } := by rw [State.edit, hidle]
  rw [hedit]
  cases action with
  | edit i other =>
    have hi : c ≠ i := hne rfl
    simp only [step, State.edit]
    split <;> simp [hidle, Function.update_comm hi]
  | enter i kind device lba =>
    have hi : c ≠ i := hne rfl
    have hsame : State.arguments { s with buffers := Function.update s.buffers c bytes } i kind device lba =
        s.arguments i kind device lba := by simp [State.arguments, hi.symm]
    simp only [step, State.enter, hsame]
    split
    · split <;> simp [State.edit, hidle, hi]
    · simp [State.edit, hidle]
  | claim i =>
    have hi : c ≠ i := hne rfl
    simp only [step, State.claim]
    split
    · split
      · split <;> simp [State.edit, hidle, hi]
      · simp [State.edit, hidle, hi]
    · simp [State.edit, hidle]
  | fill i | publish i | release i =>
    have hi : c ≠ i := hne rfl
    simp only [step, State.fill, State.publish, State.release]
    split <;> simp [State.edit, hidle, hi, hi.symm]
  | collect i =>
    have hi : c ≠ i := hne rfl
    simp only [step, State.collect]
    split
    · split
      · split <;> simp [State.edit, hidle, hi, Function.update_comm hi]
      · simp [State.edit, hidle]
    · simp [State.edit, hidle]
  | serve v | load v | writeBack v | finish v =>
    simp only [step, State.serve, State.load, State.writeBack, State.finish]
    split <;> simp [State.edit, hidle]
  | take v =>
    simp only [step, State.take]
    split
    · split
      · split <;> simp [State.edit, hidle]
      · simp [State.edit, hidle]
    · simp [State.edit, hidle]
  | execute v result other =>
    simp only [step, State.execute]
    split
    · split <;> simp [State.edit, hidle]
    · simp [State.edit, hidle]

/-- What was carried out for a slot since it was claimed -/
theorem Inv.once (h : Inv s) (k : Fin serviceSlots) :
    (s.slots k).log.length ≤ 1 ∧ ((s.slots k).state = .free → (s.slots k).log = []) := by
  obtain ⟨holder, server, -, -, hstage⟩ := h.placed k
  generalize holder.map _ = caller, server.map _ = servicer at hstage
  cases hstage with
  | free hstate hlog | claimed hstate hlog | filled hstate hlog | ready hstate hlog | taken hstate hlog
  | loaded hstate hlog => exact ⟨by simp [hlog], fun _ => hlog⟩
  | executed hstate hlog | written hstate hlog | done hstate hlog | collected hstate hlog =>
    obtain ⟨e, he, -⟩ := hlog
    exact ⟨by simp [he], fun hfree => by simp [hfree] at hstate⟩

/-- The slot that a service call looks at next, or is at -/
def Servicer.position : Servicer → Option Nat
  | .idle => none
  | .scanning next => some next
  | .claimed k | .loaded k _ | .executed k .. | .written k => some k

/-- The request is ready, and the service call has still to come to it. -/
def Reaching (v : Nat) (k : Fin serviceSlots) (s : State) : Prop :=
  (s.slots k).state = .ready ∧ ∃ i, (s.servicers v).position = some i ∧ i ≤ k.val

theorem Reaching.frame (h : Reaching v k s) (hstate : (t.slots k).state = (s.slots k).state)
    (hposition : (t.servicers v).position = (s.servicers v).position) : Reaching v k t := by
  rw [Reaching, hstate, hposition]
  exact h

theorem position_update {w : Nat} {old new : Servicer} (hold : s.servicers w = old) (h : new.position = old.position) :
    (Function.update s.servicers w new v).position = (s.servicers v).position := by
  by_cases hvw : v = w
  · rw [hvw, Function.update_self, h, hold]
  · rw [Function.update_of_ne hvw]

/-- The state of a slot that a caller has and does not wait for -/
theorem Inv.caller_state (h : Inv s) (hc : (s.callers c).slot = some k) (hne : ∀ call, s.callers c ≠ .waiting call k) :
    (s.slots k).state ≠ .ready := by
  obtain ⟨servicer, -, hstage⟩ := h.atCaller hc
  generalize hcaller : s.callers c = caller at hstage
  cases hstage with
  | claimed hstate | filled hstate | collected hstate => simp [hstate]
  | ready | taken | loaded | executed | written | done => exact absurd hcaller (hne _)

/-- A caller does not touch a slot that is ready. -/
theorem Reaching.caller_step (h : Reaching v k s) (hinv : Inv s) {action : Action} (hcaller : action.caller = some c) :
    Reaching v k (step s action) := by
  have hother : ∀ {i j}, (s.callers i).slot = some j → (∀ call, s.callers i ≠ .waiting call j) → k ≠ j := by
    rintro i j hj hne rfl
    exact hinv.caller_state hj hne h.1
  cases action with
  | edit i bytes =>
    simp only [step, State.edit]
    split <;> exact h
  | enter i kind device lba =>
    simp only [step, State.enter]
    split
    · split <;> exact h
    · exact h
  | claim i =>
    simp only [step, State.claim]
    split
    · split
      · split
        · rename_i hnext hfree
          have hk : k ≠ ⟨_, hnext⟩ := by
            rintro rfl
            cases hfree.symm.trans h.1
          exact h.frame (by simp [hk]) rfl
        · exact h
      · exact h
    · exact h
  | fill i =>
    simp only [step, State.fill]
    split
    · rename_i call j hclaimed
      exact h.frame (by simp [hother (by rw [hclaimed]; rfl) (by simp [hclaimed])]) rfl
    · exact h
  | publish i =>
    simp only [step, State.publish]
    split
    · rename_i call j hfilled
      exact h.frame (by simp [hother (by rw [hfilled]; rfl) (by simp [hfilled])]) rfl
    · exact h
  | collect i =>
    simp only [step, State.collect]
    split
    · split <;> exact h
    · exact h
  | release i =>
    simp only [step, State.release]
    split
    · rename_i call j result hcollected
      exact h.frame (by simp [hother (by rw [hcollected]; rfl) (by simp [hcollected])]) rfl
    · exact h
  | serve | take | load | execute | writeBack | finish => cases hcaller

/-- A service call takes the request up when it comes to it. -/
theorem Reaching.servicer_step (h : Reaching v k s) (hinv : Inv s) {action : Action} (hcaller : action.caller = none) :
    ((step s action).slots k).state = .servicing ∨ Reaching v k (step s action) := by
  obtain ⟨hready, i, hposition, hle⟩ := id h
  cases action with
  | edit | enter | claim | fill | publish | collect | release => cases hcaller
  | serve w =>
    simp only [step, State.serve]
    split
    · rename_i hidle
      have hvw : v ≠ w := by
        rintro rfl
        rw [hidle] at hposition
        cases hposition
      exact .inr (h.frame rfl (by simp [hvw]))
    · exact .inr h
  | take w =>
    simp only [step, State.take]
    split
    · rename_i next hscanning
      have hmoves : ∀ servicer, (v = w → ∃ j, servicer.position = some j ∧ j ≤ k.val) →
          Reaching v k (s.setServicer w servicer) := by
        intro servicer hself
        by_cases hvw : v = w
        · subst hvw
          exact ⟨hready, by simpa using hself rfl⟩
        · exact h.frame rfl (by simp [hvw])
      have hnow : v = w → next ≤ k.val := by
        rintro rfl
        rw [hscanning] at hposition
        exact Option.some.inj hposition ▸ hle
      split
      · rename_i hnext
        split
        · by_cases hk : k = ⟨next, hnext⟩
          · exact .inl (by simp [hk])
          · exact .inr (h.frame (by simp [hk]) (position_update hscanning rfl))
        rename_i hother
        refine .inr (hmoves _ fun hvw => ⟨next + 1, rfl, ?_⟩)
        have hne : next ≠ k.val := by
          rintro rfl
          exact hother hready
        omega
      · rename_i hnext
        exact .inr (hmoves _ fun hvw => absurd (Nat.lt_of_le_of_lt (hnow hvw) k.isLt) hnext)
    · exact .inr h
  | load w =>
    simp only [step, State.load]
    split
    · rename_i j hclaimed
      exact .inr (h.frame rfl (position_update hclaimed rfl))
    · exact .inr h
  | execute w result bytes =>
    simp only [step, State.execute]
    split
    · rename_i j request hloaded
      split
      · refine .inr (h.frame ?_ (position_update hloaded rfl))
        by_cases hk : k = j <;> simp [hk]
      · exact .inr (h.frame rfl (position_update hloaded rfl))
    · exact .inr h
  | writeBack w =>
    simp only [step, State.writeBack]
    split
    · rename_i j request result hexecuted
      refine .inr (h.frame ?_ (position_update hexecuted rfl))
      by_cases hk : k = j <;> simp [hk]
    · exact .inr h
  | finish w =>
    simp only [step, State.finish]
    split
    · rename_i j hwritten
      have hslot : (s.servicers w).slot = some j := by rw [hwritten]; rfl
      have hk : k ≠ j := by
        rintro rfl
        cases (hinv.unserved hready).eq hslot
      by_cases hvw : v = w
      · subst hvw
        rw [hwritten] at hposition
        obtain rfl := Option.some.inj hposition
        exact .inr ⟨by simp [hk, hready], j.val + 1, by simp [Servicer.position], by omega⟩
      · exact .inr (h.frame (by simp [hk]) (by simp [hvw]))
    · exact .inr h

theorem Reaching.run (h : Reaching v k s) (hinv : Inv s) (more : List Action) :
    (∃ first rest, more = first ++ rest ∧ ((first.foldl step s).slots k).state = .servicing) ∨
      Reaching v k (more.foldl step s) := by
  induction more generalizing s with
  | nil => exact .inr h
  | cons action rest ih =>
    have hstep : ((step s action).slots k).state = .servicing ∨ Reaching v k (step s action) := by
      cases hcaller : action.caller with
      | none => exact h.servicer_step hinv hcaller
      | some c => exact .inr (h.caller_step hinv hcaller)
    obtain htaken | hreaching := hstep
    · exact .inl ⟨[action], rest, rfl, htaken⟩
    · refine (ih hreaching (step_inv hinv action)).imp_left ?_
      rintro ⟨first, last, rfl, htaken⟩
      exact ⟨action :: first, last, rfl, htaken⟩

/-- In every state of every run: a request is carried out at most once, a queued call returns with the result and the
data of its own request, and its slot is its own until then; a service call takes up, or leaves to another, every
request that it finds ready; and the buffer of a call that has returned is not read. -/
theorem requests_handed_off (actions : List Action) : HandedOff (run actions) := by
  have hinv := run_inv actions
  refine ⟨hinv.once, hinv.answered, fun c k hc => ⟨fun hfree => ?_, fun i hi => ?_⟩,
    fun v k more hidle hready hover => ?_, fun c bytes action => idle_buffer_unread⟩
  · cases (hinv.unheld hfree).eq hc
  · obtain ⟨servicer, hheld, -⟩ := hinv.atCaller hc
    exact (Option.some.inj (hheld.eq hi)).symm
  have hstart : Reaching v k ((run actions).serve v) := by
    rw [State.serve, hidle]
    exact ⟨hready, 0, by simp [Servicer.position], Nat.zero_le _⟩
  obtain htaken | ⟨-, i, hposition, -⟩ := hstart.run (hinv.serve v) more
  · exact htaken
  · rw [hover] at hposition
    cases hposition

/-- A flush that CPU 1 queues and the owner carries out -/
example : (run [.enter 1 .flush 0 0, .claim 1, .fill 1, .publish 1, .serve 0, .take 0, .load 0,
    .execute 0 true fun _ => 0, .writeBack 0, .finish 0, .collect 1, .release 1]).returns.map (·.result) = [true] := by
  decide +kernel

end MakOS.VirtioBlk.HandOff
