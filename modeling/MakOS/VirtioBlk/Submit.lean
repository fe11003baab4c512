/-
`submit`, with the device at the other end of the queue. Every request uses the same header, data buffer and status
byte, and the driver takes the request to be complete when the used index is the next one after `last_used`. A request
that timed out stays with the device: its completion is then taken to be that of the next one.
-/
import MakOS.Data.Guarded

namespace MakOS.VirtioBlk

open Data

variable {α : Type}

inductive Kind
  | read
  | write
  | flush
deriving DecidableEq, Repr

/-- The request header, with the length of the data in sectors -/
structure Request where
  kind : Kind
  sector : Nat
  count : Nat
deriving DecidableEq, Repr

def Request.sectors (request : Request) (disk : Nat → α) : List α :=
  (List.range request.count).map fun i => disk (request.sector + i)

def Request.store (request : Request) (payload : List α) (disk : Nat → α) : Nat → α :=
  fun lba => if request.sector ≤ lba ∧ lba < request.sector + request.count
    then payload[lba - request.sector]?.getD (disk lba) else disk lba

/-- A request that the device read from the queue. The serial is the place in the order in which requests are
published; the code has no such number. -/
structure Fetched (α : Type) where
  serial : Nat
  request : Request
  payload : List α

/-- A request that the device completed, with the disk as it was then -/
structure Completion (α : Type) where
  serial : Nat
  request : Request
  status : UInt8
  disk : Nat → α

/-- What a call of `submit` returned, with the data that `read_on_owner` then copied -/
structure Return (α : Type) where
  serial : Nat
  request : Request
  result : Bool
  data : List α
deriving DecidableEq

inductive Phase
  | idle
  /-- In the loop that looks at the used index -/
  | polling (serial : Nat) (request : Request)
  /-- The used index was the expected one; the status is not yet read. -/
  | completed (serial : Nat) (request : Request)

structure State (α : Type) where
  header : Request
  data : List α
  status : UInt8
  usedIndex : UInt16
  availIndex : UInt16
  lastUsed : UInt16
  phase : Phase
  published : Nat
  fetched : Nat
  inflight : List (Fetched α)
  disk : Nat → α
  completions : List (Completion α)
  returns : List (Return α)

/-- After `configure` -/
def State.initial (disk : Nat → α) : State α where
  header := ⟨.read, 0, 0⟩
  data := []
  status := 0
  usedIndex := 0
  availIndex := 0
  lastUsed := 0
  phase := .idle
  published := 0
  fetched := 0
  inflight := []
  disk
  completions := []
  returns := []

/-- The first part of `submit`, up to the notification; `write_on_owner` has put its input in the buffer -/
def State.submit (s : State α) (request : Request) (input : List α) : State α :=
  match s.phase with
  | .idle => { s with
      header := request
      data := if request.kind = .write then input ++ s.data.drop input.length else s.data
      status := 0xff
      availIndex := s.availIndex + 1
      phase := .polling s.published request
      published := s.published + 1 }
  | _ => s

/-- The device reads the next published request, as the header and the buffer now are -/
def State.fetch (s : State α) : State α :=
  if s.fetched < s.published then
    { s with fetched := s.fetched + 1, inflight := s.inflight ++ [⟨s.fetched, s.header, s.data.take s.header.count⟩] }
  else s

/-- The device completes one of the requests it has -/
def State.complete (s : State α) (k : Nat) (status : UInt8) : State α :=
  match s.inflight[k]? with
  | none => s
  | some ⟨serial, request, payload⟩ => { s with
      data := if status = 0 ∧ request.kind = .read then request.sectors s.disk ++ s.data.drop request.count else s.data
      status
      usedIndex := s.usedIndex + 1
      inflight := s.inflight.eraseIdx k
      disk := if status = 0 ∧ request.kind = .write then request.store payload s.disk else s.disk
      completions := s.completions ++ [⟨serial, request, status, s.disk⟩] }

/-- One look at the used index -/
def State.poll (s : State α) : State α :=
  match s.phase with
  | .polling serial request =>
    if s.usedIndex = s.lastUsed + 1 then { s with phase := .completed serial request } else s
  | _ => s

/-- The part of `submit` after the loop, and the copy of the data -/
def State.collect (s : State α) : State α :=
  match s.phase with
  | .completed serial request => { s with
      lastUsed := s.lastUsed + 1
      phase := .idle
      returns := s.returns ++ [⟨serial, request, s.status == 0, s.data.take request.count⟩] }
  | _ => s

/-- The loop ends without the expected index. -/
def State.timeOut (s : State α) : State α :=
  match s.phase with
  | .polling serial request =>
    { s with phase := .idle, returns := s.returns ++ [⟨serial, request, false, []⟩] }
  | _ => s

inductive Action (α : Type)
  | submit (request : Request) (input : List α)
  | fetch
  | complete (k : Nat) (status : UInt8)
  | poll
  | collect
  | timeOut

def step (s : State α) : Action α → State α
  | .submit request input => s.submit request input
  | .fetch => s.fetch
  | .complete k status => s.complete k status
  | .poll => s.poll
  | .collect => s.collect
  | .timeOut => s.timeOut

def run (disk : Nat → α) (actions : List (Action α)) : State α := actions.foldl step (.initial disk)

/-- The device completed this very request without an error, and a read got the sectors that it asked for. -/
def Return.MatchedBy (r : Return α) (c : Completion α) : Prop :=
  c.serial = r.serial ∧ c.request = r.request ∧ c.status = 0 ∧
    (r.request.kind = .read → r.data = r.request.sectors c.disk)

instance Return.decidableMatchedBy [DecidableEq α] (r : Return α) (c : Completion α) : Decidable (r.MatchedBy c) :=
  inferInstanceAs (Decidable (_ ∧ _))

/-- Every `submit` that returned true has its own completion. -/
def Matched (s : State α) : Prop := ∀ r ∈ s.returns, r.result = true → ∃ c ∈ s.completions, r.MatchedBy c

instance decidableMatched [DecidableEq α] (s : State α) : Decidable (Matched s) :=
  inferInstanceAs (Decidable (∀ r ∈ s.returns, _))

/-- No request before this one timed out. -/
def Action.Admits (s : State α) : Action α → Prop
  | .submit .. => s.availIndex = s.lastUsed
  | _ => True

instance Action.decidableAdmits (s : State α) : (action : Action α) → Decidable (action.Admits s)
  | .submit .. => inferInstanceAs (Decidable (_ = _))
  | .fetch | .complete .. | .poll | .collect | .timeOut => isTrue trivial

structure Drained (s : State α) : Prop where
  fetched : s.fetched = s.published
  inflight : s.inflight = []

/-- The last completion is that of the request, and the status byte and the buffer are as it left them. -/
def Answered (s : State α) (serial : Nat) (request : Request) : Prop :=
  ∃ c ∈ s.completions, c.serial = serial ∧ c.request = request ∧ c.status = s.status ∧
    (s.status = 0 → request.kind = .read → s.data.take request.count = request.sectors c.disk)

/-- The one request that the device has, from when it is published to when it is completed -/
inductive Outstanding (s : State α) (serial : Nat) (request : Request) : Prop
  | published (hused : s.usedIndex = s.lastUsed) (hinflight : s.inflight = []) (hserial : s.fetched = serial)
      (hlast : s.published = serial + 1) (hheader : s.header = request)
  | fetched (payload : List α) (hused : s.usedIndex = s.lastUsed) (hinflight : s.inflight = [⟨serial, request, payload⟩])
      (hall : s.fetched = s.published)
  | answered (hused : s.usedIndex = s.lastUsed + 1) (hdrained : Drained s) (hanswered : Answered s serial request)

/-- What holds while no request was published after one that timed out -/
def InStep (s : State α) : Prop :=
  match s.phase with
  | .idle => s.availIndex = s.lastUsed → s.usedIndex = s.lastUsed ∧ Drained s
  | .polling serial request => s.availIndex = s.lastUsed + 1 ∧ Outstanding s serial request
  | .completed serial request =>
    s.availIndex = s.lastUsed + 1 ∧ s.usedIndex = s.lastUsed + 1 ∧ Drained s ∧ Answered s serial request

structure Sound (s : State α) : Prop where
  inStep : InStep s
  matched : Matched s

variable {s : State α}

theorem index_ne_next (index : UInt16) : index ≠ index + 1 := by
  intro h
  have := congrArg UInt16.toNat h
  simp at this
  omega

theorem Drained.fetch (h : Drained s) : s.fetch = s := by
  rw [State.fetch, if_neg (by rw [h.fetched]; exact Nat.lt_irrefl _)]

theorem Drained.complete (h : Drained s) (k : Nat) (status : UInt8) : s.complete k status = s := by
  rw [State.complete, h.inflight]
  rfl

/-- A step of the device when the driver is out of step: nothing is known, but the completions that there were stay. -/
theorem Sound.of_behind {t : State α} (hidle : s.phase = .idle) (hin : s.availIndex ≠ s.lastUsed)
    (hphase : t.phase = s.phase) (havail : t.availIndex = s.availIndex) (hlast : t.lastUsed = s.lastUsed)
    (hmatched : Matched t) : Sound t := by
  refine ⟨?_, hmatched⟩
  rw [InStep, hphase, hidle]
  exact fun heq => absurd (havail.symm.trans (heq.trans hlast)) hin

theorem Matched.completed {t : State α} (h : Matched s) (hreturns : t.returns = s.returns)
    (hkeep : ∀ c ∈ s.completions, c ∈ t.completions) : Matched t := by
  intro r hr hresult
  obtain ⟨c, hc, hmatch⟩ := h r (hreturns ▸ hr) hresult
  exact ⟨c, hkeep c hc, hmatch⟩

theorem Sound.submit (h : Sound s) (request : Request) (input : List α) (hadmits : s.availIndex = s.lastUsed) :
    Sound (s.submit request input) := by
  unfold State.submit
  split
  · rename_i hidle
    have hquiet := h.inStep
    simp only [InStep, hidle] at hquiet
    obtain ⟨hused, hfetched, hinflight⟩ := hquiet hadmits
    exact ⟨⟨congrArg (· + 1) hadmits, .published hused hinflight hfetched rfl rfl⟩, h.matched⟩
  · exact h

/-- Where the driver is when the device has something to do, and where it is not out of step -/
theorem Sound.drained_or (h : Sound s) :
    Drained s ∨ (s.phase = .idle ∧ s.availIndex ≠ s.lastUsed) ∨
      ∃ serial request, s.phase = .polling serial request ∧ s.availIndex = s.lastUsed + 1 ∧
        Outstanding s serial request := by
  have hstep := h.inStep
  unfold InStep at hstep
  cases hphase : s.phase with
  | idle =>
    rw [hphase] at hstep
    by_cases hin : s.availIndex = s.lastUsed
    · exact .inl (hstep hin).2
    · exact .inr (.inl ⟨rfl, hin⟩)
  | polling serial request =>
    rw [hphase] at hstep
    exact .inr (.inr ⟨serial, request, rfl, hstep⟩)
  | completed serial request =>
    rw [hphase] at hstep
    exact .inl hstep.2.2.1

theorem Sound.fetch (h : Sound s) : Sound s.fetch := by
  obtain hdrained | ⟨hidle, hin⟩ | ⟨serial, request, hphase, havail, houtstanding⟩ := h.drained_or
  · rw [hdrained.fetch]
    exact h
  · unfold State.fetch
    split
    · exact .of_behind hidle hin rfl rfl rfl (h.matched.completed rfl fun c hc => hc)
    · exact h
  cases houtstanding with
  | published hused hinflight hserial hlast hheader =>
    rw [State.fetch, if_pos (by omega)]
    refine ⟨?_, h.matched.completed rfl fun c hc => hc⟩
    simp only [hphase]
    refine ⟨havail, .fetched (s.data.take s.header.count) hused ?_ ?_⟩
    · simp [hinflight, hserial, hheader]
    · exact (congrArg (· + 1) hserial).trans hlast.symm
  | fetched payload hused hinflight hall =>
    rw [State.fetch, if_neg (by omega)]
    exact h
  | answered hused hdrained hanswered =>
    rw [hdrained.fetch]
    exact h

theorem Sound.complete (h : Sound s) (k : Nat) (status : UInt8) : Sound (s.complete k status) := by
  obtain hdrained | ⟨hidle, hin⟩ | ⟨serial, request, hphase, havail, houtstanding⟩ := h.drained_or
  · rw [hdrained.complete]
    exact h
  · unfold State.complete
    split
    · exact h
    · exact .of_behind hidle hin rfl rfl rfl (h.matched.completed rfl fun c hc => List.mem_append_left _ hc)
  cases houtstanding with
  | published hused hinflight hserial hlast hheader =>
    rw [State.complete, hinflight]
    exact h
  | fetched payload hused hinflight hall =>
    cases k with
    | succ k =>
      rw [State.complete, hinflight]
      exact h
    | zero =>
      rw [State.complete, hinflight]
      refine ⟨?_, h.matched.completed rfl fun c hc => List.mem_append_left _ hc⟩
      simp only [hphase]
      refine ⟨havail, .answered (congrArg (· + 1) hused) ⟨hall, rfl⟩ ?_⟩
      refine ⟨_, List.mem_append_right _ (List.mem_singleton.2 rfl), rfl, rfl, rfl, fun hstatus hread => ?_⟩
      refine (congrArg (List.take _) (if_pos ⟨hstatus, hread⟩)).trans ?_
      exact List.take_left' (by simp [Request.sectors])
  | answered hused hdrained hanswered =>
    rw [hdrained.complete]
    exact h

/-- The expected index is there only when the device has completed the request. -/
theorem Sound.poll (h : Sound s) : Sound s.poll := by
  unfold State.poll
  split
  · rename_i serial request hphase
    split
    · rename_i hexpected
      have hstep := h.inStep
      simp only [InStep, hphase] at hstep
      obtain ⟨havail, houtstanding⟩ := hstep
      refine ⟨?_, h.matched⟩
      cases houtstanding with
      | published hused | fetched payload hused => exact absurd (hused.symm.trans hexpected) (index_ne_next _)
      | answered hused hdrained hanswered => exact ⟨havail, hused, ⟨hdrained.fetched, hdrained.inflight⟩, hanswered⟩
    · exact h
  · exact h

theorem Sound.collect (h : Sound s) : Sound s.collect := by
  unfold State.collect
  split
  · rename_i serial request hphase
    have hstep := h.inStep
    simp only [InStep, hphase] at hstep
    obtain ⟨havail, hused, hdrained, c, hc, hserial, hrequest, hstatus, hdata⟩ := hstep
    refine ⟨fun _ => ⟨hused, hdrained.fetched, hdrained.inflight⟩, fun r hr hresult => ?_⟩
    obtain hold | hnew := List.mem_append.1 hr
    · exact h.matched r hold hresult
    · obtain rfl := List.mem_singleton.1 hnew
      have hok : s.status = 0 := by simpa using hresult
      exact ⟨c, hc, hserial, hrequest, hstatus.trans hok, hdata hok⟩
  · exact h

/-- The index that the driver publishes next is one ahead from here on. -/
theorem Sound.timeOut (h : Sound s) : Sound s.timeOut := by
  unfold State.timeOut
  split
  · rename_i serial request hphase
    have hstep := h.inStep
    simp only [InStep, hphase] at hstep
    refine ⟨fun heq => absurd (heq.symm.trans hstep.1) (index_ne_next _), fun r hr hresult => ?_⟩
    obtain hold | hnew := List.mem_append.1 hr
    · exact h.matched r hold hresult
    · obtain rfl := List.mem_singleton.1 hnew
      cases hresult
  · exact h

theorem step_sound (h : Sound s) (action : Action α) (hadmits : action.Admits s) : Sound (step s action) := by
  cases action with
  | submit request input => exact h.submit request input hadmits
  | fetch => exact h.fetch
  | complete => exact h.complete ..
  | poll => exact h.poll
  | collect => exact h.collect
  | timeOut => exact h.timeOut

theorem initial_sound (disk : Nat → α) : Sound (.initial disk) :=
  ⟨fun _ => ⟨rfl, rfl, rfl⟩, fun _ hr => by cases hr⟩

/-- If no request is published after one that timed out, then in every state of the run each `submit` that returned
true has its own completion, without an error, and each read has the sectors that it asked for. -/
theorem completions_match_requests (disk : Nat → α) (actions : List (Action α))
    (hadmits : Guarded step (fun s action => action.Admits s) (.initial disk) actions) : Matched (run disk actions) :=
  (@Guarded.foldl _ _ _ _ Sound _ (fun _ action h hadm => step_sound h action hadm) _ (initial_sound disk) hadmits).matched

/-- A write and a read of the same sector; the read gets what was written. -/
theorem completions_match_requests_written :
    Guarded step (fun s action => action.Admits s) (.initial fun _ => 0)
        [.submit ⟨.write, 5, 1⟩ [7], .fetch, .complete 0 0, .poll, .collect,
          .submit ⟨.read, 5, 1⟩ [], .poll, .fetch, .complete 0 0, .poll, .collect] ∧
      Matched (run (fun _ => 0) [.submit ⟨.write, 5, 1⟩ [7], .fetch, .complete 0 0, .poll, .collect,
        .submit ⟨.read, 5, 1⟩ [], .poll, .fetch, .complete 0 0, .poll, .collect]) :=
  ⟨by decide +kernel, completions_match_requests _ _ (by decide +kernel)⟩

/-- A read of sector 5 times out. The driver then publishes a read of sector 9, and takes the completion of the first
read to be that of the second one: the caller gets sector 5. -/
theorem late_completion_taken :
    ⟨1, ⟨.read, 9, 1⟩, true, [5]⟩ ∈ (run id [.submit ⟨.read, 5, 1⟩ [], .fetch, .timeOut, .submit ⟨.read, 9, 1⟩ [],
        .complete 0 0, .poll, .collect]).returns ∧
      ¬ Matched (run id [.submit ⟨.read, 5, 1⟩ [], .fetch, .timeOut, .submit ⟨.read, 9, 1⟩ [],
        .complete 0 0, .poll, .collect]) := by
  decide +kernel

end MakOS.VirtioBlk
