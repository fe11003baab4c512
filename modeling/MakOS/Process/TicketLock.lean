/-
The ticket lock of the kernel: threads that lock and drop the guard again and again, one atomic step at a
time, in any order. The code does not read the logs of a system; they say in which order tickets were taken
and guards granted.
-/
import MakOS.Data.Fair

namespace MakOS.Process

open MakOS.Data

structure TicketLock where
  next : UInt64
  serving : UInt64

namespace TicketLock

def new : TicketLock := ⟨0, 0⟩

def reserveTicket (lock : TicketLock) : UInt64 × TicketLock := (lock.next, { lock with next := lock.next + 1 })

def hasTurn (lock : TicketLock) (ticket : UInt64) : Bool := lock.serving == ticket

/-- The guard's `drop`. -/
def drop (lock : TicketLock) (ticket : UInt64) : TicketLock := { lock with serving := ticket + 1 }

/-- Where a thread is: outside, in the loop of `lock`, or with a guard. -/
inductive Phase
  | idle
  | waiting (ticket : UInt64)
  | holding (ticket : UInt64)

structure System (T : Type) where
  lock : TicketLock
  phase : T → Phase
  reserved : List T
  granted : List T
  drops : Nat

namespace System

variable {T : Type} {s : System T} {t u : T} {i j : Nat}

def start : System T := ⟨new, fun _ => .idle, [], [], 0⟩

def Waits (s : System T) (t : T) : Prop := ∃ ticket, s.phase t = .waiting ticket

def Holds (s : System T) (t : T) : Prop := ∃ ticket, s.phase t = .holding ticket

/-- Of the tickets taken, fewer than 2^64 are outstanding. -/
def Few (s : System T) : Prop := s.reserved.length < s.drops + 2 ^ 64

/-- Thread `t` took ticket number `i`, counted from the start, and has not dropped its guard. -/
def Took (s : System T) (i : Nat) (t : T) : Prop := s.drops ≤ i ∧ s.reserved[i]? = some t

structure InOrder (s : System T) : Prop where
  next : s.lock.next = .ofNat s.reserved.length
  serving : s.lock.serving = .ofNat s.drops
  order : s.granted <+: s.reserved
  lower : s.drops ≤ s.granted.length
  upper : s.granted.length ≤ s.drops + 1
  span : s.reserved.length ≤ s.drops + 2 ^ 64
  busy : ∀ {t}, s.phase t ≠ .idle → ∃ i, s.Took i t
  phase : ∀ {i t}, s.Took i t →
    s.phase t = if i < s.granted.length then .holding (.ofNat i) else .waiting (.ofNat i)

theorem inOrder_start : (start : System T).InOrder where
  next := rfl
  serving := rfl
  order := List.prefix_rfl
  lower := le_rfl
  upper := Nat.zero_le _
  span := Nat.zero_le _
  busy h := absurd rfl h
  phase := nofun

theorem Took.lt (h : s.Took i t) : i < s.reserved.length := (List.getElem?_eq_some_iff.1 h.2).1

theorem Took.inj (ht : s.Took i t) (hu : s.Took i u) : t = u := Option.some.inj (ht.2.symm.trans hu.2)

namespace InOrder

variable (h : s.InOrder)
include h

theorem ne_idle (htook : s.Took i t) : s.phase t ≠ .idle := by
  rw [h.phase htook]
  split <;> nofun

theorem took_of_waiting {ticket : UInt64} (hwait : s.phase t = .waiting ticket) :
    ∃ i, s.Took i t ∧ s.granted.length ≤ i ∧ ticket = .ofNat i := by
  obtain ⟨i, hi⟩ := h.busy (by rw [hwait]; nofun)
  have hphase := h.phase hi
  rw [hwait] at hphase
  split at hphase <;> cases hphase
  exact ⟨i, hi, by omega, rfl⟩

/-- Only the oldest outstanding ticket has a guard. -/
theorem took_of_holding {ticket : UInt64} (hhold : s.phase t = .holding ticket) :
    s.Took s.drops t ∧ s.granted.length = s.drops + 1 ∧ ticket = .ofNat s.drops := by
  obtain ⟨i, hi⟩ := h.busy (by rw [hhold]; nofun)
  have hphase := h.phase hi
  rw [hhold] at hphase
  split at hphase <;> cases hphase
  have hupper := h.upper
  obtain rfl : i = s.drops := le_antisymm (by omega) hi.1
  exact ⟨hi, by omega, rfl⟩

theorem unique (hi : s.Took i t) (hj : s.Took j t) : i = j := by
  have hphase := (h.phase hi).symm.trans (h.phase hj)
  have hmod : UInt64.ofNat i = UInt64.ofNat j := by
    split at hphase <;> split at hphase <;> injection hphase
  have hspan := h.span
  have hilt := hi.lt
  have hjlt := hj.lt
  have hile := hi.1
  have hjle := hj.1
  rw [← UInt64.toNat_inj, UInt64.toNat_ofNat', UInt64.toNat_ofNat'] at hmod
  omega

theorem hasTurn_iff (hfew : s.Few) (htook : s.Took i t) : s.lock.hasTurn (.ofNat i) = true ↔ i = s.drops := by
  have hlt := htook.lt.trans hfew
  have hle := htook.1
  rw [hasTurn, beq_iff_eq, h.serving, ← UInt64.toNat_inj, UInt64.toNat_ofNat', UInt64.toNat_ofNat']
  omega

end InOrder

/-! ## The atomic steps -/

variable [DecidableEq T]

def reserve (s : System T) (t : T) : System T :=
  { s with
    lock := s.lock.reserveTicket.2
    phase := Function.update s.phase t (.waiting s.lock.reserveTicket.1)
    reserved := s.reserved ++ [t] }

def load (s : System T) (t : T) (ticket : UInt64) : System T :=
  if s.lock.hasTurn ticket then
    { s with phase := Function.update s.phase t (.holding ticket), granted := s.granted ++ [t] }
  else s

def release (s : System T) (t : T) (ticket : UInt64) : System T :=
  { s with lock := s.lock.drop ticket, phase := Function.update s.phase t .idle, drops := s.drops + 1 }

/-- The next atomic step of a thread: the fetch-add, one load of the loop, or the store. -/
def step (s : System T) (t : T) : System T :=
  match s.phase t with
  | .idle => s.reserve t
  | .waiting ticket => s.load t ticket
  | .holding ticket => s.release t ticket

theorem took_reserve (h : (s.reserve t).Took i u) : s.Took i u ∨ i = s.reserved.length ∧ u = t := by
  obtain ⟨hi, hu⟩ := h
  rcases lt_or_ge i s.reserved.length with hlt | hge
  · exact .inl ⟨hi, (List.getElem?_append_left hlt).symm.trans hu⟩
  · obtain ⟨hlt, hu⟩ := List.getElem?_eq_some_iff.1 hu
    obtain rfl : i = s.reserved.length := by simp [reserve] at hlt; omega
    exact .inr ⟨rfl, by simpa [reserve] using hu.symm⟩

theorem took_release {ticket : UInt64} : (s.release t ticket).Took i u ↔ s.Took i u ∧ i ≠ s.drops := by
  constructor
  · exact fun h => ⟨⟨Nat.le_of_succ_le h.1, h.2⟩, Nat.ne_of_gt h.1⟩
  · exact fun h => ⟨Nat.lt_of_le_of_ne h.1.1 h.2.symm, h.1.2⟩

namespace InOrder

variable (h : s.InOrder)
include h

theorem reserve (hfew : s.Few) (hidle : s.phase t = .idle) : (s.reserve t).InOrder := by
  have hlength := h.order.length_le
  have hother : ∀ {i u}, s.Took i u → u ≠ t := fun hi hut => h.ne_idle hi (hut ▸ hidle)
  refine ⟨by simp [System.reserve, reserveTicket, h.next], h.serving, h.order.trans (List.prefix_append ..), h.lower,
    h.upper, (List.length_append ..).trans_le hfew, fun {u} hu => ?_, fun {i u} hi => ?_⟩
  · by_cases hut : u = t
    · exact ⟨s.reserved.length, h.lower.trans hlength, by simp [System.reserve, hut]⟩
    · obtain ⟨i, hi⟩ := h.busy (by simpa [System.reserve, hut] using hu)
      exact ⟨i, hi.1, (List.getElem?_append_left hi.lt).trans hi.2⟩
  · rcases took_reserve hi with hi | ⟨rfl, rfl⟩
    · exact (Function.update_of_ne (hother hi) ..).trans (h.phase hi)
    · simp [System.reserve, Nat.not_lt.2 hlength, reserveTicket, h.next]

theorem load (hfew : s.Few) {ticket : UInt64} (hwait : s.phase t = .waiting ticket) : (s.load t ticket).InOrder := by
  obtain ⟨i, hi, hge, rfl⟩ := h.took_of_waiting hwait
  unfold System.load
  split
  case isFalse => exact h
  case isTrue hturn =>
    obtain rfl := (h.hasTurn_iff hfew hi).1 hturn
    have hlength : s.granted.length = s.drops := le_antisymm hge h.lower
    refine ⟨h.next, h.serving, ?_, by simp [hlength], by simp [hlength], h.span, fun {u} hu => ?_, fun {j u} hj => ?_⟩
    · rw [List.prefix_iff_eq_take.1 h.order, hlength]
      have htake := List.take_prefix (s.drops + 1) s.reserved
      rwa [List.take_add_one, hi.2] at htake
    · by_cases hut : u = t
      · exact ⟨_, hut ▸ hi⟩
      · exact h.busy (by simpa [hut] using hu)
    · change s.Took j u at hj
      by_cases hut : u = t
      · obtain rfl := h.unique hj (hut ▸ hi)
        simp [hut, hlength]
      · have hlt : s.drops < j := lt_of_le_of_ne hj.1 fun heq => hut (hj.inj (heq ▸ hi))
        have hu := h.phase hj
        rw [if_neg (by omega)] at hu
        simpa [hut, show ¬ j ≤ s.granted.length by omega] using hu

theorem release {ticket : UInt64} (hhold : s.phase t = .holding ticket) : (s.release t ticket).InOrder := by
  obtain ⟨ht, hlength, rfl⟩ := h.took_of_holding hhold
  refine ⟨h.next, by simp [System.release, drop], h.order, hlength.ge, by simp [System.release]; omega,
    h.span.trans (by simp [System.release]), fun {u} hu => ?_, fun {j u} hj => ?_⟩
  · have hut : u ≠ t := by rintro rfl; simp [System.release] at hu
    obtain ⟨j, hj⟩ := h.busy (by simpa [System.release, hut] using hu)
    exact ⟨j, took_release.2 ⟨hj, fun heq => hut ((heq ▸ hj).inj ht)⟩⟩
  · obtain ⟨hj, hne⟩ := took_release.1 hj
    have hut : u ≠ t := fun hut => hne (h.unique hj (hut ▸ ht))
    exact (Function.update_of_ne hut ..).trans (h.phase hj)

theorem step (hfew : s.Few) (t : T) : (s.step t).InOrder := by
  unfold System.step
  split
  case h_1 hidle => exact h.reserve hfew hidle
  case h_2 hwait => exact h.load hfew hwait
  case h_3 hhold => exact h.release hhold

end InOrder

/-- A waiting thread keeps its ticket. -/
theorem took_step (h : s.InOrder) (htook : s.Took i t) (hle : s.granted.length ≤ i) (u : T) : (s.step u).Took i t := by
  unfold step
  split
  case h_1 => exact ⟨htook.1, (List.getElem?_append_left htook.lt).trans htook.2⟩
  case h_2 => unfold load; split <;> exact htook
  case h_3 hhold =>
    have hlength := (h.took_of_holding hhold).2.1
    exact took_release.2 ⟨htook, by omega⟩

/-- The guards granted and dropped so far. -/
def progress (s : System T) : Nat := s.drops + s.granted.length

theorem progress_step (s : System T) (t : T) : s.progress < (s.step t).progress ∨
    (s.step t).progress = s.progress ∧ (s.step t).drops = s.drops ∧ s.reserved <+: (s.step t).reserved := by
  unfold step load
  split
  · exact .inr ⟨rfl, rfl, List.prefix_append ..⟩
  · split <;> simp [progress]
  · exact .inl (by simp [progress, release])

/-- The oldest outstanding ticket makes progress with every step of its thread. -/
theorem front_step (h : s.InOrder) (hfront : s.Took s.drops t) : s.progress < (s.step t).progress := by
  have hphase := h.phase hfront
  split at hphase
  · simp [step, hphase, release, progress]
  · simp [step, hphase, load, hasTurn, h.serving, progress]

/-! ## Runs -/

/-- The system after `n` steps, of the threads that `schedule` names. -/
def run (schedule : Nat → T) (n : Nat) : System T := trace step start schedule n

theorem inOrder_run {schedule : Nat → T} {n : Nat} (hfew : ∀ m < n, (run schedule m).Few) :
    (run schedule n).InOrder := by
  induction n with
  | zero => exact inOrder_start
  | succ n ih => exact (ih fun m hm => hfew m (hm.trans n.lt_succ_self)).step (hfew n n.lt_succ_self) _

theorem exists_holds {σ : Nat → System T} {schedule : Nat → T} (hσ : ∀ n, σ (n + 1) = (σ n).step (schedule n))
    (hord : ∀ n, (σ n).InOrder) (hturn : ∀ n t, (σ n).phase t ≠ .idle → ∃ k, n ≤ k ∧ schedule k = t) {n : Nat}
    (hwait : (σ n).Waits t) : ∃ k, n ≤ k ∧ (σ k).Holds t := by
  by_contra hnever
  obtain ⟨i, htook, hle, -⟩ := (hord n).took_of_waiting hwait.choose_spec
  have hstays : ∀ k, n ≤ k → (σ k).Took i t ∧ (σ k).granted.length ≤ i := fun k hk => by
    induction k, hk using Nat.le_induction with
    | base => exact ⟨htook, hle⟩
    | succ k hk ih =>
      have htook : (σ (k + 1)).Took i t := hσ k ▸ took_step (hord k) ih.1 ih.2 _
      refine ⟨htook, Nat.not_lt.1 fun hlt => hnever ⟨k + 1, Nat.le_succ_of_le hk, .ofNat i, ?_⟩⟩
      rw [(hord (k + 1)).phase htook, if_pos hlt]
  -- while the thread waits the progress is bounded: take a moment when it is largest
  have hbound : BddAbove ((fun k => (σ k).progress) '' Set.Ici n) := ⟨2 * i, by
    rintro _ ⟨k, hk, rfl⟩
    have := (hstays k hk).1.1
    have := (hstays k hk).2
    simp only [progress]
    omega⟩
  obtain ⟨k, hk, hlast⟩ := Nat.sSup_mem (Set.nonempty_Ici.image _) hbound
  have hmax : ∀ l, n ≤ l → (σ l).progress ≤ (σ k).progress := fun l hl =>
    (le_csSup hbound ⟨l, hl, rfl⟩).trans hlast.ge
  have hlt : (σ k).drops < (σ k).reserved.length := (hstays k hk).1.1.trans_lt (hstays k hk).1.lt
  have hfront : ∀ l, k ≤ l →
      (σ l).progress = (σ k).progress ∧ (σ l).Took (σ l).drops (σ k).reserved[(σ k).drops] := fun l hl => by
    induction l, hl using Nat.le_induction with
    | base => exact ⟨rfl, le_rfl, List.getElem?_eq_getElem hlt⟩
    | succ l hl ih =>
      have hle := hmax (l + 1) (Nat.le_succ_of_le (hk.trans hl))
      rw [hσ] at hle ⊢
      obtain ⟨hsame, hdrops, hreserved⟩ := (progress_step (σ l) (schedule l)).resolve_left (by omega)
      exact ⟨hsame.trans ih.1, le_rfl, by rw [hdrops, List.prefix_iff_getElem?.1 hreserved _ ih.2.lt, ← ih.2.2,
        List.getElem?_eq_getElem]⟩
  obtain ⟨l, hl, hnext⟩ := hturn k _ ((hord k).ne_idle (hfront k le_rfl).2)
  have hmore := front_step (hord l) (hfront l hl).2
  have hle := hmax (l + 1) (Nat.le_succ_of_le (hk.trans hl))
  rw [← hnext, ← hσ, (hfront l hl).1] at hmore
  omega

/-- In every interleaving in which fewer than 2^64 tickets are outstanding, at most one thread holds a guard
and the threads get guards in the order in which they took tickets. If every thread that holds a guard or
waits takes its next step some time, so that holders drop their guards, every waiting thread gets a guard. -/
theorem ticketLock_sound (schedule : Nat → T) :
    (∀ n, (∀ m < n, (run schedule m).Few) →
      (∀ t u, (run schedule n).Holds t → (run schedule n).Holds u → t = u) ∧
      (run schedule n).granted <+: (run schedule n).reserved) ∧
    ((∀ n, (run schedule n).Few) → (∀ n t, (run schedule n).phase t ≠ .idle → ∃ k, n ≤ k ∧ schedule k = t) →
      ∀ n t, (run schedule n).Waits t → ∃ k, n ≤ k ∧ (run schedule k).Holds t) := by
  refine ⟨fun n hfew => ?_, fun hfew hturn n t =>
    exists_holds (fun _ => rfl) (fun n => inOrder_run fun m _ => hfew m) hturn⟩
  have hord := inOrder_run hfew
  refine ⟨?_, hord.order⟩
  rintro t u ⟨_, ht⟩ ⟨_, hu⟩
  exact (hord.took_of_holding ht).1.inj (hord.took_of_holding hu).1

end System
end TicketLock
end MakOS.Process
