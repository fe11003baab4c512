/-
The loops over the queue. A sweep does to the table what the same judgements do to the list of
waiters, and always ends: the links visit no slot twice. What the judgements of `wake`, `requeue`
and `expire` do to a list is then a matter of lists.
-/
import MakOS.Futex.Queue

namespace MakOS.Futex

open FutexTable (Verdict wakeJudge requeueJudge expireJudge)

variable {σ : Type}

/-! ## Sweeping a list -/

/-- The result of a sweep over a list: the counters, who is still waiting and whose wait has ended. -/
structure Swept (σ : Type) where
  counters : σ
  kept : List Waiter
  ended : List (Waiter × WaitOutcome)

def sweepList (judge : σ → FutexKey → Option UInt64 → σ × Verdict) : σ → List Waiter → Swept σ
  | counters, [] => ⟨counters, [], []⟩
  | counters, waiter :: waiters =>
    match judge counters waiter.key waiter.deadline with
    | (counters, .keep) =>
      let swept := sweepList judge counters waiters
      { swept with kept := waiter :: swept.kept }
    | (counters, .retag key) =>
      let swept := sweepList judge counters waiters
      { swept with kept := { waiter with key := key } :: swept.kept }
    | (counters, .finish outcome) =>
      let swept := sweepList judge counters waiters
      { swept with ended := (waiter, outcome) :: swept.ended }

def Swept.called (swept : Swept σ) : List Callback := swept.ended.map fun p => p.1.callback

def Swept.outcomes (swept : Swept σ) : List Finished := swept.ended.map fun p => p.1.finish p.2

namespace FutexTable

variable {N : Nat} {table : FutexTable N} {queue front rest : List (Fin N)} {i : Fin N}

/-- The loop sees the slots of the queue one after the other and does to the table what the
judgements do to the list of its waiters. -/
theorem sweep_spec (judge : σ → FutexKey → Option UInt64 → σ × Verdict) {counters : σ} {fuel : Nat}
    (h : Queue table (front ++ rest)) (hfuel : rest.length ≤ fuel) :
    let swept := sweepList judge counters (rest.map table.waiter)
    ∃ table' kept,
      sweep judge fuel table counters front.getLast? rest.head? =
        some (table', swept.counters,
          swept.called) ∧
      Queue table' (front ++ kept) ∧ (∀ j ∈ front, table'.waiter j = table.waiter j) ∧
      kept.map table'.waiter = swept.kept ∧
      table'.finished = table.finished ∪ swept.outcomes.toFinset := by
  dsimp only
  -- by induction on the slots still to be seen; `front` holds those seen and kept
  induction rest generalizing table front counters fuel with
  | nil =>
    refine ⟨table, [], ?_, h, fun _ _ => rfl, rfl, by simp [sweepList, Swept.outcomes]⟩
    cases fuel <;> rfl
  | cons i rest ih =>
    obtain ⟨fuel, rfl⟩ : ∃ f, fuel = f + 1 := ⟨fuel - 1, by simp only [List.length_cons] at hfuel; omega⟩
    have hfuel' : rest.length ≤ fuel := by simpa using hfuel
    have hnext := h.next
    have hfresh := h.fresh
    have hseen : Queue table ((front ++ [i]) ++ rest) := by simpa using h
    rcases hjudge : judge counters (table.slot i).key (table.slot i).deadline with ⟨counters', verdict⟩
    have hjudge' : judge counters (table.waiter i).key (table.waiter i).deadline = (counters', verdict) := hjudge
    -- the waiter stays, in a table that may have changed its key
    have hstay : ∀ table₁ : FutexTable N, Queue table₁ ((front ++ [i]) ++ rest) → Edits table table₁ i →
        table₁.finished = table.finished →
        let swept := sweepList judge counters' (rest.map table.waiter)
        ∃ table' kept, sweep judge fuel table₁ counters' (some i) rest.head? = some (table', swept.counters, swept.called) ∧
          Queue table' (front ++ kept) ∧ (∀ j ∈ front, table'.waiter j = table.waiter j) ∧
          kept.map table'.waiter = table₁.waiter i :: swept.kept ∧
          table'.finished = table.finished ∪ swept.outcomes.toFinset := by
      intro table₁ hqueue₁ he hfinished₁
      obtain ⟨table', kept, hsweep, hqueue, hfront, hkept, hfinished⟩ := @ih table₁ (front ++ [i]) counters' fuel hqueue₁ hfuel'
      rw [he.map_waiter hfresh.2] at hsweep hkept hfinished
      rw [List.getLast?_concat] at hsweep
      refine ⟨table', i :: kept, hsweep, by simpa using hqueue, fun j hj => ?_, ?_, hfinished₁ ▸ hfinished⟩
      · rw [hfront j (List.mem_append_left _ hj), (he.keeps fun hji => hfresh.1 (hji ▸ hj)).2]
      · rw [List.map_cons, hkept, hfront i (by simp)]
    cases verdict with
    | keep =>
      obtain ⟨table', kept, hsweep, hqueue, hfront, hkept, hfinished⟩ := hstay table hseen (fun _ _ => ⟨_, rfl⟩) rfl
      refine ⟨table', kept, ?_, hqueue, hfront, ?_, ?_⟩
      · simp only [sweep, List.head?_cons, hjudge, hnext, hsweep, List.map_cons, sweepList, hjudge']
        rfl
      · simp only [List.map_cons, sweepList, hjudge', hkept]
      · simp only [List.map_cons, sweepList, hjudge', hfinished]
        rfl
    | retag key =>
      obtain ⟨hretag, he, hself, hsame⟩ := hseen.retag (i := i) (by simp) key
      obtain ⟨table', kept, hsweep, hqueue, hfront, hkept, hfinished⟩ := hstay _ hretag he hsame
      refine ⟨table', kept, ?_, hqueue, hfront, ?_, ?_⟩
      · simp only [sweep, List.head?_cons, hjudge, hnext, hsweep, List.map_cons, sweepList, hjudge']
        rfl
      · simp only [List.map_cons, sweepList, hjudge', hkept, hself]
      · simp only [List.map_cons, sweepList, hjudge', hfinished]
        rfl
    | finish outcome =>
      obtain ⟨hsettle, he, hinsert⟩ := h.settle outcome
      obtain ⟨table', kept, hsweep, hqueue, hfront, hkept, hfinished⟩ := @ih _ front counters' fuel hsettle hfuel'
      rw [he.map_waiter hfresh.2] at hsweep hkept hfinished
      refine ⟨table', kept, ?_, hqueue, fun j hj => ?_, ?_, ?_⟩
      · simp only [sweep, List.head?_cons, hjudge, hnext, hsweep, List.map_cons, sweepList, hjudge']
        rfl
      · rw [hfront j hj, (he.keeps fun hji => hfresh.1 (hji ▸ hj)).2]
      · simp [sweepList, hjudge', hkept]
      · rw [hfinished, hinsert]
        simp [sweepList, hjudge', Swept.outcomes]

theorem sweep_all (judge : σ → FutexKey → Option UInt64 → σ × Verdict) (counters : σ) (h : Queue table queue) :
    let swept := sweepList judge counters (queue.map table.waiter)
    ∃ table' kept, sweep judge N table counters none table.head =
        some (table', swept.counters,
          swept.called) ∧
      Queue table' kept ∧ table'.abs kept =
        ⟨swept.kept,
          table.finished ∪ swept.outcomes.toFinset⟩ := by
  dsimp only
  have hqueue : Queue table ([] ++ queue) := h
  obtain ⟨table', kept, hsweep, hkept, -, hmap, hfinished⟩ := @sweep_spec σ N table [] queue judge counters N hqueue h.length_le
  refine ⟨table', kept, ?_, hkept, ?_⟩
  · rw [h.head]
    exact hsweep
  · rw [abs, hmap, hfinished]

/-! ## Unlinking one slot -/

theorem unlinkFrom_spec {fuel : Nat} {seen ahead : List (Fin N)} (h : Queue table (seen ++ (ahead ++ i :: rest)))
    (hfuel : ahead.length < fuel) : unlinkFrom i fuel table seen.getLast? (ahead ++ i :: rest).head? =
      some (table.unlink (seen ++ ahead).getLast? i rest.head?) := by
  induction ahead generalizing seen fuel with
  | nil =>
    obtain ⟨fuel, rfl⟩ : ∃ f, fuel = f + 1 := ⟨fuel - 1, by omega⟩
    have hnext : (table.slot i).next = rest.head? := h.next
    simp [unlinkFrom, hnext]
  | cons j ahead ih =>
    obtain ⟨fuel, rfl⟩ : ∃ f, fuel = f + 1 := ⟨fuel - 1, by omega⟩
    have hnext : (table.slot j).next = (ahead ++ i :: rest).head? := h.next
    have hji : j ≠ i := by
      rintro rfl
      exact h.fresh.2 (by simp)
    have hseen : Queue table ((seen ++ [j]) ++ (ahead ++ i :: rest)) := by simpa using h
    have := ih hseen (by simpa using hfuel)
    rw [List.getLast?_concat] at this
    simp only [List.cons_append, List.head?_cons, unlinkFrom, if_neg hji, hnext, this]
    simp

theorem Queue.unlinkIndex (h : Queue table (front ++ i :: rest)) :
    table.unlinkIndex i = some (table.unlink front.getLast? i rest.head?) := by
  have hlength := h.length_le
  rw [List.length_append, List.length_cons] at hlength
  have hqueue : Queue table ([] ++ (front ++ i :: rest)) := h
  rw [FutexTable.unlinkIndex, h.head]
  exact unlinkFrom_spec hqueue (by omega)

end FutexTable

/-! ## What the judgements do to a list -/

def matching (key : FutexKey) (waiters : List Waiter) : List Waiter := waiters.filter fun w => w.key = key

variable {key : FutexKey} {w : Waiter} {ws : List Waiter}

theorem matching_cons_pos (h : w.key = key) : matching key (w :: ws) = w :: matching key ws := List.filter_cons_of_pos (by simpa using h)

theorem matching_cons_neg (h : w.key ≠ key) : matching key (w :: ws) = matching key ws := List.filter_cons_of_neg (by simpa using h)

theorem mem_matching (h : w ∈ matching key ws) : w ∈ ws ∧ w.key = key := by simpa [matching] using h

variable {gone : List Waiter}

/-- Who is left when some waiters leave, the first one among them. -/
theorem filter_leave_head (hw : w ∉ ws) : (w :: ws).filter (· ∉ w :: gone) = ws.filter (· ∉ gone) := by
  rw [List.filter_cons_of_neg (by simp)]
  refine List.filter_congr fun x hx => ?_
  have hne : x ≠ w := fun h => hw (h ▸ hx)
  simp [hne]

theorem filter_keep_head (hw : w ∉ gone) : (w :: ws).filter (· ∉ gone) = w :: ws.filter (· ∉ gone) := List.filter_cons_of_pos (by simpa using hw)

theorem sweepList_wake {maximum : Nat} (count : Nat) (hnodup : ws.Nodup) : sweepList (wakeJudge key maximum) count ws =
      ⟨count + ((matching key ws).take (maximum - count)).length,
        ws.filter (· ∉ (matching key ws).take (maximum - count)),
        ((matching key ws).take (maximum - count)).map fun w => (w, .woken)⟩ := by
  induction ws generalizing count with
  | nil => simp [sweepList, matching]
  | cons w ws ih =>
    obtain ⟨hw, hws⟩ := List.nodup_cons.1 hnodup
    by_cases hkey : w.key = key
    · rw [matching_cons_pos hkey]
      by_cases hcount : count < maximum
      · rw [show maximum - count = (maximum - (count + 1)) + 1 by omega, List.take_succ_cons, filter_leave_head hw,
          sweepList, wakeJudge, if_pos ⟨hcount, hkey⟩]
        simp only [ih (count + 1) hws, List.length_cons, List.map_cons, Swept.mk.injEq, and_true]
        omega
      · rw [sweepList, wakeJudge, if_neg fun h => hcount h.1]
        simp only [ih count hws, show maximum - count = 0 by omega]
        simp
    · rw [matching_cons_neg hkey, filter_keep_head fun hm => hw (mem_matching (List.mem_of_mem_take hm)).1, sweepList,
        wakeJudge, if_neg fun h => hkey h.2]
      simp only [ih count hws]

def due (now : UInt64) (waiters : List Waiter) : List Waiter := waiters.filter fun w => w.deadline.any (· ≤ now)

variable {now : UInt64}

theorem mem_due : w ∈ due now ws ↔ w ∈ ws ∧ w.deadline.any (· ≤ now) = true := List.mem_filter

theorem sweepList_expire (count : Nat) (hnodup : ws.Nodup) : sweepList (expireJudge now) count ws =
      ⟨count + (due now ws).length, ws.filter (· ∉ due now ws), (due now ws).map fun w => (w, .timedOut)⟩ := by
  induction ws generalizing count with
  | nil => simp [sweepList, due]
  | cons w ws ih =>
    obtain ⟨hw, hws⟩ := List.nodup_cons.1 hnodup
    by_cases hdue : w.deadline.any (· ≤ now) = true
    · have hhead : due now (w :: ws) = w :: due now ws := by
        exact List.filter_cons_of_pos hdue
      rw [hhead, filter_leave_head hw, sweepList, expireJudge, if_pos hdue]
      simp only [ih (count + 1) hws, List.length_cons, List.map_cons, Swept.mk.injEq, and_true]
      omega
    have hhead : due now (w :: ws) = due now ws := by
      exact List.filter_cons_of_neg hdue
    rw [hhead, filter_keep_head fun hm => hw (mem_due.1 hm).1, sweepList, expireJudge, if_neg hdue]
    simp only [ih count hws]

/-- Give some waiters another key, each in its place. -/
def retagAll (moved : List Waiter) (target : FutexKey) (waiters : List Waiter) : List Waiter :=
  waiters.map fun w => if w ∈ moved then { w with key := target } else w

variable {moved : List Waiter} {target : FutexKey}

theorem retagAll_move (hw : w ∉ ws) :
    retagAll (w :: moved) target (w :: ws) = { w with key := target } :: retagAll moved target ws := by
  simp only [retagAll, List.map_cons, List.mem_cons, true_or, if_true, List.cons.injEq, true_and]
  refine List.map_congr_left fun x hx => ?_
  have hne : x ≠ w := fun h => hw (h ▸ hx)
  simp [hne]

theorem retagAll_stay (hw : w ∉ moved) : retagAll moved target (w :: ws) = w :: retagAll moved target ws := by
  simp [retagAll, hw]

theorem retagAll_nil (target : FutexKey) (ws : List Waiter) : retagAll [] target ws = ws := by simp [retagAll]

theorem sweepList_requeue {source : FutexKey} {wakeLimit requeueLimit : Nat}
    (woken requeued : Nat) (hnodup : ws.Nodup) :
    sweepList (requeueJudge source target wakeLimit requeueLimit) (woken, requeued) ws =
      ⟨(woken + ((matching source ws).take (wakeLimit - woken)).length,
          requeued + (((matching source ws).drop (wakeLimit - woken)).take (requeueLimit - requeued)).length),
        retagAll (((matching source ws).drop (wakeLimit - woken)).take (requeueLimit - requeued)) target
          (ws.filter (· ∉ (matching source ws).take (wakeLimit - woken))),
        ((matching source ws).take (wakeLimit - woken)).map fun w => (w, .woken)⟩ := by
  induction ws generalizing woken requeued with
  | nil => simp [sweepList, matching, retagAll]
  | cons w ws ih =>
    obtain ⟨hw, hws⟩ := List.nodup_cons.1 hnodup
    by_cases hkey : w.key = source
    · rw [matching_cons_pos hkey]
      by_cases hwoken : woken < wakeLimit
      · rw [show wakeLimit - woken = (wakeLimit - (woken + 1)) + 1 by omega, List.take_succ_cons, List.drop_succ_cons,
          filter_leave_head hw, sweepList, requeueJudge, if_pos ⟨hkey, hwoken⟩]
        simp only [ih (woken + 1) requeued hws, List.length_cons, List.map_cons, Swept.mk.injEq,
          Prod.mk.injEq, and_true]
        omega
      have hnone : wakeLimit - woken = 0 := by omega
      have hih := fun requeued => ih woken requeued hws
      simp only [hnone, List.take_zero, List.drop_zero, List.not_mem_nil, not_false_eq_true, decide_true,
        List.filter_true, List.map_nil, List.length_nil, Nat.add_zero] at hih ⊢
      by_cases hrequeued : requeued < requeueLimit
      · rw [show requeueLimit - requeued = (requeueLimit - (requeued + 1)) + 1 by omega, List.take_succ_cons,
          retagAll_move hw, sweepList, requeueJudge, if_neg fun h => hwoken h.2, if_pos ⟨hkey, hrequeued⟩]
        simp only [hih (requeued + 1), List.length_cons, Swept.mk.injEq, Prod.mk.injEq, and_true,
          true_and]
        omega
      · rw [sweepList, requeueJudge, if_neg fun h => hwoken h.2, if_neg fun h => hrequeued h.2]
        have hstop : requeueLimit - requeued = 0 := by omega
        simp [hih requeued, hstop, retagAll_nil]
    · rw [sweepList, requeueJudge, if_neg fun h => hkey h.1, if_neg fun h => hkey h.1, matching_cons_neg hkey, filter_keep_head fun hm => hw (mem_matching (List.mem_of_mem_take hm)).1,
        retagAll_stay fun hm => hw (mem_matching (List.mem_of_mem_drop (List.mem_of_mem_take hm))).1]
      simp only [ih woken requeued hws]

end MakOS.Futex
