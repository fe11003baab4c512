/-
Releasing keeps the books. The reference that is given back is in hand; when it is the last one the
object dies, its peer loses its peer, its registry slot is emptied, and what it held is in hand next.
-/
import MakOS.Ipc.Accounting

namespace MakOS.Ipc.IpcCore

open Data

variable {H O : Nat} {core : IpcCore H O} {ref ref' : ObjectRef} {o x : ObjectSlot} {work : List ObjectRef}

/-! ## An object dies -/

theorem names_freeObject (hn : core.Names ref o) : (core.freeObject ref.slot).Names ref' x ↔ ref' ≠ ref ∧ core.Names ref' x := by
  rw [freeObject, names_updateNamed hn rfl]
  simp

variable {peer : ObjectRef}

theorem paired_freeObject (hn : core.Names ref o) :
    (core.freeObject ref.slot).Paired ref' peer ↔ ref' ≠ ref ∧ core.Paired ref' peer := by
  unfold Paired
  simp only [names_freeObject hn, and_assoc]
  exact ⟨fun ⟨x, c, hne, h⟩ => ⟨hne, x, c, h⟩, fun ⟨hne, x, c, h⟩ => ⟨x, c, hne, h⟩⟩

variable {slot : Nat}

theorem listens_freeObject (hn : core.Names ref o) :
    (core.freeObject ref.slot).Listens ref' slot ↔ ref' ≠ ref ∧ core.Listens ref' slot := by
  unfold Listens
  simp only [names_freeObject hn, and_assoc]
  exact ⟨fun ⟨x, hne, h⟩ => ⟨hne, x, h⟩, fun ⟨hne, x, h⟩ => ⟨x, hne, h⟩⟩

variable {s : Nat}

theorem published_freeObject : (core.freeObject s).Published slot ↔ core.Published slot :=
  Published.updateObject

open ObjectSlot

/-- With the last reference in hand, nothing else names the object, and what it held is in hand next. -/
theorem Books.freeObject (h : Books core (ref :: work)) (hn : core.Names ref o) (hlast : o.references = 1) :
    Books (core.freeObject ref.slot) (o.held ++ work) := by
  refine h.updateObject hn rfl (fun _ => rfl) fun r => ?_
  by_cases e : r = ref
  · simp [held, e, hlast, Nat.add_assoc]
  · simp [held, e, Ne.symm e]

/-! ## Its peer -/

variable {c : ChannelObject}

/-- What `drop_peer` does where the peer is there and points back. -/
theorem dropPeer_eq (hx : core.Names peer x) (hk : x.kind = .channel c)
    (hp : c.peer = some ref) : core.dropPeer ref (some peer) =
      core.updateObject peer.slot fun slot => { slot with kind := .channel { c with peer := none } } := by
  simp [dropPeer, resolveObject_ok.2 hx, hk, hp]

/-- The endpoint that lost its peer keeps the rest. -/
theorem books_unpeer (h : Books core work) (hn : core.Names peer o) (hk : o.kind = .channel c) :
    Books (core.updateObject peer.slot fun slot => { slot with kind := .channel { c with peer := none } }) work :=
  h.updateObject hn rfl (fun hfree => by cases hfree) fun r => by simp [held, hk, ChannelObject.held]

theorem names_unpeer (hx : core.Names peer o) :
    (core.updateObject peer.slot fun slot => { slot with kind := .channel { c with peer := none } }).Names ref x ↔
      ref = peer ∧ x = { o with kind := .channel { c with peer := none } } ∨ ref ≠ peer ∧ core.Names ref x := by
  rw [names_updateNamed hx rfl]
  simp

theorem paired_unpeer {other : ObjectRef} (hx : core.Names peer o) :
    (core.updateObject peer.slot fun slot => { slot with kind := .channel { c with peer := none } }).Paired ref other ↔
      ref ≠ peer ∧ core.Paired ref other := by
  simp [Paired, names_unpeer hx, or_and_right, exists_or, and_assoc]

theorem listens_unpeer (hx : core.Names peer o) (hk : o.kind = .channel c) :
    (core.updateObject peer.slot fun slot => { slot with kind := .channel { c with peer := none } }).Listens ref slot ↔
      core.Listens ref slot := by
  unfold Listens
  simp only [names_unpeer hx]
  constructor
  · rintro ⟨x, ⟨-, rfl⟩ | ⟨-, h⟩, hk'⟩
    · cases hk'
    · exact ⟨x, h, hk'⟩
  rintro ⟨x, h, hk'⟩
  refine ⟨x, .inr ⟨?_, h⟩, hk'⟩
  rintro rfl
  rw [hx.unique h, hk] at hk'
  cases hk'

/-- Either no other endpoint had the dead one as its peer, or one did and lost it. -/
theorem dropPeer_cases (h : Shaped core) (hn : core.Names ref o) (hk : o.kind = .channel c) :
    (core.freeObject ref.slot).dropPeer ref c.peer = core.freeObject ref.slot ∧ (∀ r, r ≠ ref → ¬ core.Paired r ref) ∨
      ∃ peer x c', peer ≠ ref ∧ (core.freeObject ref.slot).Names peer x ∧ x.kind = .channel c' ∧ c'.peer = some ref ∧
        (∀ r, core.Paired r ref → r = peer) ∧ (core.freeObject ref.slot).dropPeer ref c.peer =
          (core.freeObject ref.slot).updateObject peer.slot fun slot => { slot with kind := .channel { c' with peer := none } } := by
  have hback : ∀ r, core.Paired r ref → c.peer = some r := by
    intro r hr
    obtain ⟨x, c', hx, hxk, hp⟩ := h.peers r ref hr
    rw [hn.unique hx, hk] at hxk
    cases hxk
    exact hp
  cases hpeer : c.peer with
  | none =>
    refine .inl ⟨rfl, fun r _ hr => ?_⟩
    rw [hback r hr] at hpeer
    cases hpeer
  | some peer =>
    have hall : ∀ r, core.Paired r ref → r = peer := fun r hr => Option.some.inj ((hback r hr).symm.trans hpeer)
    obtain ⟨x, c', hx, hxk, hp⟩ := h.peers ref peer ⟨o, c, hn, hk, hpeer⟩
    by_cases hself : peer = ref
    · -- an endpoint that was its own peer is gone by now
      refine .inl ⟨?_, fun r hne hr => hne ((hall r hr).trans hself)⟩
      have hdead : ∀ slot, (core.freeObject ref.slot).resolveObject peer ≠ .ok slot := fun slot hs =>
        ((names_freeObject hn).1 (resolveObject_ok.1 hs)).1 hself
      unfold dropPeer
      split
      · rfl
      rename_i e
      cases e
      split
      · rfl
      · exact absurd ‹_› (hdead _)
    · have hx' : (core.freeObject ref.slot).Names peer x := (names_freeObject hn).2 ⟨hself, hx⟩
      exact .inr ⟨peer, x, c', hself, hx', hxk, hp, hall, dropPeer_eq hx' hxk hp⟩

theorem Sound.freeChannel (h : Sound core (ref :: work)) (hn : core.Names ref o) (hlast : o.references = 1) (hk : o.kind = .channel c) :
    Sound ((core.freeObject ref.slot).dropPeer ref c.peer) (c.held ++ work) := by
  have hbooks := h.books.freeObject hn hlast
  have hheld : o.held = c.held := by simp only [held, hk]
  rw [hheld] at hbooks
  have hnot : ∀ r slot, core.Listens r slot → r ≠ ref := by
    rintro r slot ⟨x, hx, hxk⟩ rfl
    rw [hn.unique hx, hk] at hxk
    cases hxk
  have hlistens : ∀ r slot, (core.freeObject ref.slot).Listens r slot ↔ core.Listens r slot := fun r slot =>
    (listens_freeObject hn).trans ⟨And.right, fun hl => ⟨hnot r slot hl, hl⟩⟩
  rcases dropPeer_cases h.shaped hn hk with ⟨e, hlone⟩ | ⟨peer, x, c', hne, hx, hxk, hp, hall, e⟩
  · rw [e]
    refine ⟨hbooks, h.shaped.of (fun r p hrp => ?_) hlistens fun _ => published_freeObject⟩
    obtain ⟨hr, hold⟩ := (paired_freeObject hn).1 hrp
    refine (paired_freeObject hn).2 ⟨?_, h.shaped.peers r p hold⟩
    rintro rfl
    exact hlone r hr hold
  · rw [e]
    refine ⟨books_unpeer hbooks hx hxk, h.shaped.of (fun r p hrp => ?_)
      (fun r slot => (listens_unpeer hx hxk).trans (hlistens r slot)) fun _ => Published.updateObject.trans published_freeObject⟩
    rw [paired_unpeer hx, paired_freeObject hn] at hrp ⊢
    obtain ⟨hr, hr', hrp⟩ := hrp
    refine ⟨?_, ?_, h.shaped.peers r p hrp⟩
    · -- the peer of the dead endpoint had no other
      rintro rfl
      obtain ⟨y, d, hy, hyk, hyp⟩ := h.shaped.peers r p hrp
      rw [((names_freeObject hn).1 hx).2.unique hy, hxk] at hyk
      cases hyk
      exact hr' (Option.some.inj (hyp.symm.trans hp))
    · rintro rfl
      exact hr (hall r hrp)

/-! ## A listener dies -/

/-- The last reference of a listener takes its service with it. -/
theorem Sound.freeService (h : Sound core (ref :: work)) (hn : core.Names ref o) (hlast : o.references = 1)
    {registrySlot : Nat} (hk : o.kind = .service registrySlot) :
    Sound ((core.freeObject ref.slot).removeService registrySlot).1
      (((core.freeObject ref.slot).removeService registrySlot).2 ++ work) := by
  obtain ⟨entry, hs, hocc⟩ := h.shaped.published ref registrySlot ⟨o, hn, hk⟩
  have hs' : (core.freeObject ref.slot).services[registrySlot]? = some entry := by
    unfold IpcCore.freeObject
    rw [services_updateObject]
    exact hs
  have hbooks := h.books.freeObject hn hlast
  have hheld : o.held = [] := by simp only [held, hk]
  rw [hheld] at hbooks
  have hremove : (core.freeObject ref.slot).removeService registrySlot =
      ((core.freeObject ref.slot).updateService registrySlot .empty, entry.held) := by
    simp [removeService, hs', hocc]
  rw [hremove]
  generalize hcore' : (core.freeObject ref.slot).updateService registrySlot .empty = core'
  have hpublished : ∀ slot, core'.Published slot ↔ slot ≠ registrySlot ∧ core.Published slot := by
    intro slot
    rw [← hcore', published_updateService hs', published_freeObject]
    by_cases e : slot = registrySlot
    · simp [ServiceEntry.empty]
    · simp [e]
  have hlistens : ∀ r slot, core'.Listens r slot ↔ r ≠ ref ∧ core.Listens r slot := by
    intro r slot
    rw [← hcore', ← listens_freeObject hn]
    simp [Listens]
  have hpaired : ∀ r p, core'.Paired r p ↔ core.Paired r p := by
    intro r p
    have : core'.Paired r p ↔ (core.freeObject ref.slot).Paired r p := by simp only [← hcore', Paired, names_updateService]
    rw [this, paired_freeObject hn]
    refine ⟨And.right, fun hp => ⟨?_, hp⟩⟩
    rintro rfl
    obtain ⟨x, c, hx, hxk, -⟩ := hp
    rw [hn.unique hx, hk] at hxk
    cases hxk
  refine ⟨?_, ?_, ?_, ?_, ?_⟩
  · exact hcore' ▸ hbooks.updateService hs' fun r => by simp [ServiceEntry.held, ServiceEntry.empty]
  · intro r p hrp
    rw [hpaired] at hrp ⊢
    exact h.shaped.peers r p hrp
  · intro r slot hl
    obtain ⟨hne, hold⟩ := (hlistens r slot).1 hl
    refine (hpublished slot).2 ⟨?_, h.shaped.published r slot hold⟩
    rintro rfl
    exact hne (h.shaped.unique ref r slot ⟨o, hn, hk⟩ hold)
  · intro slot hp
    obtain ⟨hne, hp⟩ := (hpublished slot).1 hp
    obtain ⟨r, hl⟩ := h.shaped.listener slot hp
    refine ⟨r, (hlistens r slot).2 ⟨?_, hl⟩⟩
    rintro rfl
    obtain ⟨x, hx, hxk⟩ := hl
    rw [hn.unique hx, hk] at hxk
    cases hxk
    exact hne rfl
  · intro r r' slot hl hl'
    exact h.shaped.unique r r' slot ((hlistens r slot).1 hl).2 ((hlistens r' slot).1 hl').2

/-! ## Releasing -/

theorem Sound.releaseStep (h : Sound core (ref :: work)) :
    Sound (core.releaseStep ref).1 ((core.releaseStep ref).2 ++ work) := by
  obtain ⟨o, hn⟩ := h.books.live ref (.inr List.mem_cons_self)
  have hpos : o.references ≠ 0 := by
    rw [h.books.exact ref o hn, List.count_cons_self]
    omega
  unfold IpcCore.releaseStep
  rw [resolveObject_ok.2 hn]
  simp only [if_neg hpos]
  split
  · exact h.unretain hn
  rename_i hlast
  rw [not_not] at hlast
  split
  · rename_i hk
    have := hn.live
    rw [hk] at this
    cases this
  · exact h.freeService hn hlast ‹_›
  · exact h.freeChannel hn hlast ‹_›

/-- Releasing everything in hand leaves exact books. -/
theorem Sound.releaseAll (h : Sound core work) : Sound (core.releaseAll work) [] := by
  fun_induction IpcCore.releaseAll core work with
  | case1 core => exact h
  | case2 core ref rest ih => exact ih h.releaseStep

theorem Sound.releaseObject (h : Sound core [ref]) : Sound (core.releaseObject ref) [] := h.releaseAll

end MakOS.Ipc.IpcCore
