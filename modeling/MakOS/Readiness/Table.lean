/-
Readiness instances (`epoll`). A table gives out handles for its instances; an instance watches targets, and `collect`
asks which of them are ready.
-/
import Mathlib.Tactic

namespace MakOS.Readiness

abbrev Word := BitVec 32

def epollIn : Word := 0x001
def epollPri : Word := 0x002
def epollOut : Word := 0x004
def epollErr : Word := 0x008
def epollHup : Word := 0x010
def epollRdNorm : Word := 0x040
def epollRdBand : Word := 0x080
def epollWrNorm : Word := 0x100
def epollWrBand : Word := 0x200
def epollRdHup : Word := 0x2000
def epollExclusive : Word := 1 <<< 28
def epollWakeup : Word := 1 <<< 29
def epollOneShot : Word := 1 <<< 30
def epollEt : Word := 1 <<< 31

def supportedEvents : Word :=
  epollIn ||| epollPri ||| epollOut ||| epollErr ||| epollHup ||| epollRdNorm ||| epollRdBand ||| epollWrNorm |||
    epollWrBand ||| epollRdHup ||| epollOneShot ||| epollEt

structure Event where
  events : Word
  reserved : Word
  data : BitVec 64
  deriving DecidableEq, Repr

def Event.edge (event : Event) : Bool := event.events &&& epollEt != 0

def Event.oneShot (event : Event) : Bool := event.events &&& epollOneShot != 0

inductive Control
  | add
  | delete
  | modify
  deriving DecidableEq, Repr

inductive Error
  | full
  | notFound
  | «exists»
  | invalid
  | permission
  deriving DecidableEq, Repr

def validateEvent (event : Event) : Except Error Event :=
  if event.events = 0 ∨ event.events &&& ~~~supportedEvents ≠ 0 ∨ event.events &&& (epollExclusive ||| epollWakeup) ≠ 0
  then .error .invalid
  else .ok { event with reserved := 0 }

structure Watch where
  used : Bool
  target : Int
  event : Event
  lastReady : Word
  disabled : Bool
  deriving DecidableEq, Repr

def Watch.empty : Watch := ⟨false, -1, ⟨0, 0, 0⟩, 0, false⟩

/-! ## The watches of an instance -/

/-- What the calls do with the slots of an instance: `add` and `modify` set up a watch, and `collect` asks about one
and reports an event or does not. -/
inductive Note
  | armed (slot : Nat) (event : Event)
  | examined (slot : Nat) (ready : Word) (report : Option Event)
  deriving DecidableEq, Repr

def Note.report? : Note → Option Event
  | .armed .. => none
  | .examined _ _ report => report

/-- The body of `control` once the instance is found -/
def controlWatches (watches : List Watch) (operation : Control) (target : Int) (event : Option Event) :
    Except Error (List Note × List Watch) :=
  let found := watches.findIdx? fun watch => watch.used && watch.target == target
  match operation with
  | .add =>
    if found.isSome then .error .exists
    else do
      let event ← event.elim (.error .invalid) validateEvent
      match watches.findIdx? fun watch => !watch.used with
      | none => .error .full
      | some slot => .ok ([.armed slot event], watches.set slot ⟨true, target, event, 0, false⟩)
  | .delete =>
    match found with
    | none => .error .notFound
    | some slot => .ok ([], watches.set slot .empty)
  | .modify =>
    match found with
    | none => .error .notFound
    | some slot => do
      let event ← event.elim (.error .invalid) validateEvent
      return ([.armed slot event],
        watches.modify slot fun watch => { watch with event, lastReady := 0, disabled := false })

namespace Watch

def interest (watch : Watch) : Word := watch.event.events &&& ~~~(epollOneShot ||| epollEt)

variable (readiness : Int → Word → Word) (watch : Watch)

def ready : Word :=
  readiness watch.target watch.interest &&& (watch.interest ||| epollErr ||| epollHup ||| epollRdHup)

def deliver : Word :=
  if watch.event.edge then watch.ready readiness &&& ~~~watch.lastReady else watch.ready readiness

/-- The event for the output, if there is one -/
def report : Option Event :=
  if watch.deliver readiness = 0 then none else some ⟨watch.deliver readiness, 0, watch.event.data⟩

def examine : Watch :=
  { watch with
    lastReady := watch.ready readiness
    disabled := watch.disabled || (watch.report readiness).isSome && watch.event.oneShot }

end Watch

/-- The loop of `collect` from a slot on, with room for some events in the output. A target is asked about at most once,
so the answers of the caller's closure in one call are those of a function. -/
def collectFrom (readiness : Int → Word → Word) : (slot room : Nat) → List Watch → List Note × List Watch
  | _, _, [] => ([], [])
  | slot, room, watch :: rest =>
    if !watch.used || watch.disabled then
      let (notes, rest) := collectFrom readiness (slot + 1) room rest
      (notes, watch :: rest)
    else
      let report := watch.report readiness
      let room := if report.isSome then room - 1 else room
      let (notes, rest) := if room = 0 then ([], rest) else collectFrom readiness (slot + 1) room rest
      (.examined slot (watch.ready readiness) report :: notes, watch.examine readiness :: rest)

/-! ## The table -/

structure Instance where
  used : Bool
  generation : Nat
  owner : Nat
  closeOnExec : Bool
  watches : List Watch

def Instance.empty (watches : Nat) : Instance := ⟨false, 0, 0, false, .replicate watches .empty⟩

/-- The number of watches an instance has is a parameter of the type in the source. -/
structure Table where
  watchCount : Nat
  instances : List Instance
  nextGeneration : Nat

def handleTag : Nat := 0x40000000
def handleTagMask : Nat := 0xf0000000

def encode (index generation : Nat) : Nat := handleTag ||| generation <<< 8 ||| (index + 1)

def decode (handle : Nat) : Option (Nat × Nat) :=
  if handle &&& handleTagMask ≠ handleTag then none
  else if handle &&& 0xff = 0 ∨ handle >>> 8 &&& 0xffff = 0 then none
  else some ((handle &&& 0xff) - 1, handle >>> 8 &&& 0xffff)

namespace Table

def new (instances watches : Nat) : Table := ⟨watches, .replicate instances (.empty watches), 1⟩

variable (table : Table) (owner handle : Nat)

def resolve : Option Nat := do
  let (index, generation) ← decode handle
  let found ← table.instances[index]?
  if found.used && found.owner == owner && found.generation == generation then some index else none

def create (closeOnExec : Bool) : Except Error (Nat × Table) :=
  if owner = 0 then .error .permission
  else match table.instances.findIdx? fun found => !found.used with
    | none => .error .full
    | some index =>
      let generation := max table.nextGeneration 1
      .ok (encode index generation, { table with
        instances := table.instances.set index ⟨true, generation, owner, closeOnExec, .replicate table.watchCount .empty⟩
        nextGeneration := max ((generation + 1) % 2 ^ 16) 1 })

def close : Except Error Table :=
  match table.resolve owner handle with
  | none => .error .notFound
  | some index => .ok { table with instances := table.instances.set index (.empty table.watchCount) }

def closeOwner : Nat × Table :=
  let owned (found : Instance) := found.used && found.owner == owner
  (table.instances.countP owned,
    { table with instances := table.instances.map fun found => if owned found then .empty table.watchCount else found })

def watches (index : Nat) : List Watch := (table.instances[index]?.map Instance.watches).getD []

def setWatches (index : Nat) (watches : List Watch) : Table :=
  { table with instances := table.instances.modify index fun found => { found with watches } }

def control (operation : Control) (target : Int) (event : Option Event) (validTarget : Int → Bool) :
    Except Error Table :=
  if target < 0 ∨ (table.resolve owner target.toNat).isSome ∨ !validTarget target then .error .invalid
  else match table.resolve owner handle with
    | none => .error .notFound
    | some index => do
      let (_, watches) ← controlWatches (table.watches index) operation target event
      return table.setWatches index watches

def collect (room : Nat) (readiness : Int → Word → Word) : Except Error (List Event × Table) :=
  if room = 0 then .error .invalid
  else match table.resolve owner handle with
    | none => .error .notFound
    | some index =>
      let (notes, watches) := collectFrom readiness 0 room (table.watches index)
      .ok (notes.filterMap Note.report?, table.setWatches index watches)

end Table

end MakOS.Readiness
