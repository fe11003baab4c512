/-
Record locks (`get_file_lock` and `set_file_lock`): locks of processes on ranges of bytes of a file.
-/
import MakOS.Vfs.ReadWrite

namespace MakOS.Vfs

open Data Data.Act

/-- `struct flock`; `lockType` is 0 to read, 1 to write, 2 to unlock. -/
structure FileLock where
  lockType : Int
  whence : Int
  start : Int
  length : Int
  pid : Nat
  deriving DecidableEq, Repr

abbrev LockTable := Slots (Option RecordLock) maxRecordLocks

/-- `u64::MAX`, the end of a lock without a length -/
abbrev lockEnd : Nat := wordRange - 1

def requestedLockMode (description : FileDescription) (lockType : Int) : Except Stop Bool :=
  if lockType = 0 then
    if description.readable then .ok false else .error (.refused .badFile)
  else if lockType = 1 then
    if description.writable then .ok true else .error (.refused .badFile)
  else .error (.refused .invalid)

/-- Where the range of a lock is counted from -/
def lockBase (image : Image) (answers : Answers) (s : State) (description : FileDescription) (whence : Int) :
    Except Stop Int :=
  if whence = 0 then .ok 0
  else if whence = 1 then .ok description.offset
  else if whence = 2 then
    match s.descriptionLength image answers description.kind with
    | none => .error (.refused .badFile)
    | some length => .ok length
  else .error (.refused .invalid)

/-- The range from an anchor, backwards when the length is negative -/
def lockRange (anchor length : Int) : Int × Int :=
  if length = 0 then (anchor, lockEnd) else if 0 < length then (anchor, anchor + length) else (anchor + length, anchor)

def normalizeLockRange (image : Image) (answers : Answers) (description : FileDescription) (lock : FileLock) (s : State) :
    Except Stop (Nat × Nat) := do
  let base ← lockBase image answers s description lock.whence
  let range := lockRange (base + lock.start) lock.length
  ensure (decide (0 ≤ range.1 ∧ range.1 < range.2 ∧ range.2 ≤ lockEnd)) (.refused .invalid)
  return (range.1.toNat, range.2.toNat)

def lockRangesOverlap (firstStart firstEnd secondStart secondEnd : Nat) : Bool :=
  decide (firstStart < secondEnd) && decide (secondStart < firstEnd)

/-- A lock of another process that does not go with the wanted one -/
def RecordLock.conflicts (existing : RecordLock) (key : LockKey) (ownerPid start stop : Nat) (exclusive : Bool) : Bool :=
  existing.key == key && existing.ownerPid != ownerPid && lockRangesOverlap start stop existing.start existing.stop &&
    (exclusive || existing.exclusive)

/-- The descriptor of a lock call: its kind has to have a key. -/
def lockable (ownerPid fd : Nat) (s : State) : Option (FileDescription × LockKey) := do
  let named ← s.described ownerPid fd
  let key ← named.2.kind.lockKey
  return (named.2, key)

/-- `as i64` -/
def asSigned (value : Nat) : Int := if value < 2 ^ 63 then value else value - 2 ^ 64

/-- What `get_file_lock` reports of the first conflict -/
def reportConflict (lock : FileLock) : Option RecordLock → FileLock
  | none => { lock with lockType := 2, pid := 0 }
  | some conflict =>
    { lock with
      lockType := if conflict.exclusive then 1 else 0
      whence := 0
      start := asSigned conflict.start
      length := if conflict.stop = lockEnd then 0 else min (conflict.stop - conflict.start) (2 ^ 63 - 1 : Nat)
      pid := min conflict.ownerPid (2 ^ 31 - 1) }

def getFileLock (image : Image) (answers : Answers) (ownerPid fd : Nat) (lock : FileLock) : M FileLock := do
  let named ← need (lockable ownerPid fd) (.refused .badFile)
  let exclusive ← outside (requestedLockMode named.1 lock.lockType)
  let range ← look (normalizeLockRange image answers named.1 lock)
  let conflict ← look fun s => .ok (s.recordLocks.toList.find? fun entry => entry.any fun existing =>
    existing.conflicts named.2 ownerPid range.1 range.2 exclusive)
  return reportConflict lock conflict.join

/-- One lock of the owner, cut by a range; a range inside it splits it, which takes a free entry. -/
def unlockEntry (ownerPid : Nat) (key : LockKey) (start stop : Nat) (locks : LockTable) (index : Fin maxRecordLocks) :
    Except Stop LockTable :=
  match locks[index] with
  | none => .ok locks
  | some existing =>
    if existing.ownerPid ≠ ownerPid ∨ existing.key ≠ key ∨
        lockRangesOverlap start stop existing.start existing.stop = false then .ok locks
    else if start ≤ existing.start ∧ stop ≥ existing.stop then .ok (locks.set index none)
    else if start ≤ existing.start then .ok (locks.set index (some { existing with start := stop }))
    else if stop ≥ existing.stop then .ok (locks.set index (some { existing with stop := start }))
    else
      match position Option.isNone locks with
      | none => .error (.refused .tooMany)
      | some destination =>
        .ok ((locks.set index (some { existing with stop := start })).set destination
          (some { existing with start := stop }))

def unlockRecordRange (locks : LockTable) (ownerPid : Nat) (key : LockKey) (start stop : Nat) : Except Stop LockTable :=
  (List.finRange maxRecordLocks).foldlM (unlockEntry ownerPid key start stop) locks

/-- The owner's locks of the same mode that touch the new one become part of it. -/
def mergeEntry (ownerPid : Nat) (key : LockKey) (exclusive : Bool) (merged : LockTable × Nat × Nat)
    (index : Fin maxRecordLocks) : LockTable × Nat × Nat :=
  match merged.1[index] with
  | none => merged
  | some existing =>
    if existing.ownerPid = ownerPid ∧ existing.key = key ∧ existing.exclusive = exclusive ∧
        existing.start ≤ merged.2.2 ∧ merged.2.1 ≤ existing.stop then
      (merged.1.set index none, min merged.2.1 existing.start, max merged.2.2 existing.stop)
    else merged

def addLock (locks : LockTable) (ownerPid : Nat) (key : LockKey) (exclusive : Bool) (start stop : Nat) :
    Except Stop LockTable :=
  let merged := (List.finRange maxRecordLocks).foldl (mergeEntry ownerPid key exclusive) (locks, start, stop)
  match position Option.isNone merged.1 with
  | none => .error (.refused .tooMany)
  | some destination =>
    .ok (merged.1.set destination (some ⟨exclusive, key, ownerPid, merged.2.1, merged.2.2⟩))

/-- The mode of a lock to set; an unlock has none. -/
def lockMode (description : FileDescription) (lockType : Int) : Except Stop Bool :=
  if lockType = 2 then .ok false else requestedLockMode description lockType

/-- The table with the owner's range replaced -/
def replaceLocks (s : State) (ownerPid : Nat) (key : LockKey) (lockType : Int) (exclusive : Bool) (range : Nat × Nat) :
    Except Stop LockTable := do
  let locks ← unlockRecordRange s.recordLocks ownerPid key range.1 range.2
  if lockType = 2 then return locks else addLock locks ownerPid key exclusive range.1 range.2

def setFileLock (image : Image) (answers : Answers) (ownerPid fd : Nat) (lock : FileLock) : M Unit := do
  let named ← need (lockable ownerPid fd) (.refused .badFile)
  let exclusive ← outside (lockMode named.1 lock.lockType)
  let range ← look (normalizeLockRange image answers named.1 lock)
  guard (fun s => lock.lockType == 2 || !s.recordLocks.toList.any fun entry => entry.any fun existing =>
    existing.conflicts named.2 ownerPid range.1 range.2 exclusive) (.refused .again)
  let locks ← look fun s => replaceLocks s ownerPid named.2 lock.lockType exclusive range
  modify fun s => { s with recordLocks := locks }

end MakOS.Vfs
