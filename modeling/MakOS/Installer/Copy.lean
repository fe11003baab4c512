/-
The installer (`crates/installer`): it copies a live GPT disk sector by sector onto a blank or
partially copied disk of the same size. Everything but sector 0 is written, read back and flushed
first; sector 0, the protective MBR without which the disk does not boot, is written last.

The two disks are one device of the library, the target's sectors first. A flush of the target is a
flush of the device: the source has no writes of its own to flush.
-/
import MakOS.Gpt.Layout

namespace MakOS.Installer

open MakOS.Bytes MakOS.Device
open MakOS.Gpt (Sector)

def blockSectors : Nat := 8
def gptPrimarySectors : Nat := 34

def makosDataType : List UInt8 :=
  [0x74, 0x8f, 0x6a, 0x8d, 0x33, 0x3e, 0x44, 0x4d, 0xa2, 0xe7, 0x0f, 0x5a, 0x4b, 0x4f, 0x53, 0x01]

inductive InstallMode
  | fresh
  | resume
  deriving DecidableEq, Repr

inductive InstallError
  | geometry
  | sourceNotGpt
  | targetNotBlank
  | resumeCommitted
  | resumeConflict
  | read
  | write
  | verify
  | flush
  deriving DecidableEq, Repr

structure InstallReport where
  sectors : Nat
  writtenSectors : Nat
  deriving DecidableEq, Repr

/-! ## Disks -/

/-- A disk: where its sectors begin in the device, how many it has, and whether its driver serves
eight sectors with one request (`VirtioDisk`) or with the loops of the trait. -/
structure Disk where
  base : Nat
  sectors : Nat
  batched : Bool
  deriving DecidableEq, Repr

abbrev Block := Vector Sector 8

def blank : Sector := Vector.replicate 512 0

def isZero (sector : Sector) : Bool := sector.toList.all (· == 0)

def isZeroBlock (block : Block) : Bool := block.toList.all isZero

section
variable {ε : Type}

namespace Disk

def readSector (disk : Disk) (error : ε) (lba : Nat) : Prog Sector ε Sector :=
  if lba < disk.sectors then Prog.readOne error (disk.base + lba) else .throw error

def writeSector (disk : Disk) (error : ε) (lba : Nat) (input : Sector) : Prog Sector ε Unit :=
  if lba < disk.sectors then Prog.writeOne error (disk.base + lba) input else .throw error

def flush (_ : Disk) (error : ε) : Prog Sector ε Unit := Prog.sync error

/-- The trait's loop. -/
def readEach (disk : Disk) (error : ε) (lba : Nat) : Prog Sector ε Block :=
  Prog.foldEach (fun block (sector : Fin 8) =>
    if lba + sector.val < 2 ^ 32 then do
      let input ← disk.readSector error (lba + sector.val)
      return block.set sector.val input
    else .throw error) (List.finRange 8) (Vector.replicate 8 blank)

def readSectors8 (disk : Disk) (error : ε) (lba : Nat) : Prog Sector ε Block :=
  if disk.batched then
    if lba + 8 ≤ disk.sectors then Prog.readMany error (disk.base + lba) 8 else .throw error
  else disk.readEach error lba

/-- The trait's loop. -/
def writeEach (disk : Disk) (error : ε) (lba : Nat) (input : Block) : Prog Sector ε Unit :=
  Prog.forEach (fun (sector : Fin 8) =>
    if lba + sector.val < 2 ^ 32 then disk.writeSector error (lba + sector.val) (input.get sector)
    else .throw error) (List.finRange 8)

def writeSectors8 (disk : Disk) (error : ε) (lba : Nat) (input : Block) : Prog Sector ε Unit :=
  if disk.batched then
    if lba + 8 ≤ disk.sectors then Prog.writeMany error (disk.base + lba) input.toList else .throw error
  else disk.writeEach error lba input

end Disk

end

/-! ## Checks -/

/-- `u32::try_from(lba)` -/
def lba32 (lba : Nat) : Prog Sector InstallError Nat := if lba < 2 ^ 32 then .pure lba else .throw .geometry

def validateSource (source : Disk) (sectors : Nat) : Prog Sector InstallError Unit := do
  match ← Gpt.classify (fun lba => if lba < 2 ^ 32 then source.readSector () lba else .throw ()) sectors makosDataType with
  | .gpt _ => return
  | _ => .throw .sourceNotGpt

/-- The loop over the sectors left after whole blocks. -/
def ensureBlankRest (target : Disk) (sectors lba : Nat) : Prog Sector InstallError Unit :=
  if lba < sectors then do
    let lba32 ← lba32 lba
    let sector ← target.readSector .read lba32
    if ¬ isZero sector then .throw .targetNotBlank
    else ensureBlankRest target sectors (lba + 1)
  else .pure ()
  termination_by sectors - lba

/-- The loop over whole blocks, and what follows it. -/
def ensureBlankFrom (target : Disk) (sectors lba : Nat) : Prog Sector InstallError Unit :=
  if lba + blockSectors ≤ sectors then do
    let lba32 ← lba32 lba
    let block ← target.readSectors8 .read lba32
    if ¬ isZeroBlock block then .throw .targetNotBlank
    else ensureBlankFrom target sectors (lba + blockSectors)
  else ensureBlankRest target sectors lba
  termination_by sectors - lba
  decreasing_by simp only [blockSectors] at *; omega

def ensureBlank (target : Disk) (sectors : Nat) : Prog Sector InstallError Unit := ensureBlankFrom target sectors 0

/-- The body of the loop over all sectors but the first. -/
def ensureMatching (source target : Disk) (lba : Nat) : Prog Sector InstallError Unit := do
  let lba32 ← lba32 lba
  let targetSector ← target.readSector .read lba32
  if isZero targetSector then .pure ()
  else do
    let sourceSector ← source.readSector .read lba32
    if targetSector ≠ sourceSector then .throw .resumeConflict else .pure ()

def ensureResumable (source target : Disk) (sectors : Nat) : Prog Sector InstallError Unit := do
  let targetSector ← target.readSector .read 0
  if ¬ isZero targetSector then .throw .resumeCommitted
  else Prog.forEach (ensureMatching source target) (List.range' 1 (sectors - 1))

/-! ## Copying -/

/-- Copy a sector unless it is zero, and read it back. -/
def copySectorVerified (source target : Disk) (lba : Nat) : Prog Sector InstallError Nat := do
  let lba ← lba32 lba
  let sourceSector ← source.readSector .read lba
  if isZero sourceSector then .pure 0
  else do
    target.writeSector .write lba sourceSector
    let verify ← target.readSector .verify lba
    if verify ≠ sourceSector then .throw .verify else .pure 1

/-- Copy a block unless it is zero, and read it back; the body of the loop over blocks. -/
def copyBlockVerified (source target : Disk) (lba : Nat) : Prog Sector InstallError Nat := do
  let lba ← lba32 lba
  let sourceBlock ← source.readSectors8 .read lba
  if isZeroBlock sourceBlock then .pure 0
  else do
    target.writeSectors8 .write lba sourceBlock
    let verifyBlock ← target.readSectors8 .verify lba
    if verifyBlock ≠ sourceBlock then .throw .verify else .pure blockSectors

/-- The loop over the sectors left after whole blocks. -/
def copyRest (source target : Disk) (sectors lba writtenSectors : Nat) : Prog Sector InstallError Nat :=
  if lba < sectors then do
    let written ← copySectorVerified source target lba
    copyRest source target sectors (lba + 1) (writtenSectors + written)
  else .pure writtenSectors
  termination_by sectors - lba

/-- The loop over whole blocks, and what follows it. -/
def copyFrom (source target : Disk) (sectors lba writtenSectors : Nat) : Prog Sector InstallError Nat :=
  if lba + blockSectors ≤ sectors then do
    let written ← copyBlockVerified source target lba
    copyFrom source target sectors (lba + blockSectors) (writtenSectors + written)
  else copyRest source target sectors lba writtenSectors
  termination_by sectors - lba
  decreasing_by simp only [blockSectors] at *; omega

/-- The loop over the sectors before the first block, sector 0 apart. -/
def copyGpt (source target : Disk) (writtenSectors : Nat) : Prog Sector InstallError Nat :=
  Prog.foldEach (fun writtenSectors lba => do
    let written ← copySectorVerified source target lba
    return writtenSectors + written) (List.range' 1 (gptPrimarySectors - 1)) writtenSectors

/-- Everything between the checks of the disks and the last check: copy, flush, commit, flush. -/
def copyAll (source target : Disk) (sectors : Nat) : Prog Sector InstallError Nat := do
  let written ← copyFrom source target sectors gptPrimarySectors 0
  let written ← copyGpt source target written
  target.flush .flush
  let last ← copySectorVerified source target 0
  target.flush .flush
  return written + last

/-- The body of the loop over the probed sectors. -/
def probe (source target : Disk) (lba : Nat) : Prog Sector InstallError Unit := do
  let lba ← lba32 lba
  let sourceSector ← source.readSector .read lba
  let targetSector ← target.readSector .read lba
  if sourceSector ≠ targetSector then .throw .verify else .pure ()

def validateTargetCommit (source target : Disk) (sectors : Nat) : Prog Sector InstallError Unit :=
  Prog.forEach (probe source target) [0, 1, 2, 33, 2048, sectors - 1]

def ensureTarget (source target : Disk) (sectors : Nat) : InstallMode → Prog Sector InstallError Unit
  | .fresh => ensureBlank target sectors
  | .resume => ensureResumable source target sectors

def install (source target : Disk) (mode : InstallMode) : Prog Sector InstallError InstallReport :=
  let sectors := source.sectors
  if sectors ≠ target.sectors ∨ sectors < 4096 ∨ 2 ^ 32 - 1 < sectors then .throw .geometry
  else do
    validateSource source sectors
    ensureTarget source target sectors mode
    let writtenSectors ← copyAll source target sectors
    validateTargetCommit source target sectors
    return ⟨sectors, writtenSectors⟩

end MakOS.Installer
