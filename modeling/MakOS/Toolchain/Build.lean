/-
Incremental builds (`aarch64_toolchain.c`): the build manifest, the state file with the hashes of the last build, and
the build itself, which compiles the inputs whose objects it does not find and links. Builds of one manifest path may
stop at any write, and other files change between them.

The compiler, the linker and the checks of objects are parameters: the cache is right whatever they compute.
-/
import MakOS.Bytes.Record
import MakOS.Data.Guarded

namespace MakOS.Toolchain

open Bytes Data

abbrev minBuildInputs : Nat := 2
abbrev maxBuildInputs : Nat := 6
abbrev maxBuildPathBytes : Nat := 96
abbrev maxLabelBytes : Nat := 32
abbrev buildStateBytes : Nat := 120
abbrev buildStateSuffixBytes : Nat := 6
abbrev objectCapacity : Nat := 4096

def buildHash (bytes : List UInt8) : UInt64 :=
  bytes.foldl (fun hash byte => (hash ^^^ byte.toUInt64) * 1099511628211) 14695981039346656037

/-! ## The manifest -/

inductive Language
  | asm
  | c
  deriving DecidableEq, Repr

structure BuildInput where
  language : Language
  sourcePath : List UInt8
  objectPath : List UInt8
  deriving DecidableEq, Repr

structure BuildManifest where
  inputs : List BuildInput
  outputPath : List UInt8
  entry : List UInt8
  deriving DecidableEq, Repr

def buildPathByte (byte : UInt8) : Bool :=
  (97 ≤ byte && byte ≤ 122) || (65 ≤ byte && byte ≤ 90) || (48 ≤ byte && byte ≤ 57) || byte == 47 || byte == 46 ||
    byte == 95 || byte == 45

def nameByte (byte : UInt8) (first : Bool) : Bool :=
  (97 ≤ byte && byte ≤ 122) || byte == 95 || (!first && 48 ≤ byte && byte ≤ 57)

/-- `consume`: what follows a token -/
def consume (token source : List UInt8) : Option (List UInt8) :=
  if token.isPrefixOf source then some (source.drop token.length) else none

/-- `build_field`: a path up to its terminator, and what follows -/
def buildField (terminator : UInt8) (source : List UInt8) : Option (List UInt8 × List UInt8) :=
  let field := source.takeWhile (· != terminator)
  match source.drop field.length with
  | [] => none
  | _ :: rest =>
    if field.all buildPathByte && field.length ≤ maxBuildPathBytes && field.head? == some 47 then some (field, rest) else none

/-- The rest of a line of an input -/
def inputLine (language : Language) (inputs : List BuildInput) (source : List UInt8) :
    Option (List BuildInput × List UInt8) := do
  if inputs.length = maxBuildInputs then none
  let (sourcePath, source) ← buildField 32 source
  let (objectPath, source) ← buildField 10 source
  if sourcePath = objectPath then none
  if inputs.any fun other => sourcePath == other.sourcePath || sourcePath == other.objectPath ||
      objectPath == other.sourcePath || objectPath == other.objectPath then none
  some (inputs ++ [⟨language, sourcePath, objectPath⟩], source)

/-- The rest of the last line -/
def linkLine (inputs : List BuildInput) (source : List UInt8) : Option BuildManifest := do
  if inputs.length < minBuildInputs then none
  if inputs.map BuildInput.language ≠ .asm :: List.replicate (inputs.length - 1) .c then none
  let (outputPath, source) ← buildField 32 source
  let entry := source.takeWhile (· != 10)
  if !(entry.zipIdx.all fun (byte, index) => nameByte byte (index == 0)) then none
  if entry = [] || entry.length > maxLabelBytes || source.drop entry.length ≠ [10] then none
  if inputs.any fun input => outputPath == input.sourcePath || outputPath == input.objectPath then none
  some ⟨inputs, outputPath, entry⟩

/-- The loop over the lines. No input line is read after the sixth, so that the count does not run out. -/
def parseLines : Nat → List BuildInput → List UInt8 → Option BuildManifest
  | 0, _, _ => none
  | count + 1, inputs, source =>
    -- `asm `, `c ` and `link `
    match consume [0x61, 0x73, 0x6d, 0x20] source, consume [0x63, 0x20] source with
    | some source, _ => (inputLine .asm inputs source).bind fun (inputs, source) => parseLines count inputs source
    | none, some source => (inputLine .c inputs source).bind fun (inputs, source) => parseLines count inputs source
    | none, none => (consume [0x6c, 0x69, 0x6e, 0x6b, 0x20] source).bind (linkLine inputs)

/-- `parse_build_manifest`; the first line is `MAKBUILD1`. -/
def parseBuildManifest (source : List UInt8) : Option BuildManifest :=
  (consume [0x4d, 0x41, 0x4b, 0x42, 0x55, 0x49, 0x4c, 0x44, 0x31, 0x0a] source).bind (parseLines (maxBuildInputs + 1) [])

/-! ## The state file -/

def put64 (value : UInt64) : List UInt8 := leBytes 8 value.toNat

def get64 (bytes : List UInt8) (offset : Nat) : UInt64 := .ofNat (ofLe ((bytes.drop offset).take 8))

/-- The bytes of `MAKSTATE2`. -/
def stateMagic : List UInt8 := [0x4d, 0x41, 0x4b, 0x53, 0x54, 0x41, 0x54, 0x45, 0x32]

def hashSlots (strings : List (List UInt8)) : List UInt64 :=
  strings.map buildHash ++ List.replicate (maxBuildInputs - strings.length) 0

/-- What `write_build_state` writes -/
def buildState (manifest : List UInt8) (sources objects : List (List UInt8)) : List UInt8 :=
  stateMagic ++ .ofNat sources.length :: List.replicate 6 0 ++
    (buildHash manifest :: (hashSlots sources ++ hashSlots objects)).flatMap put64

/-- `read_build_state`: the saved hashes of the source and the object of each input -/
def readBuildState (state : List UInt8) (manifestHash : UInt64) (inputCount : Nat) : Option (Nat → UInt64 × UInt64) :=
  if inputCount < minBuildInputs || inputCount > maxBuildInputs || state.length ≠ buildStateBytes ||
      state.take 9 ≠ stateMagic || (state.getD 9 0).toNat ≠ inputCount || (state.drop 10).take 6 ≠ List.replicate 6 0 ||
      get64 state 16 ≠ manifestHash then none
  else if (List.range maxBuildInputs).any fun input => inputCount ≤ input &&
      (get64 state (24 + 8 * input) != 0 || get64 state (72 + 8 * input) != 0) then none
  else some fun input => (get64 state (24 + 8 * input), get64 state (72 + 8 * input))

theorem get64_flatMap (head : List UInt8) : ∀ (words : List UInt64) (i : Nat) (word : UInt64), words[i]? = some word →
    get64 (head ++ words.flatMap put64) (head.length + 8 * i) = word := by
  have hword : ∀ (words : List UInt64) (i : Nat) (word : UInt64), words[i]? = some word →
      ((words.flatMap put64).drop (8 * i)).take 8 = put64 word := by
    intro words
    induction words with
    | nil => simp
    | cons first words ih =>
      rintro (_ | i) word h
      · obtain rfl : first = word := by simpa using h
        simp [put64]
      · rw [List.flatMap_cons, Nat.mul_succ, Nat.add_comm, ← List.drop_drop, List.drop_left' (by simp [put64])]
        exact ih i word (by simpa using h)
  intro words i word h
  rw [get64, ← List.drop_drop, List.drop_left, hword words i word h, put64, ofLe_leBytes_of_lt word.toNat_lt]
  exact UInt64.ofNat_toNat

variable {manifest manifest' : List UInt8} {sources objects : List (List UInt8)}

theorem length_hashSlots {strings : List (List UInt8)} (h : strings.length ≤ maxBuildInputs) :
    (hashSlots strings).length = maxBuildInputs := by
  simp [hashSlots, h]

theorem length_buildState (hsources : sources.length ≤ maxBuildInputs) (hobjects : objects.length ≤ maxBuildInputs) :
    (buildState manifest sources objects).length = 120 := by
  have hwords : ∀ words : List UInt64, (words.flatMap put64).length = 8 * words.length := fun words => by
    simp [List.length_flatMap, put64, Nat.mul_comm]
  rw [buildState, List.length_append, hwords]
  simp [stateMagic, maxBuildInputs, length_hashSlots hsources, length_hashSlots hobjects]

/-- A state file that is read, in whole or in part, has the hashes that were written. -/
theorem readBuildState_buildState {hashes : Nat → UInt64 × UInt64} {count k : Nat}
    (hsources : sources.length ≤ maxBuildInputs) (hobjects : objects.length ≤ maxBuildInputs)
    (h : readBuildState (((buildState manifest sources objects).take k).take buildStateBytes) (buildHash manifest') count =
      some hashes) :
    buildHash manifest' = buildHash manifest ∧ ∀ (i : Nat) source object, sources[i]? = some source →
      objects[i]? = some object → hashes i = (buildHash source, buildHash object) := by
  have hlength : (buildState manifest sources objects).length = 120 := length_buildState hsources hobjects
  have hslots : (hashSlots sources).length = 6 := length_hashSlots hsources
  have hget := get64_flatMap (stateMagic ++ .ofNat sources.length :: List.replicate 6 0)
    (buildHash manifest :: (hashSlots sources ++ hashSlots objects))
  unfold readBuildState at h
  split at h
  · cases h
  split at h
  · cases h
  rename_i hread _
  simp only [Bool.or_eq_true, decide_eq_true_eq, not_or, not_not, List.length_take, hlength, buildStateBytes] at hread
  obtain ⟨⟨⟨⟨⟨-, hwhole⟩, -⟩, -⟩, -⟩, hmanifest⟩ := hread
  cases h
  have hstate : ((buildState manifest sources objects).take k).take buildStateBytes = buildState manifest sources objects := by
    rw [List.take_take]
    exact List.take_of_length_le (by simp only [hlength, buildStateBytes]; omega)
  rw [hstate] at hmanifest ⊢
  refine ⟨hmanifest.symm.trans (hget 0 _ rfl), fun i source object hsource hobject => ?_⟩
  have hlt := (List.getElem?_eq_some_iff.1 hsource).1
  have hfew : i < 6 := hlt.trans_le hsources
  have hlt' := (List.getElem?_eq_some_iff.1 hobject).1
  refine Prod.ext (.trans (congrArg (get64 _) ?_) (hget (1 + i) _ ?_)) (.trans (congrArg (get64 _) ?_) (hget (7 + i) _ ?_))
  · simp [stateMagic]
    omega
  · rw [Nat.add_comm, List.getElem?_cons_succ, List.getElem?_append_left (by omega), hashSlots,
      List.getElem?_append_left (by simpa using hlt), List.getElem?_map, hsource]
    rfl
  · simp [stateMagic]
    omega
  · rw [show 7 + i = (6 + i) + 1 by omega, List.getElem?_cons_succ, List.getElem?_append_right (by omega), hslots, hashSlots,
      show 6 + i - 6 = i by omega, List.getElem?_append_left (by simpa using hlt'), List.getElem?_map, hobject]
    rfl

/-! ## A build -/

structure Linked where
  code : List UInt8
  rodata : List UInt8
  data : List UInt8
  entryOffset : Nat

/-- The compiler, the linker and what goes with them; no bytes stand for a failure. -/
structure Tools where
  compileBuildObject (language : Language) (entry source : List UInt8) : List UInt8
  /-- `parse_object` and `validate_symbols` -/
  acceptsObject (object : List UInt8) : Bool
  linkObjectsData (objects : List (List UInt8)) (entry : List UInt8) : Option Linked
  emitElfData (linked : Linked) : List UInt8
  emitElf (code : List UInt8) (entryOffset : Nat) : List UInt8
  validateDataObjectBehavior (objects : List (List UInt8)) (image : List UInt8) (rodata data : Nat) (entry : List UInt8) : Bool
  fits (language : Language) (entry source : List UInt8) : (compileBuildObject language entry source).length ≤ objectCapacity

/-- The builds of one manifest path. Two paths may lead to the same file. -/
structure Builder (Node : Type) extends Tools where
  manifestPath : List UInt8
  resolve (path : List UInt8) : Node

structure Call where
  manifest : List UInt8
  sources : Nat → List UInt8

/-- The files that a call of `incremental_build` writes, in order, when nothing stops it, and what it returns -/
structure Outcome (Node : Type) where
  writes : List (Node × List UInt8)
  succeeded : Bool

abbrev Files (Node : Type) : Type := Node → Option (List UInt8)

variable {Node : Type}

/-- `read_file`: a missing file reads as an empty one. -/
def readFile (files : Files Node) (node : Node) (capacity : Nat) : List UInt8 := ((files node).getD []).take capacity

namespace Builder

variable (b : Builder Node)

def statePath : List UInt8 := b.manifestPath ++ [0x2e, 0x73, 0x74, 0x61, 0x74, 0x65]

def stateNode : Node := b.resolve b.statePath

def buildStatePathSafe (build : BuildManifest) : Bool :=
  b.statePath != build.outputPath &&
    build.inputs.all fun input => b.statePath != input.sourcePath && b.statePath != input.objectPath

def compiled (entry : List UInt8) (sources : Nat → List UInt8) (item : BuildInput × Nat) : List UInt8 :=
  b.compileBuildObject item.1.language entry (sources item.2)

/-- Whether an object file is taken as it is -/
def cached (saved : Option (Nat → UInt64 × UInt64)) (sources : Nat → List UInt8) (input : Nat) (object : List UInt8) : Bool :=
  saved.any fun hashes => (hashes input).1 == buildHash (sources input) && object != [] &&
    buildHash object == (hashes input).2 && b.acceptsObject object

/-- `/home/user/makos-shared-demo.build` -/
def sharedManifest : List UInt8 :=
  [47, 104, 111, 109, 101, 47, 117, 115, 101, 114, 47, 109, 97, 107, 111, 115, 45, 115, 104, 97, 114, 101, 100, 45, 100, 101,
    109, 111, 46, 98, 117, 105, 108, 100]

/-- The image that is written to the output file -/
def image (build : BuildManifest) (objects : List (List UInt8)) : Option (List UInt8) := do
  let linked ← b.linkObjectsData objects build.entry
  let image := if linked.rodata ≠ [] || linked.data ≠ [] then b.emitElfData linked else b.emitElf linked.code linked.entryOffset
  if b.manifestPath = sharedManifest && !b.validateDataObjectBehavior objects image linked.rodata.length linked.data.length
      build.entry then none
  if linked.code = [] || image = [] then none
  some image

/-- `write_build_state`, up to the write -/
def newState (manifest : List UInt8) (sources objects : List (List UInt8)) : Option (List UInt8) :=
  if sources.length < minBuildInputs || sources.length > maxBuildInputs || sources.any (· == []) || objects.any (· == [])
  then none else some (buildState manifest sources objects)

/-- The last part of a build: the output file is written, and then the state file. -/
def finish (manifest : List UInt8) (build : BuildManifest) (sources : List (List UInt8)) (objects : Option (List (List UInt8))) :
    Outcome Node :=
  match objects.bind fun objects => (b.image build objects).map (·, objects) with
  | none => ⟨[], false⟩
  | some (image, objects) =>
    match newState manifest sources objects with
    | none => ⟨[(b.resolve build.outputPath, image)], false⟩
    | some state => ⟨[(b.resolve build.outputPath, image), (b.stateNode, state)], true⟩

/-- The manifest, if `parse_build_manifest` accepts it and the path of the state file is a good one -/
def accepted (manifest : List UInt8) : Option BuildManifest :=
  (parseBuildManifest manifest).filter fun build => b.manifestPath != [] &&
    b.manifestPath.length ≤ maxBuildPathBytes - buildStateSuffixBytes && b.buildStatePathSafe build

/-- What the state file has about a manifest -/
def savedHashes (files : Files Node) (manifest : List UInt8) (build : BuildManifest) : Option (Nat → UInt64 × UInt64) :=
  readBuildState (readFile files b.stateNode buildStateBytes) (buildHash manifest) build.inputs.length

variable [DecidableEq Node]

/-- The loop over the inputs: what it writes, and the objects -/
def buildObjects (entry : List UInt8) (sources : Nat → List UInt8) (saved : Option (Nat → UInt64 × UInt64)) :
    List (BuildInput × Nat) → Files Node → List (Node × List UInt8) × Option (List (List UInt8))
  | [], _ => ([], some [])
  | item :: items, files =>
    let node := b.resolve item.1.objectPath
    if b.cached saved sources item.2 (readFile files node objectCapacity) then
      let rest := buildObjects entry sources saved items files
      (rest.1, rest.2.map (readFile files node objectCapacity :: ·))
    else
      let object := b.compiled entry sources item
      if object = [] then ([], none)
      else
        let rest := buildObjects entry sources saved items (Function.update files node (some object))
        ((node, object) :: rest.1, rest.2.map (object :: ·))

def incrementalBuild (files : Files Node) (call : Call) : Outcome Node :=
  match b.accepted call.manifest with
  | none => ⟨[], false⟩
  | some build =>
    let built := b.buildObjects build.entry call.sources (b.savedHashes files call.manifest build) build.inputs.zipIdx files
    let last := b.finish call.manifest build (build.inputs.zipIdx.map fun item => call.sources item.2) built.2
    ⟨built.1 ++ last.writes, last.succeeded⟩

end Builder

/-! ## Runs -/

/-- What a write that is stopped leaves -/
inductive Leftover
  | old
  | missing
  | cut (length : Nat)

variable [DecidableEq Node]

def Leftover.leave (files : Files Node) (node : Node) (bytes : List UInt8) : Leftover → Files Node
  | old => files
  | missing => Function.update files node none
  | cut length => Function.update files node (some (bytes.take length))

def Outcome.write (files : Files Node) (file : Node × List UInt8) : Files Node := Function.update files file.1 (some file.2)

namespace Outcome

variable (outcome : Outcome Node) (files : Files Node)

def complete : Files Node := outcome.writes.foldl write files

/-- The files when the write with the given number does not come to its end -/
def stopped (number : Nat) (leftover : Leftover) : Files Node :=
  match outcome.writes[number]? with
  | none => outcome.complete files
  | some (node, bytes) => leftover.leave ((outcome.writes.take number).foldl write files) node bytes

end Outcome

inductive Event (Node : Type)
  | call (call : Call) (stop : Option (Nat × Leftover))
  /-- Another file is replaced or deleted. -/
  | change (node : Node) (file : Option (List UInt8))
  | deleteState
  | cutState (length : Nat)

namespace Builder

variable (b : Builder Node)

def step (files : Files Node) : Event Node → Files Node
  | .call call none => (b.incrementalBuild files call).complete files
  | .call call (some (number, leftover)) => (b.incrementalBuild files call).stopped files number leftover
  | .change node file => Function.update files node file
  | .deleteState => Function.update files b.stateNode none
  | .cutState length => Function.update files b.stateNode ((files b.stateNode).map (·.take length))

/-- The byte strings of a call are among those given, and it writes the state file only as the state file. -/
def AdmitsCall (strings : List (List UInt8)) (files : Files Node) (call : Call) : Prop :=
  call.manifest ∈ strings ∧ ∀ build ∈ b.accepted call.manifest, b.resolve build.outputPath ≠ b.stateNode ∧
    ∀ item ∈ build.inputs.zipIdx, b.resolve item.1.objectPath ≠ b.stateNode ∧ call.sources item.2 ∈ strings ∧
      b.compiled build.entry call.sources item ∈ strings ∧ readFile files (b.resolve item.1.objectPath) objectCapacity ∈ strings

def Admits (strings : List (List UInt8)) (files : Files Node) : Event Node → Prop
  | .call call _ => b.AdmitsCall strings files call
  | .change node _ => node ≠ b.stateNode
  | .deleteState | .cutState _ => True

/-- The objects of a build that compiles every input -/
def compiledObjects (entry : List UInt8) (sources : Nat → List UInt8) (items : List (BuildInput × Nat)) :
    Option (List (List UInt8)) :=
  if ∀ item ∈ items, b.compiled entry sources item ≠ [] then some (items.map (b.compiled entry sources)) else none

variable {b} {entry : List UInt8} {sources : Nat → List UInt8} {saved : Option (Nat → UInt64 × UInt64)}
  {items : List (BuildInput × Nat)} {files : Files Node}

/-- If what is taken from a file is what the compiler would give, so are all objects. -/
theorem buildObjects_eq {p : List UInt8 → Prop}
    (hcached : ∀ item ∈ items, ∀ object, p object → b.cached saved sources item.2 object →
      object = b.compiled entry sources item) (hcompiled : ∀ item ∈ items, p (b.compiled entry sources item))
    (hfiles : ∀ item ∈ items, p (readFile files (b.resolve item.1.objectPath) objectCapacity)) :
    (b.buildObjects entry sources saved items files).2 = b.compiledObjects entry sources items := by
  induction items generalizing files with
  | nil => simp [buildObjects, compiledObjects]
  | cons item items ih =>
    simp only [List.forall_mem_cons] at hcached hcompiled hfiles
    have hcons : b.compiled entry sources item ≠ [] → (b.compiledObjects entry sources items).map
        (b.compiled entry sources item :: ·) = b.compiledObjects entry sources (item :: items) := by
      intro hne
      simp only [compiledObjects, List.forall_mem_cons, hne, ne_eq, not_false_eq_true, true_and, List.map_cons]
      split <;> rfl
    rw [buildObjects]
    dsimp only
    split
    next hit =>
      have hobject := hcached.1 _ hfiles.1 hit
      rw [ih hcached.2 hcompiled.2 hfiles.2, hobject]
      refine hcons ?_
      rw [← hobject]
      rintro hempty
      simp [cached, hempty] at hit
    next =>
      split
      next hempty => simp [compiledObjects, hempty]
      next hne =>
        -- a later input may have the same object file
        rw [ih hcached.2 hcompiled.2, hcons hne]
        intro other hother
        rw [readFile, Function.update_apply]
        split
        · rw [Option.getD_some, compiled, List.take_of_length_le (b.fits ..)]
          exact hcompiled.1
        · exact hfiles.2 other hother

theorem buildObjects_writes {file : Node × List UInt8} (h : file ∈ (b.buildObjects entry sources saved items files).1) :
    ∃ item ∈ items, file.1 = b.resolve item.1.objectPath := by
  induction items generalizing files with
  | nil => cases h
  | cons item items ih =>
    rw [buildObjects] at h
    dsimp only at h
    split at h
    · obtain ⟨other, hother, heq⟩ := ih h
      exact ⟨other, List.mem_cons_of_mem _ hother, heq⟩
    split at h
    · cases h
    rcases List.mem_cons.1 h with rfl | h
    · exact ⟨item, List.mem_cons_self, rfl⟩
    · obtain ⟨other, hother, heq⟩ := ih h
      exact ⟨other, List.mem_cons_of_mem _ hother, heq⟩

variable (b) in
/-- What a build that was admitted, and took no wrong object, writes to the state file, or the beginning of that -/
def Saved (strings : List (List UInt8)) (content : List UInt8) : Prop :=
  ∃ manifest ∈ strings, ∃ build ∈ b.accepted manifest, ∃ (sources : Nat → List UInt8) (length : Nat),
    build.inputs.length ≤ maxBuildInputs ∧
    (∀ item ∈ build.inputs.zipIdx, sources item.2 ∈ strings ∧ b.compiled build.entry sources item ∈ strings) ∧
    content = (buildState manifest (build.inputs.zipIdx.map fun item => sources item.2)
      (build.inputs.zipIdx.map (b.compiled build.entry sources))).take length

variable (b) in
def Trusted (strings : List (List UInt8)) (files : Files Node) : Prop :=
  ∀ content ∈ files b.stateNode, b.Saved strings content

variable {strings : List (List UInt8)} {call : Call} {build : BuildManifest}

omit [DecidableEq Node] in
theorem Saved.take {content : List UInt8} (length : Nat) : b.Saved strings content → b.Saved strings (content.take length) := by
  rintro ⟨manifest, hmanifest, build, hbuild, sources, length', hfew, hstrings, rfl⟩
  exact ⟨manifest, hmanifest, build, hbuild, sources, min length length', hfew, hstrings, List.take_take⟩

omit [DecidableEq Node] in
theorem finish_cases {manifest : List UInt8} {sources : List (List UInt8)} {objects : Option (List (List UInt8))} :
    let last := b.finish manifest build sources objects
    (last.succeeded = false ∧ ∀ file ∈ last.writes, file.1 = b.resolve build.outputPath) ∨
      ∃ image objects', objects = some objects' ∧ sources.length ≤ maxBuildInputs ∧
        last = ⟨[(b.resolve build.outputPath, image), (b.stateNode, buildState manifest sources objects')], true⟩ := by
  dsimp only
  unfold finish
  split
  · simp
  next image objects' hobjects =>
    obtain ⟨objects, rfl, hmap⟩ := Option.bind_eq_some_iff.1 hobjects
    obtain ⟨image', -, heq⟩ := Option.map_eq_some_iff.1 hmap
    cases heq
    split
    · simp
    next state hstate =>
      unfold newState at hstate
      split at hstate
      · cases hstate
      next hgood =>
        cases hstate
        simp only [Bool.or_eq_true, decide_eq_true_eq, not_or, not_lt, gt_iff_lt] at hgood
        exact .inr ⟨image, _, rfl, hgood.1.1.2, rfl⟩

section

variable (hinj : ∀ first ∈ strings, ∀ second ∈ strings, buildHash first = buildHash second → first = second)
  (htrusted : b.Trusted strings files) (hcall : b.AdmitsCall strings files call)
  (hbuild : b.accepted call.manifest = some build)
include hinj htrusted hcall hbuild

omit [DecidableEq Node] in
/-- The cache is right: an object with the hashes of the state file is the one that the compiler gives. -/
theorem eq_compiled_of_cached :
    ∀ item ∈ build.inputs.zipIdx, ∀ object ∈ strings,
      b.cached (b.savedHashes files call.manifest build) call.sources item.2 object →
        object = b.compiled build.entry call.sources item := by
  intro item hitem object hobject hcached
  obtain ⟨hashes, hread, hhashes⟩ := Option.any_eq_true _ _ |>.1 hcached
  simp only [Bool.and_eq_true, beq_iff_eq] at hhashes
  obtain ⟨⟨⟨hsource, -⟩, hhash⟩, -⟩ := hhashes
  rw [savedHashes, readFile] at hread
  cases hstate : files b.stateNode with
  | none => simp [hstate, readBuildState, buildStateBytes] at hread
  | some content =>
    obtain ⟨manifest, hmanifest, build', hbuild', sources, length, hfew, hstrings, rfl⟩ := htrusted content hstate
    rw [hstate, Option.getD_some] at hread
    obtain ⟨hsame, hsaved⟩ := readBuildState_buildState (by simpa using hfew) (by simpa using hfew) hread
    obtain rfl := hinj _ hcall.1 _ hmanifest hsame
    obtain rfl : build = build' := Option.some_inj.1 (hbuild.symm.trans hbuild')
    have hget : build.inputs.zipIdx[item.2]? = some item := by
      simp [List.mem_zipIdx_iff_getElem?.1 hitem]
    have hitemHashes := hsaved item.2 (sources item.2) (b.compiled build.entry sources item) (by simp [hget]) (by simp [hget])
    rw [hitemHashes] at hsource hhash
    have hsources := hinj _ (hstrings item hitem).1 _ ((hcall.2 build hbuild).2 item hitem).2.1 hsource
    rw [compiled, ← hsources]
    exact hinj _ hobject _ (hstrings item hitem).2 hhash

theorem buildObjects_of_trusted : (b.buildObjects build.entry call.sources (b.savedHashes files call.manifest build)
    build.inputs.zipIdx files).2 = b.compiledObjects build.entry call.sources build.inputs.zipIdx := by
  have hitems := (hcall.2 build hbuild).2
  exact buildObjects_eq (eq_compiled_of_cached hinj htrusted hcall hbuild) (fun item hitem => (hitems item hitem).2.2.1)
    fun item hitem => (hitems item hitem).2.2.2

omit [DecidableEq Node] hinj htrusted in
theorem saved_of_mem_finish {file : Node × List UInt8} (hnode : file.1 = b.stateNode)
    (hfile : file ∈ (b.finish call.manifest build (build.inputs.zipIdx.map fun item => call.sources item.2)
      (b.compiledObjects build.entry call.sources build.inputs.zipIdx)).writes) : b.Saved strings file.2 := by
  obtain ⟨houtput, hitems⟩ := hcall.2 build hbuild
  rcases finish_cases with ⟨-, hfinish⟩ | ⟨image, objects, hobjects, hfew, hfinish⟩
  · exact absurd ((hfinish file hfile).symm.trans hnode) houtput
  rw [hfinish, List.mem_pair] at hfile
  rcases hfile with rfl | rfl
  · exact absurd hnode houtput
  rw [compiledObjects, Option.ite_none_right_eq_some] at hobjects
  obtain ⟨-, hobjects⟩ := hobjects
  cases hobjects
  exact ⟨call.manifest, hcall.1, build, hbuild, call.sources, 120, by simpa using hfew,
    fun item hitem => ⟨(hitems item hitem).2.1, (hitems item hitem).2.2.1⟩,
    (List.take_of_length_le (length_buildState hfew (by simpa using hfew)).le).symm⟩

omit hbuild in
theorem saved_of_mem_writes {file : Node × List UInt8} (hfile : file ∈ (b.incrementalBuild files call).writes)
    (hnode : file.1 = b.stateNode) : b.Saved strings file.2 := by
  cases hbuild : b.accepted call.manifest with
  | none => simp [incrementalBuild, hbuild] at hfile
  | some build =>
    simp only [incrementalBuild, hbuild, buildObjects_of_trusted hinj htrusted hcall hbuild, List.mem_append] at hfile
    rcases hfile with hfile | hfile
    · obtain ⟨item, hitem, hpath⟩ := buildObjects_writes hfile
      exact absurd (hpath.symm.trans hnode) ((hcall.2 build hbuild).2 item hitem).1
    · exact saved_of_mem_finish hcall hbuild hnode hfile

end

section

variable (htrusted : b.Trusted strings files)
include htrusted

theorem Trusted.write {writes : List (Node × List UInt8)}
    (hwrites : ∀ file ∈ writes, file.1 = b.stateNode → b.Saved strings file.2) :
    b.Trusted strings (writes.foldl Outcome.write files) := by
  induction writes generalizing files with
  | nil => exact htrusted
  | cons file writes ih =>
    rw [List.forall_mem_cons] at hwrites
    refine ih (fun content hcontent => ?_) hwrites.2
    rw [Outcome.write, Function.update_apply] at hcontent
    split at hcontent
    next hnode =>
      cases hcontent
      exact hwrites.1 hnode.symm
    next => exact htrusted content hcontent

theorem Trusted.update {node : Node} {file : Option (List UInt8)}
    (hfile : node = b.stateNode → ∀ content ∈ file, b.Saved strings content) :
    b.Trusted strings (Function.update files node file) := by
  intro content hcontent
  rw [Function.update_apply] at hcontent
  split at hcontent
  next hnode => exact hfile hnode.symm content hcontent
  next => exact htrusted content hcontent

end

theorem Trusted.step (htrusted : b.Trusted strings files)
    (hinj : ∀ first ∈ strings, ∀ second ∈ strings, buildHash first = buildHash second → first = second) {event : Event Node} (h : b.Admits strings files event) :
    b.Trusted strings (b.step files event) := by
  cases event with
  | change node file => exact htrusted.update fun hnode => absurd hnode h
  | deleteState => exact htrusted.update (by simp)
  | cutState length =>
    refine htrusted.update fun _ content hcontent => ?_
    obtain ⟨whole, hwhole, rfl⟩ := Option.map_eq_some_iff.1 hcontent
    exact (htrusted whole hwhole).take length
  | call call stop =>
    have hwrites : ∀ file ∈ (b.incrementalBuild files call).writes, file.1 = b.stateNode → b.Saved strings file.2 :=
      fun _ => saved_of_mem_writes hinj htrusted h
    match stop with
    | none => exact htrusted.write hwrites
    | some (number, leftover) =>
      rw [Builder.step, Outcome.stopped]
      split
      · exact htrusted.write hwrites
      next node bytes hget =>
        have hbefore : b.Trusted strings (((b.incrementalBuild files call).writes.take number).foldl Outcome.write files) :=
          htrusted.write fun file hfile => hwrites file (List.mem_of_mem_take hfile)
        cases leftover with
        | old => exact hbefore
        | missing => exact hbefore.update (by simp)
        | cut length =>
          refine hbefore.update fun hnode content hcontent => ?_
          cases hcontent
          exact (hwrites _ (List.mem_of_getElem? hget) hnode).take length

/-- A build that succeeds leaves the output file of a build that finds no state file, which succeeds as well. -/
theorem incremental_eq_clean (b : Builder Node) (strings : List (List UInt8))
    (hinj : ∀ first ∈ strings, ∀ second ∈ strings, buildHash first = buildHash second → first = second)
    (start : Files Node) (hstart : start b.stateNode = none) (events : List (Event Node))
    (hevents : Guarded b.step (b.Admits strings) start events) (call : Call) (files : Files Node)
    (hfiles : files = events.foldl b.step start) (hcall : b.AdmitsCall strings files call)
    (hsucceeded : (b.incrementalBuild files call).succeeded) (clean : Files Node) (hclean : clean b.stateNode = none) :
    (b.incrementalBuild clean call).succeeded ∧ ∃ build ∈ b.accepted call.manifest, ∃ image,
      (b.incrementalBuild files call).complete files (b.resolve build.outputPath) = some image ∧
      (b.incrementalBuild clean call).complete clean (b.resolve build.outputPath) = some image := by
  have htrusted : b.Trusted strings files := by
    have hempty : b.Trusted strings start := by simp [Trusted, hstart]
    rw [hfiles]
    exact Guarded.foldl (fun _ _ htrusted h => htrusted.step hinj h) hempty hevents
  cases hbuild : b.accepted call.manifest with
  | none => simp [incrementalBuild, hbuild] at hsucceeded
  | some build =>
    have hobjects := buildObjects_of_trusted hinj htrusted hcall hbuild
    have hobjects' : (b.buildObjects build.entry call.sources (b.savedHashes clean call.manifest build) build.inputs.zipIdx
        clean).2 = b.compiledObjects build.entry call.sources build.inputs.zipIdx :=
      buildObjects_eq (p := fun _ => True) (by simp [savedHashes, readFile, hclean, readBuildState, cached]) (by simp) (by simp)
    simp only [incrementalBuild, hbuild, hobjects, hobjects'] at hsucceeded ⊢
    rcases finish_cases with ⟨hfail, -⟩ | ⟨image, objects, -, -, hfinish⟩
    · rw [hfail] at hsucceeded
      cases hsucceeded
    have houtput := (hcall.2 build hbuild).1
    rw [hfinish]
    refine ⟨rfl, build, rfl, image, ?_, ?_⟩ <;>
      simp [Outcome.complete, Outcome.write, houtput]

instance instDecidableAdmits (strings : List (List UInt8)) (files : Files Node) : ∀ event, Decidable (b.Admits strings files event)
  | .call call _ => inferInstanceAs (Decidable (_ ∧ ∀ build ∈ b.accepted call.manifest, _ ∧ ∀ item ∈ build.inputs.zipIdx, _))
  | .change node _ => inferInstanceAs (Decidable (node ≠ _))
  | .deleteState => isTrue trivial
  | .cutState _ => isTrue trivial

/-- A compiler that gives the source and a linker that puts the objects together -/
def echo : Builder (List UInt8) where
  compileBuildObject _ _ source := source.take objectCapacity
  acceptsObject _ := true
  linkObjectsData objects _ := some ⟨objects.flatten, [], [], 0⟩
  emitElfData linked := linked.code
  emitElf code _ := code
  validateDataObjectBehavior _ _ _ _ _ := true
  fits _ _ _ := List.length_take_le ..
  manifestPath := [47, 109]
  resolve path := path

/-- The lines `asm /a /b`, `c /c /d` and `link /o e` -/
def echoManifest : List UInt8 :=
  [77, 65, 75, 66, 85, 73, 76, 68, 49, 10, 97, 115, 109, 32, 47, 97, 32, 47, 98, 10, 99, 32, 47, 99, 32, 47, 100, 10, 108, 105,
    110, 107, 32, 47, 111, 32, 101, 10]

def echoStrings : List (List UInt8) := [echoManifest, [], [1], [2], [3], [9]]

/-- One build ends, one stops, and an object file is replaced. -/
def echoEvents : List (Event (List UInt8)) :=
  [.call ⟨echoManifest, fun input => [if input = 0 then 1 else 2]⟩ none,
    .call ⟨echoManifest, fun _ => [3]⟩ (some (1, .cut 0)), .change [47, 98] (some [1])]

theorem incremental_eq_clean_echo :
    Guarded echo.step (echo.Admits echoStrings) (fun _ => none) echoEvents ∧
      ∃ build ∈ echo.accepted echoManifest, ∃ image,
        (echo.incrementalBuild (echoEvents.foldl echo.step fun _ => none) ⟨echoManifest, fun _ => [1]⟩).complete
          (echoEvents.foldl echo.step fun _ => none) (echo.resolve build.outputPath) = some image ∧
        (echo.incrementalBuild (fun _ => none) ⟨echoManifest, fun _ => [1]⟩).complete (fun _ => none)
          (echo.resolve build.outputPath) = some image := by
  have hguarded : Guarded echo.step (echo.Admits echoStrings) (fun _ => none) echoEvents := by decide +kernel
  obtain ⟨-, hbuilds⟩ := incremental_eq_clean echo echoStrings (by decide +kernel) (fun _ => none) rfl
    echoEvents hguarded ⟨echoManifest, fun _ => [1]⟩ _ rfl
    (of_decide_eq_true (p := echo.Admits echoStrings _ (.call ⟨echoManifest, fun _ => [1]⟩ none)) (by decide +kernel))
    (by decide +kernel) (fun _ => none) rfl
  exact ⟨hguarded, hbuilds⟩

end Builder

end MakOS.Toolchain
