/-
The in-memory index of directory children (`DirectoryIndex` of `crates/makfs4`): buckets of linked
inode numbers. The hash decides which bucket is searched, never what is found: a lookup is a scan of
the entries from the last to the first.
-/
import MakOS.Data.Linked
import MakOS.MakFS4.Codec

namespace MakOS.MakFS4

open Bytes

/-- FNV-1a over the parent number and the name. -/
def childHash (parent : UInt64) (name : List UInt8) : UInt64 :=
  (leBytes 8 parent.toNat ++ name).foldl (fun hash byte => (hash ^^^ byte.toUInt64) * 0x100000001b3) 0xcbf29ce484222325

/-- Chains of entries, linked by index plus one; zero ends a chain. -/
structure DirectoryIndex (inodes buckets : Nat) where
  heads : Vector Nat buckets
  next : Vector Nat inodes

namespace DirectoryIndex

variable {inodes buckets : Nat}

def empty : DirectoryIndex inodes buckets := ⟨Vector.replicate _ 0, Vector.replicate _ 0⟩

/-- One round of the `rebuild` loop. -/
def insert (entries : Vector (Option Inode) inodes) (table : DirectoryIndex inodes buckets) (index : Nat) :
    Except Error (DirectoryIndex inodes buckets) :=
  match entries[index]? with
  | some (some inode) =>
    let bucket := (childHash inode.parent inode.name).toNat % buckets
    if index + 1 < 2 ^ 16 then
      .ok ⟨table.heads.setIfInBounds bucket (index + 1), table.next.setIfInBounds index (table.heads[bucket]?.getD 0)⟩
    else .error .outOfRange
  | _ => .ok table

def rebuild (entries : Vector (Option Inode) inodes) : Except Error (DirectoryIndex inodes buckets) :=
  if buckets = 0 ∨ inodes > 2 ^ 16 - 1 then .error .outOfRange
  else (List.range inodes).foldlM (insert entries) empty

/-- The loop of `find`; a chain visits every entry at most once, so it ends within the fuel. -/
def follow (table : DirectoryIndex inodes buckets) (entries : Vector (Option Inode) inodes) (parent : UInt64)
    (name : List UInt8) : (fuel encoded : Nat) → Option Nat
  | 0, _ => none
  | fuel + 1, encoded =>
    if encoded = 0 then none
    else
      match entries[encoded - 1]? with
      | some (some inode) =>
        if inode.parent = parent ∧ inode.name = name then some (encoded - 1)
        else
          match table.next[encoded - 1]? with
          | some encoded => table.follow entries parent name fuel encoded
          | none => none
      | _ => none

def find (table : DirectoryIndex inodes buckets) (entries : Vector (Option Inode) inodes) (parent : UInt64)
    (name : List UInt8) : Option Nat :=
  if buckets = 0 then none
  else table.follow entries parent name (inodes + 1) (table.heads[(childHash parent name).toNat % buckets]?.getD 0)

/-! ## A lookup is a scan -/

variable {entries : Vector (Option Inode) inodes} {table : DirectoryIndex inodes buckets}

def InBucket (entries : Vector (Option Inode) inodes) (buckets bucket index : Nat) : Prop :=
  ∃ inode, entries[index]? = some (some inode) ∧ (childHash inode.parent inode.name).toNat % buckets = bucket

/-- The last entry of a bucket below the given index, plus one; zero when there is none. -/
noncomputable def lastBelow (entries : Vector (Option Inode) inodes) (buckets bucket : Nat) : Nat → Nat
  | 0 => 0
  | index + 1 =>
    open Classical in
    if InBucket entries buckets bucket index then index + 1 else lastBelow entries buckets bucket index

/-- The entries below the index are linked, each to the one before it in its bucket. -/
structure Linked (entries : Vector (Option Inode) inodes) (table : DirectoryIndex inodes buckets) (index : Nat) : Prop where
  heads : ∀ bucket < buckets, table.heads[bucket]? = some (lastBelow entries buckets bucket index)
  next : ∀ i < index, ∀ bucket, InBucket entries buckets bucket i →
    table.next[i]? = some (lastBelow entries buckets bucket i)

/-- The entry is the child looked for. -/
def IsChild (entries : Vector (Option Inode) inodes) (parent : UInt64) (name : List UInt8) (index : Nat) : Prop :=
  ∃ inode, entries[index]? = some (some inode) ∧ inode.parent = parent ∧ inode.name = name

/-- The result of a search among the entries below an index. -/
def Found (entries : Vector (Option Inode) inodes) (parent : UInt64) (name : List UInt8) (index : Nat) : Option Nat → Prop
  | some i => i < index ∧ IsChild entries parent name i
  | none => ∀ i < index, ¬ IsChild entries parent name i

/-- The entry a link leads to. -/
def linked (encoded : Nat) : Option Nat := if encoded = 0 then none else some (encoded - 1)

def successor (table : DirectoryIndex inodes buckets) (index : Nat) : Option Nat :=
  table.next[index]?.bind linked

variable {parent : UInt64} {name : List UInt8} {bucket index : Nat}

theorem Linked.insert {table' : DirectoryIndex inodes buckets} (h : Linked entries table index) (hindex : index < inodes)
    (hbuckets : 0 < buckets) (hinsert : insert entries table index = .ok table') : Linked entries table' (index + 1) := by
  unfold DirectoryIndex.insert at hinsert
  split at hinsert
  · rename_i inode hinode
    have hin : ∀ bucket, InBucket entries buckets bucket index ↔
        (childHash inode.parent inode.name).toNat % buckets = bucket := by simp [InBucket, hinode]
    split_ifs at hinsert
    cases hinsert
    have hmod := Nat.mod_lt (childHash inode.parent inode.name).toNat hbuckets
    refine ⟨fun bucket hbucket => ?_, fun i hi bucket hbelow => ?_⟩
    · by_cases heq : (childHash inode.parent inode.name).toNat % buckets = bucket
      · simp [lastBelow, hin, heq, hbucket]
      · simp [lastBelow, hin, heq, h.heads bucket hbucket]
    by_cases heq : i = index
    · subst heq
      rw [← (hin bucket).1 hbelow]
      simp [hindex, h.heads _ hmod]
    · simp [Ne.symm heq, h.next i (by omega) bucket hbelow]
  · rename_i hnone
    cases hinsert
    have hout : ∀ bucket, ¬ InBucket entries buckets bucket index := fun bucket ⟨inode, hinode, _⟩ => hnone inode hinode
    refine ⟨fun bucket hbucket => ?_, fun i hi bucket hbelow => ?_⟩
    · rw [lastBelow, if_neg (hout bucket), h.heads bucket hbucket]
    · obtain hlt | rfl := Nat.lt_succ_iff_lt_or_eq.1 hi
      · exact h.next i hlt bucket hbelow
      · exact absurd hbelow (hout bucket)

theorem rebuild_linked (hrebuild : rebuild entries = .ok table) : 0 < buckets ∧ Linked entries table inodes := by
  unfold rebuild at hrebuild
  split_ifs at hrebuild with hsize
  have hbuckets : 0 < buckets := by omega
  suffices hloop : ∀ n ≤ inodes, ∀ table : DirectoryIndex inodes buckets,
      (List.range n).foldlM (insert entries) empty = .ok table → Linked entries table n from
    ⟨hbuckets, hloop inodes le_rfl table hrebuild⟩
  intro n
  induction n with
  | zero =>
    rintro - table hloop
    cases hloop
    exact ⟨fun bucket hbucket => by simp [empty, lastBelow, hbucket], fun i hi => absurd hi (Nat.not_lt_zero i)⟩
  | succ n ih =>
    intro hn table hloop
    rw [List.range_succ, List.foldlM_append] at hloop
    obtain ⟨before, hfirst, hlast⟩ := except_bind_ok hloop
    exact (ih (by omega) before hfirst).insert hn hbuckets (by simpa using hlast)

theorem Found.succ {result : Option Nat} (h : Found entries parent name index result)
    (hother : ¬ IsChild entries parent name index) : Found entries parent name (index + 1) result := by
  cases result with
  | none => exact fun i hi => (Nat.lt_succ_iff_lt_or_eq.1 hi).elim (h i) fun heq => heq ▸ hother
  | some i => exact ⟨Nat.lt_succ_of_lt h.1, h.2⟩

/-- The entries of a bucket below an index are visited from the last to the first, and the search looks at no others. -/
theorem Linked.search (h : Linked entries table inodes) (hbucket : (childHash parent name).toNat % buckets = bucket) :
    ∀ n ≤ inodes, ∃ visited : List Nat, visited.Nodup ∧ (∀ i ∈ visited, i < n) ∧
      Data.Path table.successor (linked (lastBelow entries buckets bucket n)) visited none ∧
      ∃ result, Found entries parent name n result ∧
        ∀ fuel > visited.length, table.follow entries parent name fuel (lastBelow entries buckets bucket n) = result := by
  intro n
  induction n with
  | zero =>
    refine fun _ => ⟨[], List.nodup_nil, by simp, by simp [lastBelow, linked], none, by simp [Found], fun fuel hfuel => ?_⟩
    obtain ⟨fuel, rfl⟩ := Nat.exists_eq_add_of_lt hfuel
    simp [follow, lastBelow]
  | succ n ih =>
    intro hn
    obtain ⟨visited, hnodup, hbelow, hpath, result, hfound, hfollow⟩ := ih (by omega)
    by_cases hin : InBucket entries buckets bucket n
    · have hnext := h.next n hn bucket hin
      obtain ⟨inode, hinode, hhash⟩ := hin
      have hlast : lastBelow entries buckets bucket (n + 1) = n + 1 := if_pos ⟨inode, hinode, hhash⟩
      rw [hlast]
      refine ⟨n :: visited, List.nodup_cons.2 ⟨fun hmem => (hbelow n hmem).false, hnodup⟩,
        List.forall_mem_cons.2 ⟨n.lt_succ_self, fun i hi => Nat.lt_succ_of_lt (hbelow i hi)⟩,
        by simpa [linked, successor, hnext] using hpath, ?_⟩
      by_cases hchild : inode.parent = parent ∧ inode.name = name
      · refine ⟨some n, ⟨n.lt_succ_self, inode, hinode, hchild⟩, fun fuel hfuel => ?_⟩
        obtain ⟨fuel, rfl⟩ := Nat.exists_eq_add_of_lt hfuel
        simp [follow, hinode, hchild]
      refine ⟨result, hfound.succ (by simpa [IsChild, hinode] using hchild), fun fuel hfuel => ?_⟩
      obtain ⟨fuel, rfl⟩ : ∃ k, fuel = k + 1 := Nat.exists_eq_add_one.2 (by omega)
      rw [List.length_cons] at hfuel
      simp [follow, hinode, hchild, hnext, hfollow fuel (by omega)]
    · have hlast : lastBelow entries buckets bucket (n + 1) = lastBelow entries buckets bucket n := if_neg hin
      have hother : ¬ IsChild entries parent name n := fun ⟨inode, hinode, hparent, hname⟩ =>
        hin ⟨inode, hinode, by rw [hparent, hname, hbucket]⟩
      rw [hlast]
      exact ⟨visited, hnodup, fun i hi => Nat.lt_succ_of_lt (hbelow i hi), hpath, result, hfound.succ hother, hfollow⟩

/-- A lookup finds a child exactly if there is one. The links of its bucket lead through entries that are all different, and
the search ends after as many rounds. -/
theorem find_scans (hrebuild : rebuild entries = .ok table) (parent : UInt64) (name : List UInt8) :
    (∀ i, table.find entries parent name = some i → IsChild entries parent name i) ∧
    ((∃ i, table.find entries parent name = some i) ↔ ∃ i, IsChild entries parent name i) ∧
    ∃ head visited, table.heads[(childHash parent name).toNat % buckets]? = some head ∧
      Data.Path table.successor (linked head) visited none ∧ visited.Nodup ∧
      ∀ fuel > visited.length, table.follow entries parent name fuel head = table.find entries parent name := by
  obtain ⟨hbuckets, hlinked⟩ := rebuild_linked hrebuild
  have hhead := hlinked.heads _ (Nat.mod_lt (childHash parent name).toNat hbuckets)
  obtain ⟨visited, hnodup, hbelow, hpath, result, hfound, hfollow⟩ := hlinked.search rfl inodes le_rfl
  have hlength : visited.length ≤ inodes := by
    simpa using (hnodup.subperm fun i hi => List.mem_range.2 (hbelow i hi)).length_le
  have hfind : table.find entries parent name = result := by
    rw [find, if_neg hbuckets.ne', hhead, Option.getD_some, hfollow _ (by omega)]
  have hrange : ∀ i, IsChild entries parent name i → i < inodes := fun i ⟨inode, hinode, _⟩ =>
    (Vector.getElem?_eq_some_iff.1 hinode).1
  rw [hfind]
  refine ⟨fun i hi => ?_, ?_, _, visited, hhead, hpath, hnodup, hfollow⟩
  · subst hi
    exact hfound.2
  · cases result with
    | none => simpa using fun i hchild => hfound i (hrange i hchild) hchild
    | some i => simpa using ⟨i, hfound.2⟩

theorem find_scans_twins : ∃ table : DirectoryIndex 2 3, rebuild (Vector.replicate 2 (some Inode.empty)) = .ok table ∧
    ∃ i, table.find (Vector.replicate 2 (some Inode.empty)) 0 [] = some i :=
  ⟨_, rfl, (find_scans rfl 0 []).2.1.2 ⟨0, Inode.empty, rfl, rfl, rfl⟩⟩

end DirectoryIndex

end MakOS.MakFS4
