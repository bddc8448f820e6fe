import LevOS.Filesystem.Directory

/-!
# Reading a FAT32 file

`fat32_read_file` walks the cluster chain of the entry that `lookup` resolves
and copies sector after sector out of the one sector buffer, which
`next_cluster` overwrites between clusters.

## Main definitions

* `copyBytes`, `readSectors`, `readClusters`, the three nested loops
* `fat32ReadFile`
-/

namespace LevOS.Filesystem

open LevOS.Drivers

variable {ω : Type}

/-- The byte loop: `buffer[copied + i] = sector_buffer[i]` for `i < amount`. -/
def copyBytes (source : Buffer) (copied : Nat) : Nat → Buffer → Buffer
  | 0, buffer => buffer
  | amount + 1, buffer =>
    Function.update (copyBytes source copied amount buffer) (copied + amount) (source amount)

/-- What the loops of `fat32_read_file` carry: the object, the caller's buffer
and the two counters. -/
structure Progress (ω : Type) where
  state : FsState ω
  buffer : Buffer
  copied : UInt32
  remaining : UInt32

/-- The bytes the next sector contributes: a whole sector, or what remains. -/
def Progress.amount (p : Progress ω) : UInt32 :=
  if p.remaining < p.state.fs.bytesPerSector then p.remaining else p.state.fs.bytesPerSector

/-- The sector loop over one cluster. It gives the value returned from the
function, or nothing when the loop runs out. -/
def readSectors (cluster : UInt32) : List Nat → Progress ω → Option Fat32Result × Progress ω
  | [], p => (none, p)
  | index :: indices, p =>
    if p.remaining = 0 then (none, p)
    else
      match readSector p.state (clusterSector p.state.fs cluster index) with
      | (.ok, s) =>
        readSectors cluster indices
          { state := s
            buffer := copyBytes s.fs.sectorBuffer p.copied.toNat p.amount.toNat p.buffer
            copied := p.copied + p.amount
            remaining := p.remaining - p.amount }
      | (result, s) => (some result, { p with state := s })

/-- The cluster loop. The budget is `cluster_count - visited`. -/
def readClusters : Nat → UInt32 → Progress ω → Fat32Result × Progress ω
  | 0, _, p => (if p.remaining = 0 then .ok else .eloop, p)
  | budget + 1, cluster, p =>
    if p.remaining = 0 then (.ok, p)
    else
      match readSectors cluster (List.range p.state.fs.sectorsPerCluster.toNat) p with
      | (some result, p') => (result, p')
      | (none, p') =>
        if p'.remaining = 0 then (.ok, p')
        else
          match nextCluster p'.state cluster with
          | (.error result, s) => (result, { p' with state := s })
          | (.ok next, s) =>
            if next = endMarker then (.ebadfs, { p' with state := s })
            else readClusters budget next { p' with state := s }

/-- What a call of `fat32_read_file` leaves behind. A missing buffer or count
is a null pointer. -/
structure ReadOutcome (ω : Type) where
  result : Fat32Result
  state : FsState ω
  buffer : Option Buffer
  bytesRead : Option UInt32

/-- `fat32_read_file`. -/
def fat32ReadFile (path : Option CString) (buffer : Option Buffer) (capacity : UInt32)
    (bytesRead : Option UInt32) (s : FsState ω) : ReadOutcome ω :=
  match bytesRead, path with
  | none, _ => ⟨.einval, s, buffer, none⟩
  | some count, none => ⟨.einval, s, buffer, some count⟩
  | some _, some path =>
    if s.fs.mounted = false then ⟨.ebadfs, s, buffer, some 0⟩
    else
      match lookup path s with
      | (.error result, s') => ⟨result, s', buffer, some 0⟩
      | (.ok entry, s') =>
        if entry.attributes &&& 0x10 ≠ 0 then ⟨.eisdir, s', buffer, some 0⟩
        else if entry.size ≠ 0 ∧ buffer.isNone then ⟨.einval, s', buffer, some 0⟩
        else if capacity < entry.size then ⟨.enospc, s', buffer, some 0⟩
        else if entry.size = 0 then ⟨.ok, s', buffer, some 0⟩
        else if validCluster s'.fs entry.firstCluster = false then ⟨.ebadfs, s', buffer, some 0⟩
        else
          match buffer with
          | none => ⟨.einval, s', none, some 0⟩ -- excluded above: the entry is not empty
          | some bytes =>
            match readClusters s'.fs.clusterCount.toNat entry.firstCluster
                ⟨s', bytes, 0, entry.size⟩ with
            | (.ok, p) => ⟨.ok, p.state, some p.buffer, some p.copied⟩
            | (result, p) => ⟨result, p.state, some p.buffer, some 0⟩

end LevOS.Filesystem
