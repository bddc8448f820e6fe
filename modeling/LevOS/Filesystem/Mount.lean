import LevOS.Filesystem.Volume

/-!
# Mounting a FAT32 volume

`fat32_mount` accepts a volume that starts at sector zero or one that an MBR
partition entry points to. The checks are written in the order of the source;
the fields of the object are assigned where the source assigns them, so that a
mount that fails late leaves the earlier assignments behind.

## Main definitions

* `looksLikeFat32Bpb`, the first validation of a boot sector
* `Partition`, `probePass`, `locateVolume`, the search for a volume
* `establishGeometry`, the second validation and the field assignments
* `fat32Mount`
-/

namespace LevOS.Filesystem

open LevOS.Drivers

variable {ω : Type}

/-- `looks_like_fat32_bpb`. -/
def looksLikeFat32Bpb (bpb : Buffer) (sectorSize : UInt32) : Bool :=
  if fat16 bpb 510 ≠ 0xAA55 then false
  else
    let bytesPerSector := (fat16 bpb 11).toUInt32
    !(bytesPerSector != sectorSize ||
      bytesPerSector < 512 ||
      maxSectorSize < bytesPerSector ||
      !powerOfTwo bytesPerSector ||
      !powerOfTwo (bpb 13).toUInt32 ||
      128 < bpb 13 ||
      fat16 bpb 14 == 0 ||
      bpb 16 == 0 || 2 < bpb 16 ||
      fat16 bpb 17 != 0 ||
      fat16 bpb 19 != 0 ||
      fat32 bpb 32 == 0 ||
      fat32 bpb 36 == 0)

/-- One of the four entries of a master boot record. -/
structure Partition where
  type : UInt8
  start : UInt32
  size : UInt32
  deriving DecidableEq, Repr

/-- The entry at `446 + index * 16` of the boot record. -/
def Partition.parse (mbr : Buffer) (index : Nat) : Partition where
  type := mbr (446 + index * 16 + 4)
  start := fat32 mbr (446 + index * 16 + 8)
  size := fat32 mbr (446 + index * 16 + 12)

/-- The four entries, copied out before the sector buffer is reused. -/
def partitions (mbr : Buffer) : List Partition := (List.range 4).map (Partition.parse mbr)

/-- The partition types that conventionally hold FAT32. -/
def Partition.conventional (partition : Partition) : Bool :=
  partition.type == 0x0B || partition.type == 0x0C ||
    partition.type == 0x1B || partition.type == 0x1C

/-- The entries that a pass passes over without reading them. -/
def Partition.skipped (partition : Partition) (device : BlockDevice ω) (firstPass : Bool) : Bool :=
  (firstPass != partition.conventional || partition.start == 0 || partition.size == 0) ||
    (device.sectorCount != 0 &&
      (device.sectorCount ≤ partition.start ||
        device.sectorCount - partition.start < partition.size))

/-- One pass over the partition entries, up to the first that holds a volume. -/
def probePass (device : BlockDevice ω) (firstPass : Bool) :
    List Partition → FsState ω → Option Partition × FsState ω
  | [], s => (none, s)
  | partition :: rest, s =>
    if partition.skipped device firstPass then probePass device firstPass rest s
    else
      match s.readInto device partition.start with
      | (status, s') =>
        let total := fat32 s'.fs.sectorBuffer 32
        if status ≠ 0 ∨ looksLikeFat32Bpb s'.fs.sectorBuffer device.sectorSize = false ∨
            partition.size < total ∨ 0xFFFFFFFF - total < partition.start then
          probePass device firstPass rest s'
        else (some partition, s')

/-- The two passes: the conventional partition types first, then the others. -/
def probePartitions (device : BlockDevice ω) (entries : List Partition) (s : FsState ω) :
    Option Partition × FsState ω :=
  match probePass device true entries s with
  | (some partition, s') => (some partition, s')
  | (none, s') => probePass device false entries s'

/-- Where a volume was found: its first sector, and the number of sectors the
partition entry grants it, zero for a volume that starts the device. -/
structure VolumeExtent where
  start : UInt32
  sectors : UInt32
  deriving DecidableEq, Repr

/-- The search for a volume, starting with sector zero in the sector buffer. -/
def locateVolume (device : BlockDevice ω) (s : FsState ω) : Option VolumeExtent × FsState ω :=
  if looksLikeFat32Bpb s.fs.sectorBuffer device.sectorSize then (some ⟨0, 0⟩, s)
  else if fat16 s.fs.sectorBuffer 510 ≠ 0xAA55 then (none, s)
  else
    match probePartitions device (partitions s.fs.sectorBuffer) s with
    | (some partition, s') => (some ⟨partition.start, partition.size⟩, s')
    | (none, s') => (none, s')

/-- The part of `fat32_mount` after a volume has been found, with its boot
sector in the sector buffer. -/
def establishGeometry (device : BlockDevice ω) (volume : VolumeExtent) (s : FsState ω) :
    Fat32Result × FsState ω :=
  let b := s.fs.sectorBuffer
  let fs : Fat32Fs ω :=
    { s.fs with
      volumeStart := volume.start
      bytesPerSector := (fat16 b 11).toUInt32
      sectorsPerCluster := (b 13).toUInt32
      reservedSectors := (fat16 b 14).toUInt32 }
  if fs.bytesPerSector ≠ device.sectorSize ∨
      fs.bytesPerSector < 512 ∨ powerOfTwo fs.bytesPerSector = false ∨
      fs.bytesPerSector % 4 ≠ 0 ∨
      powerOfTwo fs.sectorsPerCluster = false ∨
      128 < fs.sectorsPerCluster ∨
      fs.reservedSectors = 0 ∨ b 16 = 0 ∨
      2 < b 16 ∨
      fat16 b 17 ≠ 0 ∨
      fat16 b 19 ≠ 0 ∨
      fat16 b 22 ≠ 0 ∨
      fat16 b 42 ≠ 0 ∨
      (b 66 ≠ 0x28 ∧ b 66 ≠ 0x29) then
    (.ebadfs, { s with fs := fs })
  else
    let totalSectors := fat32 b 32
    let fatSize := fat32 b 36
    let fs : Fat32Fs ω := { fs with rootCluster := fat32 b 44 &&& 0x0FFFFFFF }
    if totalSectors = 0 ∨ fatSize = 0 ∨
        fat32 b 44 &&& 0xF0000000 ≠ 0 ∨
        fs.rootCluster < 2 then
      (.ebadfs, { s with fs := fs })
    else if 0xFFFFFFFF - totalSectors < volume.start ∨
        (volume.sectors ≠ 0 ∧ volume.sectors < totalSectors) ∨
        (device.sectorCount ≠ 0 ∧
          (device.sectorCount < volume.start ∨
            device.sectorCount - volume.start < totalSectors)) then
      (.ebadfs, { s with fs := fs })
    else
      let dataStart : UInt64 :=
        fs.reservedSectors.toUInt64 + (b 16).toUInt64 * fatSize.toUInt64
      if totalSectors.toUInt64 ≤ dataStart ∨ 0xFFFFFFFF < dataStart then
        (.ebadfs, { s with fs := fs })
      else
        let dataSectors := totalSectors - dataStart.toUInt32
        let clusters := dataSectors / fs.sectorsPerCluster
        if clusters = 0 ∨ 0x0FFFFFF5 < clusters ∨ clusters ≤ fs.rootCluster - 2 then
          (.ebadfs, { s with fs := fs })
        else
          let fatEntries : UInt64 := fatSize.toUInt64 * fs.bytesPerSector.toUInt64 / 4
          if fatEntries < clusters.toUInt64 + 2 then (.ebadfs, { s with fs := fs })
          else
            (.ok,
              { s with
                fs :=
                  { fs with
                    fatStart := fs.reservedSectors
                    fatSectors := fatSize
                    dataStart := dataStart.toUInt32
                    clusterCount := clusters
                    mounted := true } })

/-- `fat32_mount`. A missing device is a null pointer. -/
def fat32Mount (device : Option (BlockDevice ω)) (s : FsState ω) : Fat32Result × FsState ω :=
  match device with
  | none => (.einval, s)
  | some device =>
    if device.readSector.isNone ∨ device.sectorSize < 512 ∨ maxSectorSize < device.sectorSize then
      (.einval, s)
    else
      let s : FsState ω := { s with fs := { s.fs with mounted := false, device := some device } }
      match s.readInto device 0 with
      | (status, s) =>
        if status ≠ 0 then (.eio, s)
        else
          match locateVolume device s with
          | (none, s) => (.ebadfs, s)
          | (some volume, s) => establishGeometry device volume s

end LevOS.Filesystem
