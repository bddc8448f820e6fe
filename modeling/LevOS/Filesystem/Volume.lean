import LevOS.Drivers.Block

/-!
# FAT32 volumes: sectors and cluster links

The data model of `filesystem/fat32.h` and the functions of `fat32.c` that read
one sector or follow one link of the allocation table. The file system object
owns a single sector buffer, which every read overwrites.

## Main definitions

* `Fat32Result`, `Fat32Fs`, `FsState`, the result codes, the file system object
  and the object together with the bus
* `readSector`, a volume-relative read into the sector buffer
* `validCluster`, `nextCluster`, one step along a cluster chain
-/

namespace LevOS.Filesystem

open LevOS.Drivers

variable {ω : Type}

/-- `fat32_result_t`. -/
inductive Fat32Result
  | ok | einval | eio | ebadfs | enotfound | enotdir | eisdir | eoverflow | eloop | enospc
  deriving DecidableEq, Repr

/-- `fat32_result_string`. -/
def fat32ResultString : Fat32Result → String
  | .ok => "ok"
  | .einval => "invalid argument"
  | .eio => "disk I/O error"
  | .ebadfs => "invalid FAT32 filesystem"
  | .enotfound => "not found"
  | .enotdir => "not a directory"
  | .eisdir => "is a directory"
  | .eoverflow => "filesystem too large"
  | .eloop => "cluster chain loop"
  | .enospc => "buffer too small"

/-- `FAT32_MAX_SECTOR_SIZE`. -/
def maxSectorSize : UInt32 := 4096

/-- `FAT32_NAME_SIZE`, the size of a name buffer with its terminator. -/
def nameSize : Nat := 13

/-- `fat32_fs_t`. The device pointer is null until the first mount. -/
structure Fat32Fs (ω : Type) where
  device : Option (BlockDevice ω)
  volumeStart : UInt32
  bytesPerSector : UInt32
  sectorsPerCluster : UInt32
  reservedSectors : UInt32
  fatStart : UInt32
  fatSectors : UInt32
  dataStart : UInt32
  clusterCount : UInt32
  rootCluster : UInt32
  sectorBuffer : Buffer
  mounted : Bool

/-- The zero-initialised object every run starts from. -/
def Fat32Fs.zero : Fat32Fs ω where
  device := none
  volumeStart := 0
  bytesPerSector := 0
  sectorsPerCluster := 0
  reservedSectors := 0
  fatStart := 0
  fatSectors := 0
  dataStart := 0
  clusterCount := 0
  rootCluster := 0
  sectorBuffer := fun _ => 0
  mounted := false

/-- The file system object and the bus its reads go to. -/
structure FsState (ω : Type) where
  fs : Fat32Fs ω
  bus : Bus ω

/-- `fat16`: a little-endian 16-bit field. -/
def fat16 (p : Buffer) (offset : Nat) : UInt16 :=
  (p offset).toUInt16 ||| (p (offset + 1)).toUInt16 <<< 8

/-- `fat32`: a little-endian 32-bit field. -/
def fat32 (p : Buffer) (offset : Nat) : UInt32 :=
  (p offset).toUInt32 ||| (p (offset + 1)).toUInt32 <<< 8 |||
    (p (offset + 2)).toUInt32 <<< 16 ||| (p (offset + 3)).toUInt32 <<< 24

/-- `power_of_two`. -/
def powerOfTwo (value : UInt32) : Bool :=
  value != 0 && value &&& (value - 1) == 0

/-- A device read into the sector buffer, whatever the status. -/
def FsState.readInto (s : FsState ω) (device : BlockDevice ω) (sector : UInt32) :
    Int × FsState ω :=
  match blockReadSector device sector s.fs.sectorBuffer s.bus with
  | (status, buffer, bus) => (status, ⟨{ s.fs with sectorBuffer := buffer }, bus⟩)

/-- `read_sector`: read a volume-relative sector into the sector buffer. -/
def readSector (s : FsState ω) (sector : UInt32) : Fat32Result × FsState ω :=
  match s.fs.device with
  | none => (.eio, s) -- only an unmounted object has no device
  | some device =>
    if s.fs.mounted = false ∨
        (device.sectorCount ≠ 0 ∧
          (device.sectorCount < s.fs.volumeStart ∨
            device.sectorCount - s.fs.volumeStart ≤ sector)) ∨
        0xFFFFFFFF - s.fs.volumeStart < sector then
      (.eio, s)
    else
      match s.readInto device (s.fs.volumeStart + sector) with
      | (status, s') => (if status = 0 then .ok else .eio, s')

/-- `valid_cluster`. -/
def validCluster (fs : Fat32Fs ω) (cluster : UInt32) : Bool :=
  2 ≤ cluster && cluster - 2 < fs.clusterCount

/-- The value `next_cluster` stores for an end of chain. -/
def endMarker : UInt32 := 0x0FFFFFFF

/-- The end of `next_cluster`: what a 28-bit table entry stands for. -/
def decodeLink (fs : Fat32Fs ω) (value : UInt32) : Except Fat32Result UInt32 :=
  if 0x0FFFFFF8 ≤ value then .ok endMarker
  else if value = 0x0FFFFFF7 ∨ (0x0FFFFFF0 ≤ value ∧ value < 0x0FFFFFF8) then .error .ebadfs
  else if validCluster fs value = false then .error .ebadfs
  else .ok value

/-- `next_cluster`: the link stored in the first allocation table. The out
parameter is only written when the result is `FAT32_OK`. -/
def nextCluster (s : FsState ω) (cluster : UInt32) :
    Except Fat32Result UInt32 × FsState ω :=
  if validCluster s.fs cluster = false then (.error .ebadfs, s)
  else
    let offset := cluster * 4
    if s.fs.fatSectors ≤ offset / s.fs.bytesPerSector then (.error .ebadfs, s)
    else
      let sector := s.fs.fatStart + offset / s.fs.bytesPerSector
      let inSector := offset % s.fs.bytesPerSector
      if s.fs.bytesPerSector < inSector + 4 then (.error .ebadfs, s)
      else
        match readSector s sector with
        | (.ok, s') =>
          (decodeLink s'.fs (fat32 s'.fs.sectorBuffer inSector.toNat &&& 0x0FFFFFFF), s')
        | (_, s') => (.error .eio, s')

/-- The volume-relative number of sector `index` of a cluster, in the 32-bit
arithmetic of the source. -/
def clusterSector (fs : Fat32Fs ω) (cluster : UInt32) (index : Nat) : UInt32 :=
  fs.dataStart + (cluster - 2) * fs.sectorsPerCluster + UInt32.ofNat index

end LevOS.Filesystem
