import LevOS.Foundation.Bitmap
import LevOS.Foundation.Words

/-!
# The physical page allocator

`memory/pmm.c`: one bit for each page of the address space, set when the page is
unavailable, with a free count and an upper bound kept beside it. `pmm_init`
fills the bitmap from the boot loader's memory map, which is read from memory
as it is found.

## Main definitions

* `Pmm`, the bitmap and its two counters
* `pmmInit`, `allocatePage`, `freePage`
-/

namespace LevOS.Memory

open LevOS.Foundation

/-- `PAGE_SIZE`. -/
def pageSize : UInt32 := 4096

/-- `MAX_PAGES`: all of the 32-bit address space. -/
def maxPages : Nat := 1024 * 1024

/-- The static data of `pmm.c`. -/
structure Pmm where
  bitmap : Nat → UInt8
  highestPage : UInt32
  freeCount : UInt32

namespace Pmm

/-- `1u << (page & 7)`, as the byte it is combined with. -/
def mask (page : UInt32) : UInt8 := ((1 : UInt32) <<< (page &&& 7)).toUInt8

/-- `set_used`. -/
def setUsed (p : Pmm) (page : UInt32) : Pmm :=
  { p with
    bitmap := Function.update p.bitmap (page >>> 3).toNat
      (p.bitmap (page >>> 3).toNat ||| mask page) }

/-- `set_free`. -/
def setFree (p : Pmm) (page : UInt32) : Pmm :=
  { p with
    bitmap := Function.update p.bitmap (page >>> 3).toNat
      (p.bitmap (page >>> 3).toNat &&& ~~~mask page) }

/-- `is_used`. -/
def isUsed (p : Pmm) (page : UInt32) : Bool := p.bitmap (page >>> 3).toNat &&& mask page != 0

/-- The body of the loop of `free_range`. -/
def releasePage (p : Pmm) (page : Nat) : Pmm :=
  if p.isUsed (UInt32.ofNat page) then
    { p.setFree (UInt32.ofNat page) with freeCount := p.freeCount + 1 }
  else p

/-- The body of the loop of `reserve_range`. -/
def claimPage (p : Pmm) (page : Nat) : Pmm :=
  if p.isUsed (UInt32.ofNat page) then p
  else { p.setUsed (UInt32.ofNat page) with freeCount := p.freeCount - 1 }

/-- The pages `first <= page < last` of a loop. -/
def pageRange (first last : UInt64) : List Nat := List.range' first.toNat (last.toNat - first.toNat)

/-- `free_range`. -/
def freeRange (p : Pmm) (start stop : UInt64) : Pmm :=
  let first := (start + 4096 - 1) / 4096
  let last := if UInt64.ofNat maxPages < stop / 4096 then UInt64.ofNat maxPages else stop / 4096
  let p' := (pageRange first last).foldl releasePage p
  if p'.highestPage.toUInt64 < last then { p' with highestPage := last.toUInt32 } else p'

/-- `reserve_range`. -/
def reserveRange (p : Pmm) (start stop : UInt64) : Pmm :=
  let first := start / 4096
  let last := (stop + 4096 - 1) / 4096
  if UInt64.ofNat maxPages ≤ first then p
  else
    (pageRange first (if UInt64.ofNat maxPages < last then UInt64.ofNat maxPages else last)).foldl
      claimPage p

/-! ## Initialisation

The block that the boot loader hands over may lie anywhere, so what is read may
depend on what the walk has written; `memory` gives the bytes as they are in
each state of the allocator. -/

/-- The loop over the entries of a memory map tag. -/
def walkEntries (memory : Pmm → Memory) (entrySize : UInt32) : Nat → UInt32 → Pmm → Pmm
  | 0, _, p => p
  | entries + 1, entry, p =>
    let base := load64 (memory p) entry
    let length := load64 (memory p) (entry + 8)
    let kind := load32 (memory p) (entry + 16)
    walkEntries memory entrySize entries (entry + entrySize)
      (if kind = 1 ∧ length ≠ 0 then p.freeRange base (base + length) else p)

/-- The loop over the tags. It need not end, so it takes the number of tags it
may visit; there is no result when that is not enough. -/
def walkTags (memory : Pmm → Memory) (info totalSize : UInt32) :
    Nat → UInt32 → Pmm → Option Pmm
  | 0, _, _ => none
  | fuel + 1, offset, p =>
    if ¬ offset + 8 ≤ totalSize then some p
    else
      let tag := info + offset
      let type := load32 (memory p) tag
      let size := load32 (memory p) (tag + 4)
      if size < 8 ∨ totalSize < offset + size then some p
      else
        let entrySize := load32 (memory p) (tag + 8)
        walkTags memory info totalSize fuel (offset + ((size + 7) &&& ~~~7))
          (if type = 6 ∧ 24 ≤ entrySize then
            -- a tag shorter than its header wraps here, as in the source
            walkEntries memory entrySize ((size - 16) / entrySize).toNat (tag + 16) p
          else p)

/-- The state after the first loop of `pmm_init`: every page is unavailable. -/
def cleared : Pmm where
  bitmap := fun _ => 0xFF
  highestPage := 0
  freeCount := 0

/-- The part of `pmm_init` that reads the memory map. -/
def readMap (memory : Pmm → Memory) (info : UInt32) (fuel : Nat) : Option Pmm :=
  if info ≠ 0 then
    let totalSize := load32 (memory cleared) info
    (walkTags memory info totalSize fuel 8 cleared).map fun p =>
      p.reserveRange info.toUInt64 (info.toUInt64 + totalSize.toUInt64)
  else some cleared

/-- `pmm_init`. The end of the kernel image is a symbol of the linker. -/
def pmmInit (memory : Pmm → Memory) (kernelEnd info : UInt32) (fuel : Nat) : Option Pmm :=
  (readMap memory info fuel).map fun p =>
    let p' := if p.highestPage = 0 then p.freeRange 0x00100000 0x01000000 else p
    (p'.reserveRange 0 0x1000).reserveRange 0 kernelEnd.toUInt64

/-! ## Allocation -/

/-- The loop of `allocate_page` over the pages that are left. -/
def allocateFrom (p : Pmm) : Nat → UInt32 → UInt32 × Pmm
  | 0, _ => (0, p)
  | pages + 1, page =>
    if p.isUsed page then p.allocateFrom pages (page + 1)
    else (page * pageSize, { p.setUsed page with freeCount := p.freeCount - 1 })

/-- `allocate_page`. -/
def allocatePage (p : Pmm) : UInt32 × Pmm := p.allocateFrom (p.highestPage.toNat - 1) 1

/-- `free_page`. -/
def freePage (p : Pmm) (address : UInt32) : Pmm :=
  let page := address / pageSize
  if page = 0 ∨ p.highestPage ≤ page ∨ p.isUsed page = false then p
  else { p.setFree page with freeCount := p.freeCount + 1 }

/-- `pmm_free_pages`. -/
def pmmFreePages (p : Pmm) : UInt32 := p.freeCount

end Pmm

end LevOS.Memory
