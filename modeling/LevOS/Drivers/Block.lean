import Mathlib.Data.List.GetD
import Mathlib.Tactic.Linarith
import Mathlib.Tactic.Ring

/-!
# Block devices

A block device exposes logical sectors through a read callback (`drivers/block.h`).
The callback is a parameter of the model: it may answer every call differently,
fail at any time and leave anything in the buffer, because it reads and changes
an arbitrary outside world `ω`. What the kernel asks of the device is recorded,
call by call, in the request log of the bus.

## Main definitions

* `BlockDevice`, the device record with its geometry and its callback
* `Bus`, the outside world together with the log of requests
* `blockReadSector`, the range-checked read of `drivers/block.c`
-/

namespace LevOS.Drivers

/-- The bytes reachable from a pointer, indexed from the pointer itself. -/
abbrev Buffer := Nat → UInt8

/-- One call of a device's read callback and the status it returned. -/
structure Request where
  sector : UInt32
  status : Int
  deriving DecidableEq, Repr

/-- `struct block_device`. A sector count of zero means that the size is not
known; a missing callback is the null function pointer. -/
structure BlockDevice (ω : Type) where
  sectorSize : UInt32
  sectorCount : UInt32
  readSector : Option (UInt32 → Buffer → ω → Int × Buffer × ω)

/-- The outside world as the kernel meets it: the state the callbacks act on
and every request made of a device so far, oldest first. -/
structure Bus (ω : Type) where
  outside : ω
  requests : List Request

variable {ω : Type}

/-- `block_read_sector`: refuse unusable devices and sectors past a known end,
and otherwise hand the buffer to the callback. -/
def blockReadSector (device : BlockDevice ω) (sector : UInt32) (buffer : Buffer)
    (bus : Bus ω) : Int × Buffer × Bus ω :=
  match device.readSector with
  | none => (-1, buffer, bus)
  | some read =>
    if device.sectorSize = 0 then (-1, buffer, bus)
    else if device.sectorCount ≠ 0 ∧ device.sectorCount ≤ sector then (-1, buffer, bus)
    else
      match read sector buffer bus.outside with
      | (status, buffer', outside') =>
        (status, buffer', ⟨outside', bus.requests ++ [⟨sector, status⟩]⟩)

/-- A read makes at most one request, and that request names the sector asked for. -/
theorem blockReadSector_requests (device : BlockDevice ω) (sector : UInt32) (buffer : Buffer)
    (bus : Bus ω) :
    (blockReadSector device sector buffer bus).2.2.requests = bus.requests ∨
      ∃ status, (blockReadSector device sector buffer bus).2.2.requests =
        bus.requests ++ [⟨sector, status⟩] := by
  unfold blockReadSector
  split
  · exact Or.inl rfl
  · split_ifs
    · exact Or.inl rfl
    · exact Or.inl rfl
    · exact Or.inr ⟨_, rfl⟩

end LevOS.Drivers
