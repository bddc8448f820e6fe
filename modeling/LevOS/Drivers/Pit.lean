import LevOS.Foundation.Records

/-!
# The timer chip

An 8254 has three counters, which divide one clock. A control word selects a counter, says
which bytes of its count are written and read, and puts it into one of six modes; the count
follows at the counter's own port. Only in two of the modes does a counter start again by
itself and tick at a rate, and only with a count of at least two.

## Main definitions

* `Counter`, one counter as it has been programmed, and `Pit`, the three of them
* `Pit.control`, `Pit.write`, a control word and a byte of a count
* `Counter.period`, how many pulses of the clock a tick takes

## Main results

* `Counter.write_pair`, a count written in two bytes
-/

namespace LevOS.Drivers

open LevOS.Foundation (half half_eq)

/-- Which bytes of a count are written: one of them, the other being zero, or both, the lower
one first. -/
inductive CountAccess
  | low
  | high
  | both
  deriving DecidableEq

/-- The modes of a counter, in the order of their numbers. -/
inductive CounterMode
  | terminalCount
  | oneShot
  | rateGenerator
  | squareWave
  | softwareStrobe
  | hardwareStrobe
  deriving DecidableEq

/-- The mode of a control word. The upper of its three bits is not looked at in the modes 2
and 3. -/
def modeOf (value : UInt8) : CounterMode :=
  let number := (value >>> 1) &&& 0x07
  if number = 0 then .terminalCount
  else if number = 1 then .oneShot
  else if number = 4 then .softwareStrobe
  else if number = 5 then .hardwareStrobe
  else if number &&& 1 = 0 then .rateGenerator
  else .squareWave

/-- A counter: what its last control word says, the lower byte of a count of which the upper
one has not come yet, and the count, if one has been written since the control word. -/
structure Counter where
  access : CountAccess
  mode : CounterMode
  decimal : Bool
  low : Option UInt8
  reload : Option UInt16
  deriving DecidableEq

namespace Counter

/-- A byte of a count. -/
def write (c : Counter) (value : UInt8) : Counter :=
  match c.access, c.low with
  | .low, _ => { c with reload := some (half value 0) }
  | .high, _ => { c with reload := some (half 0 value) }
  | .both, none => { c with low := some value }
  | .both, some low => { c with low := none, reload := some (half low value) }

/-- The four decimal digits of a count. -/
def ofDecimal (count : UInt16) : Nat :=
  count.toNat / 0x1000 * 1000 + count.toNat / 0x100 % 0x10 * 100 + count.toNat / 0x10 % 0x10 * 10 +
    count.toNat % 0x10

/-- How many pulses a counter counts. Zero stands for the count behind the largest one. -/
def pulses (c : Counter) (reload : UInt16) : Nat :=
  if reload = 0 then if c.decimal then 10000 else 65536
  else if c.decimal then ofDecimal reload else reload.toNat

/-- How many pulses of the clock a tick takes. There is a tick again and again only if the
counter generates a rate or a square wave, and these are not defined for a count of one. -/
def period (c : Counter) : Option Nat :=
  match c.mode, c.reload with
  | .rateGenerator, some reload | .squareWave, some reload =>
    if 2 ≤ c.pulses reload then some (c.pulses reload) else none
  | _, _ => none

/-- A count written in two bytes. -/
theorem write_pair {c : Counter} (haccess : c.access = .both) (hlow : c.low = none)
    (low high : UInt8) : (c.write low).write high = { c with reload := some (half low high) } := by
  obtain ⟨access, mode, decimal, rest, reload⟩ := c
  subst haccess hlow
  rfl

end Counter

/-- The three counters. The first one drives line 0 of the interrupt controllers. -/
structure Pit where
  counter0 : Counter
  counter1 : Counter
  counter2 : Counter
  deriving DecidableEq

namespace Pit

/-- One of the counters is changed. There is no fourth one. -/
def modify (p : Pit) (counter : UInt8) (f : Counter → Counter) : Pit :=
  if counter = 0 then { p with counter0 := f p.counter0 }
  else if counter = 1 then { p with counter1 := f p.counter1 }
  else if counter = 2 then { p with counter2 := f p.counter2 }
  else p

/-- A control word. With no access bit it only latches a count to be read, and in place of a
fourth counter it is the read-back command, which latches counts as well. -/
def control (p : Pit) (value : UInt8) : Pit :=
  let access := (value >>> 4) &&& 0x03
  if access = 0 then p
  else
    p.modify (value >>> 6) fun _ =>
      { access := if access = 1 then .low else if access = 2 then .high else .both
        mode := modeOf value
        decimal := value &&& 0x01 ≠ 0
        low := none
        reload := none }

/-- A byte for the port of a counter. -/
def write (p : Pit) (counter value : UInt8) : Pit := p.modify counter fun c => c.write value

end Pit

/-- The two bytes of a divisor that the timer chip is given make up its low half. -/
theorem reload_eq (d : UInt32) :
    half (d &&& 0xFF).toUInt8 ((d >>> 8) &&& 0xFF).toUInt8 = d.toUInt16 := by
  have hbyte (x : UInt32) : (x &&& 0xFF).toUInt8 = x.toUInt8 := by
    rw [UInt32.toUInt8_and]
    exact UInt8.and_neg_one
  have hlow : (d &&& 0xFF).toUInt8 = d.toUInt16.toUInt8 := by
    rw [hbyte, UInt32.toUInt8_toUInt16]
  have hhigh : ((d >>> 8) &&& 0xFF).toUInt8 = (d.toUInt16 >>> 8).toUInt8 := by
    rw [hbyte]
    apply UInt8.toNat_inj.mp
    rw [UInt32.toNat_toUInt8, UInt16.toNat_toUInt8, UInt32.toNat_shiftRight,
      UInt16.toNat_shiftRight, UInt32.toNat_toUInt16, show (8 : UInt32).toNat % 32 = 8 from rfl,
      show (8 : UInt16).toNat % 16 = 8 from rfl, Nat.shiftRight_eq_div_pow,
      Nat.shiftRight_eq_div_pow]
    omega
  rw [hlow, hhigh, half_eq]

end LevOS.Drivers
