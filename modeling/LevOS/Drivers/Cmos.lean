import LevOS.Foundation.Dials
import Mathlib.Data.Nat.Count

/-!
# The CMOS clock

`drivers/cmos.c` selects a register of the clock chip through one port and reads it through
another. The chip goes on counting meanwhile: a second may pass before any access, and
carries into the minutes, the hours and the date. Which years are leap years is up to the
chip. Registers hold two decimal digits each.

## Main definitions

* `Time`, what the clock counts, and `Time.register`
* `Cmos`, the chip with the times at which it was accessed
* `selectCmosReg`, `readCmos`

## Main results

* `Time.register_eq_iff`, a register changes with its dial only
* `Time.tick_iterate`, the clock in less than a minute
* `run_selectCmosReg`, `run_readCmos`
-/

namespace LevOS.Drivers

open LevOS.Foundation

/-! ## Time -/

section

variable (leap : Nat → Nat → Bool)

/-- The number of days of a month. -/
def monthLength (century year month : Nat) : Nat :=
  if month = 2 then if leap century year then 29 else 28
  else if month = 4 ∨ month = 6 ∨ month = 9 ∨ month = 11 then 30
  else 31

/-- The last day, in front of the month, the year and the century. -/
def lastDay : List Nat → Nat
  | month :: year :: century :: _ => monthLength leap century year month
  | _ => 31

theorem lastDay_bounds (rest : List Nat) : 1 < lastDay leap rest ∧ lastDay leap rest ≤ 31 := by
  unfold lastDay
  split
  · unfold monthLength
    split_ifs <;> decide
  · decide

/-- A dial that always ends at the same position. -/
def fixedDial (first last : Nat) (h : first < last) : Dial := ⟨first, fun _ => last, fun _ => h⟩

/-- The dials of the clock: seconds, minutes, hours, day, month, year and century. -/
def dials : List Dial :=
  [fixedDial 0 59 (by decide), fixedDial 0 59 (by decide), fixedDial 0 23 (by decide),
    ⟨1, lastDay leap, fun rest => (lastDay_bounds leap rest).1⟩, fixedDial 1 12 (by decide),
    fixedDial 0 99 (by decide), fixedDial 0 99 (by decide)]

/-- A time on the clock. -/
structure Time where
  positions : List Nat
  stand : Stand (dials leap) positions

end

variable {leap : Nat → Nat → Bool}

namespace Time

/-- A second passes. -/
def tick (t : Time leap) : Time leap := ⟨advance (dials leap) t.positions, stand_advance t.stand⟩

/-- The registers of the clock, in the order of its dials. -/
def registers : List UInt8 := [0x00, 0x02, 0x04, 0x07, 0x08, 0x09, 0x32]

/-- Two decimal digits. -/
def bcd (n : Nat) : UInt8 := UInt8.ofNat (n / 10 * 16 + n % 10)

/-- The contents of a register of the clock. -/
def register (t : Time leap) (reg : UInt8) : UInt8 :=
  bcd (t.positions.getD (registers.idxOf reg) 0)

/-- The seconds. -/
def seconds (t : Time leap) : Nat := t.positions.getD 0 0

/-- The number of dials that move when the minute ends, not counting the seconds. -/
def carried (t : Time leap) : Nat := moved (dials leap).tail t.positions.tail

variable (t : Time leap)

theorem positions_le (k : Nat) : t.positions.getD k 0 ≤ 99 := by
  refine t.stand.getD_le (fun dial hdial rest => ?_) k
  -- no dial goes beyond two digits
  simp only [dials, List.mem_cons, List.not_mem_nil, or_false] at hdial
  rcases hdial with rfl | rfl | rfl | rfl | rfl | rfl | rfl
  · exact (by decide : 59 ≤ 99)
  · exact (by decide : 59 ≤ 99)
  · exact (by decide : 23 ≤ 99)
  · exact (lastDay_bounds leap rest).2.trans (by decide)
  · exact (by decide : 12 ≤ 99)
  · exact Nat.le_refl 99
  · exact Nat.le_refl 99

theorem bcd_inj {m n : Nat} (hm : m ≤ 99) (hn : n ≤ 99) : bcd m = bcd n ↔ m = n := by
  constructor
  · intro h
    have hvalue := congrArg UInt8.toNat h
    simp only [bcd, UInt8.toNat_ofNat'] at hvalue
    omega
  · exact congrArg bcd

/-- A register shows the position of its dial. -/
theorem register_eq_iff (t t' : Time leap) (reg : UInt8) :
    t.register reg = t'.register reg ↔
      t.positions.getD (registers.idxOf reg) 0 = t'.positions.getD (registers.idxOf reg) 0 :=
  bcd_inj (t.positions_le _) (t'.positions_le _)

theorem positions_eq : t.positions = t.seconds :: t.positions.tail ∧ t.seconds ≤ 59 := by
  obtain ⟨positions, hstand⟩ := t
  cases positions with
  | nil => exact hstand.elim
  | cons p rest => exact ⟨rfl, hstand.2.1⟩

theorem stand_tail : Stand (dials leap).tail t.positions.tail := by
  obtain ⟨positions, hstand⟩ := t
  cases positions with
  | nil => exact hstand.elim
  | cons p rest => exact hstand.2.2

theorem iterate_tick (n : Nat) :
    (tick^[n] t).positions = (advance (dials leap))^[n] t.positions := by
  induction n with
  | zero => rfl
  | succ n ih =>
    rw [Function.iterate_succ_apply', Function.iterate_succ_apply', ← ih]
    rfl

/-- In less than a minute the clock carries at most once. -/
theorem positions_iterate_tick {n : Nat} (hn : n < 60) :
    (tick^[n] t).positions =
      if t.seconds + n ≤ 59 then (t.seconds + n) :: t.positions.tail
      else (t.seconds + n - 60) :: advance (dials leap).tail t.positions.tail := by
  obtain ⟨hpositions, hseconds⟩ := t.positions_eq
  rw [iterate_tick, hpositions]
  exact iterate_advance (fixedDial 0 59 (by decide)) (fun _ => rfl) hseconds hn

/-- The seconds come back after a minute. -/
theorem seconds_iterate_tick {n : Nat} (hn : n < 60) :
    (tick^[n] t).seconds = t.seconds ↔ n = 0 := by
  have hseconds := t.positions_eq.2
  rw [seconds, t.positions_iterate_tick hn]
  -- the minute may end in between
  split_ifs with hroom
  · rw [List.getD_cons_zero]
    omega
  · rw [List.getD_cons_zero]
    omega

/-- In less than a minute a dial behind the seconds changes exactly if the minute ends and
carries up to it. -/
theorem getD_iterate_tick {n : Nat} (hn : n < 60) (k : Nat) :
    (tick^[n] t).positions.getD (k + 1) 0 = t.positions.getD (k + 1) 0 ↔
      t.seconds + n ≤ 59 ∨ t.carried ≤ k := by
  have hpositions := t.positions_eq.1
  have htail : t.positions.getD (k + 1) 0 = t.positions.tail.getD k 0 := by
    rw [hpositions]
    rfl
  rw [t.positions_iterate_tick hn, htail]
  split_ifs with hroom
  · exact iff_of_true rfl (.inl hroom)
  · rw [List.getD_cons_succ, getD_advance_iff t.stand_tail, or_iff_right hroom]
    rfl

end Time

/-! ## Ports -/

/-- The clock chip: its time, the register that is selected, and the times of the accesses
so far, latest first. -/
structure Cmos (leap : Nat → Nat → Bool) where
  time : Time leap
  selected : UInt8
  accesses : List (Time leap)

section Access

variable (ticks : Nat → Bool)

/-- The chip at its next access, before which a second may pass. -/
def Cmos.access (c : Cmos leap) : Cmos leap :=
  let time := if ticks c.accesses.length then c.time.tick else c.time
  ⟨time, c.selected, time :: c.accesses⟩

/-- `select_cmos_reg`. -/
def selectCmosReg (reg : UInt8) : StateM (Cmos leap) Unit :=
  modify fun c => { c.access ticks with selected := reg }

/-- `read_cmos`. -/
def readCmos : StateM (Cmos leap) UInt8 := do
  modify fun c => c.access ticks
  let c ← get
  return c.time.register c.selected

/-- The time at an access. -/
def timeAt (start : Time leap) (i : Nat) : Time leap :=
  Time.tick^[Nat.count (fun j => ticks j = true) (i + 1)] start

/-- The chip after `i` accesses. -/
def Cmos.after (start : Time leap) (i : Nat) (selected : UInt8) : Cmos leap where
  time := Time.tick^[Nat.count (fun j => ticks j = true) i] start
  selected := selected
  accesses := (List.range i).reverse.map (timeAt ticks start)

variable (start : Time leap) (i : Nat) (selected : UInt8)

theorem Cmos.access_after :
    (Cmos.after ticks start i selected).access ticks = Cmos.after ticks start (i + 1) selected := by
  have htime : (if ticks i then (Time.tick^[Nat.count (fun j => ticks j = true) i] start).tick
      else Time.tick^[Nat.count (fun j => ticks j = true) i] start) = timeAt ticks start i := by
    rw [timeAt, Nat.count_succ]
    split_ifs with hticks
    · rw [Function.iterate_succ_apply']
    · rfl
  have hlength : (Cmos.after ticks start i selected).accesses.length = i := by simp [Cmos.after]
  rw [Cmos.access, hlength]
  simp only [Cmos.after, htime, List.range_succ, List.reverse_append, List.reverse_singleton,
    List.singleton_append, List.map_cons]
  rfl

@[simp] theorem run_selectCmosReg (reg : UInt8) :
    (selectCmosReg ticks reg).run (Cmos.after ticks start i selected) =
      pure ((), Cmos.after ticks start (i + 1) reg) := by
  change ((), { (Cmos.after ticks start i selected).access ticks with selected := reg }) = _
  rw [Cmos.access_after]
  rfl

@[simp] theorem run_readCmos :
    (readCmos ticks).run (Cmos.after ticks start i selected) =
      pure ((timeAt ticks start i).register selected, Cmos.after ticks start (i + 1) selected) := by
  change (((Cmos.after ticks start i selected).access ticks).time.register
    ((Cmos.after ticks start i selected).access ticks).selected,
      (Cmos.after ticks start i selected).access ticks) = _
  rw [Cmos.access_after]
  rfl

end Access

end LevOS.Drivers
