import LevOS.Drivers.Cmos
import LevOS.Shell.Editor
import Mathlib.Tactic.IntervalCases

/-!
# The clock command

`process_command` reads the seven registers of the clock one after the other, from the
seconds to the century, and does not ask whether an update is in progress. When the minute
ends in between, the registers read before and after belong to different times.

## Main definitions

* `clock`, the exchanges with the chip, and `Readings.calls`, what is printed
* `elapsed`, the seconds that pass between two accesses

## Main results

* `run_clock`, the time at which each register is read
* `clock_existed_iff`
-/

namespace LevOS

open LevOS.Drivers

variable {leap : Nat → Nat → Bool}

/-! ## The command -/

/-- What `process_command` has read. -/
structure Readings where
  century : UInt8
  year : UInt8
  month : UInt8
  monthday : UInt8
  hours : UInt8
  minutes : UInt8
  seconds : UInt8
deriving DecidableEq

/-- The exchanges with the chip. -/
def clock (ticks : Nat → Bool) : StateM (Cmos leap) Readings := do
  selectCmosReg ticks 0x00
  let seconds ← readCmos ticks
  selectCmosReg ticks 0x02
  let minutes ← readCmos ticks
  selectCmosReg ticks 0x04
  let hours ← readCmos ticks
  selectCmosReg ticks 0x07
  let monthday ← readCmos ticks
  selectCmosReg ticks 0x08
  let month ← readCmos ticks
  selectCmosReg ticks 0x09
  let year ← readCmos ticks
  selectCmosReg ticks 0x32
  let century ← readCmos ticks
  return ⟨century, year, month, monthday, hours, minutes, seconds⟩

/-- The calls that print the readings. -/
def Readings.calls (r : Readings) : List TerminalCall :=
  [.print (cString "Year: ") 0x0E, .printHexByte r.century, .printHexByte r.year,
    .print (cString "\nDate: ") 0x0E, .printHexByte r.month, .putchar 47, .printHexByte r.monthday,
    .print (cString "\nTime: ") 0x0E, .printHexByte r.hours, .putchar 58, .printHexByte r.minutes,
    .putchar 58, .printHexByte r.seconds, .putchar 10]

/-- The registers of the clock, each at the time of the access that reads it. -/
def readingsAt (time : Nat → Time leap) : Readings :=
  ⟨(time 13).register 0x32, (time 11).register 0x09, (time 9).register 0x08,
    (time 7).register 0x07, (time 5).register 0x04, (time 3).register 0x02,
    (time 1).register 0x00⟩

/-- The registers of the clock at one time. -/
def readingsOf (t : Time leap) : Readings := readingsAt fun _ => t

/-- The seconds that pass after one access, up to another. -/
def elapsed (ticks : Nat → Bool) (i j : Nat) : Nat :=
  Nat.count (fun k => ticks k = true) (j + 1) - Nat.count (fun k => ticks k = true) (i + 1)

/-! ## Readings -/

/-- Different readings are printed differently. -/
theorem Readings.calls_inj {r r' : Readings} : r.calls = r'.calls ↔ r = r' := by
  constructor
  · intro h
    simp only [calls, List.cons.injEq, TerminalCall.printHexByte.injEq, true_and, and_true] at h
    obtain ⟨hcentury, hyear, hmonth, hmonthday, hhours, hminutes, hseconds⟩ := h
    cases r
    cases r'
    exact Readings.mk.injEq .. ▸ ⟨hcentury, hyear, hmonth, hmonthday, hhours, hminutes, hseconds⟩
  · exact congrArg calls

/-- Readings are compared dial by dial. -/
theorem readingsAt_eq_iff (time : Nat → Time leap) (t : Time leap) :
    readingsAt time = readingsOf t ↔
      ∀ k < 7, (time (2 * k + 1)).positions.getD k 0 = t.positions.getD k 0 := by
  simp only [readingsAt, readingsOf, Readings.mk.injEq, Time.register_eq_iff]
  constructor
  · rintro ⟨hcentury, hyear, hmonth, hmonthday, hhours, hminutes, hseconds⟩ k hk
    interval_cases k
    · exact hseconds
    · exact hminutes
    · exact hhours
    · exact hmonthday
    · exact hmonth
    · exact hyear
    · exact hcentury
  · intro h
    exact ⟨h 6 (by decide), h 5 (by decide), h 4 (by decide), h 3 (by decide), h 2 (by decide),
      h 1 (by decide), h 0 (by decide)⟩

section Runs

variable (ticks : Nat → Bool) (start : Time leap)

/-- Each register is read at a time of its own. -/
theorem run_clock (selected : UInt8) :
    (clock ticks).run ⟨start, selected, []⟩ =
      (readingsAt (timeAt ticks start), Cmos.after ticks start 14 0x32) := by
  have hstart : (⟨start, selected, []⟩ : Cmos leap) = Cmos.after ticks start 0 selected := by
    simp [Cmos.after]
  rw [hstart]
  -- each access moves the chip on by one
  simp only [clock, StateT.run_bind, run_selectCmosReg, run_readCmos, pure_bind]
  rfl

/-! ## Between two accesses -/

theorem elapsed_le {i j : Nat} (hij : i ≤ j) : elapsed ticks i j ≤ j - i := by
  obtain ⟨k, rfl⟩ := Nat.exists_eq_add_of_le hij
  rw [elapsed, Nat.add_right_comm, Nat.count_add, Nat.add_sub_cancel_left, Nat.add_sub_cancel_left]
  exact Nat.count_le _

theorem elapsed_mono (i : Nat) {j k : Nat} (hjk : j ≤ k) : elapsed ticks i j ≤ elapsed ticks i k :=
  Nat.sub_le_sub_right (Nat.count_monotone _ (Nat.succ_le_succ hjk)) _

theorem timeAt_eq {i j : Nat} (hij : i ≤ j) :
    timeAt ticks start j = Time.tick^[elapsed ticks i j] (timeAt ticks start i) := by
  have hcount := Nat.count_monotone (fun k => ticks k = true) (Nat.succ_le_succ hij)
  rw [timeAt, timeAt, ← Function.iterate_add_apply, elapsed, Nat.sub_add_cancel hcount]

/-- The command takes less than a minute, so its accesses see the same seconds only at the
same time. -/
theorem timeAt_eq_of_seconds {i j : Nat} (hij : i ≤ j) (hj : j ≤ 13)
    (hseconds : (timeAt ticks start i).seconds = (timeAt ticks start j).seconds) :
    timeAt ticks start i = timeAt ticks start j := by
  have hshort := elapsed_le ticks hij
  have hzero : elapsed ticks i j = 0 := by
    rw [timeAt_eq ticks start hij] at hseconds
    exact ((timeAt ticks start i).seconds_iterate_tick (by omega)).mp hseconds.symm
  rw [timeAt_eq ticks start hij, hzero]
  rfl

/-- What is read agrees with the time at which the seconds are read exactly if the minute
does not end before the last register that its end changes has been read. -/
theorem readings_eq_iff :
    readingsAt (timeAt ticks start) = readingsOf (timeAt ticks start 1) ↔
      (timeAt ticks start 1).seconds +
        elapsed ticks 1 (2 * (timeAt ticks start 1).carried + 1) < 60 := by
  have hcarried : (timeAt ticks start 1).carried ≤ 6 :=
    Foundation.moved_le (dials leap).tail (timeAt ticks start 1).positions.tail
  have hdial (k : Nat) (hk : k < 6) :
      (timeAt ticks start (2 * (k + 1) + 1)).positions.getD (k + 1) 0 =
          (timeAt ticks start 1).positions.getD (k + 1) 0 ↔
        (timeAt ticks start 1).seconds + elapsed ticks 1 (2 * (k + 1) + 1) ≤ 59 ∨
          (timeAt ticks start 1).carried ≤ k := by
    have hshort := elapsed_le ticks (show 1 ≤ 2 * (k + 1) + 1 by omega)
    rw [timeAt_eq ticks start (show 1 ≤ 2 * (k + 1) + 1 by omega)]
    exact (timeAt ticks start 1).getD_iterate_tick (by omega) k
  rw [readingsAt_eq_iff]
  constructor
  · intro hagree
    -- the last register that the end of the minute changes
    cases hlast : (timeAt ticks start 1).carried with
    | zero =>
      have hseconds := (timeAt ticks start 1).positions_eq.2
      have hnone := elapsed_le ticks (show 1 ≤ 2 * 0 + 1 by decide)
      omega
    | succ k =>
      have hread := (hdial k (by omega)).mp (hagree (k + 1) (by omega))
      omega
  · rintro hminute (_ | k) hk
    · rfl
    · rw [hdial k (by omega)]
      by_cases hreached : (timeAt ticks start 1).carried ≤ k
      · exact .inr hreached
      · have hearlier := elapsed_mono ticks 1
          (show 2 * (k + 1) + 1 ≤ 2 * (timeAt ticks start 1).carried + 1 by omega)
        exact .inl (by omega)

end Runs

/-- Whenever the clock is asked, and whenever seconds pass meanwhile, it prints the registers
of a single moment exactly if the minute does not end between reading the seconds and reading
the last register that its end carries into. -/
theorem clock_existed_iff (leap : Nat → Nat → Bool) (ticks : Nat → Bool) (start : Time leap)
    (selected : UInt8) :
    let result := (clock ticks).run ⟨start, selected, []⟩
    (∃ t ∈ result.2.accesses, result.1.calls = (readingsOf t).calls) ↔
      (timeAt ticks start 1).seconds +
        elapsed ticks 1 (2 * (timeAt ticks start 1).carried + 1) < 60 := by
  intro result
  have hresult : result = (readingsAt (timeAt ticks start), Cmos.after ticks start 14 0x32) :=
    run_clock ticks start selected
  rw [← readings_eq_iff, hresult]
  constructor
  · rintro ⟨t, hmem, hcalls⟩
    obtain ⟨i, hi, rfl⟩ := List.mem_map.mp hmem
    have hi : i < 14 := by simpa using hi
    have hreadings := Readings.calls_inj.mp hcalls
    have hseconds : (timeAt ticks start 1).seconds = (timeAt ticks start i).seconds :=
      (readingsAt_eq_iff _ _).mp hreadings 0 (by decide)
    -- the seconds tell which moment it was
    have hsame : timeAt ticks start i = timeAt ticks start 1 := by
      rcases Nat.le_total i 1 with hbefore | hafter
      · exact timeAt_eq_of_seconds ticks start hbefore (by decide) hseconds.symm
      · exact (timeAt_eq_of_seconds ticks start hafter (by omega) hseconds).symm
    rwa [hsame] at hreadings
  · intro hreadings
    refine ⟨timeAt ticks start 1, List.mem_map_of_mem (by decide), ?_⟩
    exact Readings.calls_inj.mpr hreadings

/-- The hour ends after its minutes have been read: 59 seconds and 59 minutes are printed with
the hour that follows. -/
theorem clock_torn :
    let start : Time (fun _ _ => false) :=
      ⟨[59, 59, 0, 1, 1, 24, 20],
        by simp [Foundation.Stand, dials, fixedDial, lastDay, monthLength]⟩
    let result := (clock fun i => i == 4).run ⟨start, 0x00, []⟩
    result.1 = ⟨0x20, 0x24, 0x01, 0x01, 0x01, 0x59, 0x59⟩ ∧
      ¬ ∃ t ∈ result.2.accesses, result.1.calls = (readingsOf t).calls := by
  intro start result
  have hnone : ∀ t ∈ result.2.accesses, result.1 ≠ readingsOf t := by decide
  refine ⟨by decide, ?_⟩
  rintro ⟨t, hmem, hcalls⟩
  exact hnone t hmem (Readings.calls_inj.mp hcalls)

end LevOS
