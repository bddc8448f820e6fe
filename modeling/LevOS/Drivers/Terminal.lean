import LevOS.Drivers.Block
import Mathlib.Logic.Function.Basic

/-!
# The text terminal

The terminal of `drivers/terminal.c` writes 16-bit cells into the text buffer of
the graphics adapter, 80 columns by 25 rows, at a cursor it keeps for itself. The
buffer is plain memory: nothing stops an index outside it, so every index the code
reads or writes is recorded, and staying inside the buffer is a property of the
record. The number of rows scrolled away is counted as well, so that a place on
the screen can be followed while it moves. The port writes that hide the hardware
cursor change none of this and are left out.

## Main definitions

* `Video`, the text buffer and the record of its accesses
* `Terminal`, the cursor and the buffer, with the operations of the source
* `TerminalCall`, the calls of the terminal's interface

## Main results

* `Terminal.Invariant.run`, the invariant rule for sequences of calls
* `Terminal.fresh_invariant`, the screen is blank from the cursor on
* `terminal_bounds`, the cursor and every access stay on the screen
-/

namespace LevOS.Drivers

/-! ## The text buffer -/

/-- The cells of `video` and the indices accessed so far, latest first. -/
structure Video where
  cells : Int → UInt16
  accesses : List Int

namespace Video

/-- `video[index] = cell`. -/
def store (v : Video) (index : Int) (cell : UInt16) : Video :=
  ⟨Function.update v.cells index cell, index :: v.accesses⟩

/-- `video[target] = video[source]`. -/
def move (v : Video) (target source : Int) : Video :=
  store ⟨v.cells, source :: v.accesses⟩ target (v.cells source)

/-- The first `n` columns of row `y`, copied to the row above. -/
def moveRow (v : Video) (y : Int) : Nat → Video
  | 0 => v
  | n + 1 => (v.moveRow y n).move ((y - 1) * 80 + n) (y * 80 + n)

/-- The rows `1` to `n`, each copied to the row above. -/
def moveRows (v : Video) : Nat → Video
  | 0 => v
  | n + 1 => (v.moveRows n).moveRow (n + 1) 80

/-- The first `n` columns of the last row, blanked. -/
def blankRow (v : Video) : Nat → Video
  | 0 => v
  | n + 1 => (v.blankRow n).store ((25 - 1) * 80 + n) 0x0F20

/-- The first `n` cells, filled with one cell. -/
def fill (v : Video) (cell : UInt16) : Nat → Video
  | 0 => v
  | n + 1 => (v.fill cell n).store n cell

/-- Every access so far was inside the buffer. -/
def InBounds (v : Video) : Prop := ∀ index ∈ v.accesses, 0 ≤ index ∧ index < 2000

variable {v : Video}

theorem store_inBounds {index : Int} (cell : UInt16) (h : v.InBounds) (hlo : 0 ≤ index)
    (hhi : index < 2000) : (v.store index cell).InBounds := by
  intro i hi
  rcases List.mem_cons.mp hi with rfl | hold
  · exact ⟨hlo, hhi⟩
  · exact h i hold

theorem move_inBounds {target source : Int} (h : v.InBounds) (ht : 0 ≤ target ∧ target < 2000)
    (hs : 0 ≤ source ∧ source < 2000) : (v.move target source).InBounds := by
  refine store_inBounds _ ?_ ht.1 ht.2
  intro i hi
  rcases List.mem_cons.mp hi with rfl | hold
  · exact hs
  · exact h i hold

theorem moveRow_inBounds {y : Int} (h : v.InBounds) (hlo : 1 ≤ y) (hhi : y < 25) {n : Nat}
    (hn : n ≤ 80) : (v.moveRow y n).InBounds := by
  induction n with
  | zero => exact h
  | succ n ih => exact move_inBounds (ih (by omega)) (by omega) (by omega)

theorem moveRows_inBounds (h : v.InBounds) {n : Nat} (hn : n < 25) : (v.moveRows n).InBounds := by
  induction n with
  | zero => exact h
  | succ n ih => exact moveRow_inBounds (ih (by omega)) (by omega) (by omega) (Nat.le_refl 80)

theorem blankRow_inBounds (h : v.InBounds) {n : Nat} (hn : n ≤ 80) : (v.blankRow n).InBounds := by
  induction n with
  | zero => exact h
  | succ n ih => exact store_inBounds _ (ih (by omega)) (by omega) (by omega)

theorem fill_inBounds {cell : UInt16} (h : v.InBounds) {n : Nat} (hn : n ≤ 2000) :
    (v.fill cell n).InBounds := by
  induction n with
  | zero => exact h
  | succ n ih => exact store_inBounds _ (ih (by omega)) (by omega) (by omega)

theorem store_cells (index : Int) (cell : UInt16) (i : Int) :
    (v.store index cell).cells i = if i = index then cell else v.cells i :=
  Function.update_apply _ _ _ _

theorem move_cells (target source i : Int) :
    (v.move target source).cells i = if i = target then v.cells source else v.cells i :=
  Function.update_apply _ _ _ _

/-- A row that has been moved up in part. -/
theorem moveRow_cells (y : Int) {n : Nat} (hn : n ≤ 80) (i : Int) :
    (v.moveRow y n).cells i =
      if (y - 1) * 80 ≤ i ∧ i < (y - 1) * 80 + n then v.cells (i + 80) else v.cells i := by
  induction n generalizing i with
  | zero => rw [if_neg (by omega)]; rfl
  | succ n ih =>
    rw [moveRow, move_cells, ih (by omega), ih (by omega)]
    by_cases hi : i = (y - 1) * 80 + n
    · -- the source row lies past every cell moved so far
      rw [if_pos hi, if_neg (by omega), if_pos (by omega)]
      exact congrArg _ (by omega)
    · rw [if_neg hi]
      exact if_congr (by omega) rfl rfl

/-- Once `n` rows have been moved up, the cells above are those of the rows below. -/
theorem moveRows_cells (n : Nat) (i : Int) :
    (v.moveRows n).cells i = if 0 ≤ i ∧ i < 80 * n then v.cells (i + 80) else v.cells i := by
  -- the rows are moved from the top down, each after the row above it
  induction n generalizing i with
  | zero => rw [if_neg (by omega)]; rfl
  | succ n ih =>
    rw [moveRows, moveRow_cells _ (Nat.le_refl 80), ih, ih]
    by_cases hrow : ((n : Int) + 1 - 1) * 80 ≤ i ∧ i < ((n : Int) + 1 - 1) * 80 + (80 : Nat)
    · -- the row just moved was still untouched
      rw [if_pos hrow, if_neg (by omega), if_pos (by omega)]
    · rw [if_neg hrow]
      exact if_congr (by omega) rfl rfl

theorem blankRow_cells {n : Nat} (i : Int) :
    (v.blankRow n).cells i = if 1920 ≤ i ∧ i < 1920 + n then 0x0F20 else v.cells i := by
  induction n with
  | zero => rw [if_neg (by omega)]; rfl
  | succ n ih =>
    rw [blankRow, store_cells, ih]
    by_cases hi : i = (25 - 1) * 80 + n
    · rw [if_pos hi, if_pos (by omega)]
    · rw [if_neg hi]
      exact if_congr (by omega) rfl rfl

theorem fill_cells {cell : UInt16} {n : Nat} (i : Int) :
    (v.fill cell n).cells i = if 0 ≤ i ∧ i < n then cell else v.cells i := by
  induction n with
  | zero => rw [if_neg (by omega)]; rfl
  | succ n ih =>
    rw [fill, store_cells, ih]
    by_cases hi : i = n
    · rw [if_pos hi, if_pos (by omega)]
    · rw [if_neg hi]
      exact if_congr (by omega) rfl rfl

end Video

/-! ## Operations -/

/-- The terminal: `cursor_x`, `cursor_y`, the text buffer, and how many rows have
been scrolled away. -/
structure Terminal where
  cursorX : Int
  cursorY : Int
  video : Video
  scrolled : Nat

/-- The cell of a character. The source keeps characters in a signed `char`, so
one from `0x80` on is extended into the colour byte. -/
def cellOf (color : UInt16) (c : UInt8) : UInt16 := (color <<< 8) ||| c.toInt8.toInt16.toUInt16

/-- The digits of `print_hex_byte` and `print_hex_dword`. -/
def hexDigit (value : UInt32) : UInt8 :=
  ("0123456789ABCDEF".toList.map Char.toUInt8).getD value.toNat 0

/-- The local array of `print_number`: its contents, the next index, and the
indices written so far. -/
structure Digits where
  cells : Nat → UInt8
  next : Nat
  written : List Nat

/-- The first loop of `print_number`, which collects the digits of a value. -/
def Digits.collect (d : Digits) (value : UInt32) : Digits :=
  if value = 0 then d
  else
    Digits.collect ⟨Function.update d.cells d.next (48 + value % 10).toUInt8, d.next + 1,
      d.next :: d.written⟩ (value / 10)
termination_by value.toNat
decreasing_by
  rename_i hvalue
  have hpos : value.toNat ≠ 0 := fun h => hvalue (UInt32.toNat_inj.mp h)
  rw [UInt32.toNat_div]
  exact Nat.div_lt_self (Nat.pos_of_ne_zero hpos) (by decide)

namespace Terminal

/-- `scroll`. -/
def scroll (t : Terminal) : Terminal :=
  if t.cursorY < 25 then t
  else
    { t with cursorY := 25 - 1, video := (t.video.moveRows 24).blankRow 80,
             scrolled := t.scrolled + 1 }

/-- A line feed, before any scrolling. -/
def newline (t : Terminal) : Terminal := { t with cursorX := 0, cursorY := t.cursorY + 1 }

/-- Write a cell at the cursor and advance, before any scrolling. -/
def emit (t : Terminal) (cell : UInt16) : Terminal :=
  let t := { t with video := t.video.store (t.cursorY * 80 + t.cursorX) cell,
                    cursorX := t.cursorX + 1 }
  if 80 ≤ t.cursorX then t.newline else t

/-- `clear`. -/
def clear (t : Terminal) (color : UInt16) : Terminal :=
  { t with video := t.video.fill ((color <<< 12) ||| 0x0020) (80 * 25), cursorX := 0, cursorY := 0 }

/-- `terminal_init`. -/
def terminalInit (t : Terminal) : Terminal := { t with cursorX := 0, cursorY := 0 }.clear 0x00

/-- One turn of the loop of `print`. -/
def printCharacter (t : Terminal) (color : UInt16) (c : UInt8) : Terminal :=
  if c = 10 then t.newline.scroll else (t.emit (cellOf color c)).scroll

/-- The loop of `print` from index `i`, with `n` turns left. -/
def printFrom (text : Buffer) (color : UInt16) (i : Nat) : Nat → Terminal → Terminal
  | 0, t => t
  | n + 1, t =>
    if text i = 0 then t else printFrom text color (i + 1) n (t.printCharacter color (text i))

/-- `print`, which shows at most 100 characters. -/
def print (t : Terminal) (text : Buffer) (color : UInt16) : Terminal :=
  printFrom text color 0 100 t

/-- `backspace`. -/
def backspace (t : Terminal) : Terminal :=
  if 0 < t.cursorX then
    { t with cursorX := t.cursorX - 1,
             video := t.video.store (t.cursorY * 80 + (t.cursorX - 1)) 0x0F20 }
  else t

/-- `putchar`. -/
def putchar (t : Terminal) (c : UInt8) : Terminal :=
  if c = 10 then t.newline.scroll
  else if c = 8 then t.backspace
  else (t.emit (cellOf 0x0F c)).scroll

/-- `print_hex_byte`. -/
def printHexByte (t : Terminal) (value : UInt8) : Terminal :=
  (t.putchar (hexDigit ((value >>> 4) &&& 0xF).toUInt32)).putchar (hexDigit (value &&& 0xF).toUInt32)

/-- The loop of `print_hex_dword` over the `n` lowest digits. -/
def printHexDigits (value : UInt32) : Nat → Terminal → Terminal
  | 0, t => t
  | n + 1, t =>
    printHexDigits value n (t.putchar (hexDigit ((value >>> UInt32.ofNat (4 * n)) &&& 0xF)))

/-- `print_hex_dword`. -/
def printHexDword (t : Terminal) (value : UInt32) : Terminal :=
  printHexDigits value 8 ((t.putchar 48).putchar 120)

/-- The second loop of `print_number`, from index `n` down. -/
def printDigits (digits : Nat → UInt8) : Nat → Terminal → Terminal
  | 0, t => t
  | n + 1, t => printDigits digits n (t.putchar (digits n))

/-- `print_number`, whose local array starts with arbitrary contents. -/
def printNumber (t : Terminal) (garbage : Nat → UInt8) (value : UInt32) : Terminal :=
  if value = 0 then t.putchar 48
  else
    let digits := Digits.collect ⟨garbage, 0, []⟩ value
    printDigits digits.cells digits.next t

end Terminal

/-- The calls of the terminal's interface, with their arguments. -/
inductive TerminalCall
  | print (text : Buffer) (color : UInt16)
  | putchar (c : UInt8)
  | backspace
  | clear (color : UInt16)
  | printHexByte (value : UInt8)
  | printHexDword (value : UInt32)
  | printNumber (garbage : Nat → UInt8) (value : UInt32)

/-- Perform a call. -/
def TerminalCall.perform : TerminalCall → Terminal → Terminal
  | .print text color, t => t.print text color
  | .putchar c, t => t.putchar c
  | .backspace, t => t.backspace
  | .clear color, t => t.clear color
  | .printHexByte value, t => t.printHexByte value
  | .printHexDword value, t => t.printHexDword value
  | .printNumber garbage value, t => t.printNumber garbage value

/-- Perform a sequence of calls after `terminal_init`. -/
def terminalRun (t : Terminal) (calls : List TerminalCall) : Terminal :=
  calls.foldl (fun t call => call.perform t) t.terminalInit

/-! ## Invariants

Every operation is made of four: a line feed, a character at the cursor, a
backspace and a cleared screen. What these keep, any sequence of calls keeps. -/

namespace Terminal

/-- A property that the four basic operations keep. -/
structure Invariant (P : Terminal → Prop) : Prop where
  newline : ∀ {t : Terminal}, P t → P t.newline.scroll
  emit : ∀ {t : Terminal} (cell : UInt16), P t → P (t.emit cell).scroll
  backspace : ∀ {t : Terminal}, P t → P t.backspace
  clear : ∀ {t : Terminal} (color : UInt16), P t → P (t.clear color)

namespace Invariant

variable {P : Terminal → Prop} (hP : Invariant P) {t : Terminal}

include hP

theorem putchar (h : P t) (c : UInt8) : P (t.putchar c) := by
  unfold Terminal.putchar
  split_ifs
  · exact hP.newline h
  · exact hP.backspace h
  · exact hP.emit _ h

theorem printFrom (h : P t) (text : Buffer) (color : UInt16) (i n : Nat) :
    P (printFrom text color i n t) := by
  induction n generalizing t i with
  | zero => exact h
  | succ n ih =>
    -- the loop stops at the terminator or shows one more character
    rw [Terminal.printFrom]
    split_ifs
    · exact h
    · apply ih
      unfold Terminal.printCharacter
      split_ifs
      · exact hP.newline h
      · exact hP.emit _ h

theorem printHexDigits (h : P t) (value : UInt32) (n : Nat) : P (printHexDigits value n t) := by
  induction n generalizing t with
  | zero => exact h
  | succ n ih => exact ih (hP.putchar h _)

theorem printDigits (h : P t) (digits : Nat → UInt8) (n : Nat) : P (printDigits digits n t) := by
  induction n generalizing t with
  | zero => exact h
  | succ n ih => exact ih (hP.putchar h _)

theorem perform (h : P t) (call : TerminalCall) : P (call.perform t) := by
  cases call with
  | print text color => exact hP.printFrom h text color 0 100
  | putchar c => exact hP.putchar h c
  | backspace => exact hP.backspace h
  | clear color => exact hP.clear color h
  | printHexByte value => exact hP.putchar (hP.putchar h _) _
  | printHexDword value => exact hP.printHexDigits (hP.putchar (hP.putchar h _) _) value 8
  | printNumber garbage value =>
    change P (t.printNumber garbage value)
    unfold Terminal.printNumber
    split_ifs
    · exact hP.putchar h 48
    · exact hP.printDigits h _ _

/-- What holds after `terminal_init` and is kept holds after any calls. -/
theorem run (h : P t.terminalInit) (calls : List TerminalCall) : P (terminalRun t calls) := by
  refine List.foldlRecOn calls _ (motive := P) h ?_
  intro t ht call _
  exact hP.perform ht call

end Invariant

end Terminal

/-! ## Bounds -/

namespace Terminal

/-- What holds of the terminal before it scrolls: the cursor may have just left the
last row. -/
structure Pending (t : Terminal) : Prop where
  left : 0 ≤ t.cursorX
  right : t.cursorX < 80
  top : 0 ≤ t.cursorY
  bottom : t.cursorY ≤ 25
  accesses : t.video.InBounds

/-- What holds of the terminal between calls: the cursor is on the screen, and so
was every access. -/
structure OnScreen (t : Terminal) : Prop extends Pending t where
  row : t.cursorY < 25

variable {t : Terminal}

theorem Pending.scroll (h : t.Pending) : t.scroll.OnScreen := by
  unfold Terminal.scroll
  split_ifs with hrow
  · exact ⟨h, hrow⟩
  · -- the cursor has left the last row: the rows move up and it returns to that row
    have hmoved := Video.moveRows_inBounds h.accesses (n := 24) (by decide)
    exact ⟨⟨h.left, h.right, by simp, by simp, Video.blankRow_inBounds hmoved (Nat.le_refl 80)⟩,
      by simp⟩

theorem OnScreen.newline (h : t.OnScreen) : t.newline.Pending :=
  ⟨Int.le_refl 0, by simp [Terminal.newline], Int.add_nonneg h.top (by simp),
    Int.add_one_le_iff.mpr h.row, h.accesses⟩

theorem OnScreen.cursor_bounds (h : t.OnScreen) :
    0 ≤ t.cursorY * 80 + t.cursorX ∧ t.cursorY * 80 + t.cursorX < 2000 := by
  obtain ⟨⟨hleft, hright, htop, _, _⟩, hrow⟩ := h
  omega

theorem OnScreen.emit (h : t.OnScreen) (cell : UInt16) : (t.emit cell).Pending := by
  have hvideo := Video.store_inBounds cell h.accesses h.cursor_bounds.1 h.cursor_bounds.2
  obtain ⟨⟨hleft, hright, htop, hbottom, _⟩, hrow⟩ := h
  rw [Terminal.emit]
  -- past the last column the cursor goes to the next row, perhaps below the screen
  split_ifs with hwrap
  · exact ⟨Int.le_refl 0, by simp [Terminal.newline], by simp [Terminal.newline]; omega,
      by simp [Terminal.newline]; omega, hvideo⟩
  · exact ⟨by simp; omega, by simp at hwrap ⊢; omega, htop, hbottom, hvideo⟩

theorem OnScreen.backspace (h : t.OnScreen) : t.backspace.OnScreen := by
  have hcursor := h.cursor_bounds
  unfold Terminal.backspace
  split_ifs with hcolumn
  · have hvideo : (t.video.store (t.cursorY * 80 + (t.cursorX - 1)) 0x0F20).InBounds :=
      Video.store_inBounds _ h.accesses (by have := h.top; omega) (by omega)
    exact ⟨⟨by simp; omega, by have := h.right; simp; omega, h.top, h.bottom, hvideo⟩, h.row⟩
  · exact h

/-- Clearing the screen needs nothing of the cursor. -/
theorem clear_onScreen (h : t.video.InBounds) (color : UInt16) : (t.clear color).OnScreen :=
  ⟨⟨Int.le_refl 0, by simp [clear], Int.le_refl 0, by simp [clear],
    Video.fill_inBounds h (Nat.le_refl 2000)⟩, by simp [clear]⟩

theorem onScreen_invariant : Invariant OnScreen where
  newline h := h.newline.scroll
  emit cell h := (h.emit cell).scroll
  backspace h := h.backspace
  clear color h := clear_onScreen h.accesses color

end Terminal

/-! ## What the screen shows -/

/-- The character of a cell. -/
def characterOf (cell : UInt16) : UInt8 := cell.toUInt8

/-- A cell shows the character it was made for, whatever its colour byte became. -/
@[simp] theorem characterOf_cellOf (color : UInt16) (c : UInt8) :
    characterOf (cellOf color c) = c := by
  have hcolor : (color <<< 8).toUInt8 = 0 := by
    apply UInt8.toNat_inj.mp
    simp [UInt16.toNat_toUInt8, UInt16.toNat_shiftLeft, Nat.shiftLeft_eq]
  -- the sign extension only reaches the colour byte
  have hextended : c.toInt8.toInt16.toUInt16.toUInt8 = c := by
    apply UInt8.eq_of_toBitVec_eq
    change (c.toBitVec.signExtend 16).setWidth 8 = c.toBitVec
    ext i hi
    simp [Nat.lt_trans hi (by decide : 8 < 16), BitVec.getElem_signExtend, hi]
  rw [characterOf, cellOf, UInt16.toUInt8_or, hcolor, hextended, UInt8.zero_or]

theorem characterOf_cleared (color : UInt16) : characterOf ((color <<< 12) ||| 0x0020) = 32 := by
  have hcolor : (color <<< 12).toUInt8 = 0 := by
    apply UInt8.toNat_inj.mp
    simp [UInt16.toNat_toUInt8, UInt16.toNat_shiftLeft, Nat.shiftLeft_eq]
    omega
  rw [characterOf, UInt16.toUInt8_or, hcolor]
  rfl

namespace Terminal

/-- The index of the cursor's cell. -/
def cursor (t : Terminal) : Int := t.cursorY * 80 + t.cursorX

/-- The text counted from the first row ever shown: the rows scrolled away come
before those on the screen. -/
def shown (t : Terminal) (k : Int) : UInt16 := t.video.cells (k - 80 * t.scrolled)

/-- The cursor's place in the text. -/
def position (t : Terminal) : Int := t.cursor + 80 * t.scrolled

/-- The screen is blank from the cursor on. -/
def Fresh (t : Terminal) : Prop :=
  ∀ i, t.cursor ≤ i → i < 2000 → characterOf (t.video.cells i) = 32

variable {t : Terminal}

/-- Scrolling moves every row up by one and blanks the last. -/
theorem scroll_cells (v : Video) (i : Int) :
    ((v.moveRows 24).blankRow 80).cells i =
      if 1920 ≤ i ∧ i < 2000 then 0x0F20
      else if 0 ≤ i ∧ i < 1920 then v.cells (i + 80) else v.cells i := by
  rw [Video.blankRow_cells, Video.moveRows_cells]
  exact if_congr (by omega) rfl (if_congr (by omega) rfl rfl)

/-- A character is written at the cursor, which then moves on by one cell; past the
last cell of the screen the rows move up instead. -/
theorem OnScreen.emit_cases (h : t.OnScreen) (cell : UInt16) :
    (t.cursor < 1999 ∧ (t.emit cell).scroll.cursor = t.cursor + 1 ∧
        (t.emit cell).scroll.video = t.video.store t.cursor cell ∧
        (t.emit cell).scroll.scrolled = t.scrolled) ∨
      (t.cursor = 1999 ∧ (t.emit cell).scroll.cursor = 1920 ∧
        (t.emit cell).scroll.video = ((t.video.store t.cursor cell).moveRows 24).blankRow 80 ∧
        (t.emit cell).scroll.scrolled = t.scrolled + 1) := by
  obtain ⟨⟨hleft, hright, htop, _, _⟩, hrow⟩ := h
  unfold Terminal.emit Terminal.scroll Terminal.newline Terminal.cursor
  -- the last column wraps, and in the last row the screen scrolls
  by_cases hwrap : 80 ≤ t.cursorX + 1
  · by_cases hlast : t.cursorY + 1 < 25
    · simp only [hwrap, hlast, if_true]
      exact Or.inl ⟨by omega, by omega, trivial, trivial⟩
    · simp only [hwrap, hlast, if_true, if_false]
      exact Or.inr ⟨by omega, by omega, trivial, trivial⟩
  · simp only [hwrap, hrow, if_true, if_false]
    exact Or.inl ⟨by omega, by omega, trivial, trivial⟩

/-- A line feed moves the cursor forward and changes no cell, unless it is on the
last row. -/
theorem OnScreen.newline_cases (h : t.OnScreen) :
    (t.cursor ≤ t.newline.scroll.cursor ∧ t.newline.scroll.video = t.video) ∨
      (t.newline.scroll.cursor = 1920 ∧
        t.newline.scroll.video = (t.video.moveRows 24).blankRow 80) := by
  obtain ⟨⟨hleft, hright, htop, _, _⟩, hrow⟩ := h
  unfold Terminal.scroll Terminal.newline Terminal.cursor
  by_cases hlast : t.cursorY + 1 < 25
  · simp only [hlast, if_true]
    exact Or.inl ⟨by omega, trivial⟩
  · simp only [hlast, if_false]
    exact Or.inr ⟨by omega, trivial⟩

/-! ### The text -/

theorem OnScreen.emit_position (h : t.OnScreen) (cell : UInt16) :
    (t.emit cell).scroll.position = t.position + 1 := by
  unfold position
  rcases h.emit_cases cell with ⟨_, hcursor, _, hscrolled⟩ | ⟨_, hcursor, _, hscrolled⟩
  · rw [hcursor, hscrolled]
    omega
  · rw [hcursor, hscrolled]
    omega

/-- A row leaves the screen only from the last cell of the last row. -/
theorem OnScreen.emit_scrolled (h : t.OnScreen) (cell : UInt16) :
    (t.emit cell).scroll.scrolled = t.scrolled ∨
      80 * ((t.emit cell).scroll.scrolled : Int) + 1919 = t.position := by
  unfold position
  rcases h.emit_cases cell with ⟨_, _, _, hscrolled⟩ | ⟨hcursor, _, _, hscrolled⟩
  · exact Or.inl hscrolled
  · rw [hscrolled]
    exact Or.inr (by omega)

/-- A character is written at the cursor's place in the text; every other place stays as it
was, as far as it is still on the screen. -/
theorem OnScreen.emit_shown (h : t.OnScreen) (cell : UInt16) {k : Int}
    (hvisible : 80 * ((t.emit cell).scroll.scrolled : Int) ≤ k)
    (hk : k < 80 * (t.scrolled : Int) + 2000) :
    (t.emit cell).scroll.shown k = if k = t.position then cell else t.shown k := by
  unfold position
  unfold shown
  rcases h.emit_cases cell with ⟨_, _, hvideo, hscrolled⟩ | ⟨_, _, hvideo, hscrolled⟩
  · rw [hvideo, hscrolled, Video.store_cells]
    exact if_congr (by omega) rfl rfl
  · -- one row up on the screen, and one more row scrolled away: the same place in the text
    rw [hscrolled] at hvisible
    rw [hvideo, hscrolled, scroll_cells, if_neg (by omega), if_pos (by omega), Video.store_cells,
      show k - 80 * ((t.scrolled + 1 : Nat) : Int) + 80 = k - 80 * t.scrolled by omega]
    exact if_congr (by omega) rfl rfl

/-- A backspace takes the last cell of the text back, unless it is at the start of a
row. -/
theorem backspace_shown (hcolumn : 0 < t.cursorX) :
    t.backspace.position = t.position - 1 ∧ t.backspace.scrolled = t.scrolled ∧
      ∀ k, t.backspace.shown k = if k = t.position - 1 then 0x0F20 else t.shown k := by
  unfold backspace position shown cursor
  rw [if_pos hcolumn]
  refine ⟨by simp only; omega, rfl, ?_⟩
  intro k
  rw [Video.store_cells]
  exact if_congr (by simp only; omega) rfl rfl

theorem backspace_of_start (hcolumn : t.cursorX = 0) : t.backspace = t := by
  rw [backspace, if_neg (by omega)]

/-! ### The blank end of the screen -/

theorem Fresh.of_scrolled {v : Video} (hcursor : t.cursor = 1920)
    (hvideo : t.video = (v.moveRows 24).blankRow 80) : t.Fresh := by
  intro i hlo hhi
  rw [hvideo, scroll_cells, if_pos (by omega)]
  rfl

theorem Fresh.shown_position (hon : t.OnScreen) (h : t.Fresh) :
    characterOf (t.shown t.position) = 32 := by
  have hbound := hon.cursor_bounds
  rw [shown, position, Int.add_sub_cancel]
  exact h t.cursor (Int.le_refl _) hbound.2

theorem Fresh.newline (hon : t.OnScreen) (h : t.Fresh) : t.newline.scroll.Fresh := by
  rcases hon.newline_cases with ⟨hcursor, hvideo⟩ | ⟨hcursor, hvideo⟩
  · intro i hlo hhi
    rw [hvideo]
    exact h i (by omega) hhi
  · exact Fresh.of_scrolled hcursor hvideo

theorem Fresh.emit (hon : t.OnScreen) (h : t.Fresh) (cell : UInt16) :
    (t.emit cell).scroll.Fresh := by
  rcases hon.emit_cases cell with ⟨_, hcursor, hvideo, _⟩ | ⟨_, hcursor, hvideo, _⟩
  · intro i hlo hhi
    rw [hvideo, Video.store_cells, if_neg (by omega)]
    exact h i (by omega) hhi
  · exact Fresh.of_scrolled hcursor hvideo

theorem Fresh.backspace (h : t.Fresh) : t.backspace.Fresh := by
  unfold Terminal.backspace
  split_ifs with hcolumn
  · intro i hlo hhi
    rw [Video.store_cells]
    -- the cell taken back is blank, and those behind it already were
    split_ifs with hi
    · rfl
    · exact h i (by simp only [Terminal.cursor] at hlo ⊢; omega) hhi
  · exact h

theorem clear_fresh (t : Terminal) (color : UInt16) : (t.clear color).Fresh := by
  intro i hlo hhi
  have hfirst : 0 ≤ i := hlo
  rw [Terminal.clear, Video.fill_cells, if_pos ⟨hfirst, hhi⟩]
  exact characterOf_cleared color

/-- Whatever is printed, the rest of the screen stays blank. -/
theorem fresh_invariant : Invariant (fun t => t.OnScreen ∧ t.Fresh) where
  newline h := ⟨h.1.newline.scroll, h.2.newline h.1⟩
  emit cell h := ⟨(h.1.emit cell).scroll, h.2.emit h.1 cell⟩
  backspace h := ⟨h.1.backspace, h.2.backspace⟩
  clear color h := ⟨clear_onScreen h.1.accesses color, clear_fresh _ color⟩

end Terminal

/-- A value below `10 ^ n` has at most `n` digits. -/
theorem Digits.collect_written {value : UInt32} {n : Nat} (hvalue : value.toNat < 10 ^ n)
    (d : Digits) :
    ∀ i ∈ (d.collect value).written, i ∈ d.written ∨ i < d.next + n := by
  induction n generalizing value d with
  | zero =>
    have hzero : value = 0 := UInt32.toNat_inj.mp (by simpa using hvalue)
    rw [Digits.collect, if_pos hzero]
    exact fun i hi => Or.inl hi
  | succ n ih =>
    rw [Digits.collect]
    split_ifs with hzero
    · exact fun i hi => Or.inl hi
    · intro i hi
      -- one digit less is left of the value
      have hdiv : (value / 10).toNat < 10 ^ n := by
        rw [UInt32.toNat_div]
        apply Nat.div_lt_of_lt_mul
        change value.toNat < 10 * 10 ^ n
        rwa [← Nat.pow_succ']
      rcases ih hdiv _ i hi with hold | hnew
      · rcases List.mem_cons.mp hold with rfl | hearlier
        · exact Or.inr (by omega)
        · exact Or.inl hearlier
      · exact Or.inr (by simp only at hnew; omega)

/-- The terminal stays within its bounds: after `terminal_init` and any sequence of
calls the cursor is on the screen, every cell read or written so far belongs to it,
and no number needs more than the ten digits there is room for. -/
theorem terminal_bounds (x y : Int) (cells : Int → UInt16) (scrolled : Nat)
    (calls : List TerminalCall) :
    let t := terminalRun ⟨x, y, ⟨cells, []⟩, scrolled⟩ calls
    (0 ≤ t.cursorX ∧ t.cursorX < 80) ∧ (0 ≤ t.cursorY ∧ t.cursorY < 25) ∧
      (∀ index ∈ t.video.accesses, 0 ≤ index ∧ index < 2000) ∧
      ∀ (garbage : Nat → UInt8) (value : UInt32),
        ∀ i ∈ (Digits.collect ⟨garbage, 0, []⟩ value).written, i ≤ 9 := by
  intro t
  have hinit : (Terminal.terminalInit ⟨x, y, ⟨cells, []⟩, scrolled⟩).OnScreen :=
    Terminal.clear_onScreen (fun _ h => absurd h List.not_mem_nil) 0x00
  have ht : t.OnScreen := Terminal.onScreen_invariant.run hinit calls
  refine ⟨⟨ht.left, ht.right⟩, ⟨ht.top, ht.row⟩, ht.accesses, ?_⟩
  intro garbage value i hi
  -- ten digits are enough for 32 bits
  have hvalue : value.toNat < 10 ^ 10 := value.toNat_lt.trans (by decide)
  rcases Digits.collect_written hvalue _ i hi with hnone | hlt
  · exact absurd hnone List.not_mem_nil
  · exact Nat.le_of_lt_succ (by simpa using hlt)

end LevOS.Drivers
