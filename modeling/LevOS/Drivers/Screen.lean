import LevOS.Drivers.Layout
import Mathlib.Data.List.Induction
import Mathlib.Tactic.Ring

/-!
# The screen after any calls

What the screen shows follows from the rows of text alone, whatever calls of the terminal
the text comes from: every call, a backspace and a cleared screen among them, does to the
screen what it does to the rows. Numbers appear as their usual numerals, decimal or
hexadecimal, and can be read back from the cells they stand in.

## Main definitions

* `TerminalCall.onRows`, what a call does to the rows
* `decimal`, `hexadecimal`, `IsDigit`, `readNumeral`
* `Terminal.textAt`, the characters in a part of the screen

## Main results

* `terminal_shows_rows`
* `numbers_read_back`
-/

namespace LevOS.Drivers

/-! ## Numerals -/

/-- The decimal numeral of a number. -/
def decimal (n : Nat) : List UInt8 := (toString n).toList.map Char.toUInt8

/-- The hexadecimal numeral of a number, with as many digits as asked for. -/
def hexadecimal (n : Nat) : Nat → List UInt8
  | 0 => []
  | width + 1 => hexDigit (UInt32.ofNat (n / 16 ^ width % 16)) :: hexadecimal n width

/-- The value of a digit. -/
def digitValue (c : UInt8) : Nat := if c < 58 then c.toNat - 48 else c.toNat - 55

/-- A digit of a base up to sixteen, a figure or a capital letter. -/
def IsDigit (base : Nat) (c : UInt8) : Prop :=
  (48 ≤ c ∧ c < 58 ∨ 65 ≤ c ∧ c < 71) ∧ digitValue c < base

instance (base : Nat) (c : UInt8) : Decidable (IsDigit base c) := inferInstanceAs (Decidable (_ ∧ _))

/-- The value of a numeral. -/
def readNumeral (base : Nat) (text : List UInt8) : Nat :=
  text.foldl (fun value c => value * base + digitValue c) 0

theorem decimal_of_lt {n : Nat} (h : n < 10) : decimal n = [n.digitChar.toUInt8] := by
  rw [decimal, Nat.toString_eq_repr, Nat.toList_repr, Nat.toDigits_of_lt_base h]
  rfl

theorem decimal_of_ge {n : Nat} (h : 10 ≤ n) :
    decimal n = decimal (n / 10) ++ [(n % 10).digitChar.toUInt8] := by
  simp only [decimal, Nat.toString_eq_repr, Nat.toList_repr]
  rw [Nat.toDigits_of_base_le (by decide) h, List.map_append]
  rfl

@[simp] theorem length_hexadecimal (n width : Nat) : (hexadecimal n width).length = width := by
  induction width with
  | zero => rfl
  | succ width ih => rw [hexadecimal, List.length_cons, ih]

theorem digitValue_digitChar {k : Nat} (h : k < 10) : digitValue k.digitChar.toUInt8 = k := by
  revert k
  decide

theorem digitValue_hexDigit {k : Nat} (h : k < 16) : digitValue (hexDigit (UInt32.ofNat k)) = k := by
  revert k
  decide

theorem readNumeral_append (base : Nat) (text : List UInt8) (c : UInt8) :
    readNumeral base (text ++ [c]) = readNumeral base text * base + digitValue c :=
  List.foldl_append

theorem readNumeral_cons (base : Nat) (c : UInt8) (text : List UInt8) :
    readNumeral base (c :: text) = digitValue c * base ^ text.length + readNumeral base text := by
  -- from the last digit to the first
  induction text using List.reverseRecOn with
  | nil => simp [readNumeral]
  | append_singleton text d ih =>
    rw [← List.cons_append, readNumeral_append, ih, readNumeral_append, List.length_append,
      List.length_singleton]
    ring

theorem readNumeral_decimal (n : Nat) : readNumeral 10 (decimal n) = n := by
  induction n using Nat.strongRecOn with
  | ind n ih =>
    rcases Nat.lt_or_ge n 10 with hlt | hge
    · rw [decimal_of_lt hlt, readNumeral, List.foldl_cons, List.foldl_nil, digitValue_digitChar hlt]
      omega
    · rw [decimal_of_ge hge, readNumeral_append, ih (n / 10) (by omega),
        digitValue_digitChar (Nat.mod_lt n (by decide))]
      omega

theorem readNumeral_hexadecimal (n width : Nat) :
    readNumeral 16 (hexadecimal n width) = n % 16 ^ width := by
  induction width with
  | zero => simp [hexadecimal, readNumeral, Nat.mod_one]
  | succ width ih =>
    rw [hexadecimal, readNumeral_cons, ih, digitValue_hexDigit (Nat.mod_lt _ (by decide)),
      length_hexadecimal, Nat.mod_pow_succ]
    ring

theorem decimal_ne_nil (n : Nat) : decimal n ≠ [] := by
  rcases Nat.lt_or_ge n 10 with hlt | hge
  · rw [decimal_of_lt hlt]
    exact List.cons_ne_nil _ _
  · rw [decimal_of_ge hge]
    simp

/-- Only the numeral of zero starts with a zero. -/
theorem head?_decimal {n : Nat} (h : n ≠ 0) : (decimal n).head? ≠ some 48 := by
  induction n using Nat.strongRecOn with
  | ind n ih =>
    rcases Nat.lt_or_ge n 10 with hlt | hge
    · rw [decimal_of_lt hlt]
      revert h
      clear ih
      revert n
      decide
    · have hfirst := ih (n / 10) (by omega) (by omega)
      rw [decimal_of_ge hge, List.head?_append]
      cases hhead : (decimal (n / 10)).head? with
      | none =>
        -- there is always a digit
        rw [List.head?_eq_none_iff] at hhead
        exact absurd hhead (decimal_ne_nil _)
      | some c => rwa [hhead] at hfirst

theorem length_decimal_le {n k : Nat} (hk : 0 < k) : (decimal n).length ≤ k ↔ n < 10 ^ k := by
  rw [decimal, List.length_map, Nat.toString_eq_repr, String.length_toList,
    Nat.length_repr_le_iff hk]

theorem isDigit_decimal (n : Nat) : ∀ c ∈ decimal n, IsDigit 10 c := by
  induction n using Nat.strongRecOn with
  | ind n ih =>
    have hdigit {k : Nat} (hk : k < 10) : IsDigit 10 k.digitChar.toUInt8 := by
      revert k
      decide
    rcases Nat.lt_or_ge n 10 with hlt | hge
    · rw [decimal_of_lt hlt]
      intro c hc
      rw [List.mem_singleton.mp hc]
      exact hdigit hlt
    · rw [decimal_of_ge hge]
      intro c hc
      rcases List.mem_append.mp hc with hold | hlast
      · exact ih (n / 10) (by omega) c hold
      · rw [List.mem_singleton.mp hlast]
        exact hdigit (Nat.mod_lt n (by decide))

theorem isDigit_hexadecimal (n width : Nat) : ∀ c ∈ hexadecimal n width, IsDigit 16 c := by
  have hdigit {k : Nat} (hk : k < 16) : IsDigit 16 (hexDigit (UInt32.ofNat k)) := by
    revert k
    decide
  induction width with
  | zero => exact fun c hc => absurd hc List.not_mem_nil
  | succ width ih =>
    intro c hc
    rcases List.mem_cons.mp hc with rfl | hrest
    · exact hdigit (Nat.mod_lt _ (by decide))
    · exact ih c hrest

/-- Digits are no control characters. -/
theorem IsDigit.le {base : Nat} {c : UInt8} (h : IsDigit base c) : 48 ≤ c := by
  rcases h.1 with ⟨hfigure, -⟩ | ⟨hletter, -⟩
  · exact hfigure
  · exact UInt8.le_trans (by decide) hletter

theorem le_of_mem_decimal (n : Nat) : ∀ c ∈ decimal n, 48 ≤ c :=
  fun c hc => (isDigit_decimal n c hc).le

theorem le_of_mem_hexadecimal (n width : Nat) : ∀ c ∈ hexadecimal n width, 48 ≤ c :=
  fun c hc => (isDigit_hexadecimal n width c hc).le

/-- What `print_hex_dword` shows. -/
def dword (value : UInt32) : List UInt8 := 48 :: 120 :: hexadecimal value.toNat 8

@[simp] theorem length_dword (value : UInt32) : (dword value).length = 10 := by
  rw [dword, List.length_cons, List.length_cons, length_hexadecimal]

theorem le_of_mem_dword (value : UInt32) : ∀ c ∈ dword value, 48 ≤ c := by
  intro c hc
  rcases List.mem_cons.mp hc with rfl | hc
  · decide
  rcases List.mem_cons.mp hc with rfl | hc
  · decide
  · exact le_of_mem_hexadecimal _ 8 c hc

/-! ## Rows -/

namespace Rows

/-- Take the last character of the current row back, if there is one. -/
def erase (r : Rows) : Rows := ⟨r.done, r.current.dropLast⟩

/-- A character typed at the end of the text. -/
def type (r : Rows) (c : UInt8) : Rows := if c = 8 then r.erase else r.place c

end Rows

/-- What a call does to the rows. -/
def TerminalCall.onRows : TerminalCall → Rows → Rows
  -- `print` gives control characters other than a line feed no meaning
  | .print text _, r => (charactersFrom text 0 100).foldl Rows.place r
  | .putchar c, r => r.type c
  | .backspace, r => r.erase
  | .clear _, _ => ⟨[], []⟩
  | .printHexByte value, r => (hexadecimal value.toNat 2).foldl Rows.place r
  | .printHexDword value, r => (dword value).foldl Rows.place r
  | .printNumber _ value, r => (decimal value.toNat).foldl Rows.place r

/-! ## The digits the source computes -/

/-- The first `n` characters of an array, the last of them first. -/
def reversed (characters : Nat → UInt8) : Nat → List UInt8
  | 0 => []
  | n + 1 => characters n :: reversed characters n

theorem reversed_congr {f g : Nat → UInt8} {n : Nat} (h : ∀ i < n, f i = g i) :
    reversed f n = reversed g n := by
  induction n with
  | zero => rfl
  | succ n ih =>
    rw [reversed, reversed, h n (Nat.lt_succ_self n), ih fun i hi => h i (Nat.lt_succ_of_lt hi)]

theorem toUInt8_digit (value : UInt32) :
    (48 + value % 10).toUInt8 = (value.toNat % 10).digitChar.toUInt8 := by
  have hdigit : ∀ k < 10, (48 + UInt32.ofNat k).toUInt8 = k.digitChar.toUInt8 := by decide
  rw [← hdigit _ (Nat.mod_lt _ (by decide))]
  congr 2
  apply UInt32.toNat_inj.mp
  have hlt : value.toNat % 10 < 2 ^ 32 := (Nat.mod_lt _ (by decide)).trans (by decide)
  rw [UInt32.toNat_mod, UInt32.toNat_ofNat', Nat.mod_eq_of_lt (b := 2 ^ 32) hlt]
  rfl

/-- The digits are collected from the last to the first. -/
theorem Digits.reversed_collect {value : UInt32} (hvalue : value ≠ 0) (d : Digits) :
    reversed (d.collect value).cells (d.collect value).next =
      decimal value.toNat ++ reversed d.cells d.next := by
  induction hn : value.toNat using Nat.strongRecOn generalizing value d with
  | ind n ih =>
    subst hn
    rw [Digits.collect, if_neg hvalue]
    -- the digit just written comes before those written so far
    have hnext : reversed (Function.update d.cells d.next (48 + value % 10).toUInt8) (d.next + 1) =
        (value.toNat % 10).digitChar.toUInt8 :: reversed d.cells d.next := by
      rw [reversed, Function.update_self, toUInt8_digit,
        reversed_congr fun i hi => Function.update_of_ne hi.ne _ _]
    have hdiv : (value / 10).toNat = value.toNat / 10 := UInt32.toNat_div _ _
    rcases Nat.lt_or_ge value.toNat 10 with hlt | hge
    · have hzero : value / 10 = 0 :=
        UInt32.toNat_inj.mp (hdiv.trans (Nat.div_eq_of_lt hlt))
      rw [hzero, Digits.collect, if_pos rfl, hnext, decimal_of_lt hlt, Nat.mod_eq_of_lt hlt]
      rfl
    · have hleft : value / 10 ≠ 0 := by
        intro hzero
        rw [hzero] at hdiv
        have hnone : (0 : Nat) = value.toNat / 10 := hdiv
        omega
      rw [ih (value.toNat / 10) (by omega) hleft _ hdiv, hnext, decimal_of_ge hge,
        List.append_assoc]
      rfl

theorem hexDigitAt_eq (value : UInt32) {n : Nat} (hn : n < 8) :
    hexDigitAt value n = hexDigit (UInt32.ofNat (value.toNat / 16 ^ n % 16)) := by
  rw [hexDigitAt]
  congr 1
  apply UInt32.toNat_inj.mp
  have hshift : (UInt32.ofNat (4 * n)).toNat % 32 = 4 * n := by
    rw [UInt32.toNat_ofNat', Nat.mod_eq_of_lt (by omega), Nat.mod_eq_of_lt (by omega)]
  have hmask : (0xF : UInt32).toNat = 2 ^ 4 - 1 := rfl
  rw [UInt32.toNat_and, UInt32.toNat_shiftRight, hshift, hmask, Nat.and_two_pow_sub_one_eq_mod,
    Nat.shiftRight_eq_div_pow, UInt32.toNat_ofNat', Nat.mod_eq_of_lt (b := 2 ^ 32) (by omega),
    Nat.pow_mul]

theorem reversed_hexDigitAt (value : UInt32) {n : Nat} (hn : n ≤ 8) :
    reversed (hexDigitAt value) n = hexadecimal value.toNat n := by
  induction n with
  | zero => rfl
  | succ n ih => rw [reversed, hexadecimal, hexDigitAt_eq value hn, ih (Nat.le_of_succ_le hn)]

/-- The two digits of a byte. -/
theorem hexadecimal_byte (value : UInt8) :
    hexadecimal value.toNat 2 =
      [hexDigit ((value >>> 4) &&& 0xF).toUInt32, hexDigit (value &&& 0xF).toUInt32] := by
  have hall : ∀ k < 256, hexadecimal k 2 =
      [hexDigit ((UInt8.ofNat k >>> 4) &&& 0xF).toUInt32, hexDigit (UInt8.ofNat k &&& 0xF).toUInt32] := by
    decide +kernel
  have hvalue := hall value.toNat value.toNat_lt
  rwa [UInt8.ofNat_toNat] at hvalue

/-! ## Calls -/

namespace Terminal

variable {t : Terminal} {r : Rows}

theorem ShowsText.backspace (h : t.ShowsText r) : t.backspace.ShowsText r.erase := by
  have hroom := h.room
  obtain ⟨hcolumn, hrow, hfits, hcells⟩ := h.toShows
  rcases List.eq_nil_or_concat r.current with hnil | ⟨row, c, hlast⟩
  · -- at the start of a row nothing happens
    have hsame : r.erase = r := by rw [Rows.erase, hnil, List.dropLast_nil, ← hnil]
    rw [hsame, backspace_of_start (by rw [hcolumn, hnil]; rfl)]
    exact h
  · have herase : r.erase = ⟨r.done, row⟩ := by
      rw [Rows.erase, hlast, List.concat_eq_append, List.dropLast_concat]
    have hwrite : r = Rows.write ⟨r.done, row⟩ c := by
      rw [Rows.write, ← List.concat_eq_append, ← hlast]
    have hlength : r.current.length = row.length + 1 := by rw [hlast, List.length_concat]
    rw [herase, Terminal.backspace, if_pos (by omega)]
    refine ⟨⟨by simp only; omega, hrow, by simp only; omega, fun y x hy hx => ?_⟩, by simp only; omega⟩
    have hold := hcells y x hy hx
    rw [hwrite, Rows.character_eq, Rows.getD_all_write] at hold
    rw [Video.store_cells, Rows.character_eq]
    simp only at hold ⊢
    have hdone : (Rows.write ⟨r.done, row⟩ c).done = r.done := rfl
    rw [hdone] at hold
    by_cases hline : r.done.length - 24 + y = r.done.length
    · rw [if_pos hline, Rows.getD_append_singleton] at hold
      have hcurrent : (Rows.all ⟨r.done, row⟩).getD r.done.length [] = row := by simp [Rows.all]
      rw [hline, hcurrent]
      -- the character taken back was the last of its row
      by_cases hend : x = row.length
      · rw [if_pos (by omega), hend, List.getD_eq_default _ _ (Nat.le_refl _)]
        rfl
      · rw [if_neg (by omega)]
        rwa [if_neg hend] at hold
    · rw [if_neg (by omega)]
      rwa [if_neg hline] at hold

theorem ShowsText.type (h : t.ShowsText r) (c : UInt8) : (t.putchar c).ShowsText (r.type c) := by
  rw [Rows.type]
  split_ifs with hbackspace
  · rw [hbackspace]
    exact h.backspace
  · exact h.putchar hbackspace

theorem ShowsText.foldl_putchar (h : t.ShowsText r) {text : List UInt8}
    (htext : ∀ c ∈ text, 48 ≤ c) :
    (text.foldl Terminal.putchar t).ShowsText (text.foldl Rows.place r) := by
  induction text generalizing t r with
  | nil => exact h
  | cons c text ih =>
    have hbackspace : c ≠ 8 := by
      rintro rfl
      exact absurd (htext 8 List.mem_cons_self) (by decide)
    exact ih (h.putchar hbackspace) fun d hd => htext d (List.mem_cons_of_mem _ hd)

theorem printDigits_eq_foldl (digits : Nat → UInt8) (n : Nat) (t : Terminal) :
    printDigits digits n t = (reversed digits n).foldl putchar t := by
  induction n generalizing t with
  | zero => rfl
  | succ n ih => exact ih _

theorem printHexDigits_eq_foldl (value : UInt32) (n : Nat) (t : Terminal) :
    printHexDigits value n t = (reversed (hexDigitAt value) n).foldl putchar t := by
  induction n generalizing t with
  | zero => rfl
  | succ n ih => exact ih _

theorem printNumber_eq_foldl (garbage : Nat → UInt8) (value : UInt32) (t : Terminal) :
    t.printNumber garbage value = (decimal value.toNat).foldl putchar t := by
  rw [printNumber]
  split_ifs with hzero
  · rw [hzero]
    rfl
  · rw [printDigits_eq_foldl, Digits.reversed_collect hzero]
    exact congrArg (List.foldl putchar t) (List.append_nil _)

theorem printHexDword_eq_foldl (value : UInt32) (t : Terminal) :
    t.printHexDword value = (dword value).foldl putchar t := by
  rw [printHexDword, printHexDigits_eq_foldl, reversed_hexDigitAt value (Nat.le_refl 8)]
  rfl

theorem printHexByte_eq_foldl (value : UInt8) (t : Terminal) :
    t.printHexByte value = (hexadecimal value.toNat 2).foldl putchar t := by
  rw [hexadecimal_byte]
  rfl

/-- Every call does to the screen what it does to the rows. -/
theorem ShowsText.onRows (h : t.ShowsText r) (call : TerminalCall) :
    (call.perform t).ShowsText (call.onRows r) := by
  cases call with
  | print text color =>
    have hloop : t.print text color =
        (charactersFrom text 0 100).foldl (fun t c => t.printCharacter color c) t := by
      rw [print, printFrom_eq_performAll, performAll, List.foldl_map]
      simp only [printStep_perform]
    rw [TerminalCall.perform, hloop]
    exact h.foldl_printCharacter color _
  | putchar c => exact h.type c
  | backspace => exact h.backspace
  | clear color => exact ⟨clear_shows t color, Nat.zero_lt_succ 79⟩
  | printHexByte value =>
    rw [TerminalCall.perform, printHexByte_eq_foldl]
    exact h.foldl_putchar (le_of_mem_hexadecimal _ 2)
  | printHexDword value =>
    rw [TerminalCall.perform, printHexDword_eq_foldl]
    exact h.foldl_putchar (le_of_mem_dword _)
  | printNumber garbage value =>
    rw [TerminalCall.perform, printNumber_eq_foldl]
    exact h.foldl_putchar (le_of_mem_decimal _)

theorem ShowsText.foldl_onRows (h : t.ShowsText r) (calls : List TerminalCall) :
    (calls.foldl (fun t call => call.perform t) t).ShowsText
      (calls.foldl (fun r call => call.onRows r) r) := by
  induction calls generalizing t r with
  | nil => exact h
  | cons call calls ih => exact ih (h.onRows call)

/-- `terminal_init` leaves an empty row, whatever was on the screen. -/
theorem terminalRun_showsText (t : Terminal) (calls : List TerminalCall) :
    (terminalRun t calls).ShowsText (calls.foldl (fun r call => call.onRows r) ⟨[], []⟩) :=
  ShowsText.foldl_onRows ⟨clear_shows _ 0x00, Nat.zero_lt_succ 79⟩ calls

end Terminal

/-- After any calls the screen shows the last 25 rows of text, padded with blanks, with the
cursor at their end. A row takes 80 characters; a backspace takes back the last character of
the current row and nothing else, clearing leaves a single empty row, and a number is laid
out as its numeral. -/
theorem terminal_shows_rows (t : Terminal) (calls : List TerminalCall) :
    let t' := terminalRun t calls
    let rows := calls.foldl (fun r call => call.onRows r) ⟨[], []⟩
    (∀ y x : Nat, y < 25 → x < 80 →
        characterOf (t'.video.cells (y * 80 + x)) = (rows.visible.getD y []).getD x 32) ∧
      (t'.cursorY + 1 = rows.visible.length ∧ t'.cursorX = rows.current.length ∧
        rows.visible.getLast? = some rows.current) ∧
      rows.current.length < 80 := by
  intro t' rows
  have hshows : t'.ShowsText rows := t.terminalRun_showsText calls
  have hrow := hshows.row
  have hvisible := rows.length_visible
  exact ⟨hshows.cells, ⟨by omega, hshows.column, rows.getLast?_visible⟩, hshows.room⟩

/-! ## Numbers on the screen -/

/-- The `n` characters on the screen from a place on. -/
def Terminal.textAt (t : Terminal) (y x : Int) (n : Nat) : List UInt8 :=
  (List.range n).map fun i : Nat => characterOf (t.video.cells (y * 80 + (x + i)))

/-- The characters between two positions of the cursor in one row. -/
def Terminal.textSince (t before : Terminal) : List UInt8 :=
  t.textAt before.cursorY before.cursorX (t.cursorX - before.cursorX).toNat

theorem Rows.foldl_place {r : Rows} {text : List UInt8} (htext : ∀ c ∈ text, 48 ≤ c)
    (hroom : r.current.length + text.length < 80) :
    text.foldl Rows.place r = ⟨r.done, r.current ++ text⟩ := by
  induction text generalizing r with
  | nil => rw [List.foldl_nil, List.append_nil]
  | cons c text ih =>
    rw [List.length_cons] at hroom
    have hlength : (r.write c).current.length = r.current.length + 1 := by simp [Rows.write]
    have hfeed : c ≠ 10 := by
      rintro rfl
      exact absurd (htext 10 List.mem_cons_self) (by decide)
    rw [List.foldl_cons, Rows.place, if_neg hfeed, if_neg (by omega),
      ih (fun d hd => htext d (List.mem_cons_of_mem _ hd)) (by omega)]
    simp [Rows.write]

namespace Terminal

variable {t : Terminal} {r : Rows}

/-- Text that fits into the current row stands behind what was there. -/
theorem ShowsText.textSince_foldl (h : t.ShowsText r) {text : List UInt8}
    (htext : ∀ c ∈ text, 48 ≤ c) (hroom : t.cursorX + text.length < 80) :
    (text.foldl Terminal.putchar t).cursorY = t.cursorY ∧
      (text.foldl Terminal.putchar t).textSince t = text := by
  have hcolumn := h.column
  have hfits : r.current.length + text.length < 80 := by omega
  have hshows := h.foldl_putchar htext
  rw [Rows.foldl_place htext hfits] at hshows
  generalize text.foldl Terminal.putchar t = t' at hshows
  have hright : t'.cursorX = t.cursorX + text.length := by
    rw [hshows.column, List.length_append]
    omega
  have hcount : (t'.cursorX - t.cursorX).toNat = text.length := by omega
  refine ⟨hshows.row.trans h.row.symm, ?_⟩
  rw [textSince, hcount]
  have hy := h.row
  refine List.ext_getElem (by simp [textAt]) fun i hi hi' => ?_
  have hcell := hshows.cells (min r.done.length 24) (r.current.length + i) (by omega) (by omega)
  have hindex : t.cursorY * 80 + (t.cursorX + i) =
      ((min r.done.length 24 : Nat) : Int) * 80 + ((r.current.length + i : Nat) : Int) := by
    omega
  -- the current row is the last on the screen
  have hline : r.done.length - 24 + min r.done.length 24 = r.done.length := by omega
  rw [Rows.character_eq] at hcell
  simp only [Rows.all, hline] at hcell
  rw [List.getD_append_right _ _ _ _ (Nat.le_refl _), Nat.sub_self, List.getD_cons_zero,
    List.getD_append_right _ _ _ _ (Nat.le_add_right _ _), Nat.add_sub_cancel_left,
    List.getD_eq_getElem _ _ hi'] at hcell
  simp only [textAt, List.getElem_map, List.getElem_range, hindex]
  exact hcell

theorem ShowsText.textSince_printNumber (h : t.ShowsText r) (hroom : t.cursorX + 10 < 80)
    (garbage : Nat → UInt8) (value : UInt32) :
    (t.printNumber garbage value).textSince t = decimal value.toNat := by
  have hlength : (decimal value.toNat).length ≤ 10 :=
    (length_decimal_le (by decide)).mpr (value.toNat_lt.trans (by decide))
  rw [printNumber_eq_foldl]
  exact (h.textSince_foldl (le_of_mem_decimal _) (by omega)).2

theorem ShowsText.textSince_printHexDword (h : t.ShowsText r) (hroom : t.cursorX + 10 < 80)
    (value : UInt32) : (t.printHexDword value).textSince t = dword value := by
  have hlength : (dword value).length = 10 := length_dword value
  rw [printHexDword_eq_foldl]
  exact (h.textSince_foldl (le_of_mem_dword _) (by omega)).2

theorem ShowsText.textSince_printHexByte (h : t.ShowsText r) (hroom : t.cursorX + 10 < 80)
    (value : UInt8) : (t.printHexByte value).textSince t = hexadecimal value.toNat 2 := by
  have hlength := length_hexadecimal value.toNat 2
  rw [printHexByte_eq_foldl]
  exact (h.textSince_foldl (le_of_mem_hexadecimal _ 2) (by omega)).2

end Terminal

/-- A number printed where there is room for it in the row can be read back from the screen:
the cells that the cursor passed hold its numeral, decimal and without leading zeros, or
hexadecimal with all its digits, and nothing but digits. -/
theorem numbers_read_back (t : Terminal) (calls : List TerminalCall) (garbage : Nat → UInt8)
    (value : UInt32) (byte : UInt8) (hroom : (terminalRun t calls).cursorX + 10 < 80) :
    let t := terminalRun t calls
    let number := (t.printNumber garbage value).textSince t
    let dword := (t.printHexDword value).textSince t
    let hexByte := (t.printHexByte byte).textSince t
    ((∀ c ∈ number, IsDigit 10 c) ∧ number ≠ [] ∧ number.length ≤ 10 ∧
        (value ≠ 0 → number.head? ≠ some 48) ∧ readNumeral 10 number = value.toNat) ∧
      (dword.take 2 = [48, 120] ∧ (∀ c ∈ dword.drop 2, IsDigit 16 c) ∧ dword.length = 10 ∧
        readNumeral 16 (dword.drop 2) = value.toNat) ∧
      (∀ c ∈ hexByte, IsDigit 16 c) ∧ hexByte.length = 2 ∧
        readNumeral 16 hexByte = byte.toNat := by
  have hshows := t.terminalRun_showsText calls
  intro t number dwordText hexByte
  have hnumber : number = decimal value.toNat := hshows.textSince_printNumber hroom garbage value
  have hdword : dwordText = dword value := hshows.textSince_printHexDword hroom value
  have hbyte : hexByte = hexadecimal byte.toNat 2 := hshows.textSince_printHexByte hroom byte
  rw [hnumber, hdword, hbyte]
  refine ⟨⟨isDigit_decimal _, decimal_ne_nil _, ?_, fun hvalue => ?_, readNumeral_decimal _⟩,
    ⟨rfl, isDigit_hexadecimal _ 8, length_dword value, ?_⟩, isDigit_hexadecimal _ 2,
    length_hexadecimal _ 2, ?_⟩
  · exact (length_decimal_le (by decide)).mpr (value.toNat_lt.trans (by decide))
  · exact head?_decimal fun hzero => hvalue (UInt32.toNat_inj.mp hzero)
  · exact (readNumeral_hexadecimal _ 8).trans (Nat.mod_eq_of_lt value.toNat_lt)
  · exact (readNumeral_hexadecimal _ 2).trans (Nat.mod_eq_of_lt byte.toNat_lt)

/-- The largest number, behind a greeting. -/
theorem numbers_read_back_largest :
    let calls : List TerminalCall := [.putchar 72, .putchar 105]
    let t := terminalRun ⟨7, 3, ⟨fun _ => 0x1234, []⟩, 0⟩ calls
    t.cursorX = 2 ∧
      readNumeral 10 ((t.printNumber (fun _ => 0) 0xFFFFFFFF).textSince t) = 4294967295 := by
  intro calls t
  have hcolumn : t.cursorX = 2 := by decide +kernel
  have hroom : (terminalRun ⟨7, 3, ⟨fun _ => 0x1234, []⟩, 0⟩ calls).cursorX + 10 < 80 := by
    change t.cursorX + 10 < 80
    omega
  have hread := numbers_read_back ⟨7, 3, ⟨fun _ => 0x1234, []⟩, 0⟩ calls (fun _ => 0) 0xFFFFFFFF 0
    hroom
  exact ⟨hcolumn, hread.1.2.2.2.2⟩

end LevOS.Drivers
