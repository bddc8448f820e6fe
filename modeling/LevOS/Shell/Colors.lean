import LevOS.Drivers.Steps
import LevOS.Filesystem.Directory
import Mathlib.Data.FinEnum

/-!
# The colours of characters

`print` and `putchar` put a character's code and its colour into one cell. The code is kept
in a signed `char`, so from `0x80` on its sign fills the colour's byte: such a character is
shown bright white on a blinking white background, whatever the colour asked for. `print`
also stops after 100 characters of its string, so the ones behind are not stored at all. Once
a cell has been stored it is only moved or overwritten as a whole.

## Main definitions

* `Output`, a file's contents from `cat` or a string from `print`
* `Output.KeepsColor`

## Main results

* `colorOf_cellOf_iff`, which characters get the colour asked for
* `output_keepsColor_iff`
-/

namespace LevOS

open LevOS.Drivers LevOS.Filesystem

/-! ## The colour of a cell -/

/-- The colour byte of a cell. -/
def colorOf (cell : UInt16) : UInt16 := cell >>> 8

/-- The sign of a character fills the colour byte. -/
theorem colorOf_signExtend :
    ∀ c : UInt8, colorOf c.toInt8.toInt16.toUInt16 = if c < 0x80 then 0 else 0xFF := by
  decide +kernel

theorem colorOf_shiftLeft : ∀ color : UInt8, colorOf (color.toUInt16 <<< 8) = color.toUInt16 := by
  decide +kernel

theorem colorOf_cellOf (color c : UInt8) :
    colorOf (cellOf color.toUInt16 c) = if c < 0x80 then color.toUInt16 else 0xFF := by
  have hor : colorOf (cellOf color.toUInt16 c) =
      colorOf (color.toUInt16 <<< 8) ||| colorOf c.toInt8.toInt16.toUInt16 := UInt16.shiftRight_or
  have hfull : ∀ color : UInt8, color.toUInt16 ||| 0xFF = 0xFF := by decide +kernel
  rw [hor, colorOf_shiftLeft, colorOf_signExtend]
  split_ifs with hsign
  · exact UInt16.or_zero
  · exact hfull color

/-- A character gets its colour if it has no sign, or if the sign happens to be the colour. -/
theorem colorOf_cellOf_iff (color c : UInt8) :
    colorOf (cellOf color.toUInt16 c) = color.toUInt16 ↔ c < 0x80 ∨ color = 0xFF := by
  rw [colorOf_cellOf]
  split_ifs with hsign
  · exact iff_of_true rfl (.inl hsign)
  · rw [or_iff_right hsign, eq_comm]
    exact UInt8.toUInt16_inj (b := 0xFF)

/-! ## Output -/

/-- The loop of `cat` over the first `n` bytes of `cat_buffer`. -/
def showContents (buffer : Buffer) : Nat → Terminal → Terminal
  | 0, t => t
  | n + 1, t => (showContents buffer n t).putchar (buffer n)

/-- The contents of a file, shown by `cat`, or a string, shown by `print` in a colour below
256. -/
inductive Output
  | contents (buffer : Buffer) (bytesRead : Nat)
  | print (text : CString) (color : UInt8)

namespace Output

/-- Show some output. -/
def perform : Output → Terminal → Terminal
  | .contents buffer bytesRead, t => showContents buffer bytesRead t
  | .print text color, t => t.print text.at color.toUInt16

/-- The bytes of the output: all that were read, or the whole string up to its zero. -/
def bytes : Output → List UInt8
  | .contents buffer bytesRead => (List.range bytesRead).map buffer
  | .print text _ => text.chars

/-- The byte at an index is one that the loop gets to: `print` stops after 100. -/
def Reached : Output → Nat → Prop
  | .contents _ _, _ => True
  | .print _ _, i => i < 100

/-- The bytes that the loop gets to. -/
def reachedBytes : Output → List UInt8
  | .contents buffer bytesRead => (List.range bytesRead).map buffer
  | .print text _ => text.chars.take 100

/-- The colour that is asked for. -/
def color : Output → UInt8
  | .contents _ _ => 0x0F
  | .print _ color => color

/-- A byte that moves the cursor instead of being shown. -/
def Control : Output → UInt8 → Prop
  | .contents _ _, c => c = 10 ∨ c = 8
  | .print _ _, c => c = 10

instance (o : Output) (c : UInt8) : Decidable (o.Control c) :=
  match o with
  | .contents _ _ => inferInstanceAs (Decidable (c = 10 ∨ c = 8))
  | .print _ _ => inferInstanceAs (Decidable (c = 10))

/-- The step for a byte. -/
def step : Output → UInt8 → Step
  | .contents _ _, c => putcharStep c
  | .print _ color, c => printStep color.toUInt16 c

/-- The terminal after the first `i` bytes, of which `print` has shown at most 100. -/
def after (o : Output) (i : Nat) (t : Terminal) : Terminal :=
  match o with
  | .contents buffer _ => showContents buffer i t
  | .print text color => Terminal.printFrom text.at color.toUInt16 0 (min i 100) t

/-- Every byte is stored at the cursor, which moves on, in the colour asked for, and what its
place shows after any further output is what was written there last, as a whole cell. -/
structure KeepsColor (o : Output) (t : Terminal) : Prop where
  stored : ∀ i c, o.bytes[i]? = some c → ¬ o.Control c →
    let place := (o.after i t).position
    let t' := o.after (i + 1) t
    t'.position = place + 1 ∧ t'.Visible place ∧ characterOf (t'.shown place) = c ∧
      colorOf (t'.shown place) = o.color.toUInt16
  whole : ∀ i c, o.bytes[i]? = some c → ¬ o.Control c → ∀ later : List TerminalCall,
    let place := (o.after i t).position
    let t' := later.foldl (fun t call => call.perform t) (o.perform t)
    t'.Visible place → t'.shown place =
      overwritten place ((o.after (i + 1) t).shown place) (o.after (i + 1) t)
        ((o.reachedBytes.drop (i + 1)).map o.step ++ later.flatMap TerminalCall.steps)

end Output

/-! ## The steps of some output -/

/-- The loop of `print` shows the first characters of a string. -/
theorem charactersFrom_at (text : CString) (i n : Nat) :
    charactersFrom text.at i n = (text.chars.drop i).take n := by
  induction n generalizing i with
  | zero => rfl
  | succ n ih =>
    rw [charactersFrom]
    by_cases hend : text.chars.length ≤ i
    · rw [if_pos ((text.at_eq_zero_iff i).mpr hend), List.drop_eq_nil_of_le hend, List.take_nil]
    · rw [if_neg fun hzero => hend ((text.at_eq_zero_iff i).mp hzero), ih]
      have hi : i < text.chars.length := Nat.lt_of_not_le hend
      rw [List.drop_eq_getElem_cons hi, List.take_succ_cons, CString.at,
        List.getD_eq_getElem _ _ hi]

theorem showContents_eq (buffer : Buffer) (n : Nat) (t : Terminal) :
    showContents buffer n t = performAll (((List.range n).map buffer).map putcharStep) t := by
  induction n with
  | zero => rfl
  | succ n ih =>
    rw [showContents, ih, List.range_succ, List.map_append, List.map_append, performAll_append,
      ← putcharStep_perform]
    rfl

namespace Output

variable {o : Output} {t : Terminal} {i : Nat} {c : UInt8}

theorem after_eq (hi : i ≤ o.bytes.length) :
    o.after i t = performAll ((o.reachedBytes.take i).map o.step) t := by
  cases o with
  | contents buffer bytesRead =>
    have hread : i ≤ bytesRead := by simpa [bytes] using hi
    rw [after, showContents_eq, reachedBytes, ← List.map_take, List.take_range,
      Nat.min_eq_left hread]
    rfl
  | print text color =>
    rw [after, printFrom_eq_performAll, reachedBytes, charactersFrom_at, List.take_take]
    rfl

theorem perform_eq (o : Output) (t : Terminal) :
    o.perform t = performAll (o.reachedBytes.map o.step) t := by
  cases o with
  | contents buffer bytesRead => exact showContents_eq buffer bytesRead t
  | print text color =>
    rw [perform, Terminal.print, printFrom_eq_performAll, charactersFrom_at]
    rfl

theorem lt_of_getElem? (hc : o.bytes[i]? = some c) : i < o.bytes.length :=
  (List.getElem?_eq_some_iff.mp hc).1

theorem reachedBytes_getElem? (hreached : o.Reached i) (hc : o.bytes[i]? = some c) :
    o.reachedBytes[i]? = some c := by
  cases o with
  | contents buffer bytesRead => exact hc
  | print text color => exact (List.getElem?_take_of_lt hreached).trans hc

/-- A byte that the loop gets to is shown by its step. -/
theorem after_succ (hreached : o.Reached i) (hc : o.bytes[i]? = some c) :
    o.after (i + 1) t = (o.step c).perform (o.after i t) := by
  have hi := lt_of_getElem? hc
  rw [after_eq hi, after_eq hi.le, List.take_add_one, reachedBytes_getElem? hreached hc,
    Option.toList_some, List.map_append, performAll_append]
  rfl

/-- Behind the bytes that the loop gets to nothing happens. -/
theorem after_succ_of_not_reached (h : ¬ o.Reached i) : o.after (i + 1) t = o.after i t := by
  cases o with
  | contents buffer bytesRead => exact absurd trivial h
  | print text color =>
    have hlong : 100 ≤ i := Nat.le_of_not_lt h
    rw [after, after, Nat.min_eq_right hlong, Nat.min_eq_right (hlong.trans i.le_succ)]

/-- The bytes that come later are shown by the steps that are left. -/
theorem perform_eq_after (hi : i ≤ o.bytes.length) :
    o.perform t = performAll ((o.reachedBytes.drop i).map o.step) (o.after i t) := by
  rw [perform_eq, after_eq hi, ← performAll_append, ← List.map_append, List.take_append_drop]

theorem step_eq_emit (hc : ¬ o.Control c) : o.step c = .emit (cellOf o.color.toUInt16 c) := by
  cases o with
  | contents buffer bytesRead =>
    obtain ⟨hfeed, hbackspace⟩ := not_or.mp hc
    rw [step, putcharStep, if_neg hbackspace, printStep, if_neg hfeed]
    rfl
  | print text color =>
    have hfeed : c ≠ 10 := hc
    rw [step, printStep, if_neg hfeed]
    rfl

theorem onScreen_after (h : t.OnScreen) (hi : i ≤ o.bytes.length) : (o.after i t).OnScreen := by
  rw [after_eq hi]
  exact h.performAll _

/-- Right after a byte has been shown, its cell is on the screen, before the cursor. -/
theorem after_shown (h : t.OnScreen) (hreached : o.Reached i) (hc : o.bytes[i]? = some c)
    (hshown : ¬ o.Control c) :
    (o.after (i + 1) t).position = (o.after i t).position + 1 ∧
      (o.after (i + 1) t).Visible (o.after i t).position ∧
      (o.after (i + 1) t).shown (o.after i t).position = cellOf o.color.toUInt16 c := by
  have hbefore := onScreen_after h (lt_of_getElem? hc).le
  rw [after_succ hreached hc, step_eq_emit hshown]
  generalize o.after i t = before at hbefore ⊢
  change (before.emit _).scroll.position = _ ∧ (before.emit _).scroll.Visible _ ∧
    (before.emit _).scroll.shown _ = _
  have hplace := hbefore.position_visible
  have hscroll := hbefore.emit_scrolled (cellOf o.color.toUInt16 c)
  have hvisible : (before.emit (cellOf o.color.toUInt16 c)).scroll.Visible before.position := by
    unfold Terminal.Visible at hplace ⊢
    -- the row of the cursor never scrolls away at once
    rcases hscroll with hsame | hup
    · rw [hsame]
      exact hplace
    · omega
  exact ⟨hbefore.emit_position _, hvisible,
    by rw [hbefore.emit_shown _ hvisible.1 hplace.2, if_pos rfl]⟩

/-- The place of a byte is on the screen once its turn is over, whether it is shown or not. -/
theorem after_visible (h : t.OnScreen) (hc : o.bytes[i]? = some c) (hshown : ¬ o.Control c) :
    (o.after (i + 1) t).Visible (o.after i t).position := by
  by_cases hreached : o.Reached i
  · exact (after_shown h hreached hc hshown).2.1
  · rw [after_succ_of_not_reached hreached]
    exact (onScreen_after h (lt_of_getElem? hc).le).position_visible

/-- Bytes keep their colour exactly if the loop gets to each that is to be shown, and none of
these has a sign, or the sign happens to be the colour. -/
theorem keepsColor_iff (h : t.OnScreen) :
    o.KeepsColor t ↔ ∀ i c, o.bytes[i]? = some c → ¬ o.Control c →
      o.Reached i ∧ (c < 0x80 ∨ o.color = 0xFF) := by
  constructor
  · rintro ⟨hstored, -⟩ i c hc hshown
    obtain ⟨hmoved, -, -, hcolor⟩ := hstored i c hc hshown
    have hreached : o.Reached i := by
      by_contra hbehind
      rw [after_succ_of_not_reached hbehind] at hmoved
      omega
    obtain ⟨-, -, hcell⟩ := after_shown h hreached hc hshown
    rw [hcell] at hcolor
    exact ⟨hreached, (colorOf_cellOf_iff o.color c).mp hcolor⟩
  · intro hplain
    -- only the colour depends on the bytes: cells are always moved and overwritten whole
    refine ⟨fun i c hc hshown => ?_, fun i c hc hshown later => ?_⟩
    · obtain ⟨hreached, hsign⟩ := hplain i c hc hshown
      obtain ⟨hmoved, hvisible, hcell⟩ := after_shown h hreached hc hshown
      refine ⟨hmoved, hvisible, ?_, ?_⟩
      · rw [hcell, characterOf_cellOf]
      · rw [hcell]
        exact (colorOf_cellOf_iff o.color c).mpr hsign
    · intro place t' hvisible
      have hi : i + 1 ≤ o.bytes.length := lt_of_getElem? hc
      have hsteps : t' = performAll ((o.reachedBytes.drop (i + 1)).map o.step ++
          later.flatMap TerminalCall.steps) (o.after (i + 1) t) := by
        rw [performAll_append, ← perform_eq_after hi]
        exact foldl_perform_eq _ later
      rw [hsteps] at hvisible ⊢
      have hplace := after_visible h hc hshown
      exact (onScreen_after h hi).performAll_shown hplace.2 hvisible.1

end Output

/-- Whatever was output before, every byte of a file or of a string keeps its colour exactly if
none that is to be shown is `0x80` or more, unless the colour is `0xFF`, and in a string none
stands behind the 100th. -/
theorem output_keepsColor_iff (x y : Int) (cells : Int → UInt16) (scrolled : Nat)
    (earlier : List TerminalCall) (o : Output) :
    o.KeepsColor (terminalRun ⟨x, y, ⟨cells, []⟩, scrolled⟩ earlier) ↔
      ∀ i c, o.bytes[i]? = some c → ¬ o.Control c →
        o.Reached i ∧ (c < 0x80 ∨ o.color = 0xFF) := by
  have hinit : (Terminal.terminalInit ⟨x, y, ⟨cells, []⟩, scrolled⟩).OnScreen :=
    Terminal.clear_onScreen (fun _ h => absurd h List.not_mem_nil) 0x00
  exact Output.keepsColor_iff (Terminal.onScreen_invariant.run hinit earlier)

/-- A file of one byte `0x80` is shown bright on a blinking background. -/
theorem output_loses_color :
    ¬ Output.KeepsColor (.contents (fun _ => 0x80) 1)
      (terminalRun ⟨0, 0, ⟨fun _ => 0, []⟩, 0⟩ []) := by
  intro hkeeps
  have hcolor := (hkeeps.stored 0 0x80 rfl (by decide)).2.2.2
  exact absurd hcolor (by decide)

end LevOS
