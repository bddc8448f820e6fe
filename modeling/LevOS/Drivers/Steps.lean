import LevOS.Drivers.Terminal

/-!
# The steps of the terminal

Every call of the terminal is a sequence of four steps: a line feed, a cell at the cursor, a
backspace and a cleared screen. A step either moves the cells of the screen or overwrites
one, always as a whole, so what stands at a place of the text is the cell that was written
there last.

## Main definitions

* `Step`, and `TerminalCall.steps`, the steps of a call
* `Step.over`, `overwritten`, what steps leave at a place of the text

## Main results

* `TerminalCall.perform_eq`, a call does what its steps do
* `performAll_shown`, a place shows the cell written there last
-/

namespace LevOS.Drivers

/-- What the calls of the terminal are made of. -/
inductive Step
  | newline
  | emit (cell : UInt16)
  | backspace
  | clear (color : UInt16)

/-- Perform a step. -/
def Step.perform : Step → Terminal → Terminal
  | .newline, t => t.newline.scroll
  | .emit cell, t => (t.emit cell).scroll
  | .backspace, t => t.backspace
  | .clear color, t => t.clear color

/-- Perform some steps in turn. -/
def performAll (steps : List Step) (t : Terminal) : Terminal :=
  steps.foldl (fun t step => step.perform t) t

theorem performAll_append (steps steps' : List Step) (t : Terminal) :
    performAll (steps ++ steps') t = performAll steps' (performAll steps t) :=
  List.foldl_append

/-! ## The steps of a call -/

/-- The step for a character of `print`. -/
def printStep (color : UInt16) (c : UInt8) : Step :=
  if c = 10 then .newline else .emit (cellOf color c)

/-- The step for `putchar`. -/
def putcharStep (c : UInt8) : Step := if c = 8 then .backspace else printStep 0x0F c

/-- The characters that the loop of `print` shows from index `i`, with `n` turns left. -/
def charactersFrom (text : Buffer) : Nat → Nat → List UInt8
  | _, 0 => []
  | i, n + 1 => if text i = 0 then [] else text i :: charactersFrom text (i + 1) n

/-- The steps for the first `n` characters of an array, from the last one on. -/
def downFrom (characters : Nat → UInt8) : Nat → List Step
  | 0 => []
  | n + 1 => putcharStep (characters n) :: downFrom characters n

/-- The digit of `print_hex_dword` for the bits from `4 * n` on. -/
def hexDigitAt (value : UInt32) (n : Nat) : UInt8 :=
  hexDigit ((value >>> UInt32.ofNat (4 * n)) &&& 0xF)

/-- The steps of a call. -/
def TerminalCall.steps : TerminalCall → List Step
  | .print text color => (charactersFrom text 0 100).map (printStep color)
  | .putchar c => [putcharStep c]
  | .backspace => [.backspace]
  | .clear color => [.clear color]
  | .printHexByte value =>
    [putcharStep (hexDigit ((value >>> 4) &&& 0xF).toUInt32),
      putcharStep (hexDigit (value &&& 0xF).toUInt32)]
  | .printHexDword value => putcharStep 48 :: putcharStep 120 :: downFrom (hexDigitAt value) 8
  | .printNumber garbage value =>
    if value = 0 then [putcharStep 48]
    else
      let digits := Digits.collect ⟨garbage, 0, []⟩ value
      downFrom digits.cells digits.next

section Calls

variable (t : Terminal)

theorem printStep_perform (color : UInt16) (c : UInt8) :
    (printStep color c).perform t = t.printCharacter color c := by
  unfold printStep Terminal.printCharacter
  split_ifs with hfeed
  · rfl
  · rfl

theorem putcharStep_perform (c : UInt8) : (putcharStep c).perform t = t.putchar c := by
  unfold putcharStep
  split_ifs with hbackspace
  · rw [hbackspace]
    rfl
  · rw [printStep_perform, Terminal.printCharacter, Terminal.putchar, if_neg hbackspace]

theorem printFrom_eq_performAll (text : Buffer) (color : UInt16) (i n : Nat) :
    Terminal.printFrom text color i n t =
      performAll ((charactersFrom text i n).map (printStep color)) t := by
  induction n generalizing i t with
  | zero => rfl
  | succ n ih =>
    rw [Terminal.printFrom, charactersFrom]
    split_ifs with hend
    · rfl
    · rw [ih, ← printStep_perform]
      rfl

theorem printDigits_eq_performAll (digits : Nat → UInt8) (n : Nat) :
    Terminal.printDigits digits n t = performAll (downFrom digits n) t := by
  induction n generalizing t with
  | zero => rfl
  | succ n ih =>
    rw [Terminal.printDigits, ih, ← putcharStep_perform]
    rfl

theorem printHexDigits_eq_performAll (value : UInt32) (n : Nat) :
    Terminal.printHexDigits value n t = performAll (downFrom (hexDigitAt value) n) t := by
  induction n generalizing t with
  | zero => rfl
  | succ n ih =>
    rw [Terminal.printHexDigits, ih, ← putcharStep_perform]
    rfl

/-- A call does what its steps do. -/
theorem TerminalCall.perform_eq (call : TerminalCall) :
    call.perform t = performAll call.steps t := by
  cases call with
  | print text color => exact printFrom_eq_performAll t text color 0 100
  | putchar c => exact (putcharStep_perform t c).symm
  | backspace => rfl
  | clear color => rfl
  | printHexByte value =>
    rw [TerminalCall.perform, Terminal.printHexByte, ← putcharStep_perform, ← putcharStep_perform]
    rfl
  | printHexDword value =>
    rw [TerminalCall.perform, Terminal.printHexDword, printHexDigits_eq_performAll,
      ← putcharStep_perform, ← putcharStep_perform]
    rfl
  | printNumber garbage value =>
    -- zero has no digits to collect
    rw [TerminalCall.perform, Terminal.printNumber, TerminalCall.steps]
    split_ifs with hzero
    · exact (putcharStep_perform t 48).symm
    · exact printDigits_eq_performAll t _ _

theorem foldl_perform_eq (calls : List TerminalCall) :
    calls.foldl (fun t call => call.perform t) t =
      performAll (calls.flatMap TerminalCall.steps) t := by
  induction calls generalizing t with
  | nil => rfl
  | cons call calls ih =>
    rw [List.foldl_cons, ih, call.perform_eq, List.flatMap_cons, performAll_append]

end Calls

/-! ## What is overwritten -/

/-- A place of the text is on the screen. -/
def Terminal.Visible (t : Terminal) (k : Int) : Prop :=
  80 * (t.scrolled : Int) ≤ k ∧ k < 80 * (t.scrolled : Int) + 2000

/-- The cell that a step leaves at a place of the text, where `old` stood. -/
def Step.over (t : Terminal) (k : Int) (old : UInt16) : Step → UInt16
  | .newline => old
  | .emit cell => if k = t.position then cell else old
  | .backspace => if 0 < t.cursorX ∧ k = t.position - 1 then 0x0F20 else old
  | .clear color => (color <<< 12) ||| 0x0020

/-- The cell that some steps leave at a place of the text, where `old` stood. -/
def overwritten (k : Int) : UInt16 → Terminal → List Step → UInt16
  | old, _, [] => old
  | old, t, step :: steps => overwritten k (step.over t k old) (step.perform t) steps

namespace Terminal

variable {t : Terminal} {k : Int}

theorem OnScreen.perform (h : t.OnScreen) (step : Step) : (step.perform t).OnScreen := by
  cases step with
  | newline => exact onScreen_invariant.newline h
  | emit cell => exact onScreen_invariant.emit cell h
  | backspace => exact onScreen_invariant.backspace h
  | clear color => exact onScreen_invariant.clear color h

theorem OnScreen.performAll (h : t.OnScreen) (steps : List Step) :
    (performAll steps t).OnScreen := by
  induction steps generalizing t with
  | nil => exact h
  | cons step steps ih => exact ih (h.perform step)

theorem OnScreen.position_visible (h : t.OnScreen) : t.Visible t.position := by
  have hbound := h.cursor_bounds
  unfold Visible position cursor
  omega

theorem scroll_shown (hk : k < 80 * (t.scrolled : Int) + 2000)
    (hvisible : 80 * (t.scroll.scrolled : Int) ≤ k) : t.scroll.shown k = t.shown k := by
  unfold scroll at hvisible ⊢
  split_ifs at hvisible ⊢ with hrow
  · rfl
  · simp only [shown] at hvisible ⊢
    -- the row stands one higher, and one more row is counted above it
    rw [scroll_cells, if_neg (by omega), if_pos (by omega)]
    exact congrArg _ (by omega)

theorem le_scrolled (t : Terminal) : t.scrolled ≤ t.scroll.scrolled := by
  unfold scroll
  split_ifs with hrow
  · exact Nat.le_refl _
  · exact Nat.le_succ _

theorem scrolled_emit (t : Terminal) (cell : UInt16) : (t.emit cell).scrolled = t.scrolled := by
  rw [emit]
  split_ifs with hwrap
  · rfl
  · rfl

theorem scrolled_backspace (t : Terminal) : t.backspace.scrolled = t.scrolled := by
  unfold backspace
  split_ifs with hcolumn
  · rfl
  · rfl

/-- Rows that have been scrolled away do not come back. -/
theorem le_scrolled_perform (t : Terminal) (step : Step) :
    t.scrolled ≤ (step.perform t).scrolled := by
  cases step with
  | newline => exact le_scrolled t.newline
  | emit cell => exact (scrolled_emit t cell).ge.trans (le_scrolled _)
  | backspace => exact (scrolled_backspace t).ge
  | clear color => exact Nat.le_refl _

theorem le_scrolled_performAll (steps : List Step) (t : Terminal) :
    t.scrolled ≤ (Drivers.performAll steps t).scrolled := by
  induction steps generalizing t with
  | nil => exact Nat.le_refl _
  | cons step steps ih => exact (le_scrolled_perform t step).trans (ih _)

/-- A step leaves a place of the text as it is or overwrites its cell. -/
theorem OnScreen.perform_shown (h : t.OnScreen) (step : Step)
    (hk : k < 80 * (t.scrolled : Int) + 2000)
    (hvisible : 80 * ((step.perform t).scrolled : Int) ≤ k) :
    (step.perform t).shown k = step.over t k (t.shown k) := by
  cases step with
  | newline => exact scroll_shown hk hvisible
  | emit cell => exact h.emit_shown cell hvisible hk
  | backspace =>
    change t.backspace.shown k = if _ then _ else _
    by_cases hcolumn : 0 < t.cursorX
    · rw [(backspace_shown hcolumn).2.2]
      exact if_congr (by simp [hcolumn]) rfl rfl
    · rw [Terminal.backspace, if_neg hcolumn, if_neg fun hboth => hcolumn hboth.1]
  | clear color =>
    replace hvisible : 80 * (t.scrolled : Int) ≤ k := hvisible
    change (t.video.fill _ _).cells (k - 80 * t.scrolled) = _
    rw [Video.fill_cells, if_pos (by omega)]
    rfl

/-- A place of the text shows the cell that was written there last. -/
theorem OnScreen.performAll_shown (h : t.OnScreen) {steps : List Step}
    (hk : k < 80 * (t.scrolled : Int) + 2000)
    (hvisible : 80 * ((Drivers.performAll steps t).scrolled : Int) ≤ k) :
    (Drivers.performAll steps t).shown k = overwritten k (t.shown k) t steps := by
  induction steps generalizing t with
  | nil => rfl
  | cons step steps ih =>
    -- a place that is on the screen in the end has been there all along
    have hfirst := le_scrolled_perform t step
    have hrest := le_scrolled_performAll steps (step.perform t)
    replace hvisible : 80 * ((Drivers.performAll steps (step.perform t)).scrolled : Int) ≤ k :=
      hvisible
    have hupper : k < 80 * ((step.perform t).scrolled : Int) + 2000 := by omega
    rw [overwritten, ← h.perform_shown step hk (by omega)]
    exact ih (h.perform step) hupper hvisible

end Terminal

end LevOS.Drivers
