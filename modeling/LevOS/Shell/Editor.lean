import LevOS.Drivers.Terminal
import Mathlib.Data.List.Induction
import Mathlib.Data.List.Infix

/-!
# The shell's line editor

The loop of `shell` keeps the line being typed in `command_buffer` and shows it by
echoing each character to the terminal. The two keep separate books: the editor
counts characters, the terminal moves a cursor over rows of 80 columns. They agree
as long as no character is deleted across the start of a row, where the terminal's
backspace does nothing.

## Main definitions

* `Shell`, the editor's state, and `Shell.receive`, one turn of its loop
* `Shell.ShowsLine`, the screen shows the line being typed
* `Shell.Stuck`, a deletion at the start of a row

## Main results

* `shell_showsLine_iff`
-/

namespace LevOS

open LevOS.Drivers

/-- A string constant of the source, with its terminating zero. -/
def cString (text : String) : Buffer := fun i => (text.toList.map Char.toUInt8).getD i 0

/-- The state of the shell's loop: the terminal, `command_buffer` and
`command_length`. -/
structure Shell where
  terminal : Terminal
  commandBuffer : Buffer
  commandLength : Nat

namespace Shell

/-- Print the prompt, white on the background colour. -/
def prompt (background : UInt16) (s : Shell) : Shell :=
  { s with terminal := s.terminal.print (cString "\n> ") ((background <<< 4) ||| 0x0F) }

/-- One turn of the loop of `shell` with the character it received. What a
complete line does is up to `process_command`. -/
def receive (processCommand : Shell → Shell) (background : UInt16) (s : Shell) (c : UInt8) :
    Shell :=
  if c = 0 then s
  else if c = 10 then
    let s := processCommand
      { s with commandBuffer := Function.update s.commandBuffer s.commandLength 0 }
    prompt background { s with commandLength := 0 }
  -- a backspace is echoed even where the terminal ignores it
  else if c = 8 then
    if 0 < s.commandLength then
      { terminal := s.terminal.putchar 8
        commandBuffer := Function.update s.commandBuffer (s.commandLength - 1) 0
        commandLength := s.commandLength - 1 }
    else s
  else if s.commandLength < 128 - 1 then
    { terminal := s.terminal.putchar c
      commandBuffer := Function.update s.commandBuffer s.commandLength c
      commandLength := s.commandLength + 1 }
  else s

/-- The loop over a sequence of received characters. -/
def run (processCommand : Shell → Shell) (background : UInt16) (s : Shell) (keys : List UInt8) :
    Shell :=
  keys.foldl (receive processCommand background) s

/-- The screen shows the line typed after a prompt that ended at `origin`: its
characters follow the prompt, then comes a blank cell, and the cursor stands on it. -/
structure ShowsLine (origin : Int) (s : Shell) : Prop where
  length : s.commandLength ≤ 127
  visible : 80 * s.terminal.scrolled ≤ origin
  cells : ∀ i < s.commandLength,
    characterOf (s.terminal.shown (origin + i)) = s.commandBuffer i
  blank : characterOf (s.terminal.shown (origin + s.commandLength)) = 32
  cursor : s.terminal.position = origin + s.commandLength
  column : 0 ≤ s.terminal.cursorX ∧ s.terminal.cursorX < 80

/-- The editor is about to delete a character while the cursor is at the start of
a row. -/
def Stuck (s : Shell) (c : UInt8) : Prop :=
  c = 8 ∧ 0 < s.commandLength ∧ s.terminal.cursorX = 0

/-! ## One character -/

/-- The line is shown and the rest of the screen is blank. -/
structure Editing (origin : Int) (s : Shell) : Prop where
  shows : ShowsLine origin s
  onScreen : s.terminal.OnScreen
  fresh : s.terminal.Fresh

variable {processCommand : Shell → Shell} {background : UInt16} {origin : Int} {s : Shell}

theorem Editing.insert (h : Editing origin s) (hlength : s.commandLength < 127) {c : UInt8}
    (hnewline : c ≠ 10) (hbackspace : c ≠ 8) :
    Editing origin ⟨s.terminal.putchar c, Function.update s.commandBuffer s.commandLength c,
      s.commandLength + 1⟩ := by
  obtain ⟨⟨_, hvisible, hcells, _, hcursor, _⟩, hon, hfresh⟩ := h
  have hnext := Terminal.fresh_invariant.putchar ⟨hon, hfresh⟩ c
  rw [Terminal.putchar, if_neg hnewline, if_neg hbackspace] at hnext ⊢
  obtain ⟨hon', hfresh'⟩ := hnext
  have hposition := hon.emit_position (cellOf 0x0F c)
  -- a line of at most 127 characters never reaches from the prompt past the screen
  have hvisible' : 80 * ((s.terminal.emit (cellOf 0x0F c)).scroll.scrolled : Int) ≤ origin := by
    rcases hon.emit_scrolled (cellOf 0x0F c) with hsame | hscrolled
    · rw [hsame]
      exact hvisible
    · omega
  have hend : (s.terminal.emit (cellOf 0x0F c)).scroll.position =
      origin + (s.commandLength + 1 : Nat) := by omega
  refine ⟨⟨hlength, hvisible', ?_, ?_, hend, hon'.left, hon'.right⟩, hon', hfresh'⟩
  · -- earlier characters are kept, and the new one stands where the cursor was
    intro i hi
    have hbound : s.terminal.position < 80 * (s.terminal.scrolled : Int) + 2000 := by
      have := hon.cursor_bounds
      simp only [Terminal.position, Terminal.cursor]
      omega
    rw [hon.emit_shown _ (by omega) (by have : i < s.commandLength + 1 := hi; omega)]
    rcases Nat.lt_succ_iff_lt_or_eq.mp hi with hold | rfl
    · rw [if_neg (by omega)]
      exact (hcells i hold).trans (Function.update_of_ne (by omega) _ _).symm
    · rw [if_pos hcursor.symm, characterOf_cellOf]
      exact (Function.update_self s.commandLength c s.commandBuffer).symm
  · rw [← hend]
    exact hfresh'.shown_position hon'

theorem Editing.delete (h : Editing origin s) (hlength : 0 < s.commandLength)
    (hcolumn : s.terminal.cursorX ≠ 0) :
    Editing origin ⟨s.terminal.putchar 8, Function.update s.commandBuffer (s.commandLength - 1) 0,
      s.commandLength - 1⟩ := by
  obtain ⟨⟨hmax, hvisible, hcells, _, hcursor, _⟩, hon, hfresh⟩ := h
  have hnext := Terminal.fresh_invariant.backspace ⟨hon, hfresh⟩
  obtain ⟨hposition, hscrolled, hshown⟩ :=
    Terminal.backspace_shown (lt_of_le_of_ne hon.left (Ne.symm hcolumn))
  rw [Terminal.putchar, if_neg (by decide), if_pos rfl]
  obtain ⟨hon', hfresh'⟩ := hnext
  have hend : s.terminal.backspace.position = origin + (s.commandLength - 1 : Nat) := by omega
  refine ⟨⟨(Nat.sub_le _ _).trans hmax, ?_, ?_, ?_, hend, hon'.left, hon'.right⟩, hon', hfresh'⟩
  · change 80 * (s.terminal.backspace.scrolled : Int) ≤ origin
    rw [hscrolled]
    exact hvisible
  · intro i hi
    change i < s.commandLength - 1 at hi
    change characterOf (s.terminal.backspace.shown _) = _
    rw [hshown, if_neg (by omega)]
    exact (hcells i (by omega)).trans (Function.update_of_ne (by omega) _ _).symm
  · change characterOf (s.terminal.backspace.shown _) = 32
    rw [← hend]
    exact hfresh'.shown_position hon'

/-- The line stays on the screen, character by character, unless the editor gets
stuck. -/
theorem Editing.receive (h : Editing origin s) {c : UInt8} (hnewline : c ≠ 10)
    (hstuck : ¬ s.Stuck c) : Editing origin (s.receive processCommand background c) := by
  unfold Shell.receive
  split_ifs with hzero hbackspace hlength hroom
  · exact h
  · exact h.delete hlength (fun hcolumn => hstuck ⟨hbackspace, hlength, hcolumn⟩)
  · exact h
  · exact h.insert hroom hnewline hbackspace
  · exact h

/-- A stuck deletion shortens the line and leaves the screen as it was. -/
theorem Editing.stuck (h : Editing origin s) {c : UInt8} (hstuck : s.Stuck c) :
    ¬ ShowsLine origin (s.receive processCommand background c) := by
  obtain ⟨rfl, hlength, hcolumn⟩ := hstuck
  intro hshows
  -- the cursor is where it was, one cell past the end of the shorter line
  have hbefore := h.shows.cursor
  have hcursor := hshows.cursor
  rw [Shell.receive, if_neg (by decide), if_neg (by decide), if_pos rfl, if_pos hlength,
    Terminal.putchar, if_neg (by decide), if_pos rfl, Terminal.backspace_of_start hcolumn] at hcursor
  change s.terminal.position = origin + (s.commandLength - 1 : Nat) at hcursor
  omega

/-! ## Whole lines -/

theorem run_append (keys : List UInt8) (c : UInt8) :
    s.run processCommand background (keys ++ [c]) =
      (s.run processCommand background keys).receive processCommand background c :=
  List.foldl_append

theorem Editing.run (h : Editing origin s) {keys : List UInt8} (hnewline : ∀ c ∈ keys, c ≠ 10)
    (hstuck : ∀ line c, line ++ [c] <+: keys → ¬ (s.run processCommand background line).Stuck c) :
    Editing origin (s.run processCommand background keys) := by
  induction keys using List.reverseRecOn with
  | nil => exact h
  | append_singleton keys c ih =>
    rw [run_append]
    refine (ih ?_ ?_).receive (hnewline c (by simp)) (hstuck keys c List.prefix_rfl)
    · exact fun d hd => hnewline d (List.mem_append_left _ hd)
    · exact fun line d hline => hstuck line d (hline.trans (List.prefix_append _ _))

/-- The line is on the screen after every character exactly when the editor never got
stuck. -/
theorem Editing.showsLine_iff (h : Editing origin s) {keys : List UInt8}
    (hnewline : ∀ c ∈ keys, c ≠ 10) :
    (∀ line, line <+: keys → ShowsLine origin (s.run processCommand background line)) ↔
      ∀ line c, line ++ [c] <+: keys → ¬ (s.run processCommand background line).Stuck c := by
  constructor
  · intro hshows
    -- on the characters from the last back: until then the line was shown
    induction keys using List.reverseRecOn with
    | nil =>
      intro line c hline
      exact absurd (List.prefix_nil.mp hline) (by simp)
    | append_singleton keys d ih =>
      have hearlier := ih (fun c hc => hnewline c (List.mem_append_left _ hc))
        (fun line hline => hshows line (hline.trans (List.prefix_append _ _)))
      have hediting := h.run (fun c hc => hnewline c (List.mem_append_left _ hc)) hearlier
      intro line c hline
      rcases List.prefix_concat_iff.mp hline with hwhole | hpart
      · obtain ⟨rfl, rfl⟩ := List.append_inj' hwhole rfl |>.imp_right List.singleton_inj.mp
        intro hstuck
        have hlast := hshows _ List.prefix_rfl
        rw [run_append] at hlast
        exact hediting.stuck hstuck hlast
      · exact hearlier line c hpart
  · intro hstuck line hline
    refine (h.run (fun c hc => hnewline c (hline.subset hc)) ?_).shows
    exact fun l c hl => hstuck l c (hl.trans hline)

/-- A short line of printable characters is taken whole. -/
theorem run_printable {keys : List UInt8} (hkeys : ∀ c ∈ keys, c ≠ 0 ∧ c ≠ 10 ∧ c ≠ 8)
    (hroom : s.commandLength + keys.length ≤ 127) :
    (s.run processCommand background keys).commandLength = s.commandLength + keys.length := by
  induction keys generalizing s with
  | nil => rfl
  | cons c keys ih =>
    obtain ⟨hzero, hnewline, hbackspace⟩ := hkeys c List.mem_cons_self
    rw [List.length_cons] at hroom ⊢
    have hreceive : (s.receive processCommand background c).commandLength =
        s.commandLength + 1 := by
      rw [Shell.receive, if_neg hzero, if_neg hnewline, if_neg hbackspace, if_pos (by omega)]
    rw [run, List.foldl_cons]
    refine (ih (fun d hd => hkeys d (List.mem_cons_of_mem _ hd)) ?_).trans ?_
    · omega
    · omega

/-- After the prompt nothing has been typed and the screen is blank. -/
theorem prompt_editing (t : Terminal) (h : t.OnScreen ∧ t.Fresh) (buffer : Buffer) :
    let s := prompt background ⟨t, buffer, 0⟩
    Editing s.terminal.position s := by
  intro s
  obtain ⟨hon, hfresh⟩ := Terminal.fresh_invariant.perform h
    (.print (cString "\n> ") ((background <<< 4) ||| 0x0F))
  have hcursor : s.terminal.position = s.terminal.position + ((0 : Nat) : Int) := by simp
  have hbound := hon.cursor_bounds
  refine ⟨⟨Nat.zero_le _, ?_, fun i hi => absurd hi (Nat.not_lt_zero i), ?_, hcursor, hon.left,
    hon.right⟩, hon, hfresh⟩
  · exact le_add_of_nonneg_left hbound.1
  · exact hcursor ▸ hfresh.shown_position hon

end Shell

/-- The screen shows the command line, wherever the prompt stands and whatever is
typed, exactly when no character is deleted while the cursor is at the start of a row. -/
theorem shell_showsLine_iff (processCommand : Shell → Shell) (background : UInt16) (x y : Int)
    (cells : Int → UInt16) (scrolled : Nat) (calls : List TerminalCall) (buffer : Buffer)
    (keys : List UInt8) (hkeys : ∀ c ∈ keys, c ≠ 10) :
    let s := Shell.prompt background
      ⟨terminalRun ⟨x, y, ⟨cells, []⟩, scrolled⟩ calls, buffer, 0⟩
    (∀ line, line <+: keys →
        Shell.ShowsLine s.terminal.position (s.run processCommand background line)) ↔
      ∀ line c, line ++ [c] <+: keys → ¬ (s.run processCommand background line).Stuck c := by
  intro s
  have hinit : (Terminal.terminalInit ⟨x, y, ⟨cells, []⟩, scrolled⟩).OnScreen :=
    Terminal.clear_onScreen (fun _ h => absurd h List.not_mem_nil) 0x00
  have hterminal := Terminal.fresh_invariant.run ⟨hinit, Terminal.clear_fresh _ 0x00⟩ calls
  exact (Shell.prompt_editing _ hterminal buffer).showsLine_iff hkeys

/-- A letter typed and taken back. -/
theorem shell_showsLine_iff_letter :
    (∀ c ∈ [97, 8], c ≠ (10 : UInt8)) ∧
      let s := Shell.prompt 0 ⟨terminalRun ⟨0, 0, ⟨fun _ => 0, []⟩, 0⟩ [], fun _ => 0, 0⟩
      ((∀ line, line <+: [97, 8] → Shell.ShowsLine s.terminal.position (s.run id 0 line)) ↔
        ∀ line c, line ++ [c] <+: [97, 8] → ¬ (s.run id 0 line).Stuck c) :=
  ⟨by simp, shell_showsLine_iff id 0 0 0 (fun _ => 0) 0 [] (fun _ => 0) [97, 8] (by simp)⟩

/-- The prompt takes two columns. A line of 78 letters fills the row, and the letter
deleted next stays on the screen. -/
theorem shell_line_lost :
    let s := Shell.prompt 0 ⟨terminalRun ⟨0, 0, ⟨fun _ => 0, []⟩, 0⟩ [], fun _ => 0, 0⟩
    ¬ Shell.ShowsLine s.terminal.position (s.run id 0 (List.replicate 78 97 ++ [8])) := by
  intro s
  have hinit : (Terminal.terminalInit ⟨0, 0, ⟨fun _ => 0, []⟩, 0⟩).OnScreen :=
    Terminal.clear_onScreen (fun _ h => absurd h List.not_mem_nil) 0x00
  have hprompt : Shell.Editing s.terminal.position s :=
    Shell.prompt_editing _ ⟨hinit, Terminal.clear_fresh _ 0x00⟩ (fun _ => 0)
  have hletter : ∀ c ∈ List.replicate 78 (97 : UInt8), c = 97 := fun c hc =>
    (List.mem_replicate.mp hc).2
  have hfull : Shell.Editing s.terminal.position (s.run id 0 (List.replicate 78 97)) := by
    apply hprompt.run
    · intro c hc
      rw [hletter c hc]
      decide
    · intro line c hline hstuck
      have hc : c = 97 := hletter c (hline.subset (by simp))
      exact absurd (hc.symm.trans hstuck.1) (by decide)
  have hlength : (s.run id 0 (List.replicate 78 97)).commandLength = 78 := by
    refine (Shell.run_printable ?_ (by decide)).trans (by decide)
    intro c hc
    rw [hletter c hc]
    decide
  -- 82 cells of prompt and 78 of line end exactly at a row
  have hstart : s.terminal.position = 82 := by decide
  have hcursor := hfull.shows.cursor
  have hcolumn := hfull.shows.column
  rw [hlength, hstart, Terminal.position, Terminal.cursor] at hcursor
  rw [Shell.run_append]
  exact hfull.stuck ⟨rfl, by omega, by omega⟩

end LevOS
