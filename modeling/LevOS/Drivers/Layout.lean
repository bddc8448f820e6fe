import LevOS.Drivers.Steps

/-!
# The layout of text

Text without control characters is laid out in rows of 80 characters. A row ends at a
line feed and right after its 80th character, so a line feed behind a full row makes an
empty one. The screen shows the last 25 rows, whether the text comes from `print` or from
`putchar`, and however it is divided between them.

## Main definitions

* `Rows`, the rows of a text, and `layout`
* `Rows.character`, what the last 25 rows show at a place of the screen
* `Terminal.Shows`, the screen shows the end of a layout

## Main results

* `screen_layout`
-/

namespace LevOS.Drivers

/-! ## Rows -/

/-- The rows of a text: those that have ended, and the one at the end of the text. -/
structure Rows where
  done : List (List UInt8)
  current : List UInt8

namespace Rows

/-- End the current row. -/
def finish (r : Rows) : Rows := ⟨r.done ++ [r.current], []⟩

/-- Add a character to the current row. -/
def write (r : Rows) (c : UInt8) : Rows := ⟨r.done, r.current ++ [c]⟩

/-- The next character of a text: a line feed ends the row, and so does an 80th character. -/
def place (r : Rows) (c : UInt8) : Rows :=
  if c = 10 then r.finish
  else if (r.write c).current.length = 80 then (r.write c).finish
  else r.write c

/-- All the rows. -/
def all (r : Rows) : List (List UInt8) := r.done ++ [r.current]

/-- The last 25 rows. -/
def visible (r : Rows) : List (List UInt8) := r.all.drop (r.all.length - 25)

/-- The character at a place of the screen. Rows are padded with blanks, and below the last
row all is blank. -/
def character (r : Rows) (y x : Nat) : UInt8 := (r.visible.getD y []).getD x 32

end Rows

/-- The rows of a text. -/
def layout (text : List UInt8) : Rows := text.foldl Rows.place ⟨[], []⟩

/-- A line feed behind a full row makes an empty one. -/
example : (layout (List.replicate 80 65 ++ [10, 66])).all = [List.replicate 80 65, [], [66]] := by
  decide +kernel

namespace Rows

variable (r : Rows)

@[simp] theorem all_finish : r.finish.all = r.all ++ [[]] := rfl

@[simp] theorem length_all : r.all.length = r.done.length + 1 := by
  rw [all, List.length_append, List.length_singleton]

theorem character_eq (y x : Nat) :
    r.character y x = (r.all.getD (r.done.length - 24 + y) []).getD x 32 := by
  have htop : r.all.length - 25 = r.done.length - 24 := by
    rw [length_all]
    omega
  simp only [character, visible, htop, List.getD_eq_getElem?_getD, List.getElem?_drop]

/-- An empty row shows nothing. -/
theorem getD_all_finish (k : Nat) : r.finish.all.getD k [] = r.all.getD k [] := by
  rw [all_finish]
  rcases Nat.lt_trichotomy k r.all.length with hlt | rfl | hgt
  · rw [List.getD_append _ _ _ _ hlt]
  · simp
  · rw [List.getD_eq_default _ _ (by simp at hgt ⊢; omega), List.getD_eq_default _ _ hgt.le]

theorem getD_all_write (c : UInt8) (k : Nat) :
    (r.write c).all.getD k [] =
      if k = r.done.length then r.current ++ [c] else r.all.getD k [] := by
  split_ifs with hk
  · subst hk
    simp [all, write]
  · rcases Nat.lt_or_gt_of_ne hk with hlt | hgt
    · rw [all, all, write, List.getD_append _ _ _ _ hlt, List.getD_append _ _ _ _ hlt]
    · rw [List.getD_eq_default _ _ (by simp [write]; omega),
        List.getD_eq_default _ _ (by simp; omega)]

theorem getD_append_singleton (row : List UInt8) (c blank : UInt8) (x : Nat) :
    (row ++ [c]).getD x blank = if x = row.length then c else row.getD x blank := by
  split_ifs with hx
  · subst hx
    simp
  · rcases Nat.lt_or_gt_of_ne hx with hlt | hgt
    · exact List.getD_append _ _ _ _ hlt
    · rw [List.getD_eq_default _ _ (by simp; omega), List.getD_eq_default _ _ hgt.le]

end Rows

/-! ## The screen -/

namespace Terminal

/-- The screen shows the last rows of a layout, with the cursor at its end. The current row
may just have been filled. -/
structure Shows (t : Terminal) (r : Rows) : Prop where
  column : t.cursorX = r.current.length
  row : t.cursorY = min r.done.length 24
  fits : r.current.length ≤ 80
  cells : ∀ y x : Nat, y < 25 → x < 80 →
    characterOf (t.video.cells (y * 80 + x)) = r.character y x

variable {t : Terminal} {r : Rows}

/-- A cleared terminal shows no rows but an empty one. -/
theorem clear_shows (t : Terminal) (color : UInt16) : (t.clear color).Shows ⟨[], []⟩ where
  column := rfl
  row := rfl
  fits := Nat.zero_le _
  cells y x hy hx := by
    rw [clear, Video.fill_cells, if_pos (by omega), characterOf_cleared, Rows.character_eq]
    cases y <;> rfl

/-- A line feed ends the current row: below the 24th row the screen moves up. -/
theorem Shows.newline (h : t.Shows r) : t.newline.scroll.Shows r.finish := by
  obtain ⟨-, hrow, -, hcells⟩ := h
  have hdone : r.finish.done.length = r.done.length + 1 := by simp [Rows.finish]
  by_cases hlast : t.cursorY + 1 < 25
  · have hscroll : t.newline.scroll = t.newline := if_pos hlast
    rw [hscroll]
    refine ⟨rfl, ?_, Nat.zero_le _, fun y x hy hx => ?_⟩
    · change t.cursorY + 1 = _
      omega
    · change characterOf (t.video.cells _) = _
      rw [hcells y x hy hx, Rows.character_eq, Rows.character_eq, Rows.getD_all_finish, hdone,
        show r.done.length + 1 - 24 = r.done.length - 24 by omega]
  · have hscroll : t.newline.scroll =
        { t.newline with
          cursorY := 25 - 1
          video := (t.video.moveRows 24).blankRow 80
          scrolled := t.scrolled + 1 } := if_neg hlast
    rw [hscroll]
    refine ⟨rfl, ?_, Nat.zero_le _, fun y x hy hx => ?_⟩
    · simp only
      omega
    · simp only
      rw [scroll_cells, Rows.character_eq, Rows.getD_all_finish, hdone]
      by_cases hbottom : y = 24
      · -- the row that comes into view is blank
        rw [if_pos (by omega), List.getD_eq_default r.all _ (by rw [Rows.length_all]; omega)]
        rfl
      · have hup := hcells (y + 1) x (by omega) hx
        rw [Rows.character_eq] at hup
        rw [if_neg (by omega), if_pos (by omega),
          show r.done.length + 1 - 24 + y = r.done.length - 24 + (y + 1) by omega, ← hup]
        congr 2
        push_cast
        omega

/-- A character goes to the end of the current row. -/
theorem Shows.write (h : t.Shows r) (hroom : r.current.length < 80) {cell : UInt16} {c : UInt8}
    (hcell : characterOf cell = c) :
    Shows { t with
      video := t.video.store (t.cursorY * 80 + t.cursorX) cell
      cursorX := t.cursorX + 1 } (r.write c) := by
  obtain ⟨hcolumn, hrow, -, hcells⟩ := h
  have hlength : (r.write c).current.length = r.current.length + 1 := by simp [Rows.write]
  refine ⟨?_, hrow, by omega, fun y x hy hx => ?_⟩
  · simp only
    omega
  · have hold := hcells y x hy hx
    simp only
    rw [Rows.character_eq] at hold ⊢
    rw [Video.store_cells, Rows.getD_all_write, show (r.write c).done = r.done from rfl]
    by_cases hline : r.done.length - 24 + y = r.done.length
    · -- the row with the cursor
      rw [hline] at hold
      have hcurrent : r.all.getD r.done.length [] = r.current := by simp [Rows.all]
      rw [hcurrent] at hold
      rw [if_pos hline, Rows.getD_append_singleton]
      by_cases hend : x = r.current.length
      · rw [if_pos (by omega), if_pos hend, hcell]
      · rw [if_neg (by omega), if_neg hend]
        exact hold
    · rw [if_neg (by omega), if_neg hline]
      exact hold

/-- Any character but a line feed: the 80th of a row ends it. -/
theorem Shows.emit (h : t.Shows r) (hroom : r.current.length < 80) {cell : UInt16} {c : UInt8}
    (hcell : characterOf cell = c) (hc : c ≠ 10) : (t.emit cell).scroll.Shows (r.place c) := by
  have hwritten := h.write hroom hcell
  have hlength : (r.write c).current.length = r.current.length + 1 := by simp [Rows.write]
  have hcolumn := hwritten.column
  rw [Rows.place, if_neg hc, Terminal.emit]
  simp only at hcolumn ⊢
  by_cases hfull : (r.write c).current.length = 80
  · rw [if_pos hfull, if_pos (by omega)]
    exact hwritten.newline
  · rw [if_neg hfull, if_neg (by omega)]
    -- the cursor has stayed in its row, so nothing scrolls
    have hrow : t.cursorY < 25 := by
      have := h.row
      omega
    rw [scroll, if_pos hrow]
    exact hwritten

theorem length_place_lt (hroom : r.current.length < 80) (c : UInt8) :
    (r.place c).current.length < 80 := by
  rw [Rows.place]
  split_ifs with hfeed hfull
  · exact Nat.zero_lt_succ 79
  · exact Nat.zero_lt_succ 79
  · rw [Rows.write, List.length_append, List.length_singleton] at hfull ⊢
    omega

/-- What is shown between two characters. -/
structure ShowsText (t : Terminal) (r : Rows) : Prop extends Shows t r where
  room : r.current.length < 80

theorem ShowsText.printCharacter (h : t.ShowsText r) (color : UInt16) (c : UInt8) :
    (t.printCharacter color c).ShowsText (r.place c) := by
  refine ⟨?_, length_place_lt h.room c⟩
  rw [Terminal.printCharacter]
  split_ifs with hfeed
  · rw [Rows.place, if_pos hfeed]
    exact h.newline
  · exact h.emit h.room (characterOf_cellOf color c) hfeed

theorem ShowsText.putchar (h : t.ShowsText r) {c : UInt8} (hbackspace : c ≠ 8) :
    (t.putchar c).ShowsText (r.place c) := by
  refine ⟨?_, length_place_lt h.room c⟩
  rw [Terminal.putchar]
  split_ifs with hfeed
  · rw [Rows.place, if_pos hfeed]
    exact h.newline
  · exact h.emit h.room (characterOf_cellOf 0x0F c) hfeed

end Terminal

/-! ## Output -/

/-- The array holds the string, with its terminating zero. -/
structure HoldsString (text : Buffer) (string : List UInt8) : Prop where
  characters : ∀ i < string.length, text i = string.getD i 0
  terminator : text string.length = 0

/-- The loop of `print` shows a string that is not too long up to its terminator. -/
theorem charactersFrom_eq {text : Buffer} {string : List UInt8} {i n : Nat}
    (htext : ∀ k < string.length, text (i + k) = string.getD k 0)
    (hend : text (i + string.length) = 0) (hzero : ∀ c ∈ string, c ≠ 0)
    (hfits : string.length ≤ n) : charactersFrom text i n = string := by
  induction string generalizing i n with
  | nil =>
    have hstop : text i = 0 := hend
    cases n with
    | zero => rfl
    | succ n => rw [charactersFrom, if_pos hstop]
  | cons c string ih =>
    obtain ⟨n, rfl⟩ : ∃ k, n = k + 1 := ⟨n - 1, by rw [List.length_cons] at hfits; omega⟩
    have hfirst : text i = c := htext 0 (Nat.succ_pos _)
    rw [charactersFrom, hfirst, if_neg (hzero c List.mem_cons_self)]
    congr 1
    apply ih
    · intro k hk
      have hnext := htext (k + 1) (Nat.succ_lt_succ hk)
      rwa [Nat.add_comm k, ← Nat.add_assoc, Nat.add_comm 1 k, List.getD_cons_succ] at hnext
    · rwa [List.length_cons, Nat.add_comm string.length, ← Nat.add_assoc] at hend
    · exact fun d hd => hzero d (List.mem_cons_of_mem _ hd)
    · exact Nat.le_of_succ_le_succ hfits

/-- The text that a call outputs: one character, or a string of at most 100. -/
inductive Outputs : TerminalCall → List UInt8 → Prop
  | putchar (c : UInt8) : Outputs (.putchar c) [c]
  | print (text : Buffer) {string : List UInt8} (color : UInt16) (holds : HoldsString text string)
    (short : string.length ≤ 100) : Outputs (.print text color) string

/-- A character that is laid out as a part of the text: no zero and no backspace. -/
def Plain (c : UInt8) : Prop := c ≠ 0 ∧ c ≠ 8

namespace Terminal

variable {t : Terminal} {r : Rows}

theorem ShowsText.foldl_printCharacter (h : t.ShowsText r) (color : UInt16) (string : List UInt8) :
    (string.foldl (fun t c => t.printCharacter color c) t).ShowsText
      (string.foldl Rows.place r) := by
  induction string generalizing t r with
  | nil => exact h
  | cons c string ih => exact ih (h.printCharacter color c)

theorem ShowsText.perform (h : t.ShowsText r) {call : TerminalCall} {string : List UInt8}
    (hcall : Outputs call string) (hplain : ∀ c ∈ string, Plain c) :
    (call.perform t).ShowsText (string.foldl Rows.place r) := by
  cases hcall with
  | putchar c => exact h.putchar (hplain c List.mem_cons_self).2
  | print text color holds short =>
    have hcharacters : charactersFrom text 0 100 = string := by
      refine charactersFrom_eq (fun k hk => ?_) ?_ (fun c hc => (hplain c hc).1) short
      · rw [Nat.zero_add]
        exact holds.characters k hk
      · rw [Nat.zero_add]
        exact holds.terminator
    have hloop : t.print text color = string.foldl (fun t c => t.printCharacter color c) t := by
      rw [print, printFrom_eq_performAll, hcharacters, performAll, List.foldl_map]
      simp only [printStep_perform]
    rw [TerminalCall.perform, hloop]
    exact h.foldl_printCharacter color string

theorem ShowsText.foldl_perform (h : t.ShowsText r) {calls : List TerminalCall}
    {strings : List (List UInt8)} (hcalls : List.Forall₂ Outputs calls strings)
    (hplain : ∀ c ∈ strings.flatten, Plain c) :
    (calls.foldl (fun t call => call.perform t) t).ShowsText
      (strings.flatten.foldl Rows.place r) := by
  induction hcalls generalizing t r with
  | nil => exact h
  | @cons call string calls strings hcall hcalls ih =>
    rw [List.flatten_cons] at hplain ⊢
    rw [List.foldl_cons, List.foldl_append]
    exact ih (h.perform hcall fun c hc => hplain c (List.mem_append_left _ hc))
      fun c hc => hplain c (List.mem_append_right _ hc)

end Terminal

/-- A screen that is cleared before some output. -/
def Terminal.output (t : Terminal) (color : UInt16) (calls : List TerminalCall) : Terminal :=
  calls.foldl (fun t call => call.perform t) (t.clear color)

theorem Terminal.output_showsText (t : Terminal) (color : UInt16) {calls : List TerminalCall}
    {strings : List (List UInt8)} (hcalls : List.Forall₂ Outputs calls strings)
    (hplain : ∀ c ∈ strings.flatten, Plain c) :
    (t.output color calls).ShowsText (layout strings.flatten) :=
  ShowsText.foldl_perform ⟨clear_shows t color, Nat.zero_lt_succ 79⟩ hcalls hplain

theorem Rows.length_visible (r : Rows) : r.visible.length = min r.done.length 24 + 1 := by
  rw [visible, List.length_drop, length_all]
  omega

/-- The current row is the last one on the screen. -/
theorem Rows.getLast?_visible (r : Rows) : r.visible.getLast? = some r.current := by
  rw [visible, List.getLast?_drop, if_neg (by rw [length_all]; omega), all, List.getLast?_concat]

/-- The screen shows the last 25 rows of the text and the cursor is at its end, whatever
mixture of `putchar` and `print` the text comes from; the same text always looks the same. -/
theorem screen_layout (t : Terminal) (color : UInt16) {calls : List TerminalCall}
    {strings : List (List UInt8)} (hcalls : List.Forall₂ Outputs calls strings)
    (hplain : ∀ c ∈ strings.flatten, Plain c) :
    let rows := layout strings.flatten
    let t' := t.output color calls
    (∀ y x : Nat, y < 25 → x < 80 →
        characterOf (t'.video.cells (y * 80 + x)) = (rows.visible.getD y []).getD x 32) ∧
      (t'.cursorY + 1 = rows.visible.length ∧ t'.cursorX = rows.current.length ∧
        rows.visible.getLast? = some rows.current) ∧
      ∀ (calls' : List TerminalCall) (strings' : List (List UInt8)),
        List.Forall₂ Outputs calls' strings' → strings'.flatten = strings.flatten →
          let t'' := t.output color calls'
          t''.cursorX = t'.cursorX ∧ t''.cursorY = t'.cursorY ∧
            ∀ y x : Nat, y < 25 → x < 80 →
              characterOf (t''.video.cells (y * 80 + x)) =
                characterOf (t'.video.cells (y * 80 + x)) := by
  intro rows t'
  have hshows : t'.ShowsText rows := t.output_showsText color hcalls hplain
  have hrow := hshows.row
  have hvisible := rows.length_visible
  refine ⟨hshows.cells, ⟨by omega, hshows.column, rows.getLast?_visible⟩, ?_⟩
  intro calls' strings' hcalls' hsame t''
  have hshows' : t''.ShowsText rows := by
    have htext := t.output_showsText color hcalls' (hsame ▸ hplain)
    rwa [hsame] at htext
  refine ⟨hshows'.column.trans hshows.column.symm, hshows'.row.trans hshows.row.symm, ?_⟩
  exact fun y x hy hx => (hshows'.cells y x hy hx).trans (hshows.cells y x hy hx).symm

/-- A letter from `putchar`, then a letter and a line feed from `print`. -/
theorem screen_layout_sample :
    let t := Terminal.output ⟨7, 3, ⟨fun _ => 0x1234, []⟩, 0⟩ 0
      [.putchar 72, .print (fun i => [105, 10].getD i 0) 14]
    characterOf (t.video.cells 1) = 105 ∧ t.cursorX = 0 ∧ t.cursorY = 1 := by
  intro t
  have hcalls : List.Forall₂ Outputs
      [.putchar 72, .print (fun i => [105, 10].getD i 0) 14] [[72], [105, 10]] :=
    .cons (.putchar 72) (.cons (.print _ 14 ⟨fun _ _ => rfl, rfl⟩ (by decide)) .nil)
  have hplain : ∀ c ∈ [[72], [105, 10]].flatten, Plain c := by
    intro c hc
    rcases List.mem_cons.mp hc with rfl | hc
    · exact ⟨by decide, by decide⟩
    rcases List.mem_cons.mp hc with rfl | hc
    · exact ⟨by decide, by decide⟩
    · rw [List.mem_singleton.mp hc]
      exact ⟨by decide, by decide⟩
  obtain ⟨hcells, ⟨hrow, hcolumn, -⟩, -⟩ :=
    screen_layout ⟨7, 3, ⟨fun _ => 0x1234, []⟩, 0⟩ 0 hcalls hplain
  have hlines : (layout [[72], [105, 10]].flatten).visible = [[72, 105], []] := by decide
  have hend : (layout [[72], [105, 10]].flatten).current = [] := by decide
  rw [hlines] at hrow
  rw [hend] at hcolumn
  refine ⟨?_, hcolumn, ?_⟩
  · have hsecond := hcells 0 1 (by decide) (by decide)
    rw [hlines] at hsecond
    exact hsecond
  · have htwo : t.cursorY + 1 = 2 := hrow
    omega

end LevOS.Drivers
