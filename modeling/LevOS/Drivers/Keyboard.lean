import LevOS.Foundation.Ring

/-!
# The keyboard queue

The interrupt handler of `drivers/keyboard.c` translates scancodes and puts the
characters into a ring buffer of 128 cells, from which `keyboard_getchar` takes
them. The handler runs to completion, but it may run in the middle of
`keyboard_getchar`: after the character has been read and before the tail has
moved. A call is therefore two moves of the model, and the handler may come
between them.

## Main definitions

* `Keyboard`, with `keyboardIrq` and `keyboardGetchar` as in the source
* `Console`, the keyboard together with a call that is under way
* `Console.step`, the moves of handler and caller

## Main results

* `keyboardGetchar_eq`, an undisturbed call is its two moves
* `keyboard_queue`, the ring buffer is a bounded first-in first-out queue
-/

namespace LevOS.Drivers

open LevOS.Foundation

/-! ## Scancodes -/

/-- The characters of a key table, row by row: each row starts at a scancode. -/
def keyTable (rows : List (Nat × String)) (code : UInt8) : UInt8 :=
  (rows.findSome? fun row =>
    if row.1 ≤ code.toNat then (row.2.toList.map Char.toUInt8)[code.toNat - row.1]? else none).getD 0

/-- `table`. -/
def table : UInt8 → UInt8 :=
  keyTable [(0x39, " "), (0x2B, "\\zxcvbnm,./"), (0x1E, "asdfghjkl;'`"), (0x1C, "\n"),
    (0x10, "qwertyuiop"), (0x0E, "\x08"), (0x02, "1234567890-=")]

/-- `shifted_table`. -/
def shiftedTable : UInt8 → UInt8 :=
  keyTable [(0x2B, "|ZXCVBNM<>?"), (0x1E, "ASDFGHJKL:\"~"), (0x10, "QWERTYUIOP\x7b\x7d"),
    (0x02, "!@#$%^&*()_+")]

/-- The state of `keyboard.c`: the ring buffer with its indices, and the keys held
or locked. -/
structure Keyboard where
  keyboardBuffer : Nat → UInt8
  bufferHead : Nat
  bufferTail : Nat
  leftShift : Bool
  rightShift : Bool
  capsLock : Bool

/-- `scancode_to_ascii`. Letters follow the shift and lock keys, other characters
have a shifted form of their own. -/
def scancodeToAscii (k : Keyboard) (scancode : UInt8) : UInt8 :=
  let upper := k.leftShift || k.rightShift
  -- a released key has no character
  if scancode &&& 0x80 ≠ 0 then 0
  else
    let value := table scancode
    if 97 ≤ value ∧ value ≤ 122 then
      if upper != k.capsLock then value - 97 + 65 else value
    else if upper ∧ shiftedTable (scancode &&& 0x7F) ≠ 0 then shiftedTable (scancode &&& 0x7F)
    else value

/-- `keyboard_buffer_put`, with what becomes of the character. -/
def keyboardBufferPut (k : Keyboard) (c : UInt8) : Move UInt8 × Keyboard :=
  let next := (k.bufferHead + 1) % 128
  -- one cell stays free, to tell a full buffer from an empty one
  if next = k.bufferTail then (.dropped c, k)
  else
    (.accepted c,
      { k with keyboardBuffer := Function.update k.keyboardBuffer k.bufferHead c
               bufferHead := next })

/-- `keyboard_irq` for the scancode read from the controller. -/
def keyboardIrq (k : Keyboard) (scancode : UInt8) : Move UInt8 × Keyboard :=
  let code := scancode &&& 0x7F
  -- shift keys follow press and release, caps lock only the press
  if code = 0x2A then (.idle, { k with leftShift := scancode &&& 0x80 = 0 })
  else if code = 0x36 then (.idle, { k with rightShift := scancode &&& 0x80 = 0 })
  else if code = 0x3A then
    (.idle, if scancode &&& 0x80 = 0 then { k with capsLock := !k.capsLock } else k)
  else if scancode &&& 0x80 = 0 then
    let asciichar := scancodeToAscii k code
    if asciichar ≠ 0 then keyboardBufferPut k asciichar else (.idle, k)
  else (.idle, k)

/-- `keyboard_getchar`. -/
def keyboardGetchar (k : Keyboard) : UInt8 × Keyboard :=
  if k.bufferHead = k.bufferTail then (0, k)
  else (k.keyboardBuffer k.bufferTail, { k with bufferTail := (k.bufferTail + 1) % 128 })

/-! ## Interleavings -/

/-- The keyboard, and the character that a call of `keyboard_getchar` has read if one
is under way. -/
structure Console where
  keyboard : Keyboard
  reading : Option UInt8

/-- What can happen next: the handler runs, or the caller makes a move of its own. -/
inductive ConsoleEvent
  | irq (scancode : UInt8)
  | look
  | remove
  deriving DecidableEq

/-- One move. The caller can remove only what it has looked at, and looks again only
in its next call. -/
def Console.step (s : Console) : ConsoleEvent → Option (Move UInt8 × Console)
  | .irq scancode =>
    let (move, k) := keyboardIrq s.keyboard scancode
    some (move, { s with keyboard := k })
  | .look =>
    match s.reading with
    | some _ => none
    | none =>
      if s.keyboard.bufferHead = s.keyboard.bufferTail then some (.empty, s)
      else some (.looked, { s with reading := some (s.keyboard.keyboardBuffer s.keyboard.bufferTail) })
  | .remove =>
    match s.reading with
    | none => none
    | some c =>
      some (.returned c,
        ⟨{ s.keyboard with bufferTail := (s.keyboard.bufferTail + 1) % 128 }, none⟩)

/-- A sequence of moves, with what they did. -/
inductive Console.Run : Console → List ConsoleEvent → List (Move UInt8) → Console → Prop
  | nil {s} : Run s [] [] s
  | snoc {s s' s'' events event moves move} : Run s events moves s' →
      s'.step event = some (move, s'') → Run s (events ++ [event]) (moves ++ [move]) s''

/-- A call that the handler does not interrupt is the caller's moves one after the
other. -/
theorem keyboardGetchar_eq (k : Keyboard) :
    (keyboardGetchar k).1 = 0 ∧ Console.step ⟨k, none⟩ .look = some (.empty, ⟨k, none⟩) ∨
      ∃ s, Console.step ⟨k, none⟩ .look = some (.looked, s) ∧
        s.step .remove = some (.returned (keyboardGetchar k).1, ⟨(keyboardGetchar k).2, none⟩) := by
  unfold keyboardGetchar Console.step
  by_cases hempty : k.bufferHead = k.bufferTail
  · simp [hempty]
  · simp [hempty]

/-! ## The queue -/

/-- The console stands for a queue: the ring buffer holds its characters, none of
them zero, and a character being read is the first of them. -/
structure Console.Stands (s : Console) (f : Fifo UInt8) : Prop where
  holds : Holds 128 s.keyboard.keyboardBuffer s.keyboard.bufferHead s.keyboard.bufferTail f.queue
  nonzero : ∀ c ∈ f.queue, c ≠ 0
  reading : s.reading = if f.looking then f.queue.head? else none
  looking : f.looking → f.queue ≠ []

/-- What the handler can do: it leaves the queue alone, or it puts a character. -/
theorem keyboardIrq_cases (k : Keyboard) (scancode : UInt8) :
    ((keyboardIrq k scancode).1 = .idle ∧
        (keyboardIrq k scancode).2.keyboardBuffer = k.keyboardBuffer ∧
        (keyboardIrq k scancode).2.bufferHead = k.bufferHead ∧
        (keyboardIrq k scancode).2.bufferTail = k.bufferTail) ∨
      ∃ c ≠ 0, keyboardIrq k scancode = keyboardBufferPut k c := by
  unfold keyboardIrq
  simp only
  -- the shift and lock keys, a key with a character, one without, and a release
  split_ifs with _ _ _ _ _ hchar
  · exact Or.inl ⟨rfl, rfl, rfl, rfl⟩
  · exact Or.inl ⟨rfl, rfl, rfl, rfl⟩
  · exact Or.inl ⟨rfl, rfl, rfl, rfl⟩
  · exact Or.inl ⟨rfl, rfl, rfl, rfl⟩
  · exact Or.inr ⟨_, hchar, rfl⟩
  · exact Or.inl ⟨rfl, rfl, rfl, rfl⟩
  · exact Or.inl ⟨rfl, rfl, rfl, rfl⟩

variable {s s' : Console} {f : Fifo UInt8}

theorem Console.Stands.put (h : s.Stands f) {c : UInt8} (hc : c ≠ 0) :
    ∃ g, Fifo.Step 127 f (keyboardBufferPut s.keyboard c).1 g ∧
      Console.Stands ⟨(keyboardBufferPut s.keyboard c).2, s.reading⟩ g := by
  obtain ⟨queue, looking⟩ := f
  have hlength := h.holds.length_lt
  have hfull := h.holds.full_iff
  simp only at hlength hfull
  unfold keyboardBufferPut
  -- the handler compares indices; the queue has 127 characters in exactly that case
  by_cases hnext : (s.keyboard.bufferHead + 1) % 128 = s.keyboard.bufferTail
  · rw [if_pos hnext]
    have hcount : queue.length = 127 := by
      have := hfull.mp hnext
      omega
    exact ⟨_, .dropped c hcount, h⟩
  · rw [if_neg hnext]
    have hroom : queue.length + 1 < 128 := Nat.lt_of_le_of_ne hlength (fun heq => hnext (hfull.mpr heq))
    refine ⟨_, .accepted c (by omega), h.holds.put hroom c, ?_, ?_, ?_⟩
    · intro d hd
      rcases List.mem_append.mp hd with hold | hnew
      · exact h.nonzero d hold
      · rw [List.mem_singleton.mp hnew]
        exact hc
    · -- the character being read is still the first one
      rw [h.reading]
      cases looking with
      | false => rfl
      | true =>
        obtain ⟨first, rest, rfl⟩ := List.exists_cons_of_ne_nil (h.looking rfl)
        rfl
    · exact fun _ => by simp

/-- Each move of handler or caller is a move of the queue. -/
theorem Console.Stands.step (h : s.Stands f) {event : ConsoleEvent} {move : Move UInt8}
    (hstep : s.step event = some (move, s')) : ∃ g, Fifo.Step 127 f move g ∧ s'.Stands g := by
  obtain ⟨queue, looking⟩ := f
  cases event with
  | irq scancode =>
    have hboth : ((keyboardIrq s.keyboard scancode).1,
        Console.mk (keyboardIrq s.keyboard scancode).2 s.reading) = (move, s') :=
      Option.some.inj hstep
    obtain ⟨rfl, rfl⟩ := Prod.mk.inj hboth
    rcases keyboardIrq_cases s.keyboard scancode with ⟨hmove, hbuffer, hhead, htail⟩ | ⟨c, hc, hput⟩
    · rw [hmove]
      refine ⟨_, .idle, ?_, h.nonzero, h.reading, h.looking⟩
      simp only [hbuffer, hhead, htail]
      exact h.holds
    · rw [hput]
      exact h.put hc
  -- a call under way rules out another look, and none under way a removal
  | look =>
    have hreading := h.reading
    cases looking with
    | true =>
      obtain ⟨first, rest, rfl⟩ := List.exists_cons_of_ne_nil (h.looking rfl)
      simp [Console.step, hreading] at hstep
    | false =>
      simp only [Console.step, hreading, Bool.false_eq_true, if_false] at hstep
      by_cases hempty : s.keyboard.bufferHead = s.keyboard.bufferTail
      · obtain rfl : queue = [] := h.holds.empty_iff.mp hempty
        rw [if_pos hempty] at hstep
        obtain ⟨rfl, rfl⟩ := Prod.mk.inj (Option.some.inj hstep)
        exact ⟨_, .empty, h⟩
      · obtain ⟨first, rest, rfl⟩ :=
          List.exists_cons_of_ne_nil (fun hnil => hempty (h.holds.empty_iff.mpr hnil))
        rw [if_neg hempty] at hstep
        obtain ⟨rfl, rfl⟩ := Prod.mk.inj (Option.some.inj hstep)
        exact ⟨_, .looked, h.holds, h.nonzero, congrArg some h.holds.front, fun _ => by simp⟩
  | remove =>
    have hreading := h.reading
    cases looking with
    | false => simp [Console.step, hreading] at hstep
    | true =>
      obtain ⟨first, rest, rfl⟩ := List.exists_cons_of_ne_nil (h.looking rfl)
      simp only [Console.step, hreading, if_true, List.head?_cons] at hstep
      obtain ⟨rfl, rfl⟩ := Prod.mk.inj (Option.some.inj hstep)
      exact ⟨_, .returned, h.holds.pop, fun c hc => h.nonzero c (List.mem_cons_of_mem _ hc), rfl,
        fun hfalse => absurd hfalse (by simp)⟩

theorem Console.Run.stands {events : List ConsoleEvent} {moves : List (Move UInt8)}
    (h : Console.Run s events moves s') (hstart : s.Stands f) :
    ∃ g, Fifo.Run 127 f moves g ∧ s'.Stands g := by
  induction h with
  | nil => exact ⟨f, .nil, hstart⟩
  | snoc _ hstep ih =>
    obtain ⟨g, hrun, hstands⟩ := ih
    obtain ⟨g', hmove, hstands'⟩ := hstands.step hstep
    exact ⟨g', .snoc hrun hmove, hstands'⟩

/-- Zero, which stands for an empty queue, is never a character of it. -/
theorem Console.Run.returns_nonzero {events : List ConsoleEvent} {moves : List (Move UInt8)}
    (h : Console.Run s events moves s') (hstart : s.Stands f) : ∀ c ∈ Fifo.returns moves, c ≠ 0 := by
  induction h with
  | nil => exact fun c hc => absurd hc List.not_mem_nil
  | snoc hbefore hstep ih =>
    obtain ⟨g, -, hstands⟩ := hbefore.stands hstart
    obtain ⟨g', hmove, -⟩ := hstands.step hstep
    intro c hc
    rw [Fifo.returns, List.filterMap_append] at hc
    rcases List.mem_append.mp hc with hold | hnew
    · exact ih c hold
    · cases hmove with
      | returned =>
        obtain rfl : c = _ := by simpa using hnew
        exact hstands.nonzero _ List.mem_cons_self
      | _ => simp at hnew

/-- The keyboard buffer is a first-in first-out queue for 127 characters, however the
handler and the caller are interleaved: the characters returned are those accepted, in
order; one is dropped only when 127 are waiting, and zero is returned only when none
is. -/
theorem keyboard_queue (buffer : Nat → UInt8) (leftShift rightShift capsLock : Bool)
    {events : List ConsoleEvent} {moves : List (Move UInt8)} {s : Console}
    (hrun : Console.Run ⟨⟨buffer, 0, 0, leftShift, rightShift, capsLock⟩, none⟩ events moves s) :
    (∃ f, Fifo.Run 127 ⟨[], false⟩ moves f ∧ s.Stands f ∧
        Fifo.accepts moves = Fifo.returns moves ++ f.queue ∧ f.queue.length ≤ 127) ∧
      (∀ c ∈ Fifo.returns moves, c ≠ 0) ∧
      (∀ before c after, moves = before ++ .dropped c :: after →
        (Fifo.accepts before).length = (Fifo.returns before).length + 127) ∧
      ∀ before after, moves = before ++ .empty :: after →
        Fifo.accepts before = Fifo.returns before := by
  have hstart : Console.Stands ⟨⟨buffer, 0, 0, leftShift, rightShift, capsLock⟩, none⟩ ⟨[], false⟩ :=
    ⟨.nil (Nat.succ_pos 127), fun c hc => absurd hc List.not_mem_nil, rfl, fun h => absurd h (by simp)⟩
  obtain ⟨f, hfifo, hstands⟩ := hrun.stands hstart
  -- what waited before a move is what was accepted and not yet returned
  have hwaiting : ∀ before move after, moves = before ++ move :: after →
      ∃ g g', Fifo.Step 127 g move g' ∧ Fifo.accepts before = Fifo.returns before ++ g.queue := by
    rintro before move after rfl
    obtain ⟨g, g', hbefore, hstep⟩ := hfifo.split
    exact ⟨g, g', hstep, hbefore.conserves⟩
  refine ⟨⟨f, hfifo, hstands, hfifo.conserves, Nat.le_of_lt_succ hstands.holds.length_lt⟩, ?_, ?_, ?_⟩
  · exact hrun.returns_nonzero hstart
  · intro before c after hmoves
    obtain ⟨g, g', hstep, hconserves⟩ := hwaiting before _ after hmoves
    cases hstep with
    | dropped c hfull => rw [hconserves, List.length_append, hfull]
  · intro before after hmoves
    obtain ⟨g, g', hstep, hconserves⟩ := hwaiting before _ after hmoves
    cases hstep with
    | empty => rw [hconserves, List.append_nil]

/-- Two letters, the second typed while the first is being read. -/
theorem keyboard_queue_letters :
    ∃ s, Console.Run ⟨⟨fun _ => 0, 0, 0, false, false, false⟩, none⟩
        [.irq 0x1E, .look, .irq 0x30, .remove]
        [.accepted 97, .looked, .accepted 98, .returned 97] s ∧
      ∃ f, s.Stands f ∧ [97, 98] = [97] ++ f.queue := by
  have hrun : ∃ s, Console.Run ⟨⟨fun _ => 0, 0, 0, false, false, false⟩, none⟩
      [.irq 0x1E, .look, .irq 0x30, .remove]
      [.accepted 97, .looked, .accepted 98, .returned 97] s :=
    ⟨_, .snoc (.snoc (.snoc (.snoc .nil rfl) rfl) rfl) rfl⟩
  obtain ⟨s, hrun⟩ := hrun
  obtain ⟨f, -, hstands, hconserves, -⟩ := (keyboard_queue _ _ _ _ hrun).1
  exact ⟨s, hrun, f, hstands, hconserves⟩

end LevOS.Drivers
