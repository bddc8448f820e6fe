import LevOS.Drivers.Keyboard
import Mathlib.Data.List.Basic
import Mathlib.Data.List.GetD

/-!
# Typing

What a key gives depends on the scancodes before it: on the shift keys that are held, and on
how often caps lock has been pressed. The keyboard keeps three flags instead of the history,
and this is enough.

## Main definitions

* `held`, `locked`, what the history says about the shift and lock keys
* `typed`, the characters that a sequence of scancodes gives
* `Keyboard.Follows`, the flags stand for a history

## Main results

* `keyboardIrq_typed`, one scancode
* `typable_iff`, which characters can be typed at all
* `keyboard_types`
-/

namespace LevOS.Drivers

open LevOS.Foundation

/-! ## Histories -/

/-- A key is held: the last scancode of it was that of the press. -/
def held (code : UInt8) (history : List UInt8) : Bool :=
  (history.filter fun scancode => scancode &&& 0x7F == code).getLast? == some code

/-- Caps lock is on: it has been pressed an odd number of times. -/
def locked (history : List UInt8) : Bool := history.count 0x3A % 2 == 1

/-- The shift and lock keys. -/
def isModifier (code : UInt8) : Bool := code == 0x2A || code == 0x36 || code == 0x3A

/-- What a key gives. Caps lock concerns letters only, and where a key has no other character
for shift it gives the one that it has. -/
def keyCharacter (shift caps : Bool) (code : UInt8) : UInt8 :=
  let value := table code
  if 97 ≤ value ∧ value ≤ 122 then if shift != caps then value - 32 else value
  else if shift ∧ shiftedTable code ≠ 0 then shiftedTable code
  else value

/-- The character that a scancode gives behind a history, if it gives any. -/
def typedBy (history : List UInt8) (scancode : UInt8) : Option UInt8 :=
  if scancode &&& 0x80 ≠ 0 ∨ isModifier scancode then none
  else
    let c := keyCharacter (held 0x2A history || held 0x36 history) (locked history) scancode
    if c = 0 then none else some c

/-- The characters that a sequence of scancodes gives. -/
def typed (scancodes : List UInt8) : List UInt8 :=
  (List.range scancodes.length).filterMap fun i => typedBy (scancodes.take i) (scancodes.getD i 0)

theorem typed_concat (scancodes : List UInt8) (scancode : UInt8) :
    typed (scancodes ++ [scancode]) = typed scancodes ++ (typedBy scancodes scancode).toList := by
  have hbefore : ∀ i ∈ List.range scancodes.length,
      typedBy ((scancodes ++ [scancode]).take i) ((scancodes ++ [scancode]).getD i 0) =
        typedBy (scancodes.take i) (scancodes.getD i 0) := by
    intro i hi
    have hlt := List.mem_range.mp hi
    rw [List.take_append_of_le_length hlt.le, List.getD_append _ _ _ _ hlt]
  have hlast : typedBy ((scancodes ++ [scancode]).take scancodes.length)
      ((scancodes ++ [scancode]).getD scancodes.length 0) = typedBy scancodes scancode := by
    rw [List.take_left, List.getD_append_right _ _ _ _ le_rfl, Nat.sub_self, List.getD_cons_zero]
  rw [typed, List.length_append, List.length_singleton, List.range_succ, List.filterMap_append,
    List.filterMap_congr hbefore, typed]
  congr 1
  simp only [List.filterMap_cons, hlast, List.filterMap_nil]
  cases typedBy scancodes scancode <;> rfl

theorem held_concat {code scancode : UInt8} (history : List UInt8) :
    held code (history ++ [scancode]) =
      if scancode &&& 0x7F = code then scancode == code else held code history := by
  rw [held, List.filter_append]
  by_cases hkey : scancode &&& 0x7F = code
  · simp [hkey]
  · simp [hkey, held]

theorem locked_concat (history : List UInt8) (scancode : UInt8) :
    locked (history ++ [scancode]) =
      if scancode = 0x3A then !locked history else locked history := by
  rw [locked, List.count_append, List.count_singleton]
  by_cases hkey : scancode = 0x3A
  · simp only [hkey, beq_self_eq_true, if_true, locked]
    rcases Nat.mod_two_eq_zero_or_one (history.count 0x3A) with heven | hodd
    · simp [heven, Nat.add_mod]
    · simp [hodd, Nat.add_mod]
  · simp [hkey, locked]

/-! ## The flags -/

/-- The flags of the keyboard say what the history says. -/
structure Keyboard.Follows (k : Keyboard) (history : List UInt8) : Prop where
  leftShift : k.leftShift = held 0x2A history
  rightShift : k.rightShift = held 0x36 history
  capsLock : k.capsLock = locked history

/-- The characters that a sequence of moves has taken in, or has dropped. -/
def offered (moves : List (Move UInt8)) : List UInt8 :=
  moves.filterMap fun | .accepted c => some c | .dropped c => some c | _ => none

/-- The code of a press is its scancode. -/
theorem code_of_press {scancode : UInt8} (hpress : scancode &&& 0x80 = 0) :
    scancode &&& 0x7F = scancode := by
  have hall : ∀ c : BitVec 8, c &&& 0x80 = 0 → c &&& 0x7F = c := by decide +kernel
  exact UInt8.eq_of_toBitVec_eq (hall scancode.toBitVec (congrArg UInt8.toBitVec hpress))

/-- Of the scancodes of a key the press is the one that is its code. -/
theorem eq_code_iff (scancode : UInt8) : scancode = scancode &&& 0x7F ↔ scancode &&& 0x80 = 0 := by
  constructor
  · intro hcode
    rw [hcode, UInt8.and_assoc]
    exact UInt8.and_zero
  · exact fun hpress => (code_of_press hpress).symm

theorem scancodeToAscii_eq (k : Keyboard) {code : UInt8} (hpress : code &&& 0x80 = 0) :
    scancodeToAscii k code = keyCharacter (k.leftShift || k.rightShift) k.capsLock code := by
  have hcapital (value : UInt8) : value - 97 + 65 = value - 32 := by
    have hall : ∀ c : BitVec 8, c - 97 + 65 = c - 32 := by decide +kernel
    exact UInt8.eq_of_toBitVec_eq (hall value.toBitVec)
  unfold scancodeToAscii keyCharacter
  simp only [hpress, code_of_press hpress, hcapital, ne_eq, not_true_eq_false, if_false]

theorem typedBy_modifier {scancode : UInt8} (hkey : isModifier (scancode &&& 0x7F) = true)
    (history : List UInt8) : typedBy history scancode = none := by
  refine if_pos ?_
  by_cases hpress : scancode &&& 0x80 = 0
  · exact Or.inr (code_of_press hpress ▸ hkey)
  · exact Or.inl hpress

theorem typedBy_press {scancode : UInt8} (hpress : scancode &&& 0x80 = 0)
    (hkey : isModifier scancode = false) (history : List UInt8) :
    typedBy history scancode =
      let c := keyCharacter (held 0x2A history || held 0x36 history) (locked history) scancode
      if c = 0 then none else some c := by
  refine if_neg ?_
  rintro (hrelease | hmodifier)
  · exact hrelease hpress
  · rw [hkey] at hmodifier
    cases hmodifier

/-- A key that is neither shift nor lock leaves the flags right. -/
theorem Keyboard.Follows.other {k : Keyboard} {history : List UInt8} (h : k.Follows history)
    {scancode : UInt8} (hkey : isModifier (scancode &&& 0x7F) = false) :
    k.Follows (history ++ [scancode]) := by
  simp only [isModifier, Bool.or_eq_false_iff, beq_eq_false_iff_ne] at hkey
  obtain ⟨⟨hleft, hright⟩, hlock⟩ := hkey
  refine ⟨?_, ?_, ?_⟩
  · rw [held_concat, if_neg hleft, h.leftShift]
  · rw [held_concat, if_neg hright, h.rightShift]
  · rw [locked_concat, if_neg, h.capsLock]
    rintro rfl
    exact hlock rfl

/-- The handler keeps the flags, and offers to the buffer what has been typed. -/
theorem keyboardIrq_typed {k : Keyboard} {history : List UInt8} (h : k.Follows history)
    (scancode : UInt8) :
    (keyboardIrq k scancode).2.Follows (history ++ [scancode]) ∧
      offered [(keyboardIrq k scancode).1] = (typedBy history scancode).toList := by
  have hpressed (code : UInt8) (hcode : scancode &&& 0x7F = code) :
      (scancode == code) = decide (scancode &&& 0x80 = 0) := by
    rw [← hcode, Bool.eq_iff_iff, beq_iff_eq, decide_eq_true_iff, eq_code_iff]
  unfold keyboardIrq
  simp only
  -- the two shift keys, caps lock, and then all keys that leave the flags alone
  by_cases hleft : scancode &&& 0x7F = 0x2A
  · have hmodifier : isModifier (scancode &&& 0x7F) = true := by rw [hleft]; rfl
    rw [if_pos hleft, typedBy_modifier hmodifier]
    refine ⟨⟨?_, ?_, ?_⟩, rfl⟩
    · rw [held_concat, if_pos hleft, hpressed _ hleft]
    · rw [held_concat, if_neg (by rw [hleft]; decide)]
      exact h.rightShift
    · rw [locked_concat, if_neg (by rintro rfl; exact absurd hleft (by decide))]
      exact h.capsLock
  by_cases hright : scancode &&& 0x7F = 0x36
  · have hmodifier : isModifier (scancode &&& 0x7F) = true := by rw [hright]; rfl
    rw [if_neg hleft, if_pos hright, typedBy_modifier hmodifier]
    refine ⟨⟨?_, ?_, ?_⟩, rfl⟩
    · rw [held_concat, if_neg hleft]
      exact h.leftShift
    · rw [held_concat, if_pos hright, hpressed _ hright]
    · rw [locked_concat, if_neg (by rintro rfl; exact absurd hright (by decide))]
      exact h.capsLock
  by_cases hlock : scancode &&& 0x7F = 0x3A
  · have hmodifier : isModifier (scancode &&& 0x7F) = true := by rw [hlock]; rfl
    have hpress : scancode = 0x3A ↔ scancode &&& 0x80 = 0 := by rw [← eq_code_iff, hlock]
    rw [if_neg hleft, if_neg hright, if_pos hlock, typedBy_modifier hmodifier]
    refine ⟨⟨?_, ?_, ?_⟩, rfl⟩
    · rw [held_concat, if_neg hleft, ← h.leftShift]
      split_ifs <;> rfl
    · rw [held_concat, if_neg hright, ← h.rightShift]
      split_ifs <;> rfl
    · simp only [locked_concat, hpress, ← h.capsLock]
      split_ifs <;> rfl
  have hother : isModifier (scancode &&& 0x7F) = false := by simp [isModifier, hleft, hright, hlock]
  rw [if_neg hleft, if_neg hright, if_neg hlock]
  by_cases hpress : scancode &&& 0x80 = 0
  · rw [if_pos hpress, code_of_press hpress, scancodeToAscii_eq k hpress, h.leftShift, h.rightShift,
      h.capsLock, typedBy_press hpress (code_of_press hpress ▸ hother)]
    generalize keyCharacter _ _ scancode = c
    -- a press offers its character, if it has one
    by_cases hchar : c = 0
    · rw [if_neg (not_not.mpr hchar), if_pos hchar]
      exact ⟨h.other hother, rfl⟩
    · rw [if_pos hchar, if_neg hchar]
      unfold keyboardBufferPut
      simp only
      split_ifs
      · exact ⟨h.other hother, rfl⟩
      · exact ⟨⟨(h.other hother).leftShift, (h.other hother).rightShift,
          (h.other hother).capsLock⟩, rfl⟩
  · rw [if_neg hpress, typedBy, if_pos (Or.inl hpress)]
    exact ⟨h.other hother, rfl⟩

/-- Which characters can be typed: all that can be printed but the brackets, a line feed and a
backspace. -/
theorem typable_iff (c : UInt8) :
    (∃ history scancode, typedBy history scancode = some c) ↔
      c = 8 ∨ c = 10 ∨ (32 ≤ c ∧ c ≤ 126 ∧ c ≠ 91 ∧ c ≠ 93) := by
  constructor
  · rintro ⟨history, scancode, htyped⟩
    have hall : ∀ (shift caps : Bool) (code : BitVec 8),
        let c := keyCharacter shift caps ⟨code⟩
        c ≠ 0 → c = 8 ∨ c = 10 ∨ (32 ≤ c ∧ c ≤ 126 ∧ c ≠ 91 ∧ c ≠ 93) := by decide +kernel
    unfold typedBy at htyped
    simp only at htyped
    split_ifs at htyped with hkey hnone
    obtain rfl := Option.some.inj htyped
    exact hall _ _ scancode.toBitVec hnone
  · -- every key is tried without and with shift
    intro hc
    have hkeys : ∀ b : BitVec 8,
        let c : UInt8 := ⟨b⟩
        c = 8 ∨ c = 10 ∨ (32 ≤ c ∧ c ≤ 126 ∧ c ≠ 91 ∧ c ≠ 93) →
          some c ∈ ((List.range 128).map fun code => typedBy [] (UInt8.ofNat code)) ++
            (List.range 128).map fun code => typedBy [0x2A] (UInt8.ofNat code) := by
      decide +kernel
    rcases List.mem_append.mp (hkeys c.toBitVec hc) with hplain | hshift
    · obtain ⟨code, -, hcode⟩ := List.mem_map.mp hplain
      exact ⟨_, _, hcode⟩
    · obtain ⟨code, -, hcode⟩ := List.mem_map.mp hshift
      exact ⟨_, _, hcode⟩

theorem typable_of_mem_typed {scancodes : List UInt8} {c : UInt8} (hc : c ∈ typed scancodes) :
    c = 8 ∨ c = 10 ∨ (32 ≤ c ∧ c ≤ 126 ∧ c ≠ 91 ∧ c ≠ 93) := by
  obtain ⟨i, -, hi⟩ := List.mem_filterMap.mp hc
  exact (typable_iff c).mp ⟨_, _, hi⟩

/-! ## Runs -/

/-- The scancodes among some events. -/
def scancodes (events : List ConsoleEvent) : List UInt8 :=
  events.filterMap fun | .irq scancode => some scancode | _ => none

/-- What the caller does neither types nor changes the flags. -/
theorem Console.step_typed {s s' : Console} {history : List UInt8}
    (h : s.keyboard.Follows history) {event : ConsoleEvent} {move : Move UInt8}
    (hstep : s.step event = some (move, s')) :
    s'.keyboard.Follows (history ++ scancodes [event]) ∧
      typed history ++ offered [move] = typed (history ++ scancodes [event]) := by
  -- only the handler takes a scancode, and the caller leaves the flags alone
  cases event with
  | irq scancode =>
    obtain ⟨hfollows, hoffered⟩ := keyboardIrq_typed h scancode
    have hboth : ((keyboardIrq s.keyboard scancode).1,
        Console.mk (keyboardIrq s.keyboard scancode).2 s.reading) = (move, s') :=
      Option.some.inj hstep
    obtain ⟨rfl, rfl⟩ := Prod.mk.inj hboth
    refine ⟨hfollows, ?_⟩
    rw [hoffered]
    exact (typed_concat history scancode).symm
  | look =>
    rw [show scancodes [.look] = [] from rfl, List.append_nil]
    cases hreading : s.reading with
    | some c => simp [Console.step, hreading] at hstep
    | none =>
      simp only [Console.step, hreading] at hstep
      split_ifs at hstep
      · obtain ⟨rfl, rfl⟩ := Prod.mk.inj (Option.some.inj hstep)
        exact ⟨h, List.append_nil _⟩
      · obtain ⟨rfl, rfl⟩ := Prod.mk.inj (Option.some.inj hstep)
        exact ⟨h, List.append_nil _⟩
  | remove =>
    rw [show scancodes [.remove] = [] from rfl, List.append_nil]
    cases hreading : s.reading with
    | none => simp [Console.step, hreading] at hstep
    | some c =>
      simp only [Console.step, hreading] at hstep
      obtain ⟨rfl, rfl⟩ := Prod.mk.inj (Option.some.inj hstep)
      exact ⟨⟨h.leftShift, h.rightShift, h.capsLock⟩, List.append_nil _⟩

theorem scancodes_append (events events' : List ConsoleEvent) :
    scancodes (events ++ events') = scancodes events ++ scancodes events' :=
  List.filterMap_append

theorem offered_append (moves moves' : List (Move UInt8)) :
    offered (moves ++ moves') = offered moves ++ offered moves' :=
  List.filterMap_append

theorem Console.Run.typed {s s' : Console} {events : List ConsoleEvent} {moves : List (Move UInt8)}
    (h : Console.Run s events moves s') (hstart : s.keyboard.Follows []) :
    s'.keyboard.Follows (scancodes events) ∧ offered moves = Drivers.typed (scancodes events) := by
  induction h with
  | nil => exact ⟨hstart, rfl⟩
  | snoc _ hstep ih =>
    obtain ⟨hfollows, hoffered⟩ := ih
    obtain ⟨hfollows', htyped⟩ := Console.step_typed hfollows hstep
    rw [scancodes_append, offered_append, hoffered]
    exact ⟨hfollows', htyped⟩

/-- What is taken in is offered. -/
theorem accepts_sublist_offered (moves : List (Move UInt8)) :
    (Fifo.accepts moves).Sublist (offered moves) := by
  induction moves with
  | nil => exact .slnil
  | cons move moves ih =>
    cases move with
    | accepted c => exact ih.cons_cons c
    | dropped c => exact ih.cons c
    | _ => exact ih

/-- If nothing is dropped all that is offered is taken in. -/
theorem accepts_eq_offered {moves : List (Move UInt8)} (hkept : ∀ c, .dropped c ∉ moves) :
    Fifo.accepts moves = offered moves := by
  induction moves with
  | nil => rfl
  | cons move moves ih =>
    have hrest := ih fun c hc => hkept c (List.mem_cons_of_mem _ hc)
    cases move with
    | accepted c => exact congrArg (c :: ·) hrest
    | dropped c => exact absurd List.mem_cons_self (hkept c)
    | _ => exact hrest

/-- The keyboard after `init_keyboard`, with its buffer empty. -/
def initialConsole (buffer : Nat → UInt8) : Console := ⟨⟨buffer, 0, 0, false, false, false⟩, none⟩

/-- The caller is given what has been typed, in its order, and only what has been dropped is
missing. -/
theorem Console.Run.returns_typed {buffer : Nat → UInt8} {events : List ConsoleEvent}
    {moves : List (Move UInt8)} {s : Console}
    (hrun : Console.Run (initialConsole buffer) events moves s) :
    (Fifo.returns moves).Sublist (Drivers.typed (scancodes events)) ∧
      ((∀ c, .dropped c ∉ moves) → Fifo.returns moves <+: Drivers.typed (scancodes events)) := by
  have hstart : (initialConsole buffer).Stands ⟨[], false⟩ :=
    ⟨.nil (Nat.succ_pos 127), fun c hc => absurd hc List.not_mem_nil, rfl, fun h => absurd h (by simp)⟩
  obtain ⟨-, htyped⟩ := hrun.typed (show (initialConsole buffer).keyboard.Follows [] from
    ⟨rfl, rfl, rfl⟩)
  obtain ⟨f, hfifo, -⟩ := hrun.stands hstart
  have hsplit := hfifo.conserves
  rw [← htyped]
  refine ⟨(hsplit ▸ List.sublist_append_left _ _).trans (accepts_sublist_offered moves), ?_⟩
  intro hkept
  rw [← accepts_eq_offered hkept, hsplit]
  exact List.prefix_append _ _

/-- Whatever keys are pressed, held and released, and however the handler interrupts its
caller, the handler offers to the buffer the characters that the history of the keys gives.
The caller is given some of them in their order, the first ones if none has been dropped, and
only characters that can be printed, line feeds and backspaces. -/
theorem keyboard_types (buffer : Nat → UInt8) {events : List ConsoleEvent}
    {moves : List (Move UInt8)} {s : Console}
    (hrun : Console.Run (initialConsole buffer) events moves s) :
    offered moves = typed (scancodes events) ∧
      (Fifo.returns moves).Sublist (typed (scancodes events)) ∧
      ((∀ c, .dropped c ∉ moves) → Fifo.returns moves <+: typed (scancodes events)) ∧
      ∀ c ∈ Fifo.returns moves, c = 8 ∨ c = 10 ∨ (32 ≤ c ∧ c ≤ 126 ∧ c ≠ 91 ∧ c ≠ 93) := by
  obtain ⟨-, htyped⟩ := hrun.typed (show (initialConsole buffer).keyboard.Follows [] from
    ⟨rfl, rfl, rfl⟩)
  obtain ⟨hsome, hfirst⟩ := hrun.returns_typed
  exact ⟨htyped, hsome, hfirst, fun c hc => typable_of_mem_typed (hsome.subset hc)⟩

/-- A capital letter, typed with shift and read when shift has been released. -/
theorem keyboard_types_capital :
    typed (scancodes [.irq 0x2A, .irq 0x1E, .look, .irq 0xAA, .remove]) = [65] ∧
      Fifo.returns [.idle, .accepted 65, .looked, .idle, .returned (65 : UInt8)] <+: [65] := by
  have hrun : ∃ s, Console.Run (initialConsole fun _ => 0)
      [.irq 0x2A, .irq 0x1E, .look, .irq 0xAA, .remove]
      [.idle, .accepted 65, .looked, .idle, .returned 65] s :=
    ⟨_, .snoc (.snoc (.snoc (.snoc (.snoc .nil rfl) rfl) rfl) rfl) rfl⟩
  obtain ⟨s, hrun⟩ := hrun
  obtain ⟨hoffered, -, hfirst, -⟩ := keyboard_types (fun _ => 0) hrun
  have htyped : typed (scancodes [.irq 0x2A, .irq 0x1E, .look, .irq 0xAA, .remove]) = [65] :=
    hoffered.symm
  rw [htyped] at hfirst
  exact ⟨htyped, hfirst fun c hc => by simp at hc⟩

end LevOS.Drivers
