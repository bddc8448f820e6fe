import LevOS.Drivers.Pic
import LevOS.Drivers.Typing

/-!
# Scancodes

A scancode goes from the keyboard to its controller, which holds one of them in the data port
and raises line 1 while it does; from there to the handler, which the interrupt controllers
start; and from the handler, as a character, to whoever calls `keyboard_getchar`. The interrupt
controllers see only the moment at which the line rises. If it is high before they have been
initialised, no such moment ever comes.

## Main definitions

* `KeyboardController`, the data port and what waits in front of it
* `KeyLine`, all the stations of a scancode, with `KeyLine.step`
* `KeyLine.Aligned`, the invariant: the line is high exactly while a request is on its way
* `KeyLine.Deaf`, the line has been high too early

## Main results

* `scancodes_conserved`
-/

namespace LevOS.Drivers

open LevOS.Foundation

/-! ## The stations of a scancode -/

/-- The controller of the keyboard: the scancodes that wait, the data port, and whether it
holds one that has not been read. -/
structure KeyboardController where
  waiting : List UInt8
  data : UInt8
  full : Bool

/-- What has been sent and not been read. -/
def KeyboardController.pending (c : KeyboardController) : List UInt8 :=
  (if c.full then [c.data] else []) ++ c.waiting

/-- The interrupt controllers, that of the keyboard, the driver with its caller, and whether
the handler of the keyboard has read the port already. -/
structure KeyLine where
  interrupts : Interrupts
  controller : KeyboardController
  console : Console
  hasRead : Bool

/-- What the devices do: the keyboard sends a scancode, its controller puts the next one into
the port, and other lines change. -/
inductive DeviceEvent
  | send (scancode : UInt8)
  | present
  | line (n : Nat) (high : Bool)

/-- What can happen next: something at the devices, the processor accepts, the handler of the
keyboard reads the port and runs, a handler ends, or a move of the caller. -/
inductive KeyLineEvent
  | device (event : DeviceEvent)
  | accept
  | handle
  | finish
  | caller (event : ConsoleEvent)

namespace KeyLine

/-- The handler of the keyboard has been entered and has not read the port. -/
def entered (s : KeyLine) : Bool := s.interrupts.handling == some 0x21 && !s.hasRead

/-- A line changes. -/
def setLine (s : KeyLine) (n : Nat) (high : Bool) : Option KeyLine :=
  (s.interrupts.step (.line n high)).map fun (_, interrupts) => { s with interrupts := interrupts }

/-- A step of the devices. -/
def device (s : KeyLine) : DeviceEvent → Option KeyLine
  | .send scancode =>
    some { s with
      controller := { s.controller with waiting := s.controller.waiting ++ [scancode] } }
  | .present =>
    match s.controller.full, s.controller.waiting with
    | false, scancode :: rest => { s with controller := ⟨rest, scancode, true⟩ }.setLine 1 true
    | _, _ => none
  | .line n high => if n = 1 then none else s.setLine n high

/-- One step, with the move at the driver if it is one. Handlers run with interrupts off, so
the caller moves only while none of them runs. -/
def step (s : KeyLine) : KeyLineEvent → Option (Option (ConsoleEvent × Move UInt8) × KeyLine)
  | .device event => (s.device event).map fun s' => (none, s')
  | .accept =>
    (s.interrupts.step .accept).map fun (_, interrupts) =>
      (none, { s with interrupts := interrupts, hasRead := false })
  | .handle =>
    if s.entered then
      (s.console.step (.irq s.controller.data)).bind fun (move, console) =>
        -- reading the port empties it, and the line falls
        ({ s with
          controller := { s.controller with full := false }
          console := console
          hasRead := true }.setLine 1 false).map fun s' =>
            (some (.irq s.controller.data, move), s')
    else none
  | .finish =>
    if s.entered then none
    else
      (s.interrupts.step .finish).map fun (_, interrupts) =>
        (none, { s with interrupts := interrupts })
  | .caller (.irq _) => none
  | .caller event =>
    if s.interrupts.handling = none then
      (s.console.step event).map fun (move, console) =>
        (some (event, move), { s with console := console })
    else none

/-- A sequence of steps, with the moves at the driver. -/
inductive Run : KeyLine → List KeyLineEvent → List (ConsoleEvent × Move UInt8) → KeyLine → Prop
  | nil {s} : Run s [] [] s
  | snoc {s s' s'' events event moves move} : Run s events moves s' →
      s'.step event = some (move, s'') → Run s (events ++ [event]) (moves ++ move.toList) s''

/-- A sequence of steps of the devices. -/
inductive DeviceRun : KeyLine → List DeviceEvent → KeyLine → Prop
  | nil {s} : DeviceRun s [] s
  | snoc {s s' s'' events event} : DeviceRun s events s' → s'.device event = some s'' →
      DeviceRun s (events ++ [event]) s''

/-- The kernel tells the interrupt controllers something. -/
def tell (s : KeyLine) (command : Chipset → Chipset) : KeyLine :=
  { s with interrupts := { s.interrupts with chipset := command s.interrupts.chipset } }

end KeyLine

/-- The scancodes that the devices have sent. -/
def sentBy (events : List DeviceEvent) : List UInt8 :=
  events.filterMap fun | .send scancode => some scancode | _ => none

/-- The steps of the devices in a run. -/
def devicesOf (events : List KeyLineEvent) : List DeviceEvent :=
  events.filterMap fun | .device event => some event | _ => none

namespace KeyLine

/-! ## The invariant -/

/-- The line is high exactly while a request is waiting or the handler is about to read; and
what has been handled and what is pending is what has been sent. -/
structure Aligned (s : KeyLine) (sent handled : List UInt8) : Prop where
  asks : s.interrupts.chipset.asks 1 = (s.controller.full && !s.entered)
  full : s.entered = true → s.controller.full = true
  conserved : handled ++ s.controller.pending = sent

/-- The port is full and nobody will read it. -/
structure Deaf (s : KeyLine) : Prop where
  full : s.controller.full = true
  asks : s.interrupts.chipset.asks 1 = false
  handling : s.interrupts.handling ≠ some 0x21

variable {s s' : KeyLine} {sent handled : List UInt8}

theorem setLine_eq {n : Nat} {high : Bool} (h : s.setLine n high = some s') :
    ¬ (16 ≤ n ∨ n = 2) ∧
      s' = s.tell fun chipset => chipset.request n high := by
  obtain ⟨⟨report, interrupts⟩, hstep, rfl⟩ := Option.map_eq_some_iff.mp h
  rcases Interrupts.step_cases hstep with ⟨n', high', heq, hn, -, rfl⟩ | ⟨heq, -⟩ | ⟨_, heq, -⟩
  · cases heq
    exact ⟨hn, rfl⟩
  · cases heq
  · cases heq

/-- What the devices can do. -/
theorem device_cases {event : DeviceEvent} (h : s.device event = some s') :
    (∃ scancode, event = .send scancode ∧ s' = { s with
        controller := { s.controller with waiting := s.controller.waiting ++ [scancode] } }) ∨
      (∃ scancode rest, event = .present ∧ s.controller.full = false ∧
        s.controller.waiting = scancode :: rest ∧
        s' = { s with controller := ⟨rest, scancode, true⟩ }.tell fun chipset =>
          chipset.request 1 true) ∨
      ∃ n high, event = .line n high ∧ n ≠ 1 ∧ ¬ (16 ≤ n ∨ n = 2) ∧
        s' = s.tell fun chipset => chipset.request n high := by
  cases event with
  | send scancode => exact Or.inl ⟨scancode, rfl, (Option.some.inj h).symm⟩
  | present =>
    rw [device] at h
    split at h
    · rename_i scancode rest hfull hwaiting
      exact Or.inr (Or.inl ⟨scancode, rest, rfl, hfull, hwaiting, (setLine_eq h).2⟩)
    · cases h
  | line n high =>
    by_cases hkeyboard : n = 1
    · rw [device, if_pos hkeyboard] at h
      cases h
    · rw [device, if_neg hkeyboard] at h
      obtain ⟨hn, heq⟩ := setLine_eq h
      exact Or.inr (Or.inr ⟨n, high, rfl, hkeyboard, hn, heq⟩)

/-- What the caller can do: it looks or removes, while no handler runs. -/
theorem step_caller {event : ConsoleEvent} {move : Option (ConsoleEvent × Move UInt8)}
    (h : s.step (.caller event) = some (move, s')) :
    ∃ m console, scancodes [event] = [] ∧ s.interrupts.handling = none ∧
      move = some (event, m) ∧ s.console.step event = some (m, console) ∧
      s' = { s with console := console } := by
  have hquiet : scancodes [event] = [] := by
    cases event with
    | irq scancode => cases h
    | look => rfl
    | remove => rfl
  have hmoves : s.step (.caller event) =
      if s.interrupts.handling = none then
        (s.console.step event).map fun (move, console) =>
          (some (event, move), { s with console := console })
      else none := by
    cases event with
    | irq scancode => cases h
    | look => rfl
    | remove => rfl
  rw [hmoves] at h
  split_ifs at h with hidle
  obtain ⟨⟨m, console⟩, hconsole, heq⟩ := Option.map_eq_some_iff.mp h
  obtain ⟨rfl, rfl⟩ := Prod.mk.inj heq
  exact ⟨m, console, hquiet, hidle, rfl, hconsole, rfl⟩

/-- What a step can be. -/
theorem step_cases {event : KeyLineEvent} {move : Option (ConsoleEvent × Move UInt8)}
    (h : s.step event = some (move, s')) :
    (∃ e, event = .device e ∧ move = none ∧ s.device e = some s') ∨
      (event = .accept ∧ move = none ∧ s.interrupts.handling = none ∧
        s' = { s with
          interrupts :=
            ⟨s.interrupts.chipset.acknowledge.2, some s.interrupts.chipset.acknowledge.1⟩
          hasRead := false }) ∨
      (∃ m console, event = .handle ∧ s.entered = true ∧
        move = some (.irq s.controller.data, m) ∧
        s.console.step (.irq s.controller.data) = some (m, console) ∧
        s' = { s with
          controller := { s.controller with full := false }
          console := console
          hasRead := true }.tell fun chipset => chipset.request 1 false) ∨
      (∃ vector, event = .finish ∧ s.entered = false ∧ s.interrupts.handling = some vector ∧
        move = none ∧ s' = { s with
          interrupts := ⟨isrEnd Chipset.ports vector.toUInt32 s.interrupts.chipset, none⟩ }) ∨
      ∃ e m console, event = .caller e ∧ scancodes [e] = [] ∧ s.interrupts.handling = none ∧
        move = some (e, m) ∧ s.console.step e = some (m, console) ∧
        s' = { s with console := console } := by
  cases event with
  | device e =>
    obtain ⟨s'', hdevice, heq⟩ := Option.map_eq_some_iff.mp h
    obtain ⟨rfl, rfl⟩ := Prod.mk.inj heq
    exact Or.inl ⟨e, rfl, rfl, hdevice⟩
  | accept =>
    obtain ⟨⟨report, interrupts⟩, hstep, heq⟩ := Option.map_eq_some_iff.mp h
    obtain ⟨rfl, rfl⟩ := Prod.mk.inj heq
    rcases Interrupts.step_cases hstep with ⟨_, _, hevent, -⟩ | ⟨-, hidle, -, rfl⟩ | ⟨_, hevent, -⟩
    · cases hevent
    · exact Or.inr (Or.inl ⟨rfl, rfl, hidle, rfl⟩)
    · cases hevent
  | handle =>
    rw [step] at h
    split_ifs at h with hentered
    obtain ⟨⟨m, console⟩, hconsole, hrest⟩ := Option.bind_eq_some_iff.mp h
    obtain ⟨s'', hline, heq⟩ := Option.map_eq_some_iff.mp hrest
    obtain ⟨rfl, rfl⟩ := Prod.mk.inj heq
    exact Or.inr (Or.inr (Or.inl
      ⟨m, console, rfl, hentered, rfl, hconsole, (setLine_eq hline).2⟩))
  | finish =>
    rw [step] at h
    split_ifs at h with hentered
    obtain ⟨⟨report, interrupts⟩, hstep, heq⟩ := Option.map_eq_some_iff.mp h
    obtain ⟨rfl, rfl⟩ := Prod.mk.inj heq
    rcases Interrupts.step_cases hstep with ⟨_, _, hevent, -⟩ | ⟨hevent, -⟩ |
      ⟨vector, -, hvector, -, rfl⟩
    · cases hevent
    · cases hevent
    · exact Or.inr (Or.inr (Or.inr (Or.inl
        ⟨vector, rfl, Bool.eq_false_iff.mpr hentered, hvector, rfl, rfl⟩)))
  | caller e =>
    obtain ⟨m, console, hrest⟩ := step_caller h
    exact Or.inr (Or.inr (Or.inr (Or.inr ⟨e, m, console, rfl, hrest⟩)))

/-! ### Devices -/

theorem tell_asks {command : Chipset → Chipset} :
    (s.tell command).interrupts.chipset = command s.interrupts.chipset := rfl

theorem Aligned.told (h : s.Aligned sent handled) {command : Chipset → Chipset}
    (hasks : (command s.interrupts.chipset).asks 1 = s.interrupts.chipset.asks 1) :
    (s.tell command).Aligned sent handled :=
  ⟨hasks.trans h.asks, h.full, h.conserved⟩

theorem Deaf.told (h : s.Deaf) {command : Chipset → Chipset}
    (hasks : (command s.interrupts.chipset).asks 1 = s.interrupts.chipset.asks 1) :
    (s.tell command).Deaf :=
  ⟨h.full, hasks.trans h.asks, h.handling⟩

theorem Aligned.device (h : s.Aligned sent handled) {event : DeviceEvent}
    (hdevice : s.device event = some s') : s'.Aligned (sent ++ sentBy [event]) handled := by
  rcases device_cases hdevice with ⟨scancode, rfl, rfl⟩ |
    ⟨scancode, rest, rfl, hempty, hwaiting, rfl⟩ | ⟨n, high, rfl, hkeyboard, hn, rfl⟩
  · refine ⟨h.asks, h.full, ?_⟩
    rw [← h.conserved]
    simp [KeyboardController.pending, sentBy]
  · -- the port is empty, so the line has been low and rises
    have hentered : s.entered = false := by
      by_contra hentered
      have hfull := h.full (Bool.not_eq_false _ ▸ hentered)
      rw [hempty] at hfull
      cases hfull
    refine ⟨?_, fun _ => rfl, ?_⟩
    · rw [tell_asks, Interrupts.asks_request _ (by decide) (by decide), if_pos rfl]
      change true = (true && !s.entered)
      rw [hentered]
      rfl
    · rw [← h.conserved]
      simp [KeyboardController.pending, tell, hempty, hwaiting, sentBy]
  · refine ⟨?_, h.full, ?_⟩
    · rw [tell_asks, Interrupts.asks_request _ hn (by decide), if_neg hkeyboard]
      exact h.asks
    · rw [show sentBy [.line n high] = [] from rfl, List.append_nil]
      exact h.conserved

theorem Deaf.device (h : s.Deaf) {event : DeviceEvent} (hdevice : s.device event = some s') :
    s'.Deaf := by
  rcases device_cases hdevice with ⟨scancode, rfl, rfl⟩ | ⟨scancode, rest, rfl, hempty, -, -⟩ |
    ⟨n, high, rfl, hkeyboard, hn, rfl⟩
  · exact ⟨h.full, h.asks, h.handling⟩
  · rw [h.full] at hempty
    cases hempty
  · refine ⟨h.full, ?_, h.handling⟩
    rw [tell_asks, Interrupts.asks_request _ hn (by decide), if_neg hkeyboard]
    exact h.asks

theorem Serving.device (h : s.interrupts.Serving) {event : DeviceEvent}
    (hdevice : s.device event = some s') : s'.interrupts.Serving := by
  rcases device_cases hdevice with ⟨scancode, rfl, rfl⟩ | ⟨scancode, rest, rfl, -, -, rfl⟩ |
    ⟨n, high, rfl, -, -, rfl⟩
  · exact h
  · exact h.request 1 true
  · exact h.request n high

/-! ### Steps -/

theorem Serving.idle_isr (h : s.interrupts.Serving) (hidle : s.interrupts.handling = none) :
    s.interrupts.chipset.master.isr = 0 := by
  have hserved := h.masterIsr
  rw [hidle] at hserved
  exact (Option.some.inj hserved).symm

theorem entered_of_idle (hidle : s.interrupts.handling = none) : s.entered = false := by
  rw [entered, hidle]
  rfl

theorem Serving.step (h : s.interrupts.Serving) {event : KeyLineEvent}
    {move : Option (ConsoleEvent × Move UInt8)} (hstep : s.step event = some (move, s')) :
    s'.interrupts.Serving := by
  rcases step_cases hstep with ⟨e, rfl, -, hdevice⟩ | ⟨-, -, hidle, rfl⟩ |
    ⟨m, console, -, -, -, -, rfl⟩ | ⟨vector, -, -, hvector, -, rfl⟩ |
    ⟨e, m, console, -, -, -, -, -, rfl⟩
  · exact Serving.device h hdevice
  · exact h.accept hidle
  · exact h.request 1 false
  · exact h.finish hvector
  · exact h

/-- What the processor is given while the line of the keyboard asks, or does not. -/
theorem acknowledge_cases (h : s.interrupts.Serving) (hidle : s.interrupts.handling = none) :
    (s.interrupts.chipset.acknowledge.1 ≠ 0x21 ∧
        s.interrupts.chipset.acknowledge.2.asks 1 = s.interrupts.chipset.asks 1) ∨
      s.interrupts.chipset.asks 1 = true ∧ s.interrupts.chipset.acknowledge.1 = 0x21 ∧
        s.interrupts.chipset.acknowledge.2.asks 1 = false := by
  rw [h.configured.acknowledge (Serving.idle_isr h hidle)]
  split_ifs with htimer hkeyboard
  · refine Or.inl ⟨show (0x20 : UInt8) ≠ 0x21 by decide, ?_⟩
    rw [Interrupts.asks_serve h.configured (by decide) (by decide)]
    exact Bool.and_true _
  · refine Or.inr ⟨hkeyboard, rfl, ?_⟩
    rw [Interrupts.asks_serve h.configured (by decide) (by decide)]
    exact Bool.and_false _
  · exact Or.inl ⟨show (0x27 : UInt8) ≠ 0x21 by decide,
      Interrupts.asks_wired h.configured (by decide)⟩

/-- In a step that neither sends a scancode nor handles one. -/
theorem Aligned.of_silent {event : KeyLineEvent} {move : Option (ConsoleEvent × Move UInt8)}
    (h : s.Aligned sent handled) (hsent : sentBy (devicesOf [event]) = [])
    (hhandled : scancodes (move.toList.map Prod.fst) = []) :
    s.Aligned (sent ++ sentBy (devicesOf [event]))
      (handled ++ scancodes (move.toList.map Prod.fst)) := by
  rw [hsent, hhandled, List.append_nil, List.append_nil]
  exact h

theorem entered_given {chipset : Chipset} {vector : UInt8} :
    entered { s with interrupts := ⟨chipset, some vector⟩, hasRead := false } =
      (vector == 0x21) := by
  simp [entered]

theorem Aligned.accept (h : s.Aligned sent handled) (hserving : s.interrupts.Serving)
    (hidle : s.interrupts.handling = none) :
    Aligned { s with
      interrupts := ⟨s.interrupts.chipset.acknowledge.2, some s.interrupts.chipset.acknowledge.1⟩
      hasRead := false } sent handled := by
  have hasks := h.asks
  rw [entered_of_idle hidle, Bool.not_false, Bool.and_true] at hasks
  -- the request of the keyboard goes to its handler, or stays
  rcases acknowledge_cases hserving hidle with ⟨hother, hsame⟩ | ⟨hrequest, hvector, hserved⟩
  · have hentered := beq_false_of_ne hother
    refine ⟨?_, fun h => ?_, h.conserved⟩
    · rw [entered_given, hentered, Bool.not_false, Bool.and_true]
      exact hsame.trans hasks
    · rw [entered_given, hentered] at h
      cases h
  · refine ⟨?_, fun _ => hasks ▸ hrequest, h.conserved⟩
    rw [entered_given, hvector, beq_self_eq_true, Bool.not_true, Bool.and_false]
    exact hserved

/-- The port is read once, and empty afterwards. -/
theorem Aligned.handle (h : s.Aligned sent handled) (hentered : s.entered = true)
    (console : Console) :
    Aligned ({ s with
      controller := { s.controller with full := false }
      console := console
      hasRead := true }.tell fun chipset => chipset.request 1 false)
      sent (handled ++ [s.controller.data]) := by
  have hread : KeyLine.entered ({ s with
      controller := { s.controller with full := false }
      console := console
      hasRead := true }.tell fun chipset => chipset.request 1 false) = false := by
    simp [entered, tell]
  refine ⟨?_, fun h => ?_, ?_⟩
  · rw [tell_asks, Interrupts.asks_request _ (by decide) (by decide), if_pos rfl]
    rfl
  · rw [hread] at h
    cases h
  · rw [← h.conserved]
    simp [KeyboardController.pending, tell, h.full hentered]

theorem Aligned.step (h : s.Aligned sent handled) (hserving : s.interrupts.Serving)
    {event : KeyLineEvent} {move : Option (ConsoleEvent × Move UInt8)}
    (hstep : s.step event = some (move, s')) :
    s'.Aligned (sent ++ sentBy (devicesOf [event]))
      (handled ++ scancodes (move.toList.map Prod.fst)) := by
  rcases step_cases hstep with ⟨e, rfl, rfl, hdevice⟩ | ⟨rfl, rfl, hidle, rfl⟩ |
    ⟨m, console, rfl, hentered, rfl, -, rfl⟩ | ⟨vector, rfl, hentered, hvector, rfl, rfl⟩ |
    ⟨e, m, console, rfl, hnone, -, rfl, -, rfl⟩
  · have hafter := h.device hdevice
    rwa [← List.append_nil handled] at hafter
  · exact (h.accept hserving hidle).of_silent rfl rfl
  · have hafter := h.handle hentered console
    rwa [← List.append_nil sent] at hafter
  · -- the end of interrupt dismisses what was served and leaves the requests
    have hserved := hserving.masterIsr
    rw [hvector] at hserved
    have hasks := h.asks
    rw [hentered] at hasks
    rw [Interrupts.isrEnd_eq hserved]
    exact Aligned.of_silent ⟨hasks, fun h => Bool.noConfusion h, h.conserved⟩ rfl rfl
  · exact Aligned.of_silent ⟨h.asks, h.full, h.conserved⟩ rfl hnone

theorem Deaf.step (h : s.Deaf) (hserving : s.interrupts.Serving)
    {event : KeyLineEvent} {move : Option (ConsoleEvent × Move UInt8)}
    (hstep : s.step event = some (move, s')) :
    s'.Deaf ∧ scancodes (move.toList.map Prod.fst) = [] := by
  rcases step_cases hstep with ⟨e, rfl, rfl, hdevice⟩ | ⟨rfl, rfl, hidle, rfl⟩ |
    ⟨m, console, rfl, hentered, rfl, -, rfl⟩ | ⟨vector, rfl, hentered, hvector, rfl, rfl⟩ |
    ⟨e, m, console, rfl, hnone, -, rfl, -, rfl⟩
  · exact ⟨h.device hdevice, rfl⟩
  · rcases acknowledge_cases hserving hidle with ⟨hother, hsame⟩ | ⟨hrequest, -⟩
    · exact ⟨⟨h.full, hsame.trans h.asks, fun heq => hother (Option.some.inj heq)⟩, rfl⟩
    · rw [h.asks] at hrequest
      cases hrequest
  · have hhandling := h.handling
    simp only [entered, Bool.and_eq_true, beq_iff_eq] at hentered
    exact absurd hentered.1 hhandling
  · have hserved := hserving.masterIsr
    rw [hvector] at hserved
    rw [Interrupts.isrEnd_eq hserved]
    exact ⟨⟨h.full, h.asks, (Option.some_ne_none (0x21 : UInt8)).symm⟩, rfl⟩
  · exact ⟨⟨h.full, h.asks, h.handling⟩, hnone⟩

/-! ### Runs -/

theorem Run.serving {events : List KeyLineEvent} {moves : List (ConsoleEvent × Move UInt8)}
    (h : Run s events moves s') (hstart : s.interrupts.Serving) : s'.interrupts.Serving := by
  induction h with
  | nil => exact hstart
  | snoc _ hstep ih => exact Serving.step ih hstep

/-- The moves at the driver are a run of it. -/
theorem Run.console {events : List KeyLineEvent} {moves : List (ConsoleEvent × Move UInt8)}
    (h : Run s events moves s') :
    Console.Run s.console (moves.map Prod.fst) (moves.map Prod.snd) s'.console := by
  induction h with
  | nil => exact .nil
  | @snoc s' s'' _ _ _ _ _ hstep ih =>
    rw [List.map_append, List.map_append]
    rcases step_cases hstep with ⟨e, -, rfl, hdevice⟩ | ⟨-, rfl, -, rfl⟩ |
      ⟨m, console, -, -, rfl, hmove, rfl⟩ | ⟨vector, -, -, -, rfl, rfl⟩ |
      ⟨e, m, console, -, -, -, rfl, hmove, rfl⟩
    · have hconsole : s''.console = s'.console := by
        rcases device_cases hdevice with ⟨_, -, rfl⟩ | ⟨_, _, -, -, -, rfl⟩ | ⟨_, _, -, -, -, rfl⟩
        · rfl
        · rfl
        · rfl
      rw [hconsole]
      simpa using ih
    · simpa using ih
    · exact ih.snoc hmove
    · simpa using ih
    · exact ih.snoc hmove

theorem Run.aligned {events : List KeyLineEvent} {moves : List (ConsoleEvent × Move UInt8)}
    (h : Run s events moves s') (hstart : s.interrupts.Serving)
    (haligned : s.Aligned sent handled) :
    s'.Aligned (sent ++ sentBy (devicesOf events))
      (handled ++ scancodes (moves.map Prod.fst)) := by
  induction h with
  | nil => simpa [sentBy, devicesOf, scancodes] using haligned
  | snoc hbefore hstep ih =>
    have hafter := ih.step (hbefore.serving hstart) hstep
    simpa [sentBy, devicesOf, scancodes, List.filterMap_append] using hafter

theorem Run.deaf {events : List KeyLineEvent} {moves : List (ConsoleEvent × Move UInt8)}
    (h : Run s events moves s') (hstart : s.interrupts.Serving) (hdeaf : s.Deaf) :
    s'.Deaf ∧ scancodes (moves.map Prod.fst) = [] := by
  induction h with
  | nil => exact ⟨hdeaf, rfl⟩
  | snoc hbefore hstep ih =>
    obtain ⟨hbefore', hnone⟩ := ih
    obtain ⟨hafter, hnone'⟩ := hbefore'.step (hbefore.serving hstart) hstep
    refine ⟨hafter, ?_⟩
    rw [List.map_append, scancodes_append, hnone, hnone']
    rfl

/-! ### Boot -/

/-- The devices change nothing of the interrupt controllers but the lines. -/
theorem DeviceRun.onlyRequests {events : List DeviceEvent} (h : DeviceRun s events s') :
    OnlyRequests s.interrupts.chipset s'.interrupts.chipset ∧
      s'.interrupts.handling = s.interrupts.handling ∧ s'.console = s.console := by
  induction h with
  | nil => exact ⟨⟨_, _, rfl⟩, rfl, rfl⟩
  | snoc _ hdevice ih =>
    obtain ⟨hlines, hrest⟩ := ih
    rcases device_cases hdevice with ⟨_, -, rfl⟩ | ⟨_, _, -, -, -, rfl⟩ | ⟨n, high, -, -, -, rfl⟩
    · exact ⟨hlines, hrest⟩
    · exact ⟨hlines.request 1 true, hrest⟩
    · exact ⟨hlines.request n high, hrest⟩

theorem DeviceRun.aligned {events : List DeviceEvent} (h : DeviceRun s events s')
    (hstart : s.Aligned sent handled) : s'.Aligned (sent ++ sentBy events) handled := by
  induction h with
  | nil => simpa [sentBy] using hstart
  | snoc _ hdevice ih => simpa [sentBy, List.filterMap_append] using ih.device hdevice

theorem DeviceRun.deaf {events : List DeviceEvent} (h : DeviceRun s events s') (hstart : s.Deaf) :
    s'.Deaf := by
  induction h with
  | nil => exact hstart
  | snoc _ hdevice ih => exact ih.device hdevice

/-- The initialisation forgets which lines have risen. -/
theorem asks_picremap (c : Chipset) : (picremap Chipset.ports c).asks 1 = false := by
  rw [picremap_eq]
  change hasLine 0 1 = false
  decide

/-- The other commands at boot do not touch the lines. -/
theorem asks_timerInit {c : Chipset} (hready : c.master.awaited = []) :
    (timerInit Chipset.ports 100 c).asks 1 = c.asks 1 := by
  rw [timerInit_eq hready]
  rfl

theorem asks_initKeyboard {c : Chipset} (hready : c.master.awaited = []) :
    (initKeyboard Chipset.ports c).asks 1 = c.asks 1 := by
  rw [initKeyboard_eq hready]
  rfl

section Boot

variable {c : Chipset} {controller : KeyboardController} {buffer : Nat → UInt8}
  {s₁ s₂ s₃ : KeyLine} {sent₁ sent₂ sent₃ : List DeviceEvent}

theorem ready_timerInit
    (hremap : DeviceRun
      ⟨⟨picremap Chipset.ports c, none⟩, controller, initialConsole buffer, false⟩ sent₁ s₁) :
    s₁.interrupts.chipset.master.awaited = [] := by
  obtain ⟨hlines, -⟩ := hremap.onlyRequests
  rw [hlines.awaited]
  rfl

theorem ready_initKeyboard (hready : s₁.interrupts.chipset.master.awaited = [])
    (htimer : DeviceRun (s₁.tell (timerInit Chipset.ports 100)) sent₂ s₂) :
    s₂.interrupts.chipset.master.awaited = [] := by
  obtain ⟨hlines, -⟩ := htimer.onlyRequests
  rw [hlines.awaited, tell_asks, timerInit_eq hready]
  exact hready

variable
    (hremap : DeviceRun
      ⟨⟨picremap Chipset.ports c, none⟩, controller, initialConsole buffer, false⟩ sent₁ s₁)
    (htimer : DeviceRun (s₁.tell (timerInit Chipset.ports 100)) sent₂ s₂)
    (hkeyboard : DeviceRun (s₂.tell (initKeyboard Chipset.ports)) sent₃ s₃)

include hremap htimer hkeyboard

theorem booted_serving : s₃.interrupts.Serving ∧ s₃.console = initialConsole buffer := by
  obtain ⟨hlines₁, hhandling₁, hconsole₁⟩ := hremap.onlyRequests
  obtain ⟨hlines₂, hhandling₂, hconsole₂⟩ := htimer.onlyRequests
  obtain ⟨hlines₃, hhandling₃, hconsole₃⟩ := hkeyboard.onlyRequests
  have hidle : s₃.interrupts.handling = none := hhandling₃.trans (hhandling₂.trans hhandling₁)
  have hserving := boot_configured hlines₁ hlines₂ hlines₃
  rw [← hidle] at hserving
  exact ⟨hserving, hconsole₃.trans (hconsole₂.trans hconsole₁)⟩

/-- If the port is empty when `picremap` has made the line low, the two agree from then on. -/
theorem booted_aligned (hempty : controller.full = false) :
    s₃.Aligned (controller.waiting ++ sentBy (sent₁ ++ sent₂ ++ sent₃)) [] := by
  have hready₁ := ready_timerInit hremap
  have hready₂ := ready_initKeyboard hready₁ htimer
  have hstart : Aligned
      ⟨⟨picremap Chipset.ports c, none⟩, controller, initialConsole buffer, false⟩
      controller.waiting [] := by
    refine ⟨?_, fun h => Bool.noConfusion h, ?_⟩
    · change _ = (controller.full && _)
      rw [hempty]
      exact asks_picremap c
    · simp [KeyboardController.pending, hempty]
  have haligned₁ := hremap.aligned hstart
  have haligned₂ := htimer.aligned (haligned₁.told (asks_timerInit hready₁))
  have haligned₃ := hkeyboard.aligned (haligned₂.told (asks_initKeyboard hready₂))
  simpa [sentBy, List.filterMap_append] using haligned₃

/-- If the port is full, its line has risen before and does not rise again. -/
theorem booted_deaf (hfull : controller.full = true) : s₃.Deaf := by
  have hready₁ := ready_timerInit hremap
  have hready₂ := ready_initKeyboard hready₁ htimer
  have hstart : Deaf
      ⟨⟨picremap Chipset.ports c, none⟩, controller, initialConsole buffer, false⟩ :=
    ⟨hfull, asks_picremap c, (Option.some_ne_none (0x21 : UInt8)).symm⟩
  have hdeaf₁ := hremap.deaf hstart
  have hdeaf₂ := htimer.deaf (hdeaf₁.told (asks_timerInit hready₁))
  exact hkeyboard.deaf (hdeaf₂.told (asks_initKeyboard hready₂))

end Boot

end KeyLine

/-- From the keys to the driver, whatever the state of the chips at boot, however the devices,
the processor, the handlers and the caller take turns, and whenever keys are pressed since
`picremap`. If the data port was empty then, no scancode is lost, doubled or overtaken: those
that the handler has run for, those in the port and those that wait are the ones sent; and
while no handler runs a scancode in the port asks for one. If the port was full, the handler
never runs, for that scancode or any other. -/
theorem scancodes_conserved {c : Chipset} {controller : KeyboardController} {buffer : Nat → UInt8}
    {s₁ s₂ s₃ s : KeyLine} {sent₁ sent₂ sent₃ : List DeviceEvent} {events : List KeyLineEvent}
    {moves : List (ConsoleEvent × Move UInt8)}
    (hremap : KeyLine.DeviceRun
      ⟨⟨picremap Chipset.ports c, none⟩, controller, initialConsole buffer, false⟩ sent₁ s₁)
    (htimer : KeyLine.DeviceRun (s₁.tell (timerInit Chipset.ports 100)) sent₂ s₂)
    (hkeyboard : KeyLine.DeviceRun (s₂.tell (initKeyboard Chipset.ports)) sent₃ s₃)
    (hrun : KeyLine.Run s₃ events moves s) :
    Console.Run (initialConsole buffer) (moves.map Prod.fst) (moves.map Prod.snd) s.console ∧
      (controller.full = false →
        scancodes (moves.map Prod.fst) ++ s.controller.pending =
            controller.waiting ++ sentBy (sent₁ ++ sent₂ ++ sent₃ ++ devicesOf events) ∧
          (s.interrupts.handling = none → s.controller.full = true →
            s.interrupts.chipset.asks 1 = true)) ∧
      (controller.full = true → scancodes (moves.map Prod.fst) = []) := by
  obtain ⟨hserving, hboot⟩ := KeyLine.booted_serving hremap htimer hkeyboard
  refine ⟨?_, fun hempty => ?_, fun hfull => ?_⟩
  · rw [← hboot]
    exact hrun.console
  · -- port and line agree from `picremap` on
    have haligned := hrun.aligned hserving (KeyLine.booted_aligned hremap htimer hkeyboard hempty)
    refine ⟨?_, fun hidle hfull => ?_⟩
    · have hconserved := haligned.conserved
      simpa [sentBy, List.filterMap_append] using hconserved
    · rw [haligned.asks, hfull, KeyLine.entered_of_idle hidle]
      rfl
  · exact (hrun.deaf hserving (KeyLine.booted_deaf hremap htimer hkeyboard hfull)).2

/-- A key is pressed while the timer is being set up, and released while its handler runs. -/
theorem scancodes_conserved_press :
    ∃ s₃ s, s₃.controller = ⟨[], 0x1E, true⟩ ∧
      KeyLine.Run s₃
        [.accept, .handle, .device (.send 0x9E), .device .present, .finish, .caller .look]
        [(.irq 0x1E, .accepted 97), (.look, .looked)] s ∧
      scancodes [.irq 0x1E, .look] ++ s.controller.pending = [0x1E, 0x9E] := by
  let c (irr isr mask : UInt8) (rate : UInt32) : Chipset :=
    .remapped irr isr mask ⟨timerCounter rate, timerCounter 18, timerCounter 1000⟩
  let k : Console := initialConsole fun _ => 0
  let k' : Console := ⟨(keyboardIrq k.keyboard 0x1E).2, none⟩
  -- before the handlers run
  have hrises : (Interrupts.mk (c 0 0 0xFD 18) none).step (.line 1 true) =
      some (.latched 1, ⟨c 2 0 0xFD 18, none⟩) := by decide +kernel
  have hremap : KeyLine.DeviceRun
      ⟨⟨picremap Chipset.ports (c 0 0 0 18), none⟩, ⟨[], 0, false⟩, k, false⟩ [.send 0x1E, .present]
      ⟨⟨c 2 0 0xFD 18, none⟩, ⟨[], 0x1E, true⟩, k, false⟩ :=
    .snoc (.snoc .nil rfl) (by
      rw [show picremap Chipset.ports (c 0 0 0 18) = c 0 0 0xFD 18 from picremap_eq _]
      simp only [KeyLine.device, KeyLine.setLine, List.nil_append]
      rw [hrises]
      rfl)
  have htimer : timerInit Chipset.ports 100 (c 2 0 0xFD 18) = c 2 0 0xFC 100 := by
    decide +kernel
  have hkeyboard : initKeyboard Chipset.ports (c 2 0 0xFC 100) = c 2 0 0xFC 100 := by
    decide +kernel
  have hboot : KeyLine.tell (KeyLine.tell ⟨⟨c 2 0 0xFD 18, none⟩, ⟨[], 0x1E, true⟩, k, false⟩
      (timerInit Chipset.ports 100)) (initKeyboard Chipset.ports) =
      ⟨⟨c 2 0 0xFC 100, none⟩, ⟨[], 0x1E, true⟩, k, false⟩ := by
    simp only [KeyLine.tell, htimer, hkeyboard]
  -- afterwards
  have haccepts : (Interrupts.mk (c 2 0 0xFC 100) none).step .accept =
      some (.delivered 0x21, ⟨c 0 2 0xFC 100, some 0x21⟩) := by decide +kernel
  have hfalls : (Interrupts.mk (c 0 2 0xFC 100) (some 0x21)).step (.line 1 false) =
      some (.idle, ⟨c 0 2 0xFC 100, some 0x21⟩) := by decide +kernel
  have hrises' : (Interrupts.mk (c 0 2 0xFC 100) (some 0x21)).step (.line 1 true) =
      some (.latched 1, ⟨c 2 2 0xFC 100, some 0x21⟩) := by decide +kernel
  have hfinishes : (Interrupts.mk (c 2 2 0xFC 100) (some 0x21)).step .finish =
      some (.ended, ⟨c 2 0 0xFC 100, none⟩) := by decide +kernel
  have htyped : (keyboardIrq k.keyboard 0x1E).1 = .accepted 97 := by decide +kernel
  have hpress : k.step (.irq 0x1E) = some (.accepted 97, k') := by
    rw [← htyped]
    rfl
  have haccept : KeyLine.step ⟨⟨c 2 0 0xFC 100, none⟩, ⟨[], 0x1E, true⟩, k, false⟩ .accept =
      some (none, ⟨⟨c 0 2 0xFC 100, some 0x21⟩, ⟨[], 0x1E, true⟩, k, false⟩) := by
      rw [KeyLine.step, haccepts]
      rfl
  have hhandle : KeyLine.step
      ⟨⟨c 0 2 0xFC 100, some 0x21⟩, ⟨[], 0x1E, true⟩, k, false⟩ .handle =
      some (some (.irq 0x1E, .accepted 97),
        ⟨⟨c 0 2 0xFC 100, some 0x21⟩, ⟨[], 0x1E, false⟩, k', true⟩) := by
      rw [KeyLine.step, if_pos (by rfl), hpress, Option.bind_some]
      simp only [KeyLine.setLine]
      rw [hfalls]
      rfl
  have hsend : KeyLine.step
      ⟨⟨c 0 2 0xFC 100, some 0x21⟩, ⟨[], 0x1E, false⟩, k', true⟩ (.device (.send 0x9E)) =
      some (none, ⟨⟨c 0 2 0xFC 100, some 0x21⟩, ⟨[0x9E], 0x1E, false⟩, k', true⟩) := rfl
  have hpresent : KeyLine.step
      ⟨⟨c 0 2 0xFC 100, some 0x21⟩, ⟨[0x9E], 0x1E, false⟩, k', true⟩ (.device .present) =
      some (none, ⟨⟨c 2 2 0xFC 100, some 0x21⟩, ⟨[], 0x9E, true⟩, k', true⟩) := by
      simp only [KeyLine.step, KeyLine.device, KeyLine.setLine]
      rw [hrises']
      rfl
  have hfinish : KeyLine.step
      ⟨⟨c 2 2 0xFC 100, some 0x21⟩, ⟨[], 0x9E, true⟩, k', true⟩ .finish =
      some (none, ⟨⟨c 2 0 0xFC 100, none⟩, ⟨[], 0x9E, true⟩, k', true⟩) := by
      rw [KeyLine.step, if_neg (by decide), hfinishes]
      rfl
  have hlook : KeyLine.step
      ⟨⟨c 2 0 0xFC 100, none⟩, ⟨[], 0x9E, true⟩, k', true⟩ (.caller .look) =
      some (some (.look, .looked),
        ⟨⟨c 2 0 0xFC 100, none⟩, ⟨[], 0x9E, true⟩, ⟨k'.keyboard, some 97⟩, true⟩) := rfl
  have hrun := KeyLine.Run.snoc (.snoc (.snoc (.snoc (.snoc (.snoc .nil haccept) hhandle) hsend)
    hpresent) hfinish) hlook
  have hrun' := hrun
  rw [← hboot] at hrun'
  obtain ⟨-, hconserved, -⟩ := scancodes_conserved hremap .nil .nil hrun'
  exact ⟨_, _, rfl, hrun, (hconserved rfl).1⟩

end LevOS.Drivers
