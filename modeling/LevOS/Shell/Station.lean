import LevOS.Drivers.Typing
import LevOS.Shell.Dialogue

/-!
# Keys, shell and screen

The handler of the keyboard runs whenever a key moves, and the shell takes the characters out
of the buffer one after the other. Between two turns of its loop a process may write to the
terminal. The dialogue at the screen is one with the keys in it: it follows from the history
of the keys, from the moments at which the shell asks for characters, and from what the
processes write.

## Main definitions

* `Station`, the keyboard and the shell, with `Station.step`
* `Dialogue.hear`, what one step means for the dialogue

## Main results

* `Station.Run.shows`, `Station.Run.console`
* `station_dialogue`
-/

namespace LevOS

open LevOS.Drivers LevOS.Filesystem LevOS.Foundation

variable {leap : Nat → Nat → Bool} {ω ω' : Type}

/-- The keyboard, and the shell that reads it. -/
structure Station (leap : Nat → Nat → Bool) (ω : Type) where
  console : Console
  session : Session leap ω

/-- What can happen next: a move at the keyboard, or a process writes. -/
inductive StationEvent
  | keyboard (event : ConsoleEvent)
  | write (text : List UInt8)

/-- What a step has done. -/
inductive Report
  | moved (move : Move UInt8)
  | wrote (text : List UInt8)

/-- One step. A character that `keyboard_getchar` returns is given a turn of the shell's loop;
`syscall_write` puts its characters out with `putchar`. -/
def Station.step (b : Board ω) (s : Station leap ω) : StationEvent → Option (Report × Station leap ω)
  | .keyboard event =>
    (s.console.step event).map fun (move, console) =>
      (.moved move,
        ⟨console, match move with
          | .returned c => s.session.receive b c
          | _ => s.session⟩)
  | .write text =>
    some (.wrote text, { s with session := s.session.display (text.map .putchar) })

/-- A sequence of steps, with what they did. -/
inductive Station.Run (b : Board ω) :
    Station leap ω → List StationEvent → List Report → Station leap ω → Prop
  | nil {s} : Run b s [] [] s
  | snoc {s s' s'' events event reports report} : Run b s events reports s' →
      s'.step b event = some (report, s'') → Run b s (events ++ [event]) (reports ++ [report]) s''

/-- What a step means for the dialogue. -/
def Dialogue.hear (b : Board ω) (d : Dialogue leap ω) : Report → Dialogue leap ω
  | .moved (.returned c) => d.receive b c
  | .moved _ => d
  | .wrote text => { d with rows := text.foldl Rows.type d.rows }

/-- The moves at the keyboard. -/
def movesOf (reports : List Report) : List (Move UInt8) :=
  reports.filterMap fun | .moved move => some move | .wrote _ => none

/-- The events at the keyboard. -/
def keysOf (events : List StationEvent) : List ConsoleEvent :=
  events.filterMap fun | .keyboard event => some event | .write _ => none

/-! ## The keyboard -/

theorem movesOf_concat (reports : List Report) (report : Report) :
    movesOf (reports ++ [report]) = movesOf reports ++ movesOf [report] :=
  List.filterMap_append

theorem keysOf_concat (events : List StationEvent) (event : StationEvent) :
    keysOf (events ++ [event]) = keysOf events ++ keysOf [event] :=
  List.filterMap_append

/-- Neither the shell nor a process is noticed at the keyboard. -/
theorem Station.Run.console {b : Board ω} {s s' : Station leap ω} {events : List StationEvent}
    {reports : List Report} (h : Station.Run b s events reports s') :
    Console.Run s.console (keysOf events) (movesOf reports) s'.console := by
  induction h with
  | nil => exact .nil
  | @snoc s₁ s₂ events event reports report _ hstep ih =>
    rw [keysOf_concat, movesOf_concat]
    cases event with
    | keyboard event =>
      obtain ⟨⟨move, console⟩, hmove, heq⟩ := Option.map_eq_some_iff.mp hstep
      obtain ⟨rfl, rfl⟩ := Prod.mk.inj heq
      exact ih.snoc hmove
    | write text =>
      obtain ⟨rfl, rfl⟩ := Prod.mk.inj (Option.some.inj hstep)
      rw [show keysOf [.write text] = [] from rfl, show movesOf [.wrote text] = [] from rfl,
        List.append_nil, List.append_nil]
      exact ih

/-! ## The dialogue -/

section

variable {R : Bus ω → Bus ω' → Prop} {b : Board ω} {b' : Board ω'}

theorem foldl_putchar_onRows (text : List UInt8) (r : Rows) :
    (text.map TerminalCall.putchar).foldl (fun r call => call.onRows r) r = text.foldl Rows.type r :=
  List.foldl_map

/-- What a process writes is shown. -/
theorem Session.Shows.write {s : Session leap ω} {d : Dialogue leap ω'} (h : s.Shows R d)
    (text : List UInt8) :
    (s.display (text.map .putchar)).Shows R { d with rows := text.foldl Rows.type d.rows } where
  screen := by
    rw [← foldl_putchar_onRows]
    exact h.screen.foldl_onRows _
  line := h.line
  typed := ⟨h.typed.length, h.typed.ne_zero⟩
  files := h.files
  status := h.status
  cmos := h.cmos

theorem Station.step_shows {s s' : Station leap ω} {d : Dialogue leap ω'}
    (h : s.session.Shows R d) (hb : b.Alike R b') {event : StationEvent} {report : Report}
    (hstep : s.step b event = some (report, s')) : s'.session.Shows R (d.hear b' report) := by
  cases event with
  | keyboard event =>
    obtain ⟨⟨move, console⟩, -, heq⟩ := Option.map_eq_some_iff.mp hstep
    obtain ⟨rfl, rfl⟩ := Prod.mk.inj heq
    cases move with
    | returned c => exact h.receive hb c
    | _ => exact h
  | write text =>
    obtain ⟨rfl, rfl⟩ := Prod.mk.inj (Option.some.inj hstep)
    exact h.write text

theorem Station.Run.shows {s s' : Station leap ω} {d : Dialogue leap ω'}
    {events : List StationEvent} {reports : List Report}
    (h : Station.Run b s events reports s') (hb : b.Alike R b') (hstart : s.session.Shows R d) :
    s'.session.Shows R (reports.foldl (Dialogue.hear b') d) := by
  induction h with
  | nil => exact hstart
  | snoc _ hstep ih =>
    rw [List.foldl_append]
    exact Station.step_shows ih hb hstep

end

/-- As long as no process writes, the dialogue hears the characters that the shell received. -/
theorem Dialogue.foldl_hear {b : Board ω} (d : Dialogue leap ω) {reports : List Report}
    (hsilent : ∀ text, .wrote text ∉ reports) :
    reports.foldl (Dialogue.hear b) d = d.run b (Fifo.returns (movesOf reports)) := by
  induction reports generalizing d with
  | nil => rfl
  | cons report reports ih =>
    have hrest := ih (d.hear b report) fun text hmem => hsilent text (List.mem_cons_of_mem _ hmem)
    rw [List.foldl_cons, hrest]
    cases report with
    | moved move => cases move <;> rfl
    | wrote text => exact absurd List.mem_cons_self (hsilent text)

/-- The whole way from the keys to the screen, from boot on: whatever keys are pressed, held and
released, whenever the handler interrupts the shell, and whatever processes write between its
turns, the screen shows the dialogue on the disk behind the driver. The dialogue hears the
characters that the history of the keys gives, in their order, and the first ones of them as
long as none has been dropped; if no process writes it hears nothing else. -/
theorem station_dialogue {σ : Type} (drive : IdentifyingDrive σ) {h : σ} (hbusy : drive.busy h = 0)
    (hphase : drive.phase h = .idle) (setup : Setup) (cmos : Cmos leap) (t : Terminal)
    (buffer : Nat → UInt8) {events : List StationEvent} {reports : List Report}
    {s : Station leap (AtaDevice × σ)} :
    let b := ataBoard setup drive.toPorts h
    let b' := diskBoard setup drive.capacity drive.bytes drive.readable
    let start := Dialogue.boot b' fresh cmos
    let d := reports.foldl (Dialogue.hear b') start
    let received := Fifo.returns (movesOf reports)
    Station.Run b ⟨initialConsole buffer, Session.boot b (detected drive.toPorts h) cmos t⟩ events
        reports s →
      s.session.terminal.ShowsText d.rows ∧ s.session.line = d.line ∧
        received.Sublist (typed (scancodes (keysOf events))) ∧
        ((∀ c, .dropped c ∉ movesOf reports) → received <+: typed (scancodes (keysOf events))) ∧
        ((∀ text, .wrote text ∉ reports) → d = start.run b' received) := by
  intro b b' start d received hrun
  have hb := driveBoard_alike drive hbusy hphase setup
  have hshows := hrun.shows hb
    (Session.boot_shows hb (detected_matches drive hbusy hphase) cmos t)
  obtain ⟨hsome, hfirst⟩ := hrun.console.returns_typed
  exact ⟨hshows.screen, hshows.line, hsome, hfirst, start.foldl_hear⟩

/-- The test process writes its line, and then a letter is typed with shift. -/
theorem station_dialogue_hello :
    let b := ataBoard ⟨fun _ => false, 0x1234, fun _ => 0, 0⟩ treeDrive.toPorts
      (⟨0, 0, 0, 0, 0⟩, .idle)
    let start : Station (fun _ _ => false) (AtaDevice × Latches × Phase) :=
      ⟨initialConsole fun _ => 0, Session.boot b (detected treeDrive.toPorts
        (⟨0, 0, 0, 0, 0⟩, .idle)) newYear ⟨0, 0, ⟨fun _ => 0, []⟩, 0⟩⟩
    ∃ s, Station.Run b start
        [.write (charactersOf "Hello from ring 3!\n"), .keyboard (.irq 0x2A), .keyboard (.irq 0x1E),
          .keyboard .look, .keyboard .remove]
        [.wrote (charactersOf "Hello from ring 3!\n"), .moved .idle, .moved (.accepted 65),
          .moved .looked, .moved (.returned 65)] s ∧ s.session.line = [65] := by
  intro b start
  have hrun : ∃ s, Station.Run b start
      [.write (charactersOf "Hello from ring 3!\n"), .keyboard (.irq 0x2A), .keyboard (.irq 0x1E),
        .keyboard .look, .keyboard .remove]
      [.wrote (charactersOf "Hello from ring 3!\n"), .moved .idle, .moved (.accepted 65),
        .moved .looked, .moved (.returned 65)] s :=
    ⟨_, .snoc (.snoc (.snoc (.snoc (.snoc .nil rfl) rfl) rfl) rfl) rfl⟩
  obtain ⟨s, hrun⟩ := hrun
  obtain ⟨-, hline, -⟩ := station_dialogue treeDrive (h := (⟨0, 0, 0, 0, 0⟩, .idle)) rfl rfl
    ⟨fun _ => false, 0x1234, fun _ => 0, 0⟩ newYear ⟨0, 0, ⟨fun _ => 0, []⟩, 0⟩ (fun _ => 0) hrun
  exact ⟨s, hrun, hline.trans (by decide +kernel)⟩

end LevOS
