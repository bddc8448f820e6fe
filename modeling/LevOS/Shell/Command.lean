import LevOS.Drivers.Layout
import LevOS.Shell.Editor

/-!
# Commands

`process_command` in `shell/shell.c` splits the line that was typed into a command and an
argument, with a buffer for each, and compares the command with the names it knows. A
buffer that is full drops the rest of its text without a word, so a long argument reaches
a command as a shorter one.

## Main definitions

* `splitCommand`, with the buffers and the record of the writes to them
* `strcmp`, `Invocation`, `processCommand`
* `wordOf`, `restOf`, the two parts of a line
* `ArrivesWhole`

## Main results

* `splitCommand_holds`, what the buffers hold of a line
* `shell_argument_iff`
-/

namespace LevOS

open LevOS.Drivers

/-! ## Splitting -/

/-- A buffer that is filled from the front: its contents, the next index, and the indices
written so far. -/
structure Filled where
  cells : Buffer
  next : Nat
  written : List Nat

namespace Filled

/-- Nothing has been written yet. -/
def start (cells : Buffer) : Filled := ⟨cells, 0, []⟩

/-- `buffer[index++] = c`. -/
def put (f : Filled) (c : UInt8) : Filled :=
  ⟨Function.update f.cells f.next c, f.next + 1, f.next :: f.written⟩

/-- `if (index < size - 1) buffer[index++] = c`. -/
def putWithin (f : Filled) (size : Nat) (c : UInt8) : Filled :=
  if f.next < size - 1 then f.put c else f

/-- `buffer[index] = '\0'`. -/
def terminate (f : Filled) : Filled :=
  { f with cells := Function.update f.cells f.next 0, written := f.next :: f.written }

end Filled

section Split

variable (input : Buffer)

/-- The loops that skip spaces, from index `i` with `n` characters left. -/
def skipSpaces : Nat → Nat → Nat
  | 0, i => i
  | n + 1, i => if input i = 32 then skipSpaces n (i + 1) else i

/-- The loop that takes the command, from index `i` with `n` characters left. -/
def takeCommand : Nat → Nat → Filled → Nat × Filled
  | 0, i, f => (i, f)
  | n + 1, i, f => if input i ≠ 32 then takeCommand n (i + 1) (f.putWithin 32 (input i)) else (i, f)

/-- The loop that takes the parameters, from index `i` with `n` characters left. -/
def takeParameters : Nat → Nat → Filled → Filled
  | 0, _, f => f
  | n + 1, i, f => takeParameters n (i + 1) (f.putWithin 96 (input i))

/-- `split_command`: the buffers of the command and of the parameters. -/
def splitCommand (commandLength : Nat) (command parameters : Buffer) : Filled × Filled :=
  let i := skipSpaces input commandLength 0
  let (i, command) := takeCommand input (commandLength - i) i (.start command)
  let i := skipSpaces input (commandLength - i) i
  (command.terminate, (takeParameters input (commandLength - i) i (.start parameters)).terminate)

end Split

/-! ## Dispatch -/

/-- The loop of `strcmp` from index `i` of a string, against the rest of a constant. -/
def strcmpFrom (a : Buffer) : Nat → List UInt8 → Int
  | i, [] => if a i ≠ 0 then 1 else 0
  | i, c :: b => if a i = 0 then 1 else if a i ≠ c then 1 else strcmpFrom a (i + 1) b

/-- The characters of a string constant. -/
def charactersOf (text : String) : List UInt8 := text.toList.map Char.toUInt8

/-- `strcmp` against a string constant. -/
def strcmp (a : Buffer) (b : String) : Int := strcmpFrom a 0 (charactersOf b)

/-- What `process_command` does with a line. -/
inductive Invocation
  | help
  | clear
  | echo (text : Buffer)
  | clock
  | memory
  | about
  | ls (path : Buffer)
  | cat (path : Buffer)
  | missingPath
  | unknown (command : Buffer)

/-- `process_command` after the line has been split. -/
def processCommand (command argument : Buffer) : Invocation :=
  if strcmp command "help" = 0 then .help
  else if strcmp command "clear" = 0 then .clear
  else if strcmp command "echo" = 0 then .echo argument
  else if strcmp command "clock" = 0 then .clock
  else if strcmp command "memory" = 0 then .memory
  else if strcmp command "about" = 0 then .about
  else if strcmp command "ls" = 0 then .ls (if argument 0 = 0 then cString "/" else argument)
  else if strcmp command "cat" = 0 then if argument 0 = 0 then .missingPath else .cat argument
  else .unknown command

/-! ## The parts of a line -/

/-- The first word of a line. -/
def wordOf (line : List UInt8) : List UInt8 := (line.dropWhile (· = 32)).takeWhile (· ≠ 32)

/-- The rest of a line behind its first word and the spaces that follow it. -/
def restOf (line : List UInt8) : List UInt8 :=
  ((line.dropWhile (· = 32)).dropWhile (· ≠ 32)).dropWhile (· = 32)

/-! ## Filling a buffer -/

namespace Filled

/-- Put a text into a buffer, as far as it fits. -/
def fill (f : Filled) (size : Nat) (text : List UInt8) : Filled :=
  text.foldl (fun f c => f.putWithin size c) f

/-- The buffer holds a text that leaves room for its terminator, and nothing was written
behind that. -/
structure Has (f : Filled) (size : Nat) (text : List UInt8) : Prop where
  next : f.next = text.length
  cells : ∀ i < text.length, f.cells i = text.getD i 0
  fits : text.length < size
  written : ∀ i ∈ f.written, i < size

variable {f : Filled} {size : Nat} {text : List UInt8}

theorem has_start (cells : Buffer) (hsize : 0 < size) : (start cells).Has size [] where
  next := rfl
  cells _ hi := absurd hi (Nat.not_lt_zero _)
  fits := hsize
  written _ hi := absurd hi List.not_mem_nil

theorem Has.put (h : f.Has size text) (hroom : text.length + 1 < size) (c : UInt8) :
    (f.put c).Has size (text ++ [c]) := by
  obtain ⟨hnext, hcells, hfits, hwritten⟩ := h
  refine ⟨?_, fun i hi => ?_, ?_, fun i hi => ?_⟩
  · rw [List.length_append, List.length_singleton, ← hnext]
    rfl
  · rw [List.length_append, List.length_singleton] at hi
    rw [Rows.getD_append_singleton]
    split_ifs with hlast
    · rw [hlast, ← hnext]
      exact Function.update_self _ _ _
    · exact (Function.update_of_ne (hnext ▸ hlast) _ _).trans (hcells i (by omega))
  · rwa [List.length_append, List.length_singleton]
  · rcases List.mem_cons.mp hi with rfl | hold
    · rwa [hnext]
    · exact hwritten i hold

/-- Text that no longer fits in is dropped. -/
theorem Has.fill (h : f.Has size text) (word : List UInt8) :
    (f.fill size word).Has size ((text ++ word).take (size - 1)) := by
  unfold Filled.fill
  induction word generalizing f text with
  | nil =>
    rw [List.append_nil, List.take_of_length_le (Nat.le_sub_one_of_lt h.fits)]
    exact h
  | cons c word ih =>
    rw [List.foldl_cons, putWithin]
    split_ifs with hroom
    · rw [h.next] at hroom
      have hput := ih (h.put (by omega) c)
      rwa [List.append_assoc, List.singleton_append] at hput
    · rw [h.next] at hroom
      have hfull : size - 1 = text.length := by
        have := h.fits
        omega
      have hkept := ih h
      rwa [hfull, List.take_left] at hkept ⊢

theorem Has.terminate (h : f.Has size text) :
    HoldsString f.terminate.cells text ∧ ∀ i ∈ f.terminate.written, i < size := by
  obtain ⟨hnext, hcells, hfits, hwritten⟩ := h
  refine ⟨⟨fun i hi => ?_, ?_⟩, fun i hi => ?_⟩
  · exact (Function.update_of_ne (by omega) _ _).trans (hcells i hi)
  · rw [← hnext]
    exact Function.update_self _ _ _
  · rcases List.mem_cons.mp hi with rfl | hold
    · rwa [hnext]
    · exact hwritten i hold

end Filled

/-! ## The loops -/

/-- The array holds a part of the line from an index on. -/
def At (input : Buffer) (i : Nat) (part : List UInt8) : Prop :=
  ∀ k < part.length, input (i + k) = part.getD k 0

section Loops

variable {input : Buffer} {i : Nat}

theorem At.head {c : UInt8} {part : List UInt8} (h : At input i (c :: part)) : input i = c :=
  h 0 (Nat.succ_pos _)

theorem At.tail {c : UInt8} {part : List UInt8} (h : At input i (c :: part)) :
    At input (i + 1) part := by
  intro k hk
  have hnext := h (k + 1) (Nat.succ_lt_succ hk)
  rwa [Nat.add_comm k, ← Nat.add_assoc, Nat.add_comm 1 k, List.getD_cons_succ] at hnext

/-- The spaces in front of a part are skipped. -/
theorem skipSpaces_eq {part : List UInt8} (h : At input i part) :
    At input (skipSpaces input part.length i) (part.dropWhile (· = 32)) ∧
      skipSpaces input part.length i + (part.dropWhile (· = 32)).length = i + part.length := by
  -- on the characters that are left
  induction part generalizing i with
  | nil => exact ⟨h, rfl⟩
  | cons c part ih =>
    rw [List.length_cons, skipSpaces, h.head, List.dropWhile_cons]
    by_cases hspace : c = 32
    · simp only [hspace, if_true, decide_true]
      obtain ⟨hat, hend⟩ := ih h.tail
      exact ⟨hat, by omega⟩
    · simp only [hspace, if_false, decide_false, Bool.false_eq_true]
      exact ⟨h, by rw [List.length_cons]⟩

/-- The command is taken up to the next space. -/
theorem takeCommand_eq {part : List UInt8} (h : At input i part) (f : Filled) :
    At input (takeCommand input part.length i f).1 (part.dropWhile (· ≠ 32)) ∧
      (takeCommand input part.length i f).1 + (part.dropWhile (· ≠ 32)).length =
        i + part.length ∧
      (takeCommand input part.length i f).2 = f.fill 32 (part.takeWhile (· ≠ 32)) := by
  induction part generalizing i f with
  | nil => exact ⟨h, rfl, rfl⟩
  | cons c part ih =>
    rw [List.length_cons, takeCommand, h.head, List.dropWhile_cons, List.takeWhile_cons]
    by_cases hspace : c = 32
    · simp only [hspace, ne_eq, not_true_eq_false, if_false, decide_false, Bool.false_eq_true]
      exact ⟨hspace ▸ h, by rw [List.length_cons], rfl⟩
    · simp only [hspace, ne_eq, not_false_eq_true, if_true, decide_true]
      obtain ⟨hat, hend, hfilled⟩ := ih h.tail (f.putWithin 32 c)
      simp only [ne_eq] at hat hend hfilled
      exact ⟨hat, by omega, hfilled⟩

theorem takeParameters_eq {part : List UInt8} (h : At input i part) (f : Filled) :
    takeParameters input part.length i f = f.fill 96 part := by
  induction part generalizing i f with
  | nil => rfl
  | cons c part ih =>
    rw [List.length_cons, takeParameters, h.head, ih h.tail]
    rfl

end Loops

/-- A line is split into its first word and the rest, each cut to the size of its buffer. -/
theorem splitCommand_holds {input : Buffer} {line : List UInt8} (h : At input 0 line)
    (command parameters : Buffer) :
    let result := splitCommand input line.length command parameters
    (HoldsString result.1.cells ((wordOf line).take 31) ∧ ∀ i ∈ result.1.written, i < 32) ∧
      HoldsString result.2.cells ((restOf line).take 95) ∧ ∀ i ∈ result.2.written, i < 96 := by
  -- each loop goes on where the one before stopped
  obtain ⟨hword, hwordEnd⟩ := skipSpaces_eq h
  obtain ⟨hspaces, hspacesEnd, hcommand⟩ := takeCommand_eq hword (Filled.start command)
  obtain ⟨hrest, hrestEnd⟩ := skipSpaces_eq hspaces
  have hparameters := takeParameters_eq hrest (Filled.start parameters)
  have hresult : splitCommand input line.length command parameters =
      (((Filled.start command).fill 32 (wordOf line)).terminate,
        ((Filled.start parameters).fill 96 (restOf line)).terminate) := by
    have hwordLeft : line.length - skipSpaces input line.length 0 =
        (line.dropWhile (· = 32)).length := by omega
    unfold splitCommand
    simp only [hwordLeft]
    generalize takeCommand input _ _ _ = taken at *
    have hspacesLeft : line.length - taken.1 =
        ((line.dropWhile (· = 32)).dropWhile (· ≠ 32)).length := by omega
    rw [hspacesLeft]
    have hrestLeft : line.length - skipSpaces input
        ((line.dropWhile (· = 32)).dropWhile (· ≠ 32)).length taken.1 = (restOf line).length := by
      rw [restOf]
      omega
    rw [hrestLeft, hcommand]
    exact congrArg (fun f : Filled => (_, f.terminate)) hparameters
  simp only [hresult]
  exact ⟨(((Filled.has_start command (show 0 < 32 by decide)).fill (wordOf line)).terminate),
    ((Filled.has_start parameters (show 0 < 96 by decide)).fill (restOf line)).terminate⟩

/-! ## Comparing -/

/-- An array holds at most one string. -/
theorem holdsString_unique {text : Buffer} {string string' : List UInt8}
    (h : HoldsString text string) (h' : HoldsString text string') (hzero : ∀ c ∈ string, c ≠ 0)
    (hzero' : ∀ c ∈ string', c ≠ 0) : string = string' := by
  -- a terminator cannot lie inside the other string
  have hnot {s s' : List UInt8} (h : HoldsString text s) (h' : HoldsString text s')
      (hzero : ∀ c ∈ s', c ≠ 0) : s'.length ≤ s.length := by
    by_contra hlt
    rw [Nat.not_le] at hlt
    have hinside := h'.characters s.length hlt
    rw [h.terminator, List.getD_eq_getElem _ _ hlt] at hinside
    exact hzero _ (List.getElem_mem hlt) hinside.symm
  have hlength : string.length = string'.length :=
    Nat.le_antisymm (hnot h' h hzero) (hnot h h' hzero')
  refine List.ext_getElem hlength fun i hi hi' => ?_
  have hfirst := h.characters i hi
  have hsecond := h'.characters i hi'
  rw [List.getD_eq_getElem _ _ hi] at hfirst
  rw [List.getD_eq_getElem _ _ hi'] at hsecond
  exact hfirst.symm.trans hsecond

theorem strcmpFrom_eq_zero_iff {a : Buffer} {i : Nat} {b : List UInt8} (hzero : ∀ c ∈ b, c ≠ 0) :
    strcmpFrom a i b = 0 ↔ At a i b ∧ a (i + b.length) = 0 := by
  induction b generalizing i with
  | nil =>
    rw [strcmpFrom]
    have hnone : At a i [] := fun k hk => absurd hk (Nat.not_lt_zero k)
    split_ifs with hend
    · exact iff_of_false (by decide) fun h => hend h.2
    · exact iff_of_true rfl ⟨hnone, not_not.mp hend⟩
  | cons c b ih =>
    have hc := hzero c List.mem_cons_self
    rw [strcmpFrom]
    split_ifs with hend hne
    · exact iff_of_false (by decide) fun h => hc (h.1.head.symm.trans hend)
    · exact iff_of_false (by decide) fun h => hne h.1.head
    · rw [ih fun d hd => hzero d (List.mem_cons_of_mem _ hd), List.length_cons,
        Nat.add_comm b.length, ← Nat.add_assoc]
      refine and_congr_left fun _ => ⟨fun hat => ?_, At.tail⟩
      rintro (_ | k) hk
      · exact not_not.mp hne
      · have hnext := hat k (Nat.lt_of_succ_lt_succ hk)
        rwa [Nat.add_assoc, Nat.add_comm 1] at hnext

/-- A string that an array holds is compared as a whole. -/
theorem strcmp_eq_zero_iff {a : Buffer} {string : List UInt8} (h : HoldsString a string)
    (hzero : ∀ c ∈ string, c ≠ 0) {name : String} (hname : ∀ c ∈ charactersOf name, c ≠ 0) :
    strcmp a name = 0 ↔ string = charactersOf name := by
  rw [strcmp, strcmpFrom_eq_zero_iff hname, Nat.zero_add]
  constructor
  · rintro ⟨hat, hend⟩
    refine holdsString_unique h ⟨fun i hi => ?_, hend⟩ hzero hname
    have hcharacter := hat i hi
    rwa [Nat.zero_add] at hcharacter
  · rintro rfl
    exact ⟨fun k hk => by rw [Nat.zero_add]; exact h.characters k hk, h.terminator⟩

/-! ## Arguments -/

/-- The line in the editor's buffer. -/
def Shell.line (s : Shell) : List UInt8 := (List.range s.commandLength).map s.commandBuffer

/-- The commands that are handed the argument. -/
def takesArgument (word : List UInt8) : Prop :=
  word = charactersOf "echo" ∨ word = charactersOf "ls" ∨ word = charactersOf "cat"

/-- The command is the first word of the line, unless that is too long, and the argument
that is handed on is the rest of it; without an argument `ls` is handed the root. The
writes stay inside the buffers. -/
structure ArrivesWhole (line : List UInt8) (command argument : Filled) : Prop where
  word : (wordOf line).length ≤ 31 → HoldsString command.cells (wordOf line)
  echo : ∀ text, processCommand command.cells argument.cells = .echo text →
    HoldsString text (restOf line)
  ls : ∀ path, processCommand command.cells argument.cells = .ls path →
    HoldsString path (if restOf line = [] then charactersOf "/" else restOf line)
  cat : ∀ path, processCommand command.cells argument.cells = .cat path →
    HoldsString path (restOf line)
  command_inside : ∀ i ∈ command.written, i < 32
  argument_inside : ∀ i ∈ argument.written, i < 96

section Dispatch

variable {command argument : Buffer}

theorem echo_of_processCommand {text : Buffer} (h : processCommand command argument = .echo text) :
    strcmp command "echo" = 0 ∧ text = argument := by
  -- no other name leads to this invocation
  rw [processCommand] at h
  grind

theorem ls_of_processCommand {path : Buffer} (h : processCommand command argument = .ls path) :
    strcmp command "ls" = 0 ∧ path = if argument 0 = 0 then cString "/" else argument := by
  rw [processCommand] at h
  generalize (if argument 0 = 0 then cString "/" else argument) = whole at h ⊢
  grind

theorem cat_of_processCommand {path : Buffer} (h : processCommand command argument = .cat path) :
    strcmp command "cat" = 0 ∧ path = argument := by
  rw [processCommand] at h
  grind

/-- The command and the argument that have been split off a line without zeros. -/
structure Split (command argument : Buffer) (word rest : List UInt8) : Prop where
  command : HoldsString command word
  argument : HoldsString argument rest
  word_ne_zero : ∀ c ∈ word, c ≠ 0
  rest_ne_zero : ∀ c ∈ rest, c ≠ 0

variable {word rest : List UInt8}

theorem Split.argument_eq_zero_iff (h : Split command argument word rest) :
    argument 0 = 0 ↔ rest = [] := by
  cases rest with
  | nil => exact iff_of_true h.argument.terminator rfl
  | cons c rest =>
    have hfirst : argument 0 = c := h.argument.characters 0 (Nat.succ_pos _)
    exact iff_of_false (hfirst ▸ h.rest_ne_zero c List.mem_cons_self) (List.cons_ne_nil c rest)

theorem Split.strcmp_iff (h : Split command argument word rest) {name : String}
    (hname : ∀ c ∈ charactersOf name, c ≠ 0) :
    strcmp command name = 0 ↔ word = charactersOf name :=
  strcmp_eq_zero_iff h.command h.word_ne_zero hname

/-- The dispatch compares the word with the names of the commands. -/
theorem Split.processCommand_eq (h : Split command argument word rest) :
    processCommand command argument =
      if word = charactersOf "help" then .help
      else if word = charactersOf "clear" then .clear
      else if word = charactersOf "echo" then .echo argument
      else if word = charactersOf "clock" then .clock
      else if word = charactersOf "memory" then .memory
      else if word = charactersOf "about" then .about
      else if word = charactersOf "ls" then .ls (if rest = [] then cString "/" else argument)
      else if word = charactersOf "cat" then if rest = [] then .missingPath else .cat argument
      else .unknown command := by
  have hname : ∀ name ∈ ["help", "clear", "echo", "clock", "memory", "about", "ls", "cat"],
      (strcmp command name = 0 ↔ word = charactersOf name) := by
    intro name hmem
    have hzero : ∀ name ∈ ["help", "clear", "echo", "clock", "memory", "about", "ls", "cat"],
        ∀ c ∈ charactersOf name, c ≠ 0 := by decide +kernel
    exact h.strcmp_iff (hzero name hmem)
  simp only [List.forall_mem_cons, List.not_mem_nil, false_implies, implies_true, and_true] at hname
  simp only [processCommand, hname, h.argument_eq_zero_iff]

theorem Split.echo (h : Split command argument word rest) (hword : word = charactersOf "echo") :
    processCommand command argument = .echo argument := by
  rw [h.processCommand_eq, hword]
  rfl

theorem Split.ls (h : Split command argument word rest) (hword : word = charactersOf "ls") :
    processCommand command argument = .ls (if rest = [] then cString "/" else argument) := by
  rw [h.processCommand_eq, hword]
  rfl

theorem Split.cat (h : Split command argument word rest) (hword : word = charactersOf "cat")
    (hrest : rest ≠ []) : processCommand command argument = .cat argument := by
  have hcat : processCommand command argument =
      if rest = [] then .missingPath else .cat argument := by
    rw [h.processCommand_eq, hword]
    rfl
  rw [hcat, if_neg hrest]

end Dispatch

theorem mem_of_mem_wordOf {line : List UInt8} {c : UInt8} (h : c ∈ wordOf line) : c ∈ line :=
  (List.dropWhile_sublist _).subset ((List.takeWhile_sublist _).subset h)

theorem mem_of_mem_restOf {line : List UInt8} {c : UInt8} (h : c ∈ restOf line) : c ∈ line :=
  (List.dropWhile_sublist _).subset
    ((List.dropWhile_sublist _).subset ((List.dropWhile_sublist _).subset h))

/-- What splitting makes of a line: a text that does not fit into its buffer is cut off. -/
theorem splitCommand_split {input : Buffer} {line : List UInt8} (h : At input 0 line)
    (hzero : ∀ c ∈ line, c ≠ 0) (command parameters : Buffer) :
    let result := splitCommand input line.length command parameters
    Split result.1.cells result.2.cells ((wordOf line).take 31) ((restOf line).take 95) := by
  obtain ⟨⟨hcommand, -⟩, hargument, -⟩ := splitCommand_holds h command parameters
  refine ⟨hcommand, hargument, fun c hc => ?_, fun c hc => ?_⟩
  · exact hzero c (mem_of_mem_wordOf (List.mem_of_mem_take hc))
  · exact hzero c (mem_of_mem_restOf (List.mem_of_mem_take hc))

/-- A name is shorter than the buffer, so a word that is cut off is none. -/
theorem take_eq_charactersOf_iff {word : List UInt8} {name : String}
    (hshort : (charactersOf name).length < 31) :
    word.take 31 = charactersOf name ↔ word = charactersOf name := by
  constructor
  · intro heq
    rwa [List.take_of_length_le] at heq
    have hlength := congrArg List.length heq
    rw [List.length_take] at hlength
    omega
  · intro heq
    rw [heq, List.take_of_length_le hshort.le]

/-- A rest that has been cut off reaches a command that takes the argument. -/
theorem Split.length_le {line : List UInt8} {command argument : Filled}
    (h : Split command.cells argument.cells ((wordOf line).take 31) ((restOf line).take 95))
    (hzero : ∀ c ∈ line, c ≠ 0) (hwhole : ArrivesWhole line command argument)
    (htakes : takesArgument (wordOf line)) : (restOf line).length ≤ 95 := by
  by_contra hlong
  have hcut : (restOf line).take 95 ≠ restOf line := fun heq =>
    hlong (List.take_eq_self_iff _ |>.mp heq)
  have hrest : restOf line ≠ [] := by
    intro hnil
    rw [hnil] at hlong
    exact hlong (Nat.zero_le _)
  have hsome : (restOf line).take 95 ≠ [] := by
    rw [ne_eq, List.take_eq_nil_iff]
    exact fun hor => hor.elim (by decide) hrest
  have hnot (hholds : HoldsString argument.cells (restOf line)) : False :=
    hcut (holdsString_unique h.argument hholds h.rest_ne_zero fun c hc =>
      hzero c (mem_of_mem_restOf hc))
  rcases htakes with hecho | hls | hcat
  · exact hnot (hwhole.echo _ (h.echo ((take_eq_charactersOf_iff (by decide +kernel)).mpr hecho)))
  · have hpath := hwhole.ls _ (h.ls ((take_eq_charactersOf_iff (by decide +kernel)).mpr hls))
    rw [if_neg hsome, if_neg hrest] at hpath
    exact hnot hpath
  · have hcut := (take_eq_charactersOf_iff (by decide +kernel)).mpr hcat
    exact hnot (hwhole.cat _ (h.cat hcut hsome))

/-- A rest that fits in reaches every command whole. -/
theorem Split.arrivesWhole {line : List UInt8} {command argument : Filled}
    (h : Split command.cells argument.cells ((wordOf line).take 31) ((restOf line).take 95))
    (hcommand : ∀ i ∈ command.written, i < 32) (hargument : ∀ i ∈ argument.written, i < 96)
    (hfits : takesArgument (wordOf line) → (restOf line).length ≤ 95) :
    ArrivesWhole line command argument := by
  have hwhole (htakes : takesArgument (wordOf line)) :
      Split command.cells argument.cells ((wordOf line).take 31) (restOf line) := by
    rwa [List.take_of_length_le (hfits htakes)] at h
  have hfound {name : String} (hzero : ∀ c ∈ charactersOf name, c ≠ 0)
      (hshort : (charactersOf name).length < 31) (heq : strcmp command.cells name = 0) :
      wordOf line = charactersOf name :=
    (take_eq_charactersOf_iff hshort).mp ((h.strcmp_iff hzero).mp heq)
  refine ⟨fun hlength => ?_, fun text hecho => ?_, fun path hls => ?_, fun path hcat => ?_,
    hcommand, hargument⟩
  · have hholds := h.command
    rwa [List.take_of_length_le hlength] at hholds
  · obtain ⟨hequal, rfl⟩ := echo_of_processCommand hecho
    exact (hwhole (.inl (hfound (by decide +kernel) (by decide +kernel) hequal))).argument
  · -- an empty argument stands for the root
    obtain ⟨hequal, rfl⟩ := ls_of_processCommand hls
    have hsplit := hwhole (.inr (.inl (hfound (by decide +kernel) (by decide +kernel) hequal)))
    by_cases hempty : restOf line = []
    · rw [if_pos hempty, if_pos (hsplit.argument_eq_zero_iff.mpr hempty)]
      exact ⟨fun _ _ => rfl, rfl⟩
    · rw [if_neg hempty, if_neg (mt hsplit.argument_eq_zero_iff.mp hempty)]
      exact hsplit.argument
  · obtain ⟨hequal, rfl⟩ := cat_of_processCommand hcat
    exact (hwhole (.inr (.inr (hfound (by decide +kernel) (by decide +kernel) hequal)))).argument

/-! ## Lines from the editor -/

namespace Shell

variable {processCommand : Shell → Shell} {background : UInt16} {s : Shell}

/-- The line that is being typed has room for its terminator, and none inside. -/
structure Typed (s : Shell) : Prop where
  length : s.commandLength ≤ 127
  ne_zero : ∀ i < s.commandLength, s.commandBuffer i ≠ 0

theorem Typed.receive (h : s.Typed) {c : UInt8} (hnewline : c ≠ 10) :
    (s.receive processCommand background c).Typed := by
  obtain ⟨hlength, hzero⟩ := h
  unfold Shell.receive
  split_ifs with hnone hbackspace hsome hroom
  · exact ⟨hlength, hzero⟩
  · refine ⟨(Nat.sub_le _ _).trans hlength, fun i hi => ?_⟩
    simp only at hi ⊢
    rw [Function.update_of_ne (by omega)]
    exact hzero i (by omega)
  · exact ⟨hlength, hzero⟩
  · refine ⟨hroom, fun i hi => ?_⟩
    simp only at hi ⊢
    rcases Nat.lt_succ_iff_lt_or_eq.mp hi with hold | rfl
    · rw [Function.update_of_ne hold.ne]
      exact hzero i hold
    · rwa [Function.update_self]
  · exact ⟨hlength, hzero⟩

theorem Typed.run (h : s.Typed) {keys : List UInt8} (hkeys : ∀ c ∈ keys, c ≠ 10) :
    (s.run processCommand background keys).Typed := by
  induction keys generalizing s with
  | nil => exact h
  | cons c keys ih =>
    exact ih (h.receive (hkeys c List.mem_cons_self)) fun d hd =>
      hkeys d (List.mem_cons_of_mem _ hd)

@[simp] theorem length_line (s : Shell) : s.line.length = s.commandLength := by simp [line]

theorem Typed.line_ne_zero (h : s.Typed) : ∀ c ∈ s.line, c ≠ 0 := by
  intro c hc
  obtain ⟨i, hi, rfl⟩ := List.mem_map.mp hc
  exact h.ne_zero i (List.mem_range.mp hi)

/-- The editor terminates the line before it is split. -/
theorem at_line (s : Shell) :
    At (Function.update s.commandBuffer s.commandLength 0) 0 s.line := by
  intro k hk
  rw [length_line] at hk
  rw [Nat.zero_add, Function.update_of_ne hk.ne, line, List.getD_eq_getElem _ _ (by simpa using hk)]
  simp

end Shell

/-- Whatever is typed into an empty line, its command and its argument arrive whole exactly
if the rest behind the first word has at most 95 characters, or no command is handed it. -/
theorem shell_argument_iff (processCommand : Shell → Shell) (background : UInt16)
    (terminal : Terminal) (buffer command argument : Buffer) (keys : List UInt8)
    (hkeys : ∀ c ∈ keys, c ≠ 10) :
    let s := Shell.run processCommand background ⟨terminal, buffer, 0⟩ keys
    let result := splitCommand (Function.update s.commandBuffer s.commandLength 0) s.commandLength
      command argument
    s.line.length ≤ 127 ∧ (ArrivesWhole s.line result.1 result.2 ↔
      (takesArgument (wordOf s.line) → (restOf s.line).length ≤ 95)) := by
  intro s result
  have htyped : s.Typed :=
    Shell.Typed.run ⟨Nat.zero_le _, fun i hi => absurd hi (Nat.not_lt_zero i)⟩ hkeys
  have hsplit := splitCommand_split s.at_line htyped.line_ne_zero command argument
  obtain ⟨⟨-, hcommand⟩, -, hargument⟩ := splitCommand_holds s.at_line command argument
  rw [Shell.length_line] at hsplit hcommand hargument
  refine ⟨by rw [Shell.length_line]; exact htyped.length, fun hwhole => ?_, fun hfits => ?_⟩
  · exact hsplit.length_le htyped.line_ne_zero hwhole
  · exact hsplit.arrivesWhole hcommand hargument hfits

/-- A short path reaches `cat`. -/
theorem shell_argument_path :
    let s := Shell.run id 0 ⟨⟨0, 0, ⟨fun _ => 0, []⟩, 0⟩, fun _ => 0, 0⟩ (charactersOf "cat  /a b")
    let result := splitCommand (Function.update s.commandBuffer s.commandLength 0) s.commandLength
      (fun _ => 0) (fun _ => 0)
    restOf s.line = charactersOf "/a b" ∧ ArrivesWhole s.line result.1 result.2 := by
  intro s result
  have hline : s.line = charactersOf "cat  /a b" := by decide +kernel
  have hrest : restOf s.line = charactersOf "/a b" := by
    rw [hline]
    decide
  refine ⟨hrest, (shell_argument_iff id 0 ⟨0, 0, ⟨fun _ => 0, []⟩, 0⟩ (fun _ => 0) (fun _ => 0)
    (fun _ => 0) (charactersOf "cat  /a b") (by decide +kernel)).2.mpr fun _ => ?_⟩
  change (restOf s.line).length ≤ 95
  rw [hrest]
  decide

/-- A path of 96 characters reaches `cat` without its last one. -/
theorem shell_argument_cut :
    let s := Shell.run id 0 ⟨⟨0, 0, ⟨fun _ => 0, []⟩, 0⟩, fun _ => 0, 0⟩
      (charactersOf "cat " ++ List.replicate 96 97)
    let result := splitCommand (Function.update s.commandBuffer s.commandLength 0) s.commandLength
      (fun _ => 0) (fun _ => 0)
    s.line = charactersOf "cat " ++ List.replicate 96 97 ∧
      ¬ ArrivesWhole s.line result.1 result.2 := by
  intro s result
  have hline : s.line = charactersOf "cat " ++ List.replicate 96 97 := by decide +kernel
  have hword : wordOf s.line = charactersOf "cat" := by
    rw [hline]
    decide +kernel
  have hrest : (restOf s.line).length = 96 := by
    rw [hline]
    decide +kernel
  have hzero : ∀ c ∈ s.line, c ≠ 0 := by
    rw [hline]
    decide +kernel
  have hsplit := splitCommand_split s.at_line hzero (fun _ => 0) (fun _ => 0)
  rw [Shell.length_line] at hsplit
  -- a whole argument would have fitted into the buffer
  refine ⟨hline, fun hwhole => ?_⟩
  have hfits := hsplit.length_le hzero hwhole (.inr (.inr hword))
  omega

end LevOS
