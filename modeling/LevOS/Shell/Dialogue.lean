import LevOS.Drivers.Screen
import LevOS.Filesystem.Listing
import LevOS.Shell.Session

/-!
# The dialogue with the shell

For its user the shell is a dialogue: rows of text, a line being typed, and orders that are
answered with text. The buffers of `shell.c`, the cells of the screen and the cursor do not
appear in it, nor does anything that an earlier order has left in a buffer.

## Main definitions

* `Dialogue`, with `Dialogue.receive`
* `Order`, `orderOf`, what a line asks for, and `Dialogue.obey`
* `Session.Shows`, the state of the shell stands for a state of the dialogue

## Main results

* `Session.Shows.receive`, one character
* `shell_dialogue`
-/

namespace LevOS

open LevOS.Drivers LevOS.Filesystem LevOS.Foundation

variable {leap : Nat → Nat → Bool} {ω ω' : Type}

/-! ## Orders -/

/-- What a line asks for. -/
inductive Order
  | help
  | clear
  | echo (text : List UInt8)
  | clock
  | memory
  | about
  | ls (path : CString)
  | cat (path : CString)
  | missingPath
  | unknown (word : List UInt8)

/-- A text as a path, up to the first zero. -/
def cPath (text : List UInt8) : CString where
  chars := cName text
  noNul := fun h => absurd (List.mem_takeWhile_imp h) (by decide)

/-- The order that a line is. Of its first word 31 characters count, of the rest 95. -/
def orderOf (line : List UInt8) : Order :=
  let word := (wordOf line).take 31
  let rest := (restOf line).take 95
  if word = charactersOf "help" then .help
  else if word = charactersOf "clear" then .clear
  else if word = charactersOf "echo" then .echo rest
  else if word = charactersOf "clock" then .clock
  else if word = charactersOf "memory" then .memory
  else if word = charactersOf "about" then .about
  else if word = charactersOf "ls" then .ls (if rest = [] then rootPath else cPath rest)
  else if word = charactersOf "cat" then if rest = [] then .missingPath else .cat (cPath rest)
  else .unknown word

/-! ## The dialogue -/

/-- The state of the dialogue: what has been shown, the line being typed, the file system, how
its mount ended, and the clock. -/
structure Dialogue (leap : Nat → Nat → Bool) (ω : Type) where
  rows : Rows
  line : List UInt8
  files : FsState ω
  status : Fat32Result
  cmos : Cmos leap

namespace Dialogue

/-- Some text is shown. -/
def say (d : Dialogue leap ω) (text : List UInt8) : Dialogue leap ω :=
  { d with rows := text.foldl Rows.place d.rows }

/-- The title of the shell. -/
def titleText : List UInt8 := charactersOf Session.title

/-- The answer to `help`. -/
def helpText : List UInt8 :=
  charactersOf
    ("Available commands:" ++ "\nhelp -- this command" ++ "\nclear -- clears the screen" ++
      "\nabout -- shows information about this OS" ++ "\nls [path] -- list a FAT32 directory" ++
      "\ncat path -- print a FAT32 file" ++ "\nclock -- show current time" ++
      "\necho -- repeats your words" ++ "\nmemory -- shows memory size in Bytes\n")

/-- The answer to `about`. -/
def aboutText : List UInt8 :=
  charactersOf ("--LevOS - Shell 0.1--" ++ "\nWork in progress\n") ++
    charactersOf ".......\n.......\n"

/-- The answer to `clock`. -/
def clockText (r : Readings) : List UInt8 :=
  charactersOf "Year: " ++ hexadecimal r.century.toNat 2 ++ hexadecimal r.year.toNat 2 ++
    charactersOf "\nDate: " ++ hexadecimal r.month.toNat 2 ++ charactersOf "/" ++
    hexadecimal r.monthday.toNat 2 ++ charactersOf "\nTime: " ++ hexadecimal r.hours.toNat 2 ++
    charactersOf ":" ++ hexadecimal r.minutes.toNat 2 ++ charactersOf ":" ++
    hexadecimal r.seconds.toNat 2 ++ charactersOf "\n"

/-- A line of a listing: directories are marked. -/
def entryText (entry : Dirent) : List UInt8 :=
  cName entry.name ++ (if entry.attributes &&& 0x10 ≠ 0 then charactersOf "/" else []) ++
    charactersOf "\n"

/-- What is said about an error of the file system. -/
def errorText (result : Fat32Result) (lastError : Int) : List UInt8 :=
  charactersOf ("filesystem: " ++ fat32ResultString result) ++
    if result = .eio then charactersOf (" (" ++ ataPioErrorString lastError ++ ")") else []

variable (b : Board ω)

/-- An order is carried out. -/
def obey (d : Dialogue leap ω) : Order → Dialogue leap ω
  | .help => d.say helpText
  | .clear => { d with rows := ⟨[], []⟩ }.say titleText
  | .echo text => d.say text
  | .clock =>
    let (readings, cmos) := clock b.ticks d.cmos
    { d with cmos := cmos }.say (clockText readings)
  | .memory =>
    d.say (charactersOf "Available RAM: " ++ decimal b.getCmosMemorySize.toNat ++
      charactersOf " Bytes\n")
  | .about => d.say aboutText
  | .ls path =>
    let (reply, files) := DiskCall.exec b.device (.list (some path) (some fun _ _ => 0)) d.files
    { d with files := files }.say (reply.entries.flatMap entryText ++
      if reply.result = Fat32Result.ok then [] else errorText reply.result (b.lastError files.bus.outside))
  -- a file may contain any characters, backspaces included
  | .cat path =>
    let (reply, files) :=
      DiskCall.exec b.device (.read (some path) (some fun _ => 0) 32768 (some 0)) d.files
    let d := { d with files := files }
    if reply.result = .ok then
      let text := (List.range (reply.bytesRead.getD 0).toNat).map (reply.buffer.getD fun _ => 0)
      { d with rows := text.foldl Rows.type d.rows }
    else d.say (errorText reply.result (b.lastError files.bus.outside))
  | .missingPath => d.say (charactersOf "cat: missing path")
  | .unknown word => d.say (charactersOf "Unknown command: " ++ word)

/-- A character is typed: a line feed gives the order, a backspace takes the last character
back, and others are added to the line as long as it has less than 127. -/
def receive (d : Dialogue leap ω) (c : UInt8) : Dialogue leap ω :=
  if c = 0 then d
  else if c = 10 then
    { (d.say [10]).obey b (orderOf d.line) with line := [] }.say (charactersOf "\n> ")
  else if c = 8 then
    if d.line = [] then d else { d with line := d.line.dropLast, rows := d.rows.erase }
  else if d.line.length < 127 then { d.say [c] with line := d.line ++ [c] }
  else d

/-- Some characters are typed. -/
def run (d : Dialogue leap ω) (keys : List UInt8) : Dialogue leap ω := keys.foldl (receive b) d

/-- What is said about a file system that is not mounted. -/
def complaintText (status : Fat32Result) (present : Bool) (lastError : Int) : List UInt8 :=
  if status = .ok then []
  else
    charactersOf "\nfilesystem: " ++
      if present = false then
        charactersOf (ataPioErrorString lastError ++
          " (attach a hard disk image as the primary master)")
      else charactersOf (fat32ResultString status)

/-- What is shown up to the first prompt. -/
def greeting (status : Fat32Result) (present : Bool) (lastError : Int) : List UInt8 :=
  charactersOf "IDT successfully loaded!\n" ++ titleText ++
    complaintText status present lastError ++ charactersOf "\n> "

/-- The dialogue begins. -/
def boot (files : FsState ω) (cmos : Cmos leap) : Dialogue leap ω :=
  let (status, files) := Session.shellFilesystemInit b files
  { rows := layout (greeting status (b.present files.bus.outside) (b.lastError files.bus.outside))
    line := []
    files := files
    status := status
    cmos := cmos }

end Dialogue

/-! ## What calls say -/

/-- Some calls of the terminal show a text. -/
def Says (calls : List TerminalCall) (text : List UInt8) : Prop :=
  ∀ r, calls.foldl (fun r call => call.onRows r) r = text.foldl Rows.place r

theorem Says.append {calls calls' : List TerminalCall} {text text' : List UInt8}
    (h : Says calls text) (h' : Says calls' text') : Says (calls ++ calls') (text ++ text') := by
  intro r
  rw [List.foldl_append, List.foldl_append, h, h']

theorem Says.cons {call : TerminalCall} {calls : List TerminalCall} {text text' : List UInt8}
    (h : Says [call] text) (h' : Says calls text') : Says (call :: calls) (text ++ text') :=
  h.append h'

theorem says_nil : Says [] [] := fun _ => rfl

/-- After `terminal_init` the text is all there is on the screen. -/
theorem Says.terminalRun {calls : List TerminalCall} {text : List UInt8} (h : Says calls text)
    (t : Terminal) : (terminalRun t calls).ShowsText (layout text) := by
  have hscreen := t.terminalRun_showsText calls
  rwa [h] at hscreen

/-- A string of at most 100 characters is printed whole. -/
theorem says_print {text : Buffer} {string : List UInt8} (h : HoldsString text string)
    (hzero : ∀ c ∈ string, c ≠ 0) (hshort : string.length ≤ 100) (color : UInt16) :
    Says [.print text color] string := by
  intro r
  have hcharacters : charactersFrom text 0 100 = string := by
    refine charactersFrom_eq (fun k hk => ?_) ?_ hzero hshort
    · rw [Nat.zero_add]
      exact h.characters k hk
    · rw [Nat.zero_add]
      exact h.terminator
  exact congrArg (List.foldl Rows.place r) hcharacters

/-- There are no zeros, and at most as many characters as given. -/
def shorterThan : Nat → List UInt8 → Bool
  | _, [] => true
  | 0, _ :: _ => false
  | n + 1, c :: text => c != 0 && shorterThan n text

theorem shorterThan_iff {n : Nat} {text : List UInt8} :
    shorterThan n text = true ↔ (∀ c ∈ text, c ≠ 0) ∧ text.length ≤ n := by
  induction text generalizing n with
  | nil => simp [shorterThan]
  | cons c text ih =>
    cases n with
    | zero => simp [shorterThan]
    | succ n => simp [shorterThan, ih, and_assoc]

/-- A constant that is printed whole. -/
def Printable (text : String) : Prop := shorterThan 100 (charactersOf text) = true

instance (text : String) : Decidable (Printable text) := inferInstanceAs (Decidable (_ = true))

theorem holdsString_cString (text : String) : HoldsString (cString text) (charactersOf text) where
  characters _ _ := rfl
  terminator := List.getD_eq_default _ _ (Nat.le_refl _)

theorem says_constant (text : String) (h : Printable text) (color : UInt16) :
    Says [.print (cString text) color] (charactersOf text) :=
  says_print (holdsString_cString text) (shorterThan_iff.mp h).1 (shorterThan_iff.mp h).2 color

/-- Constants are printed one behind the other. -/
theorem says_constants {texts : List (String × UInt16)} {text : List UInt8}
    (h : ∀ constant ∈ texts, Printable constant.1)
    (htext : (texts.flatMap fun constant => charactersOf constant.1) = text) :
    Says (Session.print texts) text := by
  subst htext
  induction texts with
  | nil => exact says_nil
  | cons constant texts ih =>
    exact (says_constant constant.1 (h constant List.mem_cons_self) constant.2).cons
      (ih fun constant hmem => h constant (List.mem_cons_of_mem _ hmem))

theorem says_putchar {c : UInt8} (hc : c ≠ 8) : Says [.putchar c] [c] := by
  intro r
  exact if_neg hc

theorem says_hexByte (value : UInt8) : Says [.printHexByte value] (hexadecimal value.toNat 2) :=
  fun _ => rfl

theorem says_number (digits : Nat → UInt8) (value : UInt32) :
    Says [.printNumber digits value] (decimal value.toNat) :=
  fun _ => rfl

theorem printable_result (result : Fat32Result) : Printable (fat32ResultString result) := by
  cases result <;> decide +kernel

theorem printable_error (error : Int) : Printable (ataPioErrorString error) := by
  unfold ataPioErrorString
  split_ifs <;> decide +kernel

theorem charactersOf_append (text text' : String) :
    charactersOf (text ++ text') = charactersOf text ++ charactersOf text' := by
  rw [charactersOf, String.toList_append, List.map_append]
  rfl

theorem says_help : Says Session.help Dialogue.helpText :=
  says_constants (by decide +kernel) (by
    simp only [Dialogue.helpText, charactersOf_append, List.flatMap_cons, List.flatMap_nil,
      List.append_nil, List.append_assoc])

theorem says_about : Says Session.about Dialogue.aboutText := by
  have htitle : Says
      (Session.print [("--LevOS - Shell 0.1--", 0x0E), ("\nWork in progress\n", 0x04)])
      (charactersOf ("--LevOS - Shell 0.1--" ++ "\nWork in progress\n")) :=
    says_constants (by decide +kernel) (by
      simp only [charactersOf_append, List.flatMap_cons, List.flatMap_nil, List.append_nil])
  have hdots : Says
      (Session.print [(".", 0xF0), (".", 0x40), (".", 0xE0), (".", 0x10), (".", 0x20), (".", 0x30),
        (".", 0x60), ("\n.", 0x90), (".", 0xB0), (".", 0xC0), (".", 0xA0), (".", 0x70), (".", 0x80),
        (".\n", 0xD0)])
      (charactersOf ".......\n.......\n") :=
    says_constants (by decide +kernel) (by decide +kernel)
  exact htitle.append hdots

theorem says_readings (r : Readings) : Says r.calls (Dialogue.clockText r) := by
  have hslash : Says [.putchar 47] (charactersOf "/") := says_putchar (by decide)
  have hcolon : Says [.putchar 58] (charactersOf ":") := says_putchar (by decide)
  have hfeed : Says [.putchar 10] (charactersOf "\n") := says_putchar (by decide)
  have hall := (says_constant "Year: " (by decide +kernel) 0x0E)
    |>.append (says_hexByte r.century) |>.append (says_hexByte r.year)
    |>.append (says_constant "\nDate: " (by decide +kernel) 0x0E)
    |>.append (says_hexByte r.month) |>.append hslash |>.append (says_hexByte r.monthday)
    |>.append (says_constant "\nTime: " (by decide +kernel) 0x0E)
    |>.append (says_hexByte r.hours) |>.append hcolon |>.append (says_hexByte r.minutes)
    |>.append hcolon |>.append (says_hexByte r.seconds) |>.append hfeed
  exact hall

/-- `filesystem_error`. -/
theorem says_error (result : Fat32Result) (lastError : Int) :
    Says (Session.filesystemError result lastError) (Dialogue.errorText result lastError) := by
  refine Says.append (says_constants ?_ ?_) ?_
  · intro constant hmem
    rcases List.mem_cons.mp hmem with rfl | hmem
    · decide +kernel
    · rw [List.mem_singleton.mp hmem]
      exact printable_result result
  · rw [charactersOf_append]
    simp only [List.flatMap_cons, List.flatMap_nil, List.append_nil]
  · split_ifs with heio
    · refine says_constants ?_ ?_
      · intro constant hmem
        rcases List.mem_cons.mp hmem with rfl | hmem
        · decide +kernel
        rcases List.mem_cons.mp hmem with rfl | hmem
        · exact printable_error lastError
        · rw [List.mem_singleton.mp hmem]
          decide +kernel
      · rw [charactersOf_append, charactersOf_append, List.append_assoc]
        simp only [List.flatMap_cons, List.flatMap_nil, List.append_nil]
    · exact says_nil

theorem says_complaint (status : Fat32Result) (present : Bool) (lastError : Int) :
    Says (Session.complaint status present lastError)
      (Dialogue.complaintText status present lastError) := by
  unfold Session.complaint Dialogue.complaintText
  split_ifs
  · exact says_nil
  · refine (says_constant _ (by decide +kernel) 0x04).append (says_constants ?_ ?_)
    · intro constant hmem
      rcases List.mem_cons.mp hmem with rfl | hmem
      · exact printable_error lastError
      · rw [List.mem_singleton.mp hmem]
        decide +kernel
    · rw [charactersOf_append]
      simp only [List.flatMap_cons, List.flatMap_nil, List.append_nil]
  · refine (says_constant _ (by decide +kernel) 0x04).append ?_
    exact says_constant _ (printable_result status) 0x0E

/-! ## The shell shows the dialogue -/

/-- Two boards that the shell cannot tell apart. -/
structure Board.Alike (R : Bus ω → Bus ω' → Prop) (b : Board ω) (b' : Board ω') : Prop where
  device : Simulates R b.device b'.device
  present : ∀ bus bus', R bus bus' → b.present bus.outside = b'.present bus'.outside
  lastError : ∀ bus bus', R bus bus' → b.lastError bus.outside = b'.lastError bus'.outside
  setup : b.toSetup = b'.toSetup

namespace Session

/-- The state of the shell stands for a state of the dialogue. -/
structure Shows (R : Bus ω → Bus ω' → Prop) (s : Session leap ω) (d : Dialogue leap ω') :
    Prop where
  screen : s.terminal.ShowsText d.rows
  line : s.line = d.line
  typed : s.Typed
  files : s.files.Matches R d.files
  status : s.status = d.status
  cmos : s.cmos = d.cmos

variable {R : Bus ω → Bus ω' → Prop} {b : Board ω} {b' : Board ω'} {s : Session leap ω}
  {d : Dialogue leap ω'}

theorem display_cons (s : Session leap ω) (call : TerminalCall) (calls : List TerminalCall) :
    s.display (call :: calls) = (s.display [call]).display calls :=
  rfl

theorem Shows.display (h : s.Shows R d) {calls : List TerminalCall} {text : List UInt8}
    (hcalls : Says calls text) : (s.display calls).Shows R (d.say text) where
  screen := by
    have hscreen := h.screen.foldl_onRows calls
    rwa [hcalls d.rows] at hscreen
  line := h.line
  typed := ⟨h.typed.length, h.typed.ne_zero⟩
  files := h.files
  status := h.status
  cmos := h.cmos

/-- What a branch of `process_command` was given is what the order asks for. -/
inductive Means : Invocation → Order → Prop
  | help : Means .help .help
  | clear : Means .clear .clear
  | echo {text : Buffer} {string : List UInt8} (h : HoldsString text string)
    (hzero : ∀ c ∈ string, c ≠ 0) (hshort : string.length ≤ 95) : Means (.echo text) (.echo string)
  | clock : Means .clock .clock
  | memory : Means .memory .memory
  | about : Means .about .about
  | ls (path : Buffer) : Means (.ls path) (.ls (pathOf path))
  | cat (path : Buffer) : Means (.cat path) (.cat (pathOf path))
  | missingPath : Means .missingPath .missingPath
  | unknown {command : Buffer} {word : List UInt8} (h : HoldsString command word)
    (hzero : ∀ c ∈ word, c ≠ 0) (hshort : word.length ≤ 31) : Means (.unknown command) (.unknown word)

theorem means_ite {p : Prop} [Decidable p] {i j : Invocation} {o q : Order}
    (hthen : p → Means i o) (helse : ¬ p → Means j q) :
    Means (if p then i else j) (if p then o else q) := by
  split_ifs with hp
  · exact hthen hp
  · exact helse hp

theorem pathOf_eq {text : Buffer} {string : List UInt8} (h : HoldsString text string)
    (hzero : ∀ c ∈ string, c ≠ 0) (hshort : string.length ≤ 95) : pathOf text = cPath string := by
  have hcharacters : charactersFrom text 0 96 = string := by
    refine charactersFrom_eq (fun k hk => ?_) ?_ hzero (hshort.trans (by decide))
    · rw [Nat.zero_add]
      exact h.characters k hk
    · rw [Nat.zero_add]
      exact h.terminator
  have hwhole : cName string = string :=
    List.takeWhile_eq_self_iff.mpr fun c hc => by simpa using hzero c hc
  simp only [pathOf, cPath, hcharacters, hwhole]

/-- The line that was split is the order it is taken for. -/
theorem means_orderOf {command argument : Buffer} {line : List UInt8}
    (h : Split command argument ((wordOf line).take 31) ((restOf line).take 95)) :
    Means (LevOS.processCommand command argument) (orderOf line) := by
  have hword : ((wordOf line).take 31).length ≤ 31 := List.length_take_le _ _
  have hrest : ((restOf line).take 95).length ≤ 95 := List.length_take_le _ _
  have hpath := pathOf_eq h.argument h.rest_ne_zero hrest
  have hroot : pathOf (cString "/") = rootPath := by
    have hcharacters : charactersFrom (cString "/") 0 96 = [0x2F] := by decide +kernel
    simp only [pathOf, hcharacters, rootPath]
  have hls : Means (.ls (if (restOf line).take 95 = [] then cString "/" else argument))
      (.ls (if (restOf line).take 95 = [] then rootPath else cPath ((restOf line).take 95))) := by
    rw [← hroot, ← hpath, ← apply_ite pathOf]
    exact .ls _
  rw [h.processCommand_eq, orderOf, ← hpath]
  rw [← hpath] at hls
  -- word by word, in the order in which the names are compared
  exact means_ite (fun _ => .help) fun _ => means_ite (fun _ => .clear) fun _ =>
    means_ite (fun _ => .echo h.argument h.rest_ne_zero hrest) fun _ =>
    means_ite (fun _ => .clock) fun _ => means_ite (fun _ => .memory) fun _ =>
    means_ite (fun _ => .about) fun _ => means_ite (fun _ => hls) fun _ =>
    means_ite (fun _ => means_ite (fun _ => .missingPath) fun _ => .cat _) fun _ =>
    .unknown h.command h.word_ne_zero hword

/-! ### Entries and files -/

/-- A name array is printed up to its first zero. -/
theorem holdsString_cName (name : List UInt8) :
    HoldsString (fun i => name.getD i 0) (cName name) := by
  have hstart : cName name <+: name := List.takeWhile_prefix _
  refine ⟨fun i hi => ?_, ?_⟩
  · have hlong := hstart.length_le
    rw [List.getD_eq_getElem _ _ hi, List.getD_eq_getElem _ _ (by omega)]
    exact (hstart.getElem hi).symm
  · induction name with
    | nil => rfl
    | cons c name ih =>
      by_cases hc : c = 0
      · simp [cName, hc]
      · have hname : cName (c :: name) = c :: cName name := by simp [cName, hc]
        simp only [hname, List.length_cons, List.getD_cons_succ]
        exact ih (List.takeWhile_prefix _)

/-- A line of a listing. -/
theorem printDirectoryEntry_showsText {t : Terminal} {r : Rows} (h : t.ShowsText r) {raw : Buffer}
    {entry : Dirent} (hentry : entryFromRaw raw = some entry) :
    (printDirectoryEntry entry t).2.ShowsText ((Dialogue.entryText entry).foldl Rows.place r) := by
  have hzero : ∀ c ∈ cName entry.name, c ≠ 0 := fun c hc => by
    simpa using List.mem_takeWhile_imp hc
  have hshort : (cName entry.name).length ≤ 100 :=
    (List.takeWhile_prefix _).length_le.trans
      ((entryFromRaw_name_length hentry).trans (by decide))
  have hname := says_print (holdsString_cName entry.name) hzero hshort 0x0F
  have hfeed : Says [.putchar 10] (charactersOf "\n") := says_putchar (by decide)
  have hslash : Says [.putchar 47] (charactersOf "/") := says_putchar (by decide)
  unfold printDirectoryEntry Dialogue.entryText
  simp only
  split_ifs
  · rw [← (hname.append hslash).append hfeed r]
    exact h.foldl_onRows [.print (fun i => entry.name.getD i 0) 0x0F, .putchar 47, .putchar 10]
  · rw [List.append_nil, ← hname.append hfeed r]
    exact h.foldl_onRows [.print (fun i => entry.name.getD i 0) 0x0F, .putchar 10]

/-- The callback of `ls` shows what a client that keeps the entries would show. -/
theorem callbacksAlike_entries (R : Bus ω → Bus ω' → Prop) (r : Rows) :
    CallbacksAlike R
      (fun t entries => t.ShowsText ((entries.flatMap Dialogue.entryText).foldl Rows.place r))
      (quiet printDirectoryEntry) (keeping fun _ _ => 0) := by
  intro raw entry t entries bus bus' hentry hscreen hbus
  refine ⟨rfl, ?_, hbus⟩
  have hnext := printDirectoryEntry_showsText hscreen hentry
  simp only [quiet, keeping, List.flatMap_append, List.foldl_append, List.flatMap_cons,
    List.flatMap_nil, List.append_nil]
  exact hnext

/-- A buffer that is given to a read comes back. -/
theorem fat32ReadFile_buffer_isSome (path : Option CString) (bytes : Buffer) (capacity : UInt32)
    (bytesRead : Option UInt32) (files : FsState ω) :
    (fat32ReadFile path (some bytes) capacity bytesRead files).buffer.isSome = true := by
  unfold fat32ReadFile
  split
  · rfl
  · rfl
  · split_ifs
    · rfl
    split
    · rfl
    · split_ifs
      · rfl
      · rfl
      · rfl
      · rfl
      · rfl
      · simp only
        split <;> rfl

theorem foldl_onRows_putchar (text : List UInt8) (r : Rows) :
    (text.map TerminalCall.putchar).foldl (fun r call => call.onRows r) r =
      text.foldl Rows.type r := by
  rw [List.foldl_map]
  rfl

/-! ### Commands -/

theorem Shows.ls (h : s.Shows R d) (hb : b.Alike R b') (path : Buffer) :
    (s.execute b (.ls path)).Shows R (d.obey b' (.ls (pathOf path))) := by
  have hscreen : s.terminal.ShowsText
      ((([] : List Dirent).flatMap Dialogue.entryText).foldl Rows.place d.rows) := h.screen
  unfold execute Dialogue.obey DiskCall.exec
  simp only
  refine (h.files.fat32ListDirectory (some (pathOf path))
    (.some (callbacksAlike_entries R d.rows)) hscreen).elim ?_
  rintro result ⟨files, t⟩ ⟨files', entries⟩ ⟨hfiles, hlisted⟩
  have hshows : Shows R { s with files := files, terminal := t }
      ({ d with files := files' }.say (entries.flatMap Dialogue.entryText)) :=
    ⟨hlisted, h.line, ⟨h.typed.length, h.typed.ne_zero⟩, hfiles, h.status, h.cmos⟩
  have herror := hb.lastError _ _ hfiles.bus
  dsimp only
  rw [Dialogue.say, List.foldl_append]
  by_cases hok : result = .ok
  · rw [if_neg (not_not.mpr hok), if_pos hok]
    exact hshows
  · rw [if_pos hok, if_neg hok, herror]
    exact hshows.display (says_error result _)

theorem Shows.cat (h : s.Shows R d) (hb : b.Alike R b') (path : Buffer) :
    (s.execute b (.cat path)).Shows R (d.obey b' (.cat (pathOf path))) := by
  have hnothing : Option.Rel (AgreeOn fun _ => False) (some s.catBuffer) (some fun _ => 0) :=
    .some fun _ hfalse => hfalse.elim
  have hread := h.files.fat32ReadFile (some (pathOf path)) hnothing 32768 (some 0)
  have hsome := fat32ReadFile_buffer_isSome (some (pathOf path)) s.catBuffer 32768 (some 0) s.files
  unfold execute Dialogue.obey DiskCall.exec
  simp only
  generalize fat32ReadFile _ (some s.catBuffer) _ _ s.files = outcome at hread hsome
  generalize fat32ReadFile _ _ _ _ d.files = outcome' at hread
  obtain ⟨result, files, buffer, count⟩ := outcome
  obtain ⟨result', files', buffer', count'⟩ := outcome'
  obtain ⟨hresult, hfiles, hbuffer, hcount⟩ := hread
  obtain rfl : result = result' := hresult
  obtain rfl : count = count' := hcount
  cases hbuffer with
  | none => exact absurd hsome (by simp)
  | @some bytes bytes' hagree =>
    have hshows : Shows R { s with files := files, catBuffer := bytes } { d with files := files' } :=
      ⟨h.screen, h.line, ⟨h.typed.length, h.typed.ne_zero⟩, hfiles, h.status, h.cmos⟩
    have herror := hb.lastError _ _ hfiles.bus
    simp only [Option.getD_some]
    by_cases hok : result = .ok
    · rw [if_neg (not_not.mpr hok), if_pos hok]
      -- what was read is the same in both buffers, whatever they held before
      have htext : (List.range (count.getD 0).toNat).map bytes =
          (List.range (count.getD 0).toNat).map bytes' := by
        refine List.map_congr_left fun i hi => hagree i (Or.inr ⟨hok, ?_⟩)
        have hlt := List.mem_range.mp hi
        cases count with
        | none => exact absurd hlt (Nat.not_lt_zero i)
        | some n => exact ⟨n, rfl, hlt⟩
      refine ⟨?_, h.line, ⟨h.typed.length, h.typed.ne_zero⟩, hfiles, h.status, h.cmos⟩
      have hcalls : (List.range (count.getD 0).toNat).map (fun i => TerminalCall.putchar (bytes i)) =
          ((List.range (count.getD 0).toNat).map bytes).map TerminalCall.putchar := by
        rw [List.map_map]
        rfl
      rw [hcalls, ← htext]
      simp only
      rw [← foldl_onRows_putchar]
      exact h.screen.foldl_onRows _
    · rw [if_pos hok, if_neg hok, herror]
      exact hshows.display (says_error result _)

/-- Each branch of `process_command` does what the order asks for. -/
theorem Shows.execute (h : s.Shows R d) (hb : b.Alike R b') {invocation : Invocation} {order : Order}
    (hmeans : Means invocation order) : (s.execute b invocation).Shows R (d.obey b' order) := by
  -- one case for each command, by what it prints
  cases hmeans with
  | help => exact h.display says_help
  | clear =>
    have hcleared : Shows R (s.display [.clear b.background]) { d with rows := ⟨[], []⟩ } :=
      ⟨h.screen.foldl_onRows [.clear b.background], h.line, ⟨h.typed.length, h.typed.ne_zero⟩,
        h.files, h.status, h.cmos⟩
    rw [Session.execute, display_cons]
    exact hcleared.display (says_constant title (by decide +kernel) 0x1F)
  | echo htext hzero hshort =>
    exact h.display (says_print htext hzero (hshort.trans (by decide)) 0x0F)
  | clock =>
    have hcmos : clock b.ticks s.cmos = clock b'.ticks d.cmos := by rw [hb.setup, h.cmos]
    rw [Session.execute, Dialogue.obey, hcmos]
    have hread : Shows R { s with cmos := (clock b'.ticks d.cmos).2 }
        { d with cmos := (clock b'.ticks d.cmos).2 } :=
      ⟨h.screen, h.line, ⟨h.typed.length, h.typed.ne_zero⟩, h.files, h.status, rfl⟩
    exact hread.display (says_readings _)
  | memory =>
    have hnumber := says_number b.digits b.getCmosMemorySize
    rw [hb.setup] at hnumber
    have hbefore := says_constant "Available RAM: " (by decide +kernel) 0x0E
    have hbehind := says_constant " Bytes\n" (by decide +kernel) 0x02
    rw [Session.execute, hb.setup]
    exact h.display ((hbefore.append hnumber).append hbehind)
  | about => exact h.display says_about
  | ls path => exact h.ls hb path
  | cat path => exact h.cat hb path
  | missingPath => exact h.display (says_constant "cat: missing path" (by decide +kernel) 0x04)
  | unknown hword hzero hshort =>
    have hbefore := says_constant "Unknown command: " (by decide +kernel) 0x04
    exact h.display
      (hbefore.append (says_print hword hzero (hshort.trans (by decide)) 0x0E))

/-! ### Characters -/

/-- The cells behind the line do not matter to it. -/
theorem line_congr {s s' : Shell} (hlength : s.commandLength = s'.commandLength)
    (h : ∀ i < s.commandLength, s.commandBuffer i = s'.commandBuffer i) : s.line = s'.line := by
  rw [Shell.line, Shell.line, ← hlength]
  exact List.map_congr_left fun i hi => h i (List.mem_range.mp hi)

theorem line_shorten (t : Terminal) (buffer : Buffer) (n : Nat) :
    Shell.line ⟨t, Function.update buffer n 0, n⟩ = (Shell.line ⟨t, buffer, n + 1⟩).dropLast := by
  rw [Shell.line, Shell.line, List.range_succ, List.map_append, List.map_singleton,
    List.dropLast_concat]
  exact List.map_congr_left fun i hi => Function.update_of_ne (List.mem_range.mp hi).ne _ _

theorem line_extend (t : Terminal) (buffer : Buffer) (n : Nat) (c : UInt8) :
    Shell.line ⟨t, Function.update buffer n c, n + 1⟩ = Shell.line ⟨t, buffer, n⟩ ++ [c] := by
  rw [Shell.line, Shell.line, List.range_succ, List.map_append, List.map_singleton]
  simp only [Function.update_self]
  congr 1
  exact List.map_congr_left fun i hi => Function.update_of_ne (List.mem_range.mp hi).ne _ _

/-- `process_command` carries out the line that was typed. -/
theorem Shows.processCommand (h : s.Shows R d) (hb : b.Alike R b') :
    (processCommand b
      { s with commandBuffer := Function.update s.commandBuffer s.commandLength 0 }).Shows R
        ((d.say [10]).obey b' (orderOf d.line)) := by
  have hsplit := splitCommand_split s.at_line h.typed.line_ne_zero s.command s.argument
  rw [Shell.length_line, h.line] at hsplit
  unfold Session.processCommand
  simp only
  generalize splitCommand _ s.commandLength s.command s.argument = parts at hsplit ⊢
  have hkept (i : Nat) (hi : i < s.commandLength) :
      Function.update s.commandBuffer s.commandLength 0 i = s.commandBuffer i :=
    Function.update_of_ne hi.ne _ _
  have hshows : Shows R
      { s with
        commandBuffer := Function.update s.commandBuffer s.commandLength 0
        command := parts.1.cells
        argument := parts.2.cells } d := by
    refine ⟨h.screen, ?_, ⟨h.typed.length, fun i hi => ?_⟩, h.files, h.status, h.cmos⟩
    · have hline : Shell.line ⟨s.terminal, Function.update s.commandBuffer s.commandLength 0,
          s.commandLength⟩ = s.line := line_congr rfl hkept
      exact hline.trans h.line
    · exact (hkept i hi).trans_ne (h.typed.ne_zero i hi)
  exact (hshows.display (says_putchar (by decide))).execute hb (means_orderOf hsplit)

theorem Shows.receive (h : s.Shows R d) (hb : b.Alike R b') (c : UInt8) :
    (s.receive b c).Shows R (d.receive b' c) := by
  have hlength : d.line.length = s.commandLength := by rw [← h.line, Shell.length_line]
  have hempty : d.line = [] ↔ s.commandLength = 0 := by rw [← hlength, List.length_eq_zero_iff]
  unfold Session.receive Dialogue.receive
  split_ifs with hzero hfeed hbackspace hdelete hnone hnone hroom hshort hshort
  · exact h
  · -- a complete line
    have hdone := h.processCommand hb
    have hcleared : Shows R
        { Session.processCommand b
            { s with commandBuffer := Function.update s.commandBuffer s.commandLength 0 } with
          commandLength := 0 }
        { (d.say [10]).obey b' (orderOf d.line) with line := [] } :=
      ⟨hdone.screen, rfl, ⟨Nat.zero_le _, fun i hi => absurd hi (Nat.not_lt_zero i)⟩, hdone.files,
        hdone.status, hdone.cmos⟩
    exact hcleared.display (says_constant "\n> " (by decide +kernel) _)
  · exact absurd (hempty.mp hnone) hdelete.ne'
  · -- the last character is taken back
    have hscreen := h.screen.foldl_onRows [.putchar 8]
    have hshorter := line_shorten s.terminal s.commandBuffer (s.commandLength - 1)
    rw [Nat.sub_add_cancel hdelete] at hshorter
    refine ⟨hscreen, ?_, ⟨(Nat.sub_le _ _).trans h.typed.length, fun i hi => ?_⟩, h.files, h.status,
      h.cmos⟩
    · exact hshorter.trans (congrArg List.dropLast h.line)
    · have hlt : i < s.commandLength - 1 := hi
      exact (Function.update_of_ne hlt.ne _ _).trans_ne (h.typed.ne_zero i (by omega))
  · exact h
  · exact absurd (hempty.mpr (by omega)) hnone
  · -- one more character
    have hextended : Shows R
        { s with
          commandBuffer := Function.update s.commandBuffer s.commandLength c
          commandLength := s.commandLength + 1 } { d with line := d.line ++ [c] } := by
      refine ⟨h.screen, ?_, ⟨hroom, fun i hi => ?_⟩, h.files, h.status, h.cmos⟩
      · exact (line_extend s.terminal s.commandBuffer s.commandLength c).trans
          (congrArg (· ++ [c]) h.line)
      · rcases Nat.lt_succ_iff_lt_or_eq.mp hi with hold | rfl
        · exact (Function.update_of_ne hold.ne _ _).trans_ne (h.typed.ne_zero i hold)
        · exact (Function.update_self _ _ _).trans_ne hzero
    exact hextended.display (says_putchar hbackspace)
  · omega
  · omega
  · exact h

theorem Shows.run (h : s.Shows R d) (hb : b.Alike R b') (keys : List UInt8) :
    (s.run b keys).Shows R (d.run b' keys) := by
  induction keys generalizing s d with
  | nil => exact h
  | cons c keys ih => exact ih (h.receive hb c)

/-! ### Boot -/

theorem shellFilesystemInit_alike (hb : b.Alike R b') {files : FsState ω} {files' : FsState ω'}
    (h : files.Matches R files') :
    Foundation.Alike (FsState.Matches R) (shellFilesystemInit b files)
      (shellFilesystemInit b' files') := by
  unfold shellFilesystemInit
  rw [hb.present _ _ h.bus]
  exact alike_ite (fun _ => ⟨rfl, h⟩) fun _ => h.fat32Mount (.some hb.device)

theorem Shows.greet (h : s.Shows R d) (hb : b.Alike R b') :
    (s.greet b).Shows R
      (((d.say Dialogue.titleText).say (Dialogue.complaintText d.status
        (b'.present d.files.bus.outside) (b'.lastError d.files.bus.outside))).say
          (charactersOf "\n> ")) := by
  have htitle := h.display (says_constant title (by decide +kernel) 0x1F)
  rw [Session.greet, h.status, hb.present _ _ h.files.bus, hb.lastError _ _ h.files.bus]
  exact (htitle.display (says_complaint _ _ _)).display
    (says_constant "\n> " (by decide +kernel) _)

theorem initial_shows (status : Fat32Result) {files : FsState ω} {files' : FsState ω'}
    (h : files.Matches R files') (cmos : Cmos leap) {t : Terminal} {r : Rows}
    (hscreen : t.ShowsText r) :
    (initial status files cmos t).Shows R ⟨r, [], files', status, cmos⟩ :=
  ⟨hscreen, rfl, ⟨Nat.zero_le _, fun i hi => absurd hi (Nat.not_lt_zero i)⟩, h, rfl, rfl⟩

/-- The shell starts as the dialogue does. -/
theorem boot_shows (hb : b.Alike R b') {files : FsState ω} {files' : FsState ω'}
    (h : files.Matches R files') (cmos : Cmos leap) (t : Terminal) :
    (boot b files cmos t).Shows R (Dialogue.boot b' files' cmos) := by
  have hloaded := says_constant "IDT successfully loaded!\n" (by decide +kernel) 0x02
  unfold boot Dialogue.boot
  refine (shellFilesystemInit_alike hb h).elim ?_
  intro status mounted mounted' hmounted
  have hgreeted := (initial_shows status hmounted cmos (hloaded.terminalRun t)).greet hb
  simp only [Dialogue.say, ← List.foldl_append, layout] at hgreeted
  exact hgreeted

end Session

/-! ## On a drive -/

/-- The disk that the readers see, as the shell's. -/
def diskBoard (setup : Setup) (sectorCount : UInt32) (bytes : UInt32 → Buffer)
    (readable : UInt32 → Bool) : Board DiskState where
  toSetup := setup
  device := disk sectorCount bytes readable
  present _ := true
  lastError := DiskState.lastError

section

variable {σ : Type} (drive : IdentifyingDrive σ) {h : σ}

/-- The shell cannot tell the driver on a drive from the disk. -/
theorem driveBoard_alike (hbusy : drive.busy h = 0) (hphase : drive.phase h = .idle)
    (setup : Setup) :
    (ataBoard setup drive.toPorts h).Alike (OnBus (StandsFor drive.toDrive))
      (diskBoard setup drive.capacity drive.bytes drive.readable) where
  device := drive.simulates hbusy hphase
  present bus bus' hbus := by simpa [ataBoard, diskBoard] using hbus.outside.present
  lastError bus bus' hbus := hbus.outside.lastError
  setup := rfl

/-- From boot on, whatever is typed, the screen shows the rows of the dialogue and the cursor
stands at their end, the buffer holds the line of the dialogue, and the same sectors are read.
The dialogue is held on the disk that the drive stands for: there are no ports in it, no cells
and no buffers, so nothing that is left in one of them is ever shown. -/
theorem shell_dialogue (hbusy : drive.busy h = 0) (hphase : drive.phase h = .idle) (setup : Setup)
    (cmos : Cmos leap) (t : Terminal) (keys : List UInt8) :
    let b := ataBoard setup drive.toPorts h
    let b' := diskBoard setup drive.capacity drive.bytes drive.readable
    let s := (Session.boot b (detected drive.toPorts h) cmos t).run b keys
    let d := (Dialogue.boot b' fresh cmos).run b' keys
    (∀ y x : Nat, y < 25 → x < 80 →
        characterOf (s.terminal.video.cells (y * 80 + x)) = (d.rows.visible.getD y []).getD x 32) ∧
      (s.terminal.cursorY + 1 = d.rows.visible.length ∧
        s.terminal.cursorX = d.rows.current.length) ∧
      s.line = d.line ∧ s.files.bus.requests = d.files.bus.requests := by
  intro b b' s d
  have hb := driveBoard_alike drive hbusy hphase setup
  have hshows : s.Shows (OnBus (StandsFor drive.toDrive)) d :=
    (Session.boot_shows hb (detected_matches drive hbusy hphase) cmos t).run hb keys
  have hrow := hshows.screen.row
  have hvisible := d.rows.length_visible
  exact ⟨hshows.screen.cells, ⟨by omega, hshows.screen.column⟩, hshows.line,
    hshows.files.bus.requests⟩

end

/-- A drive with the sample tree. -/
def treeDrive : IdentifyingDrive (Latches × Phase) :=
  promptIdentifyingDrive (diskWords treeDisk) fun _ => true

/-- The first second of a year. -/
def newYear : Cmos (fun _ _ => false) where
  time := ⟨[0, 0, 0, 1, 1, 26, 20], by simp [Stand, dials, fixedDial, lastDay, monthLength]⟩
  selected := 0
  accesses := []

/-- The dialogue about the sample tree, asked for a listing. -/
def treeDialogue (setup : Setup) : Dialogue (fun _ _ => false) DiskState :=
  let b := diskBoard setup treeDrive.capacity treeDrive.bytes treeDrive.readable
  (Dialogue.boot b fresh newYear).run b [108, 115, 10]

theorem treeDialogue_row :
    (treeDialogue ⟨fun _ => false, 0x1234, fun _ => 0, 0⟩).rows.visible.getD 4 [] = [68, 47] := by
  decide +kernel

/-- The sample tree is listed: below the greeting and the prompt stands its directory. -/
theorem shell_dialogue_tree :
    let setup : Setup := ⟨fun _ => false, 0x1234, fun _ => 0, 0⟩
    let b := ataBoard setup treeDrive.toPorts (⟨0, 0, 0, 0, 0⟩, .idle)
    let s := (Session.boot b (detected treeDrive.toPorts (⟨0, 0, 0, 0, 0⟩, .idle)) newYear
      ⟨0, 0, ⟨fun _ => 0, []⟩, 0⟩).run b [108, 115, 10]
    characterOf (s.terminal.video.cells ((4 : Nat) * 80 + (0 : Nat))) = 68 := by
  intro setup b s
  obtain ⟨hcells, -⟩ := shell_dialogue treeDrive (h := (⟨0, 0, 0, 0, 0⟩, .idle)) rfl rfl setup newYear
    ⟨0, 0, ⟨fun _ => 0, []⟩, 0⟩ [108, 115, 10]
  have hrow : ((Dialogue.boot (diskBoard setup treeDrive.capacity treeDrive.bytes treeDrive.readable)
      fresh newYear).run (diskBoard setup treeDrive.capacity treeDrive.bytes treeDrive.readable)
      [108, 115, 10]).rows.visible.getD 4 [] = [68, 47] := treeDialogue_row
  have hcell := hcells 4 0 (by decide) (by decide)
  rw [hrow] at hcell
  simp only [s, b]
  exact hcell

end LevOS
