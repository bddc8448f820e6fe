import LevOS.Filesystem.Disk
import LevOS.Shell.Clock
import LevOS.Shell.Command

/-!
# The shell

`shell` in `shell/shell.c` edits a line, and `process_command` carries it out: on the
terminal, the clock and the file system, whose errors `filesystem_error` reports with the
cause that the driver has on record.

## Main definitions

* `Board`, what the shell runs on, and `Session`, the state of the shell
* `Session.execute`, the commands
* `Session.processCommand`, `Session.receive`
* `Session.boot`, from the detection of the disk to the first prompt
-/

namespace LevOS

open LevOS.Drivers LevOS.Filesystem

variable {leap : Nat → Nat → Bool} {ω : Type}

/-! ## State -/

/-- What the shell was built and started with: the seconds that pass, where the linker has put
`get_cmos_memory_size`, what the local array of `print_number` starts with, and the background
colour. -/
structure Setup where
  ticks : Nat → Bool
  getCmosMemorySize : UInt32
  digits : Nat → UInt8
  background : UInt16

/-- What the shell runs on: the disk, and what the driver's record says about it. -/
structure Board (ω : Type) extends Setup where
  device : BlockDevice ω
  present : ω → Bool
  lastError : ω → Int

/-- The driver's device, after its detection. -/
def ataBoard {σ : Type} (setup : Setup) (ports : Ports σ) (hardware : σ) : Board (AtaDevice × σ) where
  toSetup := setup
  device := (ataPioInit ports hardware).1.block ports
  present world := world.1.present != 0
  lastError world := world.1.lastError

/-- The state of `shell.c`: the line editor, the buffers of a command, `cat_buffer`, the file
system with the disk behind it, `shell_fat32_status`, and the clock. -/
structure Session (leap : Nat → Nat → Bool) (ω : Type) extends Shell where
  command : Buffer
  argument : Buffer
  catBuffer : Buffer
  files : FsState ω
  status : Fat32Result
  cmos : Cmos leap

namespace Session

/-- Make some calls of the terminal. -/
def display (s : Session leap ω) (calls : List TerminalCall) : Session leap ω :=
  { s with terminal := calls.foldl (fun t call => call.perform t) s.terminal }

/-- Print some string constants. -/
def print (texts : List (String × UInt16)) : List TerminalCall :=
  texts.map fun text => .print (cString text.1) text.2

/-- The title of the shell, as wide as the screen. -/
def title : String :=
  "----------------------------------LevShell 0.1----------------------------------"

/-- `filesystem_error`. -/
def filesystemError (result : Fat32Result) (lastError : Int) : List TerminalCall :=
  print [("filesystem: ", 0x04), (fat32ResultString result, 0x0E)] ++
    if result = .eio then print [(" (", 0x0E), (ataPioErrorString lastError, 0x0E), (")", 0x0E)]
    else []

/-! ## Commands -/

/-- What `help` prints. -/
def help : List TerminalCall :=
  print
    [("Available commands:", 0x0E), ("\nhelp -- this command", 0x0F),
      ("\nclear -- clears the screen", 0x0F), ("\nabout -- shows information about this OS", 0x0F),
      ("\nls [path] -- list a FAT32 directory", 0x0F), ("\ncat path -- print a FAT32 file", 0x0F),
      ("\nclock -- show current time", 0x0F), ("\necho -- repeats your words", 0x0F),
      ("\nmemory -- shows memory size in Bytes\n", 0x0F)]

/-- What `about` prints, with a row of coloured dots. -/
def about : List TerminalCall :=
  print
    [("--LevOS - Shell 0.1--", 0x0E), ("\nWork in progress\n", 0x04), (".", 0xF0), (".", 0x40),
      (".", 0xE0), (".", 0x10), (".", 0x20), (".", 0x30), (".", 0x60), ("\n.", 0x90), (".", 0xB0),
      (".", 0xC0), (".", 0xA0), (".", 0x70), (".", 0x80), (".\n", 0xD0)]

theorem zero_notMem_charactersFrom (text : Buffer) (i n : Nat) : 0 ∉ charactersFrom text i n := by
  induction n generalizing i with
  | zero => exact List.not_mem_nil
  | succ n ih =>
    rw [charactersFrom]
    split_ifs with hend
    · exact List.not_mem_nil
    · intro hmem
      rcases List.mem_cons.mp hmem with hzero | hlater
      · exact hend hzero.symm
      · exact ih (i + 1) hlater

/-- The path in a buffer of 96 cells, up to its terminator. -/
def pathOf (text : Buffer) : CString :=
  ⟨charactersFrom text 0 96, zero_notMem_charactersFrom text 0 96⟩

/-- `print_directory_entry`, whose context is the terminal. -/
def printDirectoryEntry (entry : Dirent) (t : Terminal) : Int × Terminal :=
  let t := t.print (fun i => entry.name.getD i 0) 0x0F
  let t := if entry.attributes &&& 0x10 ≠ 0 then t.putchar 47 else t
  (0, t.putchar 10)

variable (b : Board ω)

/-- The branch of `process_command` that a line leads to. -/
def execute (s : Session leap ω) : Invocation → Session leap ω
  | .help => s.display help
  | .clear => s.display (.clear b.background :: print [(title, 0x1F)])
  | .echo text => s.display [.print text 0x0F]
  | .clock =>
    let (readings, cmos) := clock b.ticks s.cmos
    { s with cmos := cmos }.display readings.calls
  -- the address of the function is printed: it is never called
  | .memory =>
    s.display (print [("Available RAM: ", 0x0E)] ++ [.printNumber b.digits b.getCmosMemorySize] ++
      print [(" Bytes\n", 0x02)])
  | .about => s.display about
  | .ls path =>
    let (result, files, terminal) := fat32ListDirectory (some (pathOf path))
      (some (quiet printDirectoryEntry)) s.files s.terminal
    let s := { s with files := files, terminal := terminal }
    if result ≠ .ok then s.display (filesystemError result (b.lastError files.bus.outside)) else s
  | .cat path =>
    let outcome := fat32ReadFile (some (pathOf path)) (some s.catBuffer) 32768 (some 0) s.files
    let s := { s with files := outcome.state, catBuffer := outcome.buffer.getD s.catBuffer }
    if outcome.result ≠ .ok then
      s.display (filesystemError outcome.result (b.lastError outcome.state.bus.outside))
    else
      s.display ((List.range (outcome.bytesRead.getD 0).toNat).map fun i => .putchar (s.catBuffer i))
  | .missingPath => s.display (print [("cat: missing path", 0x04)])
  | .unknown command => s.display (print [("Unknown command: ", 0x04)] ++ [.print command 0x0E])

/-- `process_command`. -/
def processCommand (s : Session leap ω) : Session leap ω :=
  let (command, argument) := splitCommand s.commandBuffer s.commandLength s.command s.argument
  let s := { s with command := command.cells, argument := argument.cells }.display [.putchar 10]
  s.execute b (LevOS.processCommand s.command s.argument)

/-! ## The loop -/

/-- Print the prompt. -/
def prompt (s : Session leap ω) : Session leap ω :=
  s.display [.print (cString "\n> ") ((b.background <<< 4) ||| 0x0F)]

/-- One turn of the loop of `shell` with the character it received. -/
def receive (s : Session leap ω) (c : UInt8) : Session leap ω :=
  if c = 0 then s
  else if c = 10 then
    let s := processCommand b
      { s with commandBuffer := Function.update s.commandBuffer s.commandLength 0 }
    prompt b { s with commandLength := 0 }
  else if c = 8 then
    if 0 < s.commandLength then
      { s with commandBuffer := Function.update s.commandBuffer (s.commandLength - 1) 0
               commandLength := s.commandLength - 1 }.display [.putchar 8]
    else s
  else if s.commandLength < 128 - 1 then
    { s with commandBuffer := Function.update s.commandBuffer s.commandLength c
             commandLength := s.commandLength + 1 }.display [.putchar c]
  else s

/-- The loop over a sequence of received characters. -/
def run (s : Session leap ω) (keys : List UInt8) : Session leap ω := keys.foldl (receive b) s

/-! ## Boot -/

/-- `shell_filesystem_init` after the detection of the disk. -/
def shellFilesystemInit (files : FsState ω) : Fat32Result × FsState ω :=
  if b.present files.bus.outside = false then (.eio, files) else fat32Mount (some b.device) files

/-- What `shell` prints about a file system that is not mounted. -/
def complaint (status : Fat32Result) (present : Bool) (lastError : Int) : List TerminalCall :=
  if status = .ok then []
  else
    print [("\nfilesystem: ", 0x04)] ++
      if present = false then
        print [(ataPioErrorString lastError, 0x0E),
          (" (attach a hard disk image as the primary master)", 0x0E)]
      else print [(fat32ResultString status, 0x0E)]

/-- What `shell` prints before its loop. -/
def greet (s : Session leap ω) : Session leap ω :=
  let outside := s.files.bus.outside
  prompt b ((s.display (print [(title, 0x1F)])).display
    (complaint s.status (b.present outside) (b.lastError outside)))

/-- The shell before its greeting. Static buffers start as zeros. -/
def initial (status : Fat32Result) (files : FsState ω) (cmos : Cmos leap) (t : Terminal) :
    Session leap ω where
  terminal := t
  commandBuffer _ := 0
  commandLength := 0
  command _ := 0
  argument _ := 0
  catBuffer _ := 0
  files := files
  status := status
  cmos := cmos

/-- What the kernel does up to the shell's loop, as far as the shell depends on it: the
terminal is initialised, `init_IDT` reports, and the file system is mounted. The line that the
test process writes is not part of it. -/
def boot (files : FsState ω) (cmos : Cmos leap) (t : Terminal) : Session leap ω :=
  let (status, files) := shellFilesystemInit b files
  greet b (initial status files cmos
    (terminalRun t (print [("IDT successfully loaded!\n", 0x02)])))

end Session

end LevOS
