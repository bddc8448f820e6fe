import LevOS.Filesystem.Confinement
import LevOS.Filesystem.FileContents
import LevOS.Filesystem.Mount
import LevOS.Filesystem.Resolution
import LevOS.Memory.PageRuns
import LevOS.Process.Interrupts
import LevOS.Process.TableRuns
import LevOS.Cpu.Segments
import LevOS.Drivers.Ata
import LevOS.Drivers.Drive
import LevOS.Drivers.Transfers
import LevOS.Drivers.Keyboard
import LevOS.Drivers.Layout
import LevOS.Shell.Colors
import LevOS.Shell.Contents
import LevOS.Shell.Station
import LevOS.Filesystem.Listing
import LevOS.Foundation.Blocks
import LevOS.Foundation.Coupling
import LevOS.Memory.Identity
import LevOS.Memory.UserRange
import LevOS.Process.Agreement
import LevOS.Process.Conservation
import LevOS.Process.Atomicity
import LevOS.Process.DataSegments
import LevOS.Process.Disclosure
import LevOS.Process.RunningState
import LevOS.Shell.Command
import LevOS.Shell.Clock
import LevOS.Memory.Paged
import LevOS.Process.AddressSpaces
import LevOS.Process.Isolation
import LevOS.Process.KernelView
import LevOS.Process.Preemption
import LevOS.Filesystem.HighClusters
import LevOS.Filesystem.Parents
import LevOS.Filesystem.Candidates
import LevOS.Filesystem.Hostile
import LevOS.Filesystem.Rereads
import LevOS.Filesystem.FarSectors
import LevOS.Filesystem.Causes
import LevOS.Filesystem.ShortNames
import LevOS.Filesystem.Accesses
import LevOS.Filesystem.Simulation
import LevOS.Memory.TagReads
import LevOS.Memory.Intact
import LevOS.Memory.Addressable
import LevOS.Drivers.Pic
import LevOS.Drivers.Scancodes
import LevOS.Cpu.Gates
import LevOS.Process.Waiting
