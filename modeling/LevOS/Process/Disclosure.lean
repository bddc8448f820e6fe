import LevOS.Process.Interrupts
import LevOS.Memory.Paged

/-!
# What `write` discloses

`syscall_write` sends a range of the caller's memory to the terminal. What it sends
and what it returns should depend on the caller's own pages only: two memories with the
same mapping of the range and the same user pages should not be told apart by it.

The check of the range follows the physical addresses in the directory and its entries
as addresses in the directory in force. It sees the entries that the processor uses only
where those are mapped onto themselves; elsewhere it reads other words, perhaps words of
the caller's own pages, and `write` sends whatever it is asked for.

## Main definitions

* `LooksAlike`, two memories that user code sees alike
* `Kernel.Discreet`, a call that discloses nothing
* `SeesEntries`, a check that is true to the directory in force
* `AtOwnAddresses`, entries that are mapped onto themselves

## Main results

* `AtOwnAddresses.of_leadsTo`, where the directories of processes are so mapped
* `syscallWrite_discreet_iff`, and `syscallWrite_forged` where the check is misled
-/

namespace LevOS

open Foundation Memory

section Ranges

variable (s s' : Space) (directory address : UInt32) (n : Nat)

/-- What the check makes of a byte of a range. -/
def seenAt (i : Nat) : Option Bool :=
  userPagePresent paged s directory (address + UInt32.ofNat i)

/-- Two memories agree on the entries that the check of a range consults, up to the
first page that does not pass; on the mapping of the range, if it is read; and on the
contents of every user page. -/
structure LooksAlike : Prop where
  entries : ∀ i < n, (∀ j < i, seenAt s directory address j = some true) →
    let slot := directorySlot directory (address + UInt32.ofNat i)
    s.load paged slot = s'.load paged slot ∧ ∀ entry, s.load paged slot = some entry →
      entry &&& (presentFlag ||| userFlag) = presentFlag ||| userFlag →
        s.load paged (tableSlot (frameOf entry) (address + UInt32.ofNat i)) =
          s'.load paged (tableSlot (frameOf entry) (address + UInt32.ofNat i))
  mapping : (∀ i < n, seenAt s directory address i = some true) → ∀ i < n,
    translate s.memory s.cr3 (address + UInt32.ofNat i) =
      translate s'.memory s'.cr3 (address + UInt32.ofNat i)
  pages : ∀ virtual physical, translate s.memory s.cr3 virtual = some (physical, true) →
    s.memory physical = s'.memory physical

/-- The check of a range finds the entries it asks for, and where it takes all pages for
user pages, they are user pages in the directory in force. -/
structure SeesEntries : Prop where
  found : ∀ i < n, (∀ j < i, seenAt s directory address j = some true) →
    seenAt s directory address i ≠ none
  granted : (∀ i < n, seenAt s directory address i = some true) → ∀ i < n,
    ∃ a, translate s.memory s.cr3 (address + UInt32.ofNat i) = some (a, true)

/-- The directory is the one in force, and the entries for a range are mapped onto
themselves. -/
structure AtOwnAddresses : Prop where
  inForce : s.cr3 = directory
  entries : ∀ i < n,
    let slot := directorySlot directory (address + UInt32.ofNat i)
    let entry := tableSlot (frameOf (load32 s.memory slot)) (address + UInt32.ofNat i)
    paged s.cr3 s.memory slot = some slot ∧
      (load32 s.memory slot &&& (presentFlag ||| userFlag) = presentFlag ||| userFlag →
        paged s.cr3 s.memory entry = some entry)

variable {s s' directory address n}

/-- The check makes the same of both memories. -/
theorem LooksAlike.seenAt_eq (h : LooksAlike s s' directory address n) {i : Nat} (hi : i < n)
    (hbefore : ∀ j < i, seenAt s directory address j = some true) :
    seenAt s directory address i = seenAt s' directory address i := by
  obtain ⟨hdirectory, htable⟩ := h.entries i hi hbefore
  unfold seenAt userPagePresent
  rw [← hdirectory]
  cases hentry : s.load paged (directorySlot directory (address + UInt32.ofNat i)) with
  | none => rfl
  | some entry =>
    simp only [Option.bind_eq_bind, Option.bind_some]
    -- the table is consulted only if the directory entry has both flags
    split_ifs with hflags
    · rfl
    · rw [htable entry hentry (not_not.mp hflags)]

/-- Entries that are mapped onto themselves are those which the processor uses. -/
theorem AtOwnAddresses.seenAt_eq (h : AtOwnAddresses s directory address n) {i : Nat}
    (hi : i < n) :
    seenAt s directory address i =
      some (userPresent s.memory directory (address + UInt32.ofNat i)) := by
  obtain ⟨hdirectory, htable⟩ := h.entries i hi
  unfold seenAt userPagePresent userPresent
  simp only [Space.load, hdirectory, Option.map_some, Option.bind_eq_bind, Option.bind_some]
  split_ifs with hflags
  · simp [hflags]
  · rw [htable (not_not.mp hflags)]
    simp [not_not.mp hflags]

theorem AtOwnAddresses.seesEntries (h : AtOwnAddresses s directory address n) :
    SeesEntries s directory address n where
  found i hi _ := by
    rw [h.seenAt_eq hi]
    exact Option.some_ne_none _
  granted hall i hi := by
    have hseen := hall i hi
    rw [h.seenAt_eq hi] at hseen
    rw [h.inForce]
    exact (translate_user_iff _ _ _).mp (Option.some.inj hseen)

/-- The entries for the first 16 MiB are mapped onto themselves, unless the directory is in
one of the two pages that user mappings replace. -/
theorem AtOwnAddresses.of_leadsTo {layout : Layout} (htables : TablesKept layout s.memory)
    (hleads : LeadsTo layout s.memory s.cr3) (haligned : s.cr3.toNat % 4096 = 0)
    (hpage : IdentityPage (s.cr3.toNat / 4096)) (hsmall : address.toNat + n ≤ 0x1000000) :
    AtOwnAddresses s s.cr3 address n where
  inForce := rfl
  entries i hi := by
    have hmem := layout.identityTables_mem
    have himage := layout.image_le
    have hdirectory := hpage.1
    have hbyte : (address + UInt32.ofNat i).toNat = address.toNat + i := toNat_add_ofNat (by omega)
    have ht : (address.toNat + i) / 4194304 < 4 := by omega
    have htable : (tableAddress layout ((address.toNat + i) / 4194304)).toNat = _ :=
      tableAddress_toNat ht.le
    obtain ⟨-, hframe⟩ := hleads.entry ht
    simp only [directorySlot_eq, tableSlot_eq, hbyte, hframe]
    refine ⟨paged_identity htables hleads ?_, fun _ => paged_identity htables hleads ?_⟩
    · have hslot : (s.cr3 + UInt32.ofNat (4 * ((address.toNat + i) / 4194304))).toNat / 4096 =
          s.cr3.toNat / 4096 := by
        rw [toNat_add_ofNat (by omega)]
        omega
      rwa [hslot]
    · -- the tables are in the kernel image
      rw [toNat_add_ofNat (by omega), htable]
      exact ⟨by omega, by omega, by omega⟩

/-- The byte that a directory shows at a virtual address. -/
def byteAt (m : Memory) (directory virtual : UInt32) : UInt8 :=
  m (((translate m directory virtual).map Prod.fst).getD 0)

theorem byteAt_eq {m : Memory} {virtual a : UInt32} {user : Bool}
    (h : translate m directory virtual = some (a, user)) : byteAt m directory virtual = m a := by
  rw [byteAt, h]
  rfl

/-- The bytes that a directory shows in a range. -/
def textOf (s : Space) (address : UInt32) (n : Nat) : List UInt8 :=
  (List.range n).map fun i => byteAt s.memory s.cr3 (address + UInt32.ofNat i)

@[simp] theorem textOf_length : (textOf s address n).length = n := by
  simp [textOf]

/-- A mapped range is read byte by byte. -/
theorem loadBytes_paged
    (hmapped : ∀ i < n, translate s.memory s.cr3 (address + UInt32.ofNat i) ≠ none) :
    s.loadBytes paged address n = some (textOf s address n) := by
  induction n with
  | zero => rfl
  | succ n ih =>
    obtain ⟨⟨a, user⟩, ha⟩ := Option.ne_none_iff_exists'.mp (hmapped n (Nat.lt_succ_self n))
    rw [Space.loadBytes, ih fun i hi => hmapped i (Nat.lt_succ_of_lt hi), Space.loadByte, paged,
      ha, textOf, textOf, List.range_succ, List.map_append, List.map_singleton, byteAt_eq ha]
    rfl

/-- In a range of user pages both memories show the same bytes. -/
theorem LooksAlike.textOf_eq (h : LooksAlike s s' directory address n)
    (hseen : ∀ i < n, seenAt s directory address i = some true)
    (hgranted : ∀ i < n, ∃ a,
      translate s.memory s.cr3 (address + UInt32.ofNat i) = some (a, true)) :
    textOf s' address n = textOf s address n := by
  apply List.map_congr_left
  intro i hi
  have hi := List.mem_range.mp hi
  obtain ⟨a, ha⟩ := hgranted i hi
  have ha' := ha
  rw [h.mapping hseen i hi] at ha'
  rw [byteAt_eq ha, byteAt_eq ha', h.pages _ a ha]

end Ranges

section Calls

variable {k : Kernel} {fd address length : UInt32}

/-- The kernel with another memory. -/
def Kernel.onMemory (k : Kernel) (m : Memory) : Kernel :=
  { k with space := { k.space with memory := m } }

/-- The directory of the current process. -/
def Kernel.currentDirectory (k : Kernel) : UInt32 :=
  k.running.elim 0 fun r => (k.processes r).directory

/-- A call that gets as far as the pages: a user process writes at most 256 bytes to the
standard output, from a range below the limit. -/
structure Kernel.Asks (k : Kernel) (fd address length : UInt32) : Prop where
  user : ∃ r, k.running = some r ∧ (k.processes r).user = true
  stdout : fd = 1
  short : length.toNat ≤ 256
  directory : k.currentDirectory ≠ 0
  below : address.toNat < 0xC0000000
  fits : address.toNat + length.toNat ≤ 0xC0000000

/-- A call of `write` discloses nothing outside of the user pages. On every memory that
looks alike it returns the same value and sends the same characters; and it either fails
without sending anything, or sends exactly the bytes of the range, in order, each of them
below the limit and in a user page of the directory in force. -/
def Kernel.Discreet (k : Kernel) (fd address length : UInt32) : Prop :=
  ∃ (value : Int32) (text : List UInt8),
    (∀ m, (k.Asks fd address length →
        LooksAlike k.space (k.onMemory m).space k.currentDirectory address length.toNat) →
      (k.onMemory m).syscallWrite paged fd address length =
        some ({ k.onMemory m with output := k.output ++ text }, value)) ∧
    ((value = -1 ∧ text = []) ∨
      value = length.toInt32 ∧ length.toNat ≤ 256 ∧ text.length = length.toNat ∧
        ∀ (i : Nat) (hi : i < text.length), address.toNat + i < 0xC0000000 ∧
          ∃ a, translate k.space.memory k.space.cr3 (address + UInt32.ofNat i) = some (a, true) ∧
            text[i] = k.space.memory a)

theorem LooksAlike.refl (s : Space) (directory address : UInt32) (n : Nat) :
    LooksAlike s s directory address n where
  entries _ _ _ := ⟨rfl, fun _ _ _ => rfl⟩
  mapping _ _ _ := rfl
  pages _ _ _ := rfl

@[simp] theorem Kernel.onMemory_self (k : Kernel) : k.onMemory k.space.memory = k := rfl

/-- How far a call gets does not depend on the memory. -/
theorem Kernel.asks_onMemory (m : Memory) :
    (k.onMemory m).Asks fd address length ↔ k.Asks fd address length := by
  constructor <;> exact fun h => ⟨h.user, h.stdout, h.short, h.directory, h.below, h.fits⟩

/-- Other calls fail before they look at the memory. -/
theorem syscallWrite_of_not_asks (h : ¬ k.Asks fd address length) :
    k.syscallWrite paged fd address length = some (k, -1) := by
  unfold Kernel.syscallWrite
  cases hrunning : k.running with
  | none => rfl
  | some r =>
    simp only
    split_ifs with hargs
    · rfl
    · obtain ⟨huser, hargs⟩ := not_or.mp hargs
      obtain ⟨hfd, hlength⟩ := not_or.mp hargs
      rw [userRangeValid_eq, if_neg]
      · rfl
      · rintro ⟨hdirectory, hbelow, hfits⟩
        refine h ⟨⟨r, hrunning, by simpa using huser⟩, not_not.mp hfd,
          UInt32.le_iff_toNat_le.mp (UInt32.not_lt.mp hlength), ?_, hbelow, hfits⟩
        rwa [Kernel.currentDirectory, hrunning]

/-- A call that gets as far as the pages checks them in the order of the bytes. -/
theorem syscallWrite_of_asks (h : k.Asks fd address length) :
    k.syscallWrite paged fd address length =
      ((List.range length.toNat).allM (seenAt k.space k.currentDirectory address)).bind
        fun valid => if valid then
            (k.space.loadBytes paged address length.toNat).map fun text =>
              ({ k with output := k.output ++ text }, length.toInt32)
          else some (k, -1) := by
  obtain ⟨r, hrunning, huser⟩ := h.user
  have hdirectory : k.currentDirectory = (k.processes r).directory := by
    rw [Kernel.currentDirectory, hrunning]
    rfl
  have hlength : ¬ 256 < length :=
    UInt32.not_lt.mpr (UInt32.le_iff_toNat_le.mpr h.short)
  unfold Kernel.syscallWrite
  simp only [hrunning]
  rw [if_neg (by simp [huser, h.stdout, hlength]), userRangeValid_eq, ← hdirectory,
    if_pos ⟨h.directory, h.below, h.fits⟩]
  refine bind_congr fun valid => ?_
  cases valid with
  | false => rfl
  | true =>
    rw [if_pos rfl, if_pos rfl, Option.map_eq_bind]
    rfl

/-- Nothing is said by a call that fails. -/
theorem some_silent (k : Kernel) :
    (some (k, -1) : Option (Kernel × Int32)) = some ({ k with output := k.output ++ [] }, -1) := by
  rw [List.append_nil]

/-- A call whose check is true to the directory in force. -/
theorem SeesEntries.discreet (hasks : k.Asks fd address length)
    (h : SeesEntries k.space k.currentDirectory address length.toNat) :
    k.Discreet fd address length := by
  -- the check has the same outcome on every memory that looks alike
  have hcheck {m : Memory} (halike : LooksAlike k.space (k.onMemory m).space k.currentDirectory
      address length.toNat) :
      (k.onMemory m).syscallWrite paged fd address length =
        ((List.range length.toNat).allM (seenAt k.space k.currentDirectory address)).bind
          fun valid => if valid then
              ((k.onMemory m).space.loadBytes paged address length.toNat).map fun text =>
                ({ k.onMemory m with output := k.output ++ text }, length.toInt32)
            else some (k.onMemory m, -1) := by
    rw [allM_range_congr fun i hi hbefore => halike.seenAt_eq hi hbefore]
    exact syscallWrite_of_asks ((Kernel.asks_onMemory m).mpr hasks)
  cases houtcome : (List.range length.toNat).allM (seenAt k.space k.currentDirectory address) with
  | none =>
    obtain ⟨i, hi, hnone, hbefore⟩ := allM_range_none_iff.mp houtcome
    exact absurd hnone (h.found i hi hbefore)
  | some valid =>
    cases valid with
    | false =>
      refine ⟨-1, [], fun m halike => ?_, .inl ⟨rfl, rfl⟩⟩
      rw [hcheck (halike hasks), houtcome]
      exact some_silent (k.onMemory m)
    | true =>
      have hseen := allM_range_true_iff.mp houtcome
      have hgranted := h.granted hseen
      refine ⟨length.toInt32, textOf k.space address length.toNat, fun m halike => ?_,
        .inr ⟨rfl, hasks.short, textOf_length, fun i hi => ?_⟩⟩
      · rw [hcheck (halike hasks), houtcome, Option.bind_some, if_pos rfl, loadBytes_paged,
          (halike hasks).textOf_eq hseen hgranted]
        · rfl
        · intro i hi
          obtain ⟨a, ha⟩ := hgranted i hi
          rw [← (halike hasks).mapping hseen i hi, ha]
          exact Option.some_ne_none _
      · have hi : i < length.toNat := by simpa using hi
        have hfits := hasks.fits
        obtain ⟨a, ha⟩ := hgranted i hi
        refine ⟨by omega, a, ha, ?_⟩
        simp [textOf, byteAt_eq ha]

/-- A call that discloses nothing has seen the entries of the directory in force. -/
theorem Kernel.Discreet.seesEntries (h : k.Discreet fd address length)
    (hasks : k.Asks fd address length) :
    SeesEntries k.space k.currentDirectory address length.toNat := by
  obtain ⟨value, text, hall, houtcome⟩ := h
  have hcall := hall k.space.memory fun _ => LooksAlike.refl _ _ _ _
  rw [Kernel.onMemory_self, syscallWrite_of_asks hasks] at hcall
  constructor
  · intro i hi hbefore hnone
    rw [allM_range_none_iff.mpr ⟨i, hi, hnone, hbefore⟩] at hcall
    cases hcall
  · intro hseen
    rw [allM_range_true_iff.mpr hseen, Option.bind_some, if_pos rfl] at hcall
    obtain ⟨sent, -, hsent⟩ := Option.map_eq_some_iff.mp hcall
    have hvalue : value = length.toInt32 := (Prod.mk.inj hsent).2.symm
    -- an accepted call does not return the value of a failure
    rcases houtcome with ⟨hfailed, -⟩ | ⟨-, -, hlength, hbytes⟩
    · have hshort := hasks.short
      have heq : length = (-1 : Int32).toUInt32 := by
        rw [← hfailed, hvalue]
        rfl
      rw [heq] at hshort
      exact absurd hshort (by decide)
    · intro i hi
      obtain ⟨-, a, ha, -⟩ := hbytes i (by omega)
      exact ⟨a, ha⟩

/-- `write` discloses nothing exactly if the call fails before it looks at the memory, or
its check sees the entries of the directory in force. It does so where these are mapped
onto themselves. -/
theorem syscallWrite_discreet_iff (k : Kernel) (fd address length : UInt32) :
    (k.Discreet fd address length ↔ (k.Asks fd address length →
      SeesEntries k.space k.currentDirectory address length.toNat)) ∧
    (AtOwnAddresses k.space k.currentDirectory address length.toNat →
      k.Discreet fd address length) := by
  have hiff : k.Discreet fd address length ↔ (k.Asks fd address length →
      SeesEntries k.space k.currentDirectory address length.toNat) := by
    constructor
    · exact fun h hasks => h.seesEntries hasks
    · intro h
      by_cases hasks : k.Asks fd address length
      · exact (h hasks).discreet hasks
      · refine ⟨-1, [], fun m _ => ?_, .inl ⟨rfl, rfl⟩⟩
        rw [syscallWrite_of_not_asks fun hm => hasks ((Kernel.asks_onMemory m).mp hm)]
        exact some_silent (k.onMemory m)
  exact ⟨hiff, fun h => hiff.mpr fun _ => h.seesEntries⟩

end Calls

section Forged

/-- A directory at 4 MiB, where its own code page is mapped. The words in the code page
at 0x201000 read like a directory entry and a table entry for user code. -/
def forged : Memory :=
  -- the directory, and the two identity tables it leads to
  let m := store32 (store32 (fun _ => 0) 0x400000 0x111003) 0x400004 0x112007
  let m := store32 (store32 m 0x111C00 0x300003) 0x112000 0x201007
  store32 (store32 m 0x201000 0x400007) 0x201C00 0x7

/-- A kernel that runs a user process in that directory. -/
def forgedKernel : Kernel where
  space := { memory := forged, cr3 := 0x400000, pmm := ⟨fun _ => 0, 0, 0⟩ }
  processes _ := { Process.empty with state := .running, directory := 0x400000, user := true }
  nextPid := 1
  running := some 1
  bootstrapContext := 0
  esp0 := 0
  schedulerNextDirectory := 0
  quantumTicks := 0
  ticks := 0
  output := []

/-- The process writes a byte at 3 MiB, which is mapped for the kernel only. The check
reads the forged words, and the byte is sent. -/
theorem syscallWrite_forged :
    ¬ forgedKernel.Discreet 1 0x300000 1 ∧
      translate forged 0x400000 0x300000 = some (0x300000, false) ∧
      (forgedKernel.syscallWrite paged 1 0x300000 1).map (fun call => (call.1.output, call.2)) =
        some ([forged 0x300000], 1) := by
  have htranslate : translate forged 0x400000 0x300000 = some (0x300000, false) := by
    decide +kernel
  refine ⟨fun h => ?_, htranslate, by decide +kernel⟩
  have hasks : forgedKernel.Asks 1 0x300000 1 :=
    ⟨⟨1, rfl, rfl⟩, rfl, by decide, by decide, by decide, by decide⟩
  have hseen : ∀ i < 1, seenAt forgedKernel.space 0x400000 0x300000 i = some true := by
    intro i hi
    obtain rfl := Nat.lt_one_iff.mp hi
    decide +kernel
  obtain ⟨a, ha⟩ := (h.seesEntries hasks).granted hseen 0 Nat.zero_lt_one
  have hsame : translate forged 0x400000 0x300000 = some (a, true) := ha
  rw [htranslate] at hsame
  cases hsame

end Forged

end LevOS
