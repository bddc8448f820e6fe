import LevOS.Memory.Paged
import LevOS.Memory.PageRuns

/-!
# What a directory maps

A directory and its tables give each page of the address space a frame and two
permissions, each of which both levels must grant. `map_page_in` sets the mapping of one
page. It may have to make a table for it, and it may open a whole directory entry to user
code; the other pages keep their mappings as long as the tables are pages of their own.

## Main definitions

* `Mapping`, `view`, what a directory makes of an address
* `Shaped`, a directory whose tables are apart
* `Mapped`, what mapping a page is meant to do

## Main results

* `translate_eq_view`
* `mapPageIn_mapped`
-/

namespace LevOS.Memory

open LevOS.Foundation

/-! ## Views -/

/-- The frame of a page, and whether both levels let it be written to and let user code
use it. -/
structure Mapping where
  frame : UInt32
  writable : Bool
  user : Bool
  deriving DecidableEq

/-- The mapping that an entry of a directory and one of its table make. -/
def mappingOf (directoryEntry pageEntry : UInt32) : Option Mapping :=
  if directoryEntry &&& presentFlag = 0 ∨ pageEntry &&& presentFlag = 0 then none
  else
    some
      { frame := frameOf pageEntry
        writable := directoryEntry &&& pageEntry &&& writableFlag != 0
        user := directoryEntry &&& pageEntry &&& userFlag != 0 }

/-- An entry of a directory or of a table. -/
def entryAt (m : Memory) (base : UInt32) (i : Nat) : UInt32 :=
  load32 m (base + UInt32.ofNat (4 * i))

/-- The mapping of an address. -/
def view (m : Memory) (directory address : UInt32) : Option Mapping :=
  let directoryEntry := load32 m (directorySlot directory address)
  mappingOf directoryEntry (load32 m (tableSlot (frameOf directoryEntry) address))

theorem view_eq (m : Memory) (directory a : UInt32) :
    view m directory a = mappingOf (entryAt m directory (a.toNat / 4194304))
      (entryAt m (frameOf (entryAt m directory (a.toNat / 4194304))) (a.toNat / 4096 % 1024)) := by
  rw [view]
  simp only [directorySlot_eq, tableSlot_eq, entryAt]

/-- The translation goes to the mapped frame. -/
theorem translate_eq_view (m : Memory) (directory a : UInt32) :
    translate m directory a =
      (view m directory a).map fun mapping => (mapping.frame + (a &&& 0xFFF), mapping.user) := by
  unfold translate view mappingOf
  simp only
  by_cases hdirectory : load32 m (directorySlot directory a) &&& presentFlag = 0
  · rw [if_pos hdirectory, if_pos (.inl hdirectory)]
    rfl
  · rw [if_neg hdirectory]
    by_cases hpage : load32 m
        (tableSlot (frameOf (load32 m (directorySlot directory a))) a) &&& presentFlag = 0
    · rw [if_pos hpage, if_pos (.inr hpage)]
      rfl
    · rw [if_neg hpage, if_neg (not_or.mpr ⟨hdirectory, hpage⟩)]
      rfl

/-- Addresses of one page have one mapping. -/
theorem view_of_page {a b : UInt32} (h : a.toNat / 4096 = b.toNat / 4096) (m : Memory)
    (directory : UInt32) : view m directory a = view m directory b := by
  unfold view
  simp only [(slots_of_page h _).1, (slots_of_page h _).2]

theorem mappingOf_absent {directoryEntry : UInt32} (h : directoryEntry &&& presentFlag = 0)
    (pageEntry : UInt32) : mappingOf directoryEntry pageEntry = none :=
  if_pos (.inl h)

/-- A mapping has the frame of its page entry. -/
theorem frame_of_mappingOf {directoryEntry pageEntry : UInt32} {mapping : Mapping}
    (h : mappingOf directoryEntry pageEntry = some mapping) :
    mapping.frame = frameOf pageEntry := by
  unfold mappingOf at h
  split_ifs at h
  exact congrArg Mapping.frame (Option.some.inj h).symm

theorem mappingOf_zero (directoryEntry : UInt32) : mappingOf directoryEntry 0 = none :=
  if_pos (.inr (UInt32.zero_and))

/-! ## Entries -/

section Entries

variable {m : Memory} {base other value : UInt32} {i j : Nat}

theorem slotAt_toNat (hbase : base.toNat % 4096 = 0) (hi : i < 1024) :
    (base + UInt32.ofNat (4 * i)).toNat = base.toNat + 4 * i := by
  have hlt := base.toNat_lt
  exact toNat_add_ofNat (by omega)

theorem entryAt_store32_self (m : Memory) (base value : UInt32) (i : Nat) :
    entryAt (store32 m (base + UInt32.ofNat (4 * i)) value) base i = value :=
  load32_store32_self _ _ _

/-- Different entries are stored apart. -/
theorem entryAt_store32_ne (hbase : base.toNat % 4096 = 0) (hother : other.toNat % 4096 = 0)
    (hi : i < 1024) (hj : j < 1024) (hne : base ≠ other ∨ i ≠ j) :
    entryAt (store32 m (base + UInt32.ofNat (4 * i)) value) other j = entryAt m other j := by
  have hbaseLt := base.toNat_lt
  have hotherLt := other.toNat_lt
  have hslot := slotAt_toNat hbase hi
  have hslot' := slotAt_toNat hother hj
  have hne : base.toNat ≠ other.toNat ∨ i ≠ j :=
    hne.imp_left fun hbases heq => hbases (UInt32.toNat_inj.mp heq)
  exact load32_store32_apart (by omega) (by omega) (by omega)

theorem entryAt_clearWords_self (m : Memory) (hbase : base.toNat % 4096 = 0) (hi : i < 1024) :
    entryAt (clearWords m base 1024) base i = 0 := by
  have hlt := base.toNat_lt
  exact load32_clearWords (by omega) hi

theorem entryAt_clearWords_ne (hbase : base.toNat % 4096 = 0) (hother : other.toNat % 4096 = 0)
    (hj : j < 1024) (hne : base ≠ other) :
    entryAt (clearWords m base 1024) other j = entryAt m other j := by
  have hbaseLt := base.toNat_lt
  have hotherLt := other.toNat_lt
  have hne : base.toNat ≠ other.toNat := fun heq => hne (UInt32.toNat_inj.mp heq)
  refine load32_entry_congr hother (fun a ha => clearWords_outside ?_ (by omega)) hj
  unfold Outside at *
  omega

end Entries

/-! ## Flags -/

theorem frameOf_toNat_mod (x : UInt32) : (frameOf x).toNat % 4096 = 0 := by
  rw [frameOf_toNat]
  omega

theorem or_and (x y z : UInt32) : (x ||| y) &&& z = x &&& z ||| y &&& z := by
  apply UInt32.toNat_inj.mp
  rw [UInt32.toNat_and, UInt32.toNat_or, UInt32.toNat_or, UInt32.toNat_and, UInt32.toNat_and,
    Nat.and_or_distrib_right]

/-- Opening an entry to user code changes none of its other bits. -/
theorem or_user_and (x : UInt32) {mask : UInt32} (hmask : userFlag &&& mask = 0) :
    (x ||| userFlag) &&& mask = x &&& mask := by
  rw [or_and, hmask, UInt32.or_zero]

theorem frameOf_or_user (x : UInt32) : frameOf (x ||| userFlag) = frameOf x :=
  or_user_and x (by decide)

theorem or_user_user (x : UInt32) : (x ||| userFlag) &&& userFlag ≠ 0 := by
  rw [and_two_pow_ne_zero _ 2 userFlag rfl, UInt32.toNat_or, Nat.testBit_or]
  exact Bool.or_eq_true_iff.mpr (.inr rfl)

/-- Opening a directory entry to user code does not show in pages that are closed to it, nor
where the entry was open before. -/
theorem mappingOf_or_user {d e : UInt32} (h : e &&& userFlag ≠ 0 → d &&& userFlag ≠ 0) :
    mappingOf (d ||| userFlag) e = mappingOf d e := by
  have hpresent : (d ||| userFlag) &&& presentFlag = d &&& presentFlag := or_user_and d (by decide)
  have hwritable : (d ||| userFlag) &&& writableFlag = d &&& writableFlag :=
    or_user_and d (by decide)
  have hwrite : ((d ||| userFlag) &&& e &&& writableFlag != 0) =
      (d &&& e &&& writableFlag != 0) := by
    apply Bool.eq_iff_iff.mpr
    rw [and_and_flag_iff _ _ (show writableFlag.toNat = 2 ^ 1 from rfl),
      and_and_flag_iff _ _ (show writableFlag.toNat = 2 ^ 1 from rfl), hwritable]
  have huser : ((d ||| userFlag) &&& e &&& userFlag != 0) = (d &&& e &&& userFlag != 0) := by
    apply Bool.eq_iff_iff.mpr
    rw [and_and_user_iff, and_and_user_iff]
    exact ⟨fun hboth => ⟨h hboth.2, hboth.2⟩, fun hboth => ⟨or_user_user d, hboth.2⟩⟩
  unfold mappingOf
  rw [hpresent, hwrite, huser]

theorem flagsFor_and (mode : UInt8) :
    flagsFor mode &&& presentFlag ≠ 0 ∧ flagsFor mode &&& writableFlag ≠ 0 ∧
      (flagsFor mode &&& userFlag ≠ 0 ↔ userMode mode = true) ∧ (flagsFor mode).toNat < 4096 := by
  unfold flagsFor
  split_ifs with hmode
  · simp only [hmode]
    decide
  · simp only [hmode]
    decide

/-- The mapping that `map_page_in` writes, under a directory entry that allows it. -/
theorem mappingOf_flags {d : UInt32} {mode : UInt8} (hpresent : d &&& presentFlag ≠ 0)
    (hwritable : d &&& writableFlag ≠ 0) (huser : userMode mode = true → d &&& userFlag ≠ 0)
    (physicalAddress : UInt32) :
    mappingOf d (frameOf physicalAddress ||| flagsFor mode) =
      some ⟨frameOf physicalAddress, true, userMode mode⟩ := by
  have haligned := frameOf_toNat_mod physicalAddress
  obtain ⟨hflagPresent, hflagWritable, hflagUser, hsmall⟩ := flagsFor_and mode
  have hentry (flag : UInt32) (hflag : flag.toNat < 4096) :
      (frameOf physicalAddress ||| flagsFor mode) &&& flag = flagsFor mode &&& flag :=
    or_flags_and haligned hflag
  have hwrite :
      (d &&& (frameOf physicalAddress ||| flagsFor mode) &&& writableFlag != 0) = true := by
    rw [and_and_flag_iff _ _ (show writableFlag.toNat = 2 ^ 1 from rfl), hentry _ (by decide)]
    exact ⟨hwritable, hflagWritable⟩
  have huse : (d &&& (frameOf physicalAddress ||| flagsFor mode) &&& userFlag != 0) =
      userMode mode := by
    apply Bool.eq_iff_iff.mpr
    rw [and_and_user_iff, hentry _ (by decide), hflagUser]
    exact and_iff_right_of_imp huser
  unfold mappingOf
  rw [hentry _ (by decide), if_neg (not_or.mpr ⟨hpresent, hflagPresent⟩), hwrite, huse,
    frameOf_or_flags haligned hsmall]

/-! ## Mapping a page -/

/-- A directory whose tables are pages of their own, none of them free, and in which a
directory entry grants what the entries below it grant. Entry 1023 is left aside. -/
structure Shaped (p : Pmm) (m : Memory) (directory : UInt32) : Prop where
  aligned : directory.toNat % 4096 = 0
  distinct : ∀ i < 1023, ∀ j < 1023, entryAt m directory i &&& presentFlag ≠ 0 →
    entryAt m directory j &&& presentFlag ≠ 0 → i ≠ j →
      frameOf (entryAt m directory i) ≠ frameOf (entryAt m directory j)
  apart : ∀ i < 1023, entryAt m directory i &&& presentFlag ≠ 0 →
    frameOf (entryAt m directory i) ≠ directory
  tables_used : ∀ i < 1023, entryAt m directory i &&& presentFlag ≠ 0 →
    (frameOf (entryAt m directory i)).toNat / 4096 ∉ p.free
  writable : ∀ i < 1023, entryAt m directory i &&& presentFlag ≠ 0 →
    entryAt m directory i &&& writableFlag ≠ 0
  user : ∀ i < 1023, entryAt m directory i &&& presentFlag ≠ 0 → ∀ j < 1024,
    entryAt m (frameOf (entryAt m directory i)) j &&& userFlag ≠ 0 →
      entryAt m directory i &&& userFlag ≠ 0

/-- The page of the address is mapped as asked for, and no other page below the last 4 MiB
has its mapping changed. -/
structure Mapped (s s' : Space) (directory virtualAddress physicalAddress : UInt32)
    (mode : UInt8) : Prop where
  page : ∀ a : UInt32, a.toNat / 4096 = virtualAddress.toNat / 4096 →
    view s'.memory directory a = some ⟨frameOf physicalAddress, true, userMode mode⟩
  others : ∀ a : UInt32, a.toNat < 0xFFC00000 → a.toNat / 4096 ≠ virtualAddress.toNat / 4096 →
    view s'.memory directory a = view s.memory directory a

section Map

variable {s : Space} {directory virtualAddress physicalAddress : UInt32} {mode : UInt8}

/-- Mapping a page through a table that exists. -/
theorem mapPageIn_present
    (h : load32 s.memory (directorySlot directory virtualAddress) &&& presentFlag ≠ 0) :
    mapPageIn direct s directory virtualAddress physicalAddress mode =
      some { s with
        memory := store32
          (if userMode mode then
            store32 s.memory (directorySlot directory virtualAddress)
              (load32 s.memory (directorySlot directory virtualAddress) ||| userFlag)
          else s.memory)
          (tableSlot (frameOf (load32 s.memory (directorySlot directory virtualAddress)))
            virtualAddress)
          (frameOf physicalAddress ||| flagsFor mode) } := by
  unfold mapPageIn
  simp only [Space.load, Space.store, direct, Option.map_some, Option.bind_eq_bind,
    Option.bind_some, if_pos h]
  split_ifs <;> rfl

/-- Without a table and without a free page nothing happens. -/
theorem mapPageIn_full
    (h : load32 s.memory (directorySlot directory virtualAddress) &&& presentFlag = 0)
    (hnone : s.pmm.allocatePage = (0, s.pmm)) :
    mapPageIn direct s directory virtualAddress physicalAddress mode = some s := by
  unfold mapPageIn
  simp only [Space.load, direct, Option.map_some, Option.bind_eq_bind, Option.bind_some,
    if_neg (not_not_intro h), hnone, if_pos]

/-- Mapping a page through a new table. -/
theorem mapPageIn_absent
    (h : load32 s.memory (directorySlot directory virtualAddress) &&& presentFlag = 0)
    (hne : s.pmm.allocatePage.1 ≠ 0) (haligned : s.pmm.allocatePage.1.toNat % 4096 = 0) :
    mapPageIn direct s directory virtualAddress physicalAddress mode =
      some { s with
        memory := store32
          (store32 (clearWords s.memory s.pmm.allocatePage.1 1024)
            (directorySlot directory virtualAddress) (s.pmm.allocatePage.1 ||| flagsFor mode))
          (tableSlot s.pmm.allocatePage.1 virtualAddress)
          (frameOf physicalAddress ||| flagsFor mode)
        pmm := s.pmm.allocatePage.2 } := by
  have hwords : EachWord (fun _ => True) s.pmm.allocatePage.1 1024 :=
    ⟨by omega, fun _ _ => trivial⟩
  have hclear := ((plain_direct s.cr3).clear (s := { s with pmm := s.pmm.allocatePage.2 }) trivial
    hwords).1
  unfold mapPageIn
  simp only [Space.load, direct, Option.map_some, Option.bind_eq_bind, Option.bind_some,
    if_neg (not_not_intro h), if_neg hne]
  simp only [Space.store, direct, Option.map_some] at hclear ⊢
  rw [hclear]
  rfl

/-- Both stores of `map_page_in`: an entry of the directory and one of the table. -/
def written (m : Memory) (directory : UInt32) (i : Nat) (d table : UInt32) (j : Nat) (e : UInt32) :
    Memory :=
  store32 (store32 m (directory + UInt32.ofNat (4 * i)) d) (table + UInt32.ofNat (4 * j)) e

section Written

variable {m : Memory} {table d e base : UInt32} {i j k : Nat}

theorem entryAt_written_directory (hdirectory : directory.toNat % 4096 = 0)
    (htable : table.toNat % 4096 = 0) (hne : table ≠ directory) (hi : i < 1024) (hj : j < 1024)
    (hk : k < 1024) :
    entryAt (written m directory i d table j e) directory k =
      if k = i then d else entryAt m directory k := by
  rw [written, entryAt_store32_ne htable hdirectory hj hk (.inl hne)]
  split_ifs with hsame
  · rw [hsame, entryAt_store32_self]
  · exact entryAt_store32_ne hdirectory hdirectory hi hk (.inr (Ne.symm hsame))

theorem entryAt_written_table (hdirectory : directory.toNat % 4096 = 0)
    (htable : table.toNat % 4096 = 0) (hbase : base.toNat % 4096 = 0) (hne : base ≠ directory)
    (hi : i < 1024) (hj : j < 1024) (hk : k < 1024) :
    entryAt (written m directory i d table j e) base k =
      if base = table ∧ k = j then e else entryAt m base k := by
  split_ifs with hsame
  · rw [written, hsame.1, hsame.2, entryAt_store32_self]
  · have hapart : table ≠ base ∨ j ≠ k := by
      by_contra hboth
      obtain ⟨hbases, hindices⟩ := not_or.mp hboth
      exact hsame ⟨(not_not.mp hbases).symm, (not_not.mp hindices).symm⟩
    rw [written, entryAt_store32_ne htable hbase hj hk hapart,
      entryAt_store32_ne hdirectory hbase hi hk (.inl hne.symm)]

end Written

/-- Below the last 4 MiB both indices are in range, and they tell pages apart. -/
theorem index_lt {a : UInt32} (h : a.toNat < 0xFFC00000) : a.toNat / 4194304 < 1023 := by
  omega

/-- What both stores of `map_page_in` make of the mappings: the written page, the other pages
of its table, and the pages of other tables. -/
theorem mapped_written {s' : Space} (m : Memory) (d table : UInt32)
    (hshape : Shaped s.pmm s.memory directory) (hlow : virtualAddress.toNat < 0xFFC00000)
    (hs' : s'.memory = written m directory (virtualAddress.toNat / 4194304) d table
      (virtualAddress.toNat / 4096 % 1024) (frameOf physicalAddress ||| flagsFor mode))
    (htable : table.toNat % 4096 = 0) (hapart : table ≠ directory) (hframe : frameOf d = table)
    (hentry : mappingOf d (frameOf physicalAddress ||| flagsFor mode) =
      some ⟨frameOf physicalAddress, true, userMode mode⟩)
    (hsame : ∀ k < 1024, k ≠ virtualAddress.toNat / 4096 % 1024 →
      mappingOf d (entryAt m table k) =
        mappingOf (entryAt s.memory directory (virtualAddress.toNat / 4194304))
          (entryAt s.memory
            (frameOf (entryAt s.memory directory (virtualAddress.toNat / 4194304))) k))
    (hdirectory : ∀ k < 1023, k ≠ virtualAddress.toNat / 4194304 →
      entryAt m directory k = entryAt s.memory directory k)
    (hothers : ∀ i < 1023, i ≠ virtualAddress.toNat / 4194304 →
      entryAt s.memory directory i &&& presentFlag ≠ 0 →
        frameOf (entryAt s.memory directory i) ≠ table ∧
          ∀ k < 1024, entryAt m (frameOf (entryAt s.memory directory i)) k =
            entryAt s.memory (frameOf (entryAt s.memory directory i)) k) :
    Mapped s s' directory virtualAddress physicalAddress mode := by
  have hi : virtualAddress.toNat / 4194304 < 1024 := (index_lt hlow).trans (by decide)
  have hj : virtualAddress.toNat / 4096 % 1024 < 1024 := Nat.mod_lt _ (by decide)
  constructor
  · intro a ha
    rw [view_of_page ha, view_eq, hs',
      entryAt_written_directory hshape.aligned htable hapart hi hj hi, if_pos rfl, hframe,
      entryAt_written_table hshape.aligned htable htable hapart hi hj hj, if_pos ⟨rfl, rfl⟩, hentry]
  · intro a ha hpage
    have hk := index_lt ha
    have hk' : a.toNat / 4194304 < 1024 := hk.trans (by decide)
    have hl : a.toNat / 4096 % 1024 < 1024 := Nat.mod_lt _ (by decide)
    rw [view_eq, view_eq, hs', entryAt_written_directory hshape.aligned htable hapart hi hj hk']
    by_cases hindex : a.toNat / 4194304 = virtualAddress.toNat / 4194304
    · -- another page of the same table
      have hother : a.toNat / 4096 % 1024 ≠ virtualAddress.toNat / 4096 % 1024 := by omega
      rw [if_pos hindex, hframe, entryAt_written_table hshape.aligned htable htable hapart hi hj hl,
        if_neg fun hboth => hother hboth.2, hsame _ hl hother, hindex]
    · rw [if_neg hindex, hdirectory _ hk hindex]
      by_cases hpresent : entryAt s.memory directory (a.toNat / 4194304) &&& presentFlag = 0
      · rw [mappingOf_absent hpresent, mappingOf_absent hpresent]
      · obtain ⟨hne, hsameTable⟩ := hothers _ hk hindex hpresent
        rw [entryAt_written_table hshape.aligned htable (frameOf_toNat_mod _)
          (hshape.apart _ hk hpresent) hi hj hl, if_neg fun hboth => hne hboth.1, hsameTable _ hl]

/-- Through a table that exists. -/
theorem mapped_present (hshape : Shaped s.pmm s.memory directory)
    (hlow : virtualAddress.toNat < 0xFFC00000)
    (h : load32 s.memory (directorySlot directory virtualAddress) &&& presentFlag ≠ 0) :
    ∃ s', mapPageIn direct s directory virtualAddress physicalAddress mode = some s' ∧
      Mapped s s' directory virtualAddress physicalAddress mode := by
  refine ⟨_, mapPageIn_present h, ?_⟩
  rw [directorySlot_eq] at h
  have hi := index_lt hlow
  set i := virtualAddress.toNat / 4194304
  change entryAt s.memory directory i &&& presentFlag ≠ 0 at h
  set d := entryAt s.memory directory i with hd
  -- storing the entry that is there changes nothing
  have hmemory : (if userMode mode then
      store32 s.memory (directorySlot directory virtualAddress)
        (load32 s.memory (directorySlot directory virtualAddress) ||| userFlag) else s.memory) =
      store32 s.memory (directory + UInt32.ofNat (4 * i))
        (if userMode mode then d ||| userFlag else d) := by
    rw [directorySlot_eq]
    split_ifs
    · rfl
    · exact (store32_load32 s.memory _).symm
  have hframe : frameOf (if userMode mode then d ||| userFlag else d) = frameOf d := by
    split_ifs
    · exact frameOf_or_user d
    · rfl
  refine mapped_written s.memory (if userMode mode then d ||| userFlag else d) (frameOf d) hshape
    hlow ?_ (frameOf_toNat_mod d) (hshape.apart i hi h) hframe ?_ ?_ (fun _ _ _ => rfl) ?_
  · simp only [hmemory, tableSlot_eq]
    rw [directorySlot_eq]
    rfl
  · have hopen : d &&& writableFlag ≠ 0 := hshape.writable i hi h
    split_ifs with hmode
    · refine mappingOf_flags ?_ ?_ (fun _ => or_user_user d) physicalAddress
      · rwa [or_user_and d (by decide)]
      · rwa [or_user_and d (by decide)]
    · exact mappingOf_flags h hopen (fun hyes => absurd hyes hmode) physicalAddress
  · intro k hk _
    split_ifs
    · exact mappingOf_or_user (hshape.user i hi h k hk)
    · rfl
  · intro k hk hne hpresent
    exact ⟨hshape.distinct k hk i hi hpresent h hne, fun _ _ => rfl⟩

/-- Through a new table, in a page that nothing of the directory is in. -/
theorem mapped_absent (hsound : s.pmm.Sound) (hshape : Shaped s.pmm s.memory directory)
    (hused : directory.toNat / 4096 ∉ s.pmm.free) (hlow : virtualAddress.toNat < 0xFFC00000)
    (h : load32 s.memory (directorySlot directory virtualAddress) &&& presentFlag = 0)
    (hfree : s.pmm.free ≠ ∅) :
    ∃ s', mapPageIn direct s directory virtualAddress physicalAddress mode = some s' ∧
      Mapped s s' directory virtualAddress physicalAddress mode := by
  rcases hsound.allocatePage_cases with ⟨hnone, -⟩ | htaken
  · exact absurd hnone hfree
  refine ⟨_, mapPageIn_absent h htaken.ne_zero htaken.aligned, ?_⟩
  rw [directorySlot_eq] at h
  have hi := index_lt hlow
  set table := s.pmm.allocatePage.1
  have htable : table.toNat % 4096 = 0 := htaken.aligned
  have hapart : table ≠ directory := fun heq => hused (heq ▸ htaken.was_free)
  obtain ⟨hflagPresent, hflagWritable, hflagUser, hsmall⟩ := flagsFor_and mode
  have hframe : frameOf (table ||| flagsFor mode) = table := frameOf_or_flags htable hsmall
  have hflag (flag : UInt32) (hlt : flag.toNat < 4096) :
      (table ||| flagsFor mode) &&& flag = flagsFor mode &&& flag := or_flags_and htable hlt
  refine mapped_written (clearWords s.memory table 1024) (table ||| flagsFor mode) table hshape hlow
    ?_ htable hapart hframe ?_ ?_ ?_ ?_
  · simp only [tableSlot_eq, directorySlot_eq]
    rfl
  · refine mappingOf_flags ?_ ?_ (fun hmode => ?_) physicalAddress
    · rwa [hflag _ (by decide)]
    · rwa [hflag _ (by decide)]
    · rw [hflag _ (by decide)]
      exact hflagUser.mpr hmode
  · -- the other pages of the new table are unmapped before and after
    intro k hk _
    rw [entryAt_clearWords_self _ htable hk, mappingOf_zero]
    exact (mappingOf_absent h _).symm
  · intro k hk _
    exact entryAt_clearWords_ne htable hshape.aligned (hk.trans (by decide)) hapart
  · intro k hk _ hpresent
    have hne : frameOf (entryAt s.memory directory k) ≠ table := fun heq =>
      hshape.tables_used k hk hpresent (heq ▸ htaken.was_free)
    exact ⟨hne, fun l hl => entryAt_clearWords_ne htable (frameOf_toNat_mod _) hl hne.symm⟩

/-- `map_page_in` maps the page and leaves the other mappings alone, or does nothing when it
needs a table and no page is free. The directory's page must not be free either. The
directory and its tables are reached at their physical addresses. -/
theorem mapPageIn_mapped (hp : s.pmm.Reachable) (hshape : Shaped s.pmm s.memory directory)
    (hused : directory.toNat / 4096 ∉ s.pmm.free) (hlow : virtualAddress.toNat < 0xFFC00000)
    (physicalAddress : UInt32) (mode : UInt8) :
    ∃ s', mapPageIn direct s directory virtualAddress physicalAddress mode = some s' ∧
      (load32 s.memory (directorySlot directory virtualAddress) &&& presentFlag = 0 ∧
          s.pmm.pmmFreePages = 0 ∧ s' = s ∨
        Mapped s s' directory virtualAddress physicalAddress mode) := by
  have hsound := hp.sound
  by_cases h : load32 s.memory (directorySlot directory virtualAddress) &&& presentFlag = 0
  · by_cases hfree : s.pmm.free = ∅
    · have hcount : s.pmm.pmmFreePages = 0 := by
        apply UInt32.toNat_inj.mp
        rw [Pmm.pmmFreePages, hsound.counted, hfree]
        rfl
      rcases hsound.allocatePage_cases with ⟨-, hnone⟩ | htaken
      · exact ⟨s, mapPageIn_full h hnone, .inl ⟨h, hcount, rfl⟩⟩
      · exact absurd (hfree ▸ htaken.was_free) (Finset.notMem_empty _)
    · obtain ⟨s', hmap, hmapped⟩ := mapped_absent hsound hshape hused hlow h hfree
      exact ⟨s', hmap, .inr hmapped⟩
  · obtain ⟨s', hmap, hmapped⟩ := mapped_present hshape hlow h
    exact ⟨s', hmap, .inr hmapped⟩

end Map

/-! ## After the boot -/

theorem noMap_freePages_ne {p : Pmm} (h : Pmm.pmmInit (fun _ _ => 0) 0x120000 0 0 = some p) :
    p.pmmFreePages ≠ 0 := by
  intro hzero
  have hcard : p.free.card = 0 := by
    rw [← (Pmm.pmmInit_sound h).counted]
    exact congrArg UInt32.toNat hzero
  rw [Finset.card_eq_zero] at hcard
  exact absurd (hcard ▸ (noMap_allocatePage h).1) (Finset.notMem_empty _)

theorem noMap_reachable : ∃ p, Pmm.pmmInit (fun _ _ => 0) 0x120000 0 0 = some p ∧ p.Reachable := by
  obtain ⟨p, hp⟩ := noMap_boots
  exact ⟨p, hp, _, _, _, _, p, [], hp, rfl⟩

/-- Clear memory holds an empty directory at every page. -/
theorem shaped_zero (p : Pmm) {directory : UInt32} (h : directory.toNat % 4096 = 0) :
    Shaped p (fun _ => 0) directory := by
  have habsent (i : Nat) (hpresent : entryAt (fun _ => 0) directory i &&& presentFlag ≠ 0) :
      False := hpresent (UInt32.zero_and)
  exact ⟨h, fun i _ _ _ hi => absurd hi (habsent i), fun i _ hi => absurd hi (habsent i),
    fun i _ hi => absurd hi (habsent i), fun i _ hi => absurd hi (habsent i),
    fun i _ hi => absurd hi (habsent i)⟩

/-- The directory of `init_paging` leads to four tables of its own, in the kernel image. -/
theorem initPaging_shaped {layout : Layout} {p : Pmm}
    (hused : ∀ page ∈ p.free, layout.kernelEnd.toNat ≤ page * 4096) (s : Space) :
    Shaped p (initPaging layout s).memory layout.pageDirectory := by
  have hmem := layout.identityTables_mem
  have hapart := layout.directory_tables
  set m := (initPaging layout s).memory
  have hentry {i : Nat} (hi : i < 1023)
      (hpresent : entryAt m layout.pageDirectory i &&& presentFlag ≠ 0) :
      i < 4 ∧ entryAt m layout.pageDirectory i = identityEntry layout i ∧
        frameOf (entryAt m layout.pageDirectory i) = tableAddress layout i := by
    by_cases hlow : i < 4
    · have heq : entryAt m layout.pageDirectory i = _ := initPaging_directory s hlow
      exact ⟨hlow, heq, by rw [heq, frameOf_identityEntry hlow.le]⟩
    · have habsent : entryAt m layout.pageDirectory i = 0 :=
        initPaging_absent s (Nat.not_lt.mp hlow) hi
      rw [habsent] at hpresent
      exact absurd UInt32.zero_and hpresent
  refine ⟨layout.pageDirectory_aligned, ?_, ?_, ?_, ?_, ?_⟩
  · intro i hi j hj hpresent hpresent' hne hsame
    obtain ⟨hlow, -, hframe⟩ := hentry hi hpresent
    obtain ⟨hlow', -, hframe'⟩ := hentry hj hpresent'
    have htable : (tableAddress layout i).toNat = _ := tableAddress_toNat hlow.le
    have htable' : (tableAddress layout j).toNat = _ := tableAddress_toNat hlow'.le
    rw [hframe, hframe'] at hsame
    rw [hsame] at htable
    omega
  · intro i hi hpresent hsame
    obtain ⟨hlow, -, hframe⟩ := hentry hi hpresent
    have htable : (tableAddress layout i).toNat = _ := tableAddress_toNat hlow.le
    rw [← hframe, hsame] at htable
    omega
  · intro i hi hpresent hfree
    obtain ⟨hlow, -, hframe⟩ := hentry hi hpresent
    have htable : (tableAddress layout i).toNat = _ := tableAddress_toNat hlow.le
    have habove := hused _ hfree
    rw [hframe] at habove
    omega
  · intro i hi hpresent
    obtain ⟨hlow, heq, -⟩ := hentry hi hpresent
    rw [heq]
    exact (identityEntry_flags layout hlow.le).2.1
  · intro i hi hpresent j hj huser
    obtain ⟨hlow, -, hframe⟩ := hentry hi hpresent
    have hpage := page_toNat hlow hj
    have heq : entryAt m (tableAddress layout i) j = pageEntry i j := initPaging_table s hlow hj
    -- the entries of the tables are for the kernel only
    rw [hframe, heq, pageEntry, UInt32.or_assoc, or_flags_and (by omega) (by decide)] at huser
    exact absurd rfl huser

/-- A page at 16 MiB, for which the directory of `init_paging` needs a table; the page of the
user code keeps its mapping. -/
theorem mapPageIn_mapped_sample :
    ∃ s s' : Space, mapPageIn direct s 0x110000 0x1000000 0x5000 0x55 = some s' ∧
      view s'.memory 0x110000 0x1000000 = some ⟨0x5000, true, true⟩ ∧
      view s'.memory 0x110000 0x400000 = view s.memory 0x110000 0x400000 := by
  obtain ⟨p, hp, hreachable⟩ := noMap_reachable
  have habove : ∀ page ∈ p.free, sampleLayout.kernelEnd.toNat ≤ page * 4096 :=
    fun page hpage => Pmm.pmmInit_above_kernel hp hpage
  have hused : (0x110000 : UInt32).toNat / 4096 ∉ p.free := by
    intro hfree
    exact absurd (habove _ hfree) (by decide)
  set s := initPaging sampleLayout ⟨fun _ => 0, 0, p⟩
  obtain ⟨s', hmap, ⟨-, hnone, -⟩ | hmapped⟩ :=
    mapPageIn_mapped (s := s) hreachable (initPaging_shaped habove _) hused
      (show (0x1000000 : UInt32).toNat < 0xFFC00000 by decide) 0x5000 0x55
  · exact absurd hnone (noMap_freePages_ne hp)
  · exact ⟨s, s', hmap, hmapped.page 0x1000000 rfl,
      hmapped.others 0x400000 (by decide) (by decide)⟩

/-- An empty directory in the page that is handed out next: `map_page_in` makes the
directory its own table, and the page is not mapped. -/
theorem mapPageIn_free_directory :
    ∃ s : Space, s.pmm.Reachable ∧ Shaped s.pmm s.memory 0x120000 ∧
      ¬ ∃ s', mapPageIn direct s 0x120000 0 0x5000 0x55 = some s' ∧
        (load32 s.memory (directorySlot 0x120000 0) &&& presentFlag = 0 ∧
            s.pmm.pmmFreePages = 0 ∧ s' = s ∨
          Mapped s s' 0x120000 0 0x5000 0x55) := by
  obtain ⟨p, hp, hreachable⟩ := noMap_reachable
  obtain ⟨hfree, haddress⟩ := noMap_allocatePage hp
  refine ⟨⟨fun _ => 0, 0, p⟩, hreachable, shaped_zero p (by decide), ?_⟩
  have habsent : load32 (fun _ => 0) (directorySlot 0x120000 0) &&& presentFlag = 0 := by decide
  have hmap : mapPageIn direct ⟨fun _ => 0, 0, p⟩ 0x120000 0 0x5000 0x55 = some _ :=
    mapPageIn_absent habsent (by rw [haddress]; decide) (by rw [haddress]; decide)
  simp only [haddress] at hmap
  rintro ⟨s', hs', ⟨-, hnone, -⟩ | hmapped⟩
  · exact noMap_freePages_ne hp hnone
  · have hview := hmapped.page 0 rfl
    obtain rfl := Option.some.inj (hmap.symm.trans hs')
    set m := store32 (store32 (clearWords (fun _ => 0) 0x120000 1024)
      (0x120000 + UInt32.ofNat (4 * 0)) (0x120000 ||| flagsFor 0x55))
      (0x120000 + UInt32.ofNat (4 * 0)) 0x5007
    -- the directory holds the entry that was meant for the table
    have hentry : entryAt m 0x120000 0 = 0x5007 := entryAt_store32_self _ _ _ _
    have hzero : entryAt m 0x5000 0 = 0 := by
      rw [entryAt_store32_ne (by decide) (by decide) (by decide) (by decide) (.inl (by decide)),
        entryAt_store32_ne (by decide) (by decide) (by decide) (by decide) (.inl (by decide)),
        entryAt_clearWords_ne (by decide) (by decide) (by decide) (by decide)]
      rfl
    rw [view_eq] at hview
    change mappingOf (entryAt m 0x120000 0) (entryAt m (frameOf (entryAt m 0x120000 0)) 0) = _
      at hview
    rw [hentry, show frameOf 0x5007 = 0x5000 by decide, hzero, mappingOf_zero] at hview
    cases hview

end LevOS.Memory
