import LevOS.Memory.TagWalk
import LevOS.Memory.PageRuns
import LevOS.Foundation.Blocks

/-!
# The boot loader's memory map

A well-formed information block lists ranges of memory, in tags of several kinds and
in entries of several sizes. `pmm_init` rounds the available ranges inward to whole
pages and the reserved ones outward, so the order of the entries and their overlaps do
not matter. Without a usable entry a fixed heap is made available, after the block has
been reserved.

## Main definitions

* `TagFrom`, `MapEntry`, the tags and the entries of a block
* `WellFormed`, `Handed`, a block that the boot loader may hand over
* `Usable`, an entry that raises the bound of the allocator above zero

## Main results

* `pmmInit_freePages`, the free pages after a boot with a usable map
* `pmmInit_reserved_iff`, when the pages that are handed out are free of reserved memory
-/

namespace LevOS.Memory

open LevOS.Foundation

namespace Pmm

/-! ## Blocks -/

section Block

variable (m : Memory) (info : UInt32)

/-- The word at an offset of the block. -/
def blockWord (offset : Nat) : Nat := (load32 m (info + UInt32.ofNat offset)).toNat

/-- The double word at an offset of the block. -/
def blockDouble (offset : Nat) : Nat := (load64 m (info + UInt32.ofNat offset)).toNat

/-- The size of the block, which is its first word. -/
def blockSize : Nat := (load32 m info).toNat

/-- The offset behind a tag and its padding. -/
def tagEnd (offset : Nat) : Nat := offset + (blockWord m info (offset + 4) + 7) / 8 * 8

/-- A tag follows another one in the block. -/
def Follows (offset next : Nat) : Prop :=
  next = tagEnd m info offset ∧ next + 8 ≤ blockSize m info

/-- The tags of the block at and after an offset. -/
def TagFrom (start offset : Nat) : Prop :=
  start + 8 ≤ blockSize m info ∧ Relation.ReflTransGen (Follows m info) start offset

/-- The entries of the memory map in a tag. Entries below the least size are not read. -/
def EntryOf (offset entry : Nat) : Prop :=
  blockWord m info offset = 6 ∧ 24 ≤ blockWord m info (offset + 8) ∧
    ∃ i < (blockWord m info (offset + 4) - 16) / blockWord m info (offset + 8),
      entry = offset + 16 + i * blockWord m info (offset + 8)

/-- The entries of the memory maps of the block. -/
def MapEntry (entry : Nat) : Prop := ∃ offset, TagFrom m info 8 offset ∧ EntryOf m info offset entry

/-- A block whose tags lie inside it and whose entries do not wrap around. -/
structure WellFormed : Prop where
  size_lt : blockSize m info < 2 ^ 31
  header : ∀ offset, TagFrom m info 8 offset → 8 ≤ blockWord m info (offset + 4)
  inside : ∀ offset, TagFrom m info 8 offset →
    offset + blockWord m info (offset + 4) ≤ blockSize m info
  map_header : ∀ offset, TagFrom m info 8 offset → blockWord m info offset = 6 →
    16 ≤ blockWord m info (offset + 4)
  entry_fits : ∀ entry, MapEntry m info entry →
    blockDouble m info entry + blockDouble m info (entry + 8) + 4095 < 2 ^ 64

/-- The entry is available memory and the whole page lies inside it. -/
def Covers (entry page : Nat) : Prop :=
  blockWord m info (entry + 16) = 1 ∧ blockDouble m info entry ≤ page * 4096 ∧
    (page + 1) * 4096 ≤ blockDouble m info entry + blockDouble m info (entry + 8)

/-- The entry is available memory that ends behind the first page. -/
def Raises (entry : Nat) : Prop :=
  blockWord m info (entry + 16) = 1 ∧ blockDouble m info (entry + 8) ≠ 0 ∧
    4096 ≤ blockDouble m info entry + blockDouble m info (entry + 8)

/-- Some entry of the block raises the bound of the allocator. -/
def Usable : Prop := ∃ entry, MapEntry m info entry ∧ Raises m info entry

end Block

/-- A well-formed block that is not changed while it is read. -/
structure Handed (memory : Pmm → Memory) (info : UInt32) : Prop where
  info_ne : info ≠ 0
  stable : ∀ p, ∀ k < blockSize (memory cleared) info,
    memory p (info + UInt32.ofNat k) = memory cleared (info + UInt32.ofNat k)
  wellFormed : WellFormed (memory cleared) info

section Tags

variable {m : Memory} {info : UInt32}

theorem tagFrom_self {start : Nat} (h : start + 8 ≤ blockSize m info) :
    TagFrom m info start start :=
  ⟨h, .refl⟩

theorem TagFrom.trans {a b c : Nat} (h : TagFrom m info a b) (h' : TagFrom m info b c) :
    TagFrom m info a c :=
  ⟨h.1, h.2.trans h'.2⟩

theorem TagFrom.inside {start offset : Nat} (h : TagFrom m info start offset) :
    offset + 8 ≤ blockSize m info := by
  obtain ⟨hstart, hchain⟩ := h
  rcases hchain.cases_tail with rfl | ⟨_, -, hfollows⟩
  · exact hstart
  · exact hfollows.2

/-- The tags from an offset on: the one there, and those behind it. -/
theorem tagFrom_iff {start offset : Nat} (h : start + 8 ≤ blockSize m info) :
    TagFrom m info start offset ↔
      offset = start ∨ TagFrom m info (tagEnd m info start) offset := by
  constructor
  · rintro ⟨-, hchain⟩
    rcases hchain.cases_head with rfl | ⟨next, ⟨rfl, hnext⟩, hrest⟩
    · exact .inl rfl
    · exact .inr ⟨hnext, hrest⟩
  · rintro (rfl | ⟨hnext, hrest⟩)
    · exact tagFrom_self h
    · exact ⟨h, hrest.head ⟨rfl, hnext⟩⟩

end Tags

/-! ## Reading the entries -/

/-- What reading some entries of the block makes of the allocator. -/
structure Reads (m : Memory) (info : UInt32) (entries : Nat → Prop) (p p' : Pmm) : Prop where
  bounded : p'.Bounded
  mem_free : ∀ page < maxPages,
    page ∈ p'.free ↔ page ∈ p.free ∨ ∃ entry, entries entry ∧ Covers m info entry page
  highest : p'.highestPage = 0 ↔
    p.highestPage = 0 ∧ ∀ entry, entries entry → ¬ Raises m info entry

section Reading

variable {m : Memory} {info : UInt32} {entries entries' : Nat → Prop} {p p' p'' : Pmm}

theorem Reads.none (h : p.Bounded) (hnone : ∀ entry, ¬ entries entry) :
    Reads m info entries p p where
  bounded := h
  mem_free page _ := by simp [hnone]
  highest := by simp [hnone]

theorem Reads.trans (h : Reads m info entries p p') (h' : Reads m info entries' p' p'') :
    Reads m info (fun entry => entries entry ∨ entries' entry) p p'' where
  bounded := h'.bounded
  mem_free page hpage := by
    rw [h'.mem_free page hpage, h.mem_free page hpage, or_assoc, ← exists_or]
    simp only [or_and_right]
  highest := by
    rw [h'.highest, h.highest, and_assoc]
    simp only [or_imp, forall_and]

theorem Reads.congr (h : Reads m info entries p p')
    (hsame : ∀ entry, entries' entry ↔ entries entry) :
    Reads m info entries' p p' := by
  obtain rfl : entries' = entries := funext fun entry => propext (hsame entry)
  exact h

/-- Reading one entry. -/
theorem freeRange_reads (hp : p.Bounded) {entry : Nat}
    (hfits : blockDouble m info entry + blockDouble m info (entry + 8) + 4095 < 2 ^ 64) :
    Reads m info (· = entry) p
      (if load32 m (info + UInt32.ofNat (entry + 16)) = 1 ∧
          load64 m (info + UInt32.ofNat (entry + 8)) ≠ 0 then
        p.freeRange (load64 m (info + UInt32.ofNat entry))
          (load64 m (info + UInt32.ofNat entry) + load64 m (info + UInt32.ofNat (entry + 8)))
      else p) := by
  have hkind : load32 m (info + UInt32.ofNat (entry + 16)) = 1 ↔
      blockWord m info (entry + 16) = 1 := by
    rw [← UInt32.toNat_inj]
    rfl
  have hlength : load64 m (info + UInt32.ofNat (entry + 8)) ≠ 0 ↔
      blockDouble m info (entry + 8) ≠ 0 := by
    rw [ne_eq, ← UInt64.toNat_inj]
    rfl
  rw [if_congr (and_congr hkind hlength) rfl rfl]
  have hbase : (load64 m (info + UInt32.ofNat entry)).toNat = blockDouble m info entry := rfl
  have hstop : (load64 m (info + UInt32.ofNat entry) +
      load64 m (info + UInt32.ofNat (entry + 8))).toNat =
        blockDouble m info entry + blockDouble m info (entry + 8) := by
    rw [UInt64.toNat_add]
    exact Nat.mod_eq_of_lt (by change _ + blockDouble m info (entry + 8) < _; omega)
  split_ifs with hread
  · refine ⟨hp.freeRange _ _, fun page hpage => ?_, ?_⟩
    · rw [mem_freeRange hp.counted _ _ hpage, pagesUp_toNat (by omega), UInt64.toNat_div, hstop,
        hbase, exists_eq_left, Covers]
      refine or_congr_right ?_
      simp only [hread.1, true_and, UInt64.reduceToNat]
      omega
    · rw [highestPage_freeRange hp.counted, hstop, forall_eq, Raises]
      simp only [hread.1, hread.2, ne_eq, not_false_eq_true, true_and, not_le]
  · refine ⟨hp, fun page hpage => ?_, ?_⟩
    · -- an entry without bytes covers no page
      have hcovers : ¬ Covers m info entry page := by
        rintro ⟨hone, hstart, hend⟩
        exact hread ⟨hone, by omega⟩
      simp [hcovers]
    · have hraises : ¬ Raises m info entry := fun h => hread ⟨h.1, h.2.1⟩
      simp [hraises]

end Reading

section Walking

variable {memory : Pmm → Memory} {info : UInt32}

theorem add_ofNat_add (info : UInt32) (offset k : Nat) :
    info + UInt32.ofNat offset + UInt32.ofNat k = info + UInt32.ofNat (offset + k) := by
  rw [UInt32.add_assoc, UInt32.ofNat_add]

/-- Words inside the block are read as they were handed over. -/
theorem Handed.load32_eq (h : Handed memory info) (p : Pmm) {offset : Nat}
    (hin : offset + 4 ≤ blockSize (memory cleared) info) :
    load32 (memory p) (info + UInt32.ofNat offset) =
      load32 (memory cleared) (info + UInt32.ofNat offset) := by
  apply load32_congr
  intro k hk
  rw [add_ofNat_add]
  exact h.stable p _ (by omega)

theorem Handed.load64_eq (h : Handed memory info) (p : Pmm) {offset : Nat}
    (hin : offset + 8 ≤ blockSize (memory cleared) info) :
    load64 (memory p) (info + UInt32.ofNat offset) =
      load64 (memory cleared) (info + UInt32.ofNat offset) := by
  have hhigh := h.load32_eq p (show offset + 4 + 4 ≤ _ by omega)
  rw [← add_ofNat_add] at hhigh
  rw [load64, load64, h.load32_eq p (by omega), show (4 : UInt32) = UInt32.ofNat 4 from rfl, hhigh]

/-- Reading the entries of a tag. -/
theorem walkEntries_reads (h : Handed memory info) {entrySize : UInt32}
    (hleast : 24 ≤ entrySize.toNat) {n entry : Nat}
    (hend : entry + n * entrySize.toNat ≤ blockSize (memory cleared) info)
    (hfits : ∀ i < n, blockDouble (memory cleared) info (entry + i * entrySize.toNat) +
      blockDouble (memory cleared) info (entry + i * entrySize.toNat + 8) + 4095 < 2 ^ 64)
    {p : Pmm} (hp : p.Bounded) :
    Reads (memory cleared) info (fun e => ∃ i < n, e = entry + i * entrySize.toNat) p
      (walkEntries memory entrySize n (info + UInt32.ofNat entry) p) := by
  induction n generalizing entry p with
  | zero => exact .none hp (by simp)
  | succ n ih =>
    rw [Nat.succ_mul] at hend
    have hfirst := hfits 0 (Nat.succ_pos n)
    simp only [Nat.zero_mul, Nat.add_zero] at hfirst
    have hread := freeRange_reads hp hfirst
    -- what the loop loads is what was handed over
    rw [← h.load64_eq p (by omega), ← h.load64_eq p (by omega), ← h.load32_eq p (by omega),
      ← add_ofNat_add info entry 8, ← add_ofNat_add info entry 16] at hread
    have hrest := ih (by omega : entry + entrySize.toNat + n * entrySize.toNat ≤ _)
      (fun i hi => by
        have hnext := hfits (i + 1) (Nat.succ_lt_succ hi)
        rwa [Nat.succ_mul, Nat.add_comm (i * _), ← Nat.add_assoc] at hnext) hread.bounded
    rw [← add_ofNat_add info entry entrySize.toNat, UInt32.ofNat_toNat] at hrest
    rw [walkEntries]
    refine (hread.trans hrest).congr fun e => ?_
    constructor
    · rintro ⟨i, hi, rfl⟩
      cases i with
      | zero => exact .inl (by simp)
      | succ i => exact .inr ⟨i, Nat.lt_of_succ_lt_succ hi, by rw [Nat.succ_mul]; omega⟩
    · rintro (rfl | ⟨i, hi, rfl⟩)
      · exact ⟨0, Nat.succ_pos n, by simp⟩
      · exact ⟨i + 1, Nat.succ_lt_succ hi, by rw [Nat.succ_mul]; omega⟩

theorem blockWord_toNat (h : Handed memory info) (p : Pmm) {offset : Nat}
    (hin : offset + 4 ≤ blockSize (memory cleared) info) :
    (load32 (memory p) (info + UInt32.ofNat offset)).toNat =
      blockWord (memory cleared) info offset := by
  rw [h.load32_eq p hin, blockWord]

/-- Reading the memory map in a tag, if the tag holds one. -/
theorem visitTag_reads (h : Handed memory info) {offset : Nat}
    (htag : TagFrom (memory cleared) info 8 offset) {p : Pmm} (hp : p.Bounded) :
    Reads (memory cleared) info (EntryOf (memory cleared) info offset) p
      (visitTag memory info (UInt32.ofNat offset) p) := by
  have hin := htag.inside
  have hinside := h.wellFormed.inside offset htag
  have htype := blockWord_toNat h p (show offset + 4 ≤ _ by omega)
  -- the words are what they were before pages were marked
  have hmap : load32 (memory p) (info + UInt32.ofNat offset) = 6 ↔
      blockWord (memory cleared) info offset = 6 := by
    rw [← htype, ← UInt32.toNat_inj]
    rfl
  unfold visitTag tagSize
  simp only
  by_cases hsix : blockWord (memory cleared) info offset = 6
  · have hheader := h.wellFormed.map_header offset htag hsix
    have hsize := blockWord_toNat h p (show offset + 4 + 4 ≤ _ by omega)
    have hentry := blockWord_toNat h p (show offset + 8 + 4 ≤ _ by omega)
    rw [← add_ofNat_add info offset 4] at hsize
    rw [← add_ofNat_add info offset 8] at hentry
    change (load32 (memory p) (info + UInt32.ofNat offset + 4)).toNat = _ at hsize
    change (load32 (memory p) (info + UInt32.ofNat offset + 8)).toNat = _ at hentry
    set size := load32 (memory p) (info + UInt32.ofNat offset + 4)
    set entrySize := load32 (memory p) (info + UInt32.ofNat offset + 8)
    have hleast : 24 ≤ entrySize ↔ 24 ≤ blockWord (memory cleared) info (offset + 8) := by
      rw [UInt32.le_iff_toNat_le, hentry]
      rfl
    -- the subtraction in the loop bound does not wrap, as the tag holds its header
    have hcount : ((size - 16) / entrySize).toNat =
        (blockWord (memory cleared) info (offset + 4) - 16) /
          blockWord (memory cleared) info (offset + 8) := by
      rw [UInt32.toNat_div, UInt32.toNat_sub_of_le, hsize, hentry]
      · rfl
      · rw [UInt32.le_iff_toNat_le, hsize]
        exact hheader
    by_cases hread : 24 ≤ blockWord (memory cleared) info (offset + 8)
    · rw [if_pos ⟨hmap.mpr hsix, hleast.mpr hread⟩, hcount]
      have hbody := Nat.div_mul_le_self (blockWord (memory cleared) info (offset + 4) - 16)
        (blockWord (memory cleared) info (offset + 8))
      -- and the loop does not leave the block
      have hend : offset + 16 + (blockWord (memory cleared) info (offset + 4) - 16) /
          blockWord (memory cleared) info (offset + 8) * entrySize.toNat ≤
            blockSize (memory cleared) info := by
        rw [hentry]
        omega
      have hentries := walkEntries_reads h (by rwa [hentry]) hend
        (fun i hi => h.wellFormed.entry_fits _
          ⟨offset, htag, hsix, hread, i, hi, by rw [hentry]⟩) hp
      rw [← add_ofNat_add info offset 16] at hentries
      refine hentries.congr fun e => ?_
      rw [EntryOf, hentry]
      exact ⟨fun he => he.2.2, fun he => ⟨hsix, hread, he⟩⟩
    · rw [if_neg fun hboth => hread (hleast.mp hboth.2)]
      exact .none hp fun e he => hread he.2.1
  · rw [if_neg fun hboth => hsix (hmap.mp hboth.1)]
    exact .none hp fun e he => hsix he.1

/-- The loop over the tags from one of them on. -/
theorem walkTags_reads (h : Handed memory info) {n offset : Nat}
    (hn : blockSize (memory cleared) info ≤ offset + 8 * n)
    (hlow : offset ≤ blockSize (memory cleared) info + 8)
    (htag : offset + 8 ≤ blockSize (memory cleared) info → TagFrom (memory cleared) info 8 offset)
    {p : Pmm} (hp : p.Bounded) :
    ∃ p', (∀ fuel, n < fuel →
        walkTags memory info (load32 (memory cleared) info) fuel (UInt32.ofNat offset) p =
          some p') ∧
      Reads (memory cleared) info
        (fun e => ∃ o, TagFrom (memory cleared) info offset o ∧ EntryOf (memory cleared) info o e)
        p p' := by
  have hsize := h.wellFormed.size_lt
  have hword (o : Nat) (ho : o ≤ blockSize (memory cleared) info + 8) :
      (UInt32.ofNat o).toNat = o := by
    rw [UInt32.toNat_ofNat', Nat.mod_eq_of_lt (by omega)]
  have hblock : (load32 (memory cleared) info).toNat = blockSize (memory cleared) info := rfl
  -- induction on the tags that still fit in
  induction n generalizing offset p with
  | zero =>
    refine ⟨p, fun fuel hfuel => ?_, .none hp ?_⟩
    · exact walkTags_stop hfuel (by rw [hword offset hlow, hblock]; omega) p
    · rintro e ⟨o, hfrom, -⟩
      have := hfrom.1
      omega
  | succ n ih =>
    by_cases hguard : offset + 8 ≤ blockSize (memory cleared) info
    · have htag := htag hguard
      have hheader := h.wellFormed.header offset htag
      have hinside := h.wellFormed.inside offset htag
      have hread := visitTag_reads h htag hp
      have htagSize : (tagSize memory info (UInt32.ofNat offset) p).toNat =
          blockWord (memory cleared) info (offset + 4) := by
        rw [tagSize, show (4 : UInt32) = UInt32.ofNat 4 from rfl, add_ofNat_add,
          blockWord_toNat h p (by omega)]
      have hturn :
          nextTag memory info (load32 (memory cleared) info) (UInt32.ofNat offset, p) = _ :=
        nextTag_ofNat (hword offset hlow) (by rw [hblock]; omega) (by rw [htagSize]; omega)
          (by rw [htagSize, hblock]; omega)
      have hbehind : offset + 8 ≤ tagEnd (memory cleared) info offset ∧
          tagEnd (memory cleared) info offset ≤ blockSize (memory cleared) info + 8 := by
        rw [tagEnd]
        omega
      have hnext : UInt32.ofNat offset +
          ((tagSize memory info (UInt32.ofNat offset) p + 7) &&& ~~~7) =
            UInt32.ofNat (tagEnd (memory cleared) info offset) := by
        apply UInt32.toNat_inj.mp
        rw [next_offset_toNat, hword _ hbehind.2, hword offset hlow, htagSize, tagEnd]
        omega
      obtain ⟨p', hwalk, hrest⟩ := ih (by omega) hbehind.2
        (fun hin => htag.trans ((tagFrom_iff hguard).mpr (.inr (tagFrom_self hin)))) hread.bounded
      refine ⟨p', fun fuel hfuel => ?_, (hread.trans hrest).congr fun e => ?_⟩
      · obtain ⟨fuel, rfl⟩ : ∃ k, fuel = k + 1 := ⟨fuel - 1, by omega⟩
        rw [walkTags_succ _ _ _ fuel (UInt32.ofNat offset, p), hturn, hnext]
        exact hwalk fuel (by omega)
      · constructor
        · rintro ⟨o, hfrom, he⟩
          rcases (tagFrom_iff hguard).mp hfrom with rfl | hlater
          · exact .inl he
          · exact .inr ⟨o, hlater, he⟩
        · rintro (he | ⟨o, hlater, he⟩)
          · exact ⟨offset, tagFrom_self hguard, he⟩
          · exact ⟨o, (tagFrom_iff hguard).mpr (.inr hlater), he⟩
    · refine ⟨p, fun fuel hfuel => ?_, .none hp ?_⟩
      · exact walkTags_stop (by omega) (by rw [hword offset hlow, hblock]; omega) p
      · rintro e ⟨o, hfrom, -⟩
        exact hguard hfrom.1

/-! ## After initialisation -/

/-- Reserving a range that has bytes takes away the pages it meets. -/
theorem mem_reserveRange_meets {p : Pmm} (h : p.Counted) {start stop : UInt64} {length : Nat}
    (hstop : stop.toNat = start.toNat + length) (hfit : stop.toNat + 4095 < 2 ^ 64)
    (hlength : 0 < length) {page : Nat} :
    page ∈ (p.reserveRange start stop).free ↔ page ∈ p.free ∧ ¬ Meets page start.toNat length := by
  rw [mem_reserveRange h, pagesUp_toNat hfit, UInt64.toNat_div, hstop, meets_iff]
  refine and_congr_right fun _ => not_congr ?_
  simp only [UInt64.reduceToNat]
  omega

/-- The part of `pmm_init` that reads the memory map: the bound is raised by usable entries,
and the pages inside available entries are free but for those of the block. -/
theorem readMap_reads (h : Handed memory info) :
    ∃ p, (∀ fuel, blockSize (memory cleared) info / 8 < fuel → readMap memory info fuel = some p) ∧
      p.Bounded ∧ (p.highestPage ≠ 0 ↔ Usable (memory cleared) info) ∧
      ∀ page < maxPages, page ∈ p.free ↔
        (∃ entry, MapEntry (memory cleared) info entry ∧ Covers (memory cleared) info entry page) ∧
          ¬ Meets page info.toNat (blockSize (memory cleared) info) := by
  have hsize := h.wellFormed.size_lt
  have hinfo := info.toNat_lt
  set stop := info.toUInt64 + (load32 (memory cleared) info).toUInt64 with hset
  have hstop : stop.toNat = info.toUInt64.toNat + blockSize (memory cleared) info := by
    rw [hset, UInt64.toNat_add, UInt32.toNat_toUInt64, UInt32.toNat_toUInt64]
    exact Nat.mod_eq_of_lt (by change _ + blockSize (memory cleared) info < _; omega)
  obtain ⟨p, hwalk, hreads⟩ := walkTags_reads h
    (n := blockSize (memory cleared) info / 8) (show _ ≤ 8 + 8 * _ by omega) (by omega)
    tagFrom_self bounded_cleared
  have hreserved := reserveRange_spec hreads.bounded.counted info.toUInt64 stop
  refine ⟨p.reserveRange info.toUInt64 stop, fun fuel hfuel => ?_,
    hreads.bounded.reserveRange _ _, ?_, fun page hpage => ?_⟩
  · have hrun : walkTags memory info (load32 (memory cleared) info) fuel 8 cleared = some p :=
      hwalk fuel hfuel
    rw [readMap, if_pos h.info_ne]
    simp only [hrun]
    rfl
  · rw [hreserved.2.2.1, ne_eq, hreads.highest, Usable]
    simp only [MapEntry]
    constructor
    · intro hne
      by_contra hnone
      exact hne ⟨rfl, fun entry he hraises => hnone ⟨entry, he, hraises⟩⟩
    · rintro ⟨entry, he, hraises⟩ ⟨-, hnone⟩
      exact hnone entry he hraises
  · have hclear : page ∉ cleared.free := fun hin =>
      absurd (bounded_cleared.below page hin) (Nat.not_lt_zero page)
    by_cases hempty : 0 < blockSize (memory cleared) info
    · rw [mem_reserveRange_meets hreads.bounded.counted hstop (by
        rw [hstop, UInt32.toNat_toUInt64]; omega) hempty, hreads.mem_free page hpage,
        or_iff_right hclear, UInt32.toNat_toUInt64]
      rfl
    · -- a block without bytes has no entries
      have hnone (entry : Nat) : ¬ MapEntry (memory cleared) info entry := by
        rintro ⟨offset, htag, -⟩
        have := htag.inside
        omega
      have hfree : page ∉ p.free := by
        rw [hreads.mem_free page hpage, or_iff_right hclear]
        rintro ⟨entry, he, -⟩
        exact hnone entry he
      apply iff_of_false (fun hin => hfree (hreserved.2.1 hin))
      rintro ⟨⟨entry, he, -⟩, -⟩
      exact hnone entry he

end Walking

/-- `pmm_init` ends with the reservation of the first page and of the kernel image. -/
theorem mem_reserveKernel {p : Pmm} (h : p.Bounded) (kernelEnd : UInt32) {page : Nat} :
    page ∈ ((p.reserveRange 0 0x1000).reserveRange 0 kernelEnd.toUInt64).free ↔
      page ∈ p.free ∧ ¬ Meets page 0 (max 0x1000 kernelEnd.toNat) := by
  have hend := kernelEnd.toNat_lt
  have hzero : ((0 : UInt64) / 4096).toNat = 0 := by decide
  have hone : (((0x1000 : UInt64) + 4096 - 1) / 4096).toNat = 1 := by decide
  rw [mem_reserveRange (h.reserveRange 0 0x1000).counted, mem_reserveRange h.counted, hzero, hone,
    pagesUp_toNat (by rw [UInt32.toNat_toUInt64]; omega), UInt32.toNat_toUInt64, meets_iff,
    and_assoc]
  refine and_congr_right fun _ => ?_
  omega

section Booted

variable {memory : Pmm → Memory} {info : UInt32}

theorem pmmInit_of_readMap {fuel : Nat} {mapped : Pmm}
    (hread : readMap memory info fuel = some mapped) (kernelEnd : UInt32) :
    pmmInit memory kernelEnd info fuel = some
      (((if mapped.highestPage = 0 then mapped.freeRange 0x00100000 0x01000000
        else mapped).reserveRange 0 0x1000).reserveRange 0 kernelEnd.toUInt64) := by
  rw [pmmInit, hread]
  rfl

theorem pmmInit_usable (h : Handed memory info) (husable : Usable (memory cleared) info)
    (kernelEnd : UInt32) :
    ∃ p, (∀ fuel, blockSize (memory cleared) info / 8 < fuel →
        pmmInit memory kernelEnd info fuel = some p) ∧
      ∀ page, page ∈ p.free ↔ page < 2 ^ 20 ∧
        (∃ entry, MapEntry (memory cleared) info entry ∧
          Covers (memory cleared) info entry page) ∧
        ¬ Meets page 0 (max 0x1000 kernelEnd.toNat) ∧
        ¬ Meets page info.toNat (blockSize (memory cleared) info) := by
  obtain ⟨mapped, hread, hbounded, hhighest, hfree⟩ := readMap_reads h
  refine ⟨_, fun fuel hfuel => pmmInit_of_readMap (hread fuel hfuel) kernelEnd, fun page => ?_⟩
  rw [if_neg (hhighest.mpr husable), mem_reserveKernel hbounded]
  constructor
  · rintro ⟨hin, hkernel⟩
    have hpage := lt_of_mem_free hin
    obtain ⟨hentry, hblock⟩ := (hfree page hpage).mp hin
    exact ⟨hpage, hentry, hkernel, hblock⟩
  · rintro ⟨hpage, hentry, hkernel, hblock⟩
    exact ⟨(hfree page hpage).mpr ⟨hentry, hblock⟩, hkernel⟩

/-- After a boot with a usable map the free pages are those that lie wholly inside an
available entry and meet neither the first page, nor the kernel image, nor the block. -/
theorem pmmInit_freePages (h : Handed memory info) (kernelEnd : UInt32) :
    ∃ mapped p, (∀ fuel, blockSize (memory cleared) info / 8 < fuel →
        readMap memory info fuel = some mapped ∧ pmmInit memory kernelEnd info fuel = some p) ∧
      (mapped.highestPage ≠ 0 →
        p.pmmFreePages.toNat = p.free.card ∧
          ∀ page, page ∈ p.free ↔ page < 2 ^ 20 ∧
            (∃ entry, MapEntry (memory cleared) info entry ∧
              Covers (memory cleared) info entry page) ∧
            ¬ Meets page 0 (max 0x1000 kernelEnd.toNat) ∧
            ¬ Meets page info.toNat (blockSize (memory cleared) info)) := by
  obtain ⟨mapped, hread, -, hhighest, -⟩ := readMap_reads h
  refine ⟨mapped, _, fun fuel hfuel =>
    ⟨hread fuel hfuel, pmmInit_of_readMap (hread fuel hfuel) kernelEnd⟩, fun hne => ?_⟩
  obtain ⟨p, hinit, hfree⟩ := pmmInit_usable h (hhighest.mp hne) kernelEnd
  have hlast := Nat.lt_succ_self (blockSize (memory cleared) info / 8)
  obtain rfl := Option.some.inj
    ((hinit _ hlast).symm.trans (pmmInit_of_readMap (hread _ hlast) kernelEnd))
  exact ⟨(pmmInit_sound (hinit _ hlast)).counted, hfree⟩

/-- A double word whose high half is zero. -/
theorem blockDouble_eq {m : Memory} {value : UInt32} {offset : Nat}
    (hnext : info + UInt32.ofNat offset + 4 = info + UInt32.ofNat (offset + 4))
    (hlow : blockWord m info offset = value.toNat) (hhigh : blockWord m info (offset + 4) = 0) :
    blockDouble m info offset = value.toNat := by
  have hvalue := value.toNat_lt
  unfold blockWord at hlow hhigh
  rw [blockDouble, load64, hnext, hlow, hhigh, UInt64.toNat_ofNat']
  omega

/-- A block at 2 MiB with a memory map of one available entry and an end tag. -/
def mapBlock (base length : UInt32) : Memory :=
  blockMemory 0x200000 [56, 0, 6, 40, 24, 0, base, 0, length, 0, 1, 0, 0, 8]

section MapBlock

variable {base length : UInt32}

theorem mapBlock_word {value : UInt32} (k : Nat) (hk : k < 14)
    (hvalue : [56, 0, 6, 40, 24, 0, base, 0, length, 0, 1, 0, 0, 8].getD k 0 = value) :
    blockWord (mapBlock base length) 0x200000 (4 * k) = value.toNat := by
  rw [blockWord, mapBlock, load32_blockMemory (by omega), hvalue]

theorem mapBlock_size : blockSize (mapBlock base length) 0x200000 = 56 := by
  have h : blockWord (mapBlock base length) 0x200000 (4 * 0) = 56 := mapBlock_word 0 (by decide) rfl
  rwa [blockWord, Nat.mul_zero, show (0x200000 : UInt32) + UInt32.ofNat 0 = 0x200000 by decide] at h

theorem mapBlock_type : blockWord (mapBlock base length) 0x200000 8 = 6 :=
  mapBlock_word 2 (by decide) rfl

theorem mapBlock_tagSize : blockWord (mapBlock base length) 0x200000 12 = 40 :=
  mapBlock_word 3 (by decide) rfl

theorem mapBlock_entrySize : blockWord (mapBlock base length) 0x200000 16 = 24 :=
  mapBlock_word 4 (by decide) rfl

theorem mapBlock_kind : blockWord (mapBlock base length) 0x200000 40 = 1 :=
  mapBlock_word 10 (by decide) rfl

theorem mapBlock_endType : blockWord (mapBlock base length) 0x200000 48 = 0 :=
  mapBlock_word 12 (by decide) rfl

theorem mapBlock_endSize : blockWord (mapBlock base length) 0x200000 52 = 8 :=
  mapBlock_word 13 (by decide) rfl

theorem mapBlock_base : blockDouble (mapBlock base length) 0x200000 24 = base.toNat := by
  have hlow : blockWord (mapBlock base length) 0x200000 24 = base.toNat :=
    mapBlock_word 6 (by decide) rfl
  have hhigh : blockWord (mapBlock base length) 0x200000 28 = 0 := mapBlock_word 7 (by decide) rfl
  exact blockDouble_eq (by decide) hlow hhigh

theorem mapBlock_length : blockDouble (mapBlock base length) 0x200000 32 = length.toNat := by
  have hlow : blockWord (mapBlock base length) 0x200000 32 = length.toNat :=
    mapBlock_word 8 (by decide) rfl
  have hhigh : blockWord (mapBlock base length) 0x200000 36 = 0 := mapBlock_word 9 (by decide) rfl
  exact blockDouble_eq (by decide) hlow hhigh

/-- The tags are the memory map and the end tag. -/
theorem mapBlock_tag {offset : Nat} (h : TagFrom (mapBlock base length) 0x200000 8 offset) :
    offset = 8 ∨ offset = 48 := by
  have hsize := @mapBlock_size base length
  have hfirst : tagEnd (mapBlock base length) 0x200000 8 = 48 := by
    rw [tagEnd, mapBlock_tagSize]
  have hsecond : tagEnd (mapBlock base length) 0x200000 48 = 56 := by
    rw [tagEnd, mapBlock_endSize]
  rcases (tagFrom_iff (by omega)).mp h with rfl | hlater
  · exact .inl rfl
  · rw [hfirst] at hlater
    rcases (tagFrom_iff (by omega)).mp hlater with rfl | hbehind
    · exact .inr rfl
    · have := hbehind.1
      omega

theorem mapBlock_entry {entry : Nat} :
    MapEntry (mapBlock base length) 0x200000 entry ↔ entry = 24 := by
  have hsize := @mapBlock_tagSize base length
  have hleast := @mapBlock_entrySize base length
  constructor
  · rintro ⟨offset, htag, hkind, -, i, hi, rfl⟩
    rcases mapBlock_tag htag with rfl | rfl
    · rw [hsize, hleast] at hi
      rw [hleast]
      omega
    · rw [mapBlock_endType] at hkind
      cases hkind
  · rintro rfl
    refine ⟨8, tagFrom_self (by rw [mapBlock_size]; decide), mapBlock_type, hleast.ge, 0, ?_, ?_⟩
    · rw [hsize, hleast]
      decide
    · rw [Nat.zero_mul]

theorem handed_mapBlock (base length : UInt32) :
    Handed (fun _ => mapBlock base length) 0x200000 := by
  have hsize := @mapBlock_size base length
  have hfirst : blockWord (mapBlock base length) 0x200000 (8 + 4) = 40 := mapBlock_tagSize
  have hsecond : blockWord (mapBlock base length) 0x200000 (48 + 4) = 8 := mapBlock_endSize
  refine ⟨by decide, fun _ _ _ => rfl, by omega, ?_, ?_, ?_, ?_⟩
  · intro offset htag
    rcases mapBlock_tag htag with rfl | rfl <;> omega
  · intro offset htag
    rcases mapBlock_tag htag with rfl | rfl <;> omega
  · intro offset htag hsix
    rcases mapBlock_tag htag with rfl | rfl
    · omega
    · rw [mapBlock_endType] at hsix
      cases hsix
  · intro entry hentry
    rw [mapBlock_entry.mp hentry, mapBlock_base, mapBlock_length]
    have hbase := base.toNat_lt
    have hlength := length.toNat_lt
    omega

theorem usable_mapBlock (hlength : length ≠ 0) (hend : 4096 ≤ base.toNat + length.toNat) :
    Usable (mapBlock base length) 0x200000 := by
  refine ⟨24, mapBlock_entry.mpr rfl, mapBlock_kind, ?_, ?_⟩
  · rw [mapBlock_length]
    exact fun hzero => hlength (UInt32.toNat_inj.mp hzero)
  · rw [mapBlock_base, mapBlock_length]
    exact hend

/-- After a boot with that block the free pages are those of the entry, but for the kernel
image and the page of the block. -/
theorem pmmInit_mapBlock (hlength : length ≠ 0) (hend : 4096 ≤ base.toNat + length.toNat)
    (kernelEnd : UInt32) :
    ∃ p, pmmInit (fun _ => mapBlock base length) kernelEnd 0x200000 8 = some p ∧
      ∀ page, page ∈ p.free ↔ page < 2 ^ 20 ∧ base.toNat ≤ page * 4096 ∧
        (page + 1) * 4096 ≤ base.toNat + length.toNat ∧ max 0x1000 kernelEnd.toNat ≤ page * 4096 ∧
        page ≠ 0x200 := by
  have hsize : blockSize (mapBlock base length) 0x200000 = 56 := mapBlock_size
  obtain ⟨p, hinit, hfree⟩ := pmmInit_usable (handed_mapBlock base length)
    (usable_mapBlock hlength hend) kernelEnd
  simp only [hsize] at hinit hfree
  have hcovers (page : Nat) : (∃ entry, MapEntry (mapBlock base length) 0x200000 entry ∧
      Covers (mapBlock base length) 0x200000 entry page) ↔
        base.toNat ≤ page * 4096 ∧ (page + 1) * 4096 ≤ base.toNat + length.toNat := by
    have hkind : blockWord (mapBlock base length) 0x200000 (24 + 16) = 1 := mapBlock_kind
    have hlong : blockDouble (mapBlock base length) 0x200000 (24 + 8) = length.toNat :=
      mapBlock_length
    simp only [mapBlock_entry, exists_eq_left, Covers, hkind, mapBlock_base, hlong, true_and]
  refine ⟨p, hinit 8 (by decide), fun page => ?_⟩
  rw [hfree, hcovers, meets_iff, meets_iff, show (0x200000 : UInt32).toNat = 0x200000 from rfl]
  omega

end MapBlock

/-- One available entry of 7 MiB from 1 MiB on: the block's page is in use, the next one is
free. -/
theorem pmmInit_freePages_sample :
    ∃ p, pmmInit (fun _ => mapBlock 0x100000 0x700000) 0x120000 0x200000 8 = some p ∧
      0x200 ∉ p.free ∧ 0x201 ∈ p.free := by
  have h := handed_mapBlock 0x100000 0x700000
  have hsize : blockSize (mapBlock 0x100000 0x700000) 0x200000 = 56 := mapBlock_size
  obtain ⟨mapped, p, hinit, hfree⟩ := pmmInit_freePages h 0x120000
  obtain ⟨mapped', hread, -, hhighest, -⟩ := readMap_reads h
  simp only [hsize] at hinit hfree hread hhighest
  have hrun := hinit 8 (by decide)
  obtain rfl := Option.some.inj (hrun.1.symm.trans (hread 8 (by decide)))
  have hfree := (hfree (hhighest.mpr (usable_mapBlock (by decide) (by decide)))).2
  refine ⟨p, hrun.2, ?_, ?_⟩
  · rw [hfree]
    rintro ⟨-, -, -, hblock⟩
    exact hblock (meets_iff.mpr (by decide))
  · rw [hfree]
    refine ⟨by decide, ⟨24, mapBlock_entry.mpr rfl, mapBlock_kind, ?_, ?_⟩, ?_, ?_⟩
    · rw [mapBlock_base]
      decide
    · rw [mapBlock_base, mapBlock_length]
      decide
    · rw [meets_iff]
      decide
    · rw [meets_iff]
      decide

/-- After a boot without a usable map the free pages are those of the fixed heap that lie
above the kernel image. -/
theorem pmmInit_fallback (h : Handed memory info) (husable : ¬ Usable (memory cleared) info)
    (kernelEnd : UInt32) :
    ∃ p, (∀ fuel, blockSize (memory cleared) info / 8 < fuel →
        pmmInit memory kernelEnd info fuel = some p) ∧
      ∀ page, page ∈ p.free ↔ 0x100 ≤ page ∧ page < 0x1000 ∧ kernelEnd.toNat ≤ page * 4096 := by
  obtain ⟨mapped, hread, hbounded, hhighest, -⟩ := readMap_reads h
  have hzero : mapped.highestPage = 0 := by
    by_contra hne
    exact husable (hhighest.mp hne)
  refine ⟨_, fun fuel hfuel => pmmInit_of_readMap (hread fuel hfuel) kernelEnd, fun page => ?_⟩
  have hempty (q : Nat) : q ∉ mapped.free := by
    intro hin
    have := hbounded.below q hin
    rw [hzero] at this
    exact absurd this (Nat.not_lt_zero q)
  have hheap : page ∈ (mapped.freeRange 0x00100000 0x01000000).free ↔
      0x100 ≤ page ∧ page < 0x1000 := by
    constructor
    · intro hin
      have hpage := lt_of_mem_free hin
      rw [mem_freeRange hbounded.counted _ _ hpage, or_iff_right (hempty page)] at hin
      exact hin
    · rintro ⟨hlow, hhigh⟩
      rw [mem_freeRange hbounded.counted _ _ (by simp only [maxPages]; omega)]
      exact .inr ⟨hlow, hhigh⟩
  rw [if_pos hzero, mem_reserveKernel (hbounded.freeRange _ _), hheap, meets_iff]
  omega

/-- No byte of the page at an address is in the first page, in the kernel image or in the
block. -/
def Unreserved (kernelEnd info size address : Nat) : Prop :=
  ∀ b, address ≤ b → b < address + 4096 →
    0x1000 ≤ b ∧ kernelEnd ≤ b ∧ ¬ (info ≤ b ∧ b < info + size)

theorem unreserved_iff {kernelEnd info size page : Nat} :
    Unreserved kernelEnd info size (page * 4096) ↔
      ¬ Meets page 0 (max 0x1000 kernelEnd) ∧ ¬ Meets page info size := by
  rw [meets_iff, meets_iff]
  constructor
  · intro h
    have hfirst := h (page * 4096) le_rfl (by omega)
    refine ⟨by omega, fun hmeets => ?_⟩
    have hcommon := h (max info (page * 4096)) (by omega) (by omega)
    omega
  · rintro ⟨hkernel, hblock⟩ b hstart hend
    omega

/-- The allocator never hands out reserved memory exactly if the map is usable, or the block
lies outside of the part of the fixed heap that is above the kernel image. -/
theorem pmmInit_reserved_iff (h : Handed memory info) (kernelEnd : UInt32) :
    ∃ p, (∀ fuel, blockSize (memory cleared) info / 8 < fuel →
        pmmInit memory kernelEnd info fuel = some p) ∧
      ((∀ n, let address :=
            (PageRun.after ⟨p, []⟩ (List.replicate n .allocate)).pmm.allocatePage.1
          address ≠ 0 → Unreserved kernelEnd.toNat info.toNat
            (blockSize (memory cleared) info) address.toNat) ↔
        Usable (memory cleared) info ∨
          ∀ b, info.toNat ≤ b → b < info.toNat + blockSize (memory cleared) info →
            b < 0x100000 ∨ 0x1000000 ≤ b ∨ b / 4096 * 4096 < kernelEnd.toNat) := by
  by_cases husable : Usable (memory cleared) info
  · obtain ⟨p, hinit, hfree⟩ := pmmInit_usable h husable kernelEnd
    refine ⟨p, hinit, iff_of_true ?_ (.inl husable)⟩
    have hsound := pmmInit_sound (hinit _ (Nat.lt_succ_self _))
    refine (PageRun.allocated_iff hsound (Unreserved _ _ _)).mpr fun page hpage => ?_
    obtain ⟨-, -, hkernel, hblock⟩ := (hfree page).mp hpage
    exact unreserved_iff.mpr ⟨hkernel, hblock⟩
  · obtain ⟨p, hinit, hfree⟩ := pmmInit_fallback h husable kernelEnd
    have hsound := pmmInit_sound (hinit _ (Nat.lt_succ_self _))
    refine ⟨p, hinit, (PageRun.allocated_iff hsound (Unreserved _ _ _)).trans ?_⟩
    rw [or_iff_right husable]
    simp only [unreserved_iff, hfree, meets_iff]
    constructor
    · -- a byte of the block that lies in the heap gives a page that is handed out
      intro hall b hstart hend
      have hpage := hall (b / 4096)
      omega
    · rintro hall page ⟨hlow, hhigh, hkernel⟩
      refine ⟨by omega, fun hmeets => ?_⟩
      have hbyte := hall (max info.toNat (page * 4096)) (by omega) (by omega)
      omega

/-- A block with a usable map: no reserved memory is handed out. -/
theorem pmmInit_reserved_iff_sample :
    ∃ p, pmmInit (fun _ => mapBlock 0x100000 0x700000) 0x120000 0x200000 8 = some p ∧
      ∀ n, let address := (PageRun.after ⟨p, []⟩ (List.replicate n .allocate)).pmm.allocatePage.1
        address ≠ 0 → Unreserved 0x120000 0x200000 56 address.toNat := by
  have hsize : blockSize (mapBlock 0x100000 0x700000) 0x200000 = 56 := mapBlock_size
  obtain ⟨p, hinit, hiff⟩ := pmmInit_reserved_iff (handed_mapBlock 0x100000 0x700000) 0x120000
  simp only [hsize] at hinit hiff
  exact ⟨p, hinit 8 (by decide), hiff.mpr (.inl (usable_mapBlock (by decide) (by decide)))⟩

/-- A block behind the kernel image that holds nothing but an end tag. -/
def plainBlock : Memory := blockMemory 0x120000 [16, 0, 0, 8]

/-- The tag of the block is the end tag, so it has no memory map. -/
theorem plainBlock_tag {offset : Nat} (h : TagFrom plainBlock 0x120000 8 offset) : offset = 8 := by
  have hsize : blockSize plainBlock 0x120000 = 16 := by decide
  have hend : tagEnd plainBlock 0x120000 8 = 16 := by decide
  rcases (tagFrom_iff (by omega)).mp h with rfl | hlater
  · rfl
  · have := hlater.1
    omega

theorem plainBlock_entry (entry : Nat) : ¬ MapEntry plainBlock 0x120000 entry := by
  rintro ⟨offset, htag, hsix, -⟩
  rw [plainBlock_tag htag] at hsix
  exact absurd hsix (by decide)

theorem handed_plainBlock : Handed (fun _ => plainBlock) 0x120000 where
  info_ne := by decide
  stable _ _ _ := rfl
  wellFormed :=
    { size_lt := by decide
      header := fun offset htag => by rw [plainBlock_tag htag]; decide
      inside := fun offset htag => by rw [plainBlock_tag htag]; decide
      map_header := fun offset htag hsix => by
        rw [plainBlock_tag htag] at hsix
        exact absurd hsix (by decide)
      entry_fits := fun entry hentry => absurd hentry (plainBlock_entry entry) }

/-- The first page that is handed out holds the block. -/
theorem pmmInit_hands_out_block :
    ¬ ∀ p, pmmInit (fun _ => plainBlock) 0x120000 0x120000 3 = some p →
      ∀ n, let address := (PageRun.after ⟨p, []⟩ (List.replicate n .allocate)).pmm.allocatePage.1
        address ≠ 0 → Unreserved 0x120000 0x120000 16 address.toNat := by
  intro hall
  have husable : ¬ Usable plainBlock 0x120000 := fun ⟨entry, he, _⟩ => plainBlock_entry entry he
  obtain ⟨p, hinit, hfree⟩ := pmmInit_fallback handed_plainBlock husable 0x120000
  have hinit := hinit 3 (by decide)
  have hpages := (PageRun.allocated_iff (pmmInit_sound hinit) (Unreserved _ _ _)).mp (hall p hinit)
  have hpage := hpages 0x120 ((hfree 0x120).mpr (by decide))
  exact (hpage 0x120000 (by decide) (by decide)).2.2 (by decide)

end Booted

end Pmm

end LevOS.Memory
