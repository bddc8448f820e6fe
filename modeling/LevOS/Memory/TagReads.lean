import LevOS.Memory.BootMap

/-!
# What the walk over the tags reads

The walk reads the header of each tag, the entry size of a memory map and the fields of
its entries. The size of a tag is only compared with 8 and with the end of the block, so
a memory map that is shorter than its own header is read beyond its end, and its number
of entries wraps around. The reads stay inside the block, and the entries inside their
tags, exactly if no tag of the walk does this.

## Main definitions

* `turnBytes`, the bytes that one turn of the loop reads
* `WalkReads`, the bytes that the walk reads
* `WalkInside`, `TagFits`

## Main results

* `readMap_congr`, the walk depends on nothing but the bytes it reads
* `walkInside_iff`
* `Handed.walkInside`, a well-formed block is not left
-/

namespace LevOS.Memory

open LevOS.Foundation

namespace Pmm

/-! ## Reads -/

/-- The bytes of an access. -/
def accessBytes (address : UInt32) (n : Nat) : List UInt32 :=
  (List.range n).map fun k => address + UInt32.ofNat k

/-- The bytes that `walkEntries` reads: a base, a length and a kind for each entry. -/
def entryBytes (entrySize : UInt32) : Nat → UInt32 → List UInt32
  | 0, _ => []
  | entries + 1, entry =>
    accessBytes entry 8 ++ accessBytes (entry + 8) 8 ++ accessBytes (entry + 16) 4 ++
      entryBytes entrySize entries (entry + entrySize)

section Turns

variable (memory : Pmm → Memory) (info totalSize : UInt32)

/-- The type of the tag at an offset. -/
def tagType (offset : UInt32) (p : Pmm) : UInt32 := load32 (memory p) (info + offset)

/-- The size of the entries in the tag at an offset. -/
def tagEntrySize (offset : UInt32) (p : Pmm) : UInt32 := load32 (memory p) (info + offset + 8)

/-- How many entries are used of the tag at an offset. -/
def tagEntries (offset : UInt32) (p : Pmm) : Nat :=
  let entrySize := tagEntrySize memory info offset p
  if tagType memory info offset p = 6 ∧ 24 ≤ entrySize then
    ((tagSize memory info offset p - 16) / entrySize).toNat
  else 0

/-- The bytes that a turn of the loop reads: the type and the size of the tag, and of a
memory map the entry size and the entries. -/
def turnBytes (s : UInt32 × Pmm) : List UInt32 :=
  let tag := info + s.1
  let size := tagSize memory info s.1 s.2
  if ¬ s.1 + 8 ≤ totalSize then []
  else
    accessBytes tag 8 ++
      if size < 8 ∨ totalSize < s.1 + size then []
      else if tagType memory info s.1 s.2 = 6 then
        accessBytes (tag + 8) 4 ++
          entryBytes (tagEntrySize memory info s.1 s.2) (tagEntries memory info s.1 s.2) (tag + 16)
      else []

end Turns

/-- The bytes that `pmm_init` reads: the size of the block, and what each turn reads. -/
def WalkReads (memory : Pmm → Memory) (info a : UInt32) : Prop :=
  let totalSize := load32 (memory cleared) info
  info ≠ 0 ∧ (a ∈ accessBytes info 4 ∨
    ∃ s, TagReached memory info totalSize s ∧ a ∈ turnBytes memory info totalSize s)

/-- Every byte that is read lies in the block, counted from its start, and every entry that
is used lies in its tag. -/
structure WalkInside (memory : Pmm → Memory) (info : UInt32) : Prop where
  block : ∀ a, WalkReads memory info a →
    (a - info).toNat < max (load32 (memory cleared) info).toNat 4
  tag : info ≠ 0 → ∀ s s', TagReached memory info (load32 (memory cleared) info) s →
    nextTag memory info (load32 (memory cleared) info) s = some s' →
    ∀ i < tagEntries memory info s.1 s.2,
      16 + (i + 1) * (tagEntrySize memory info s.1 s.2).toNat ≤
        (tagSize memory info s.1 s.2).toNat

/-- The guard is not passed by wrapping around. A tag that passes both guards and is a
memory map has an entry size inside the block, and if it has entries, it is not shorter
than its header. Then it ends inside the block, or its entries step over what lies behind
the block. -/
structure TagFits (memory : Pmm → Memory) (info totalSize : UInt32) (s : UInt32 × Pmm) :
    Prop where
  guard : s.1 ≠ 0xFFFFFFF8
  map_header : nextTag memory info totalSize s ≠ none → tagType memory info s.1 s.2 = 6 →
    s.1.toNat + 12 ≤ totalSize.toNat
  entries_header : nextTag memory info totalSize s ≠ none → 0 < tagEntries memory info s.1 s.2 →
    16 ≤ (tagSize memory info s.1 s.2).toNat
  entries_inside : nextTag memory info totalSize s ≠ none →
    s.1.toNat + (tagSize memory info s.1 s.2).toNat ≤ totalSize.toNat ∨
      ∀ i < tagEntries memory info s.1 s.2,
        let entry := s.1.toNat + 16 + i * (tagEntrySize memory info s.1 s.2).toNat
        entry + 20 ≤ totalSize.toNat ∨ 2 ^ 32 ≤ entry

theorem mem_accessBytes {address a : UInt32} {n : Nat} :
    a ∈ accessBytes address n ↔ ∃ k < n, address + UInt32.ofNat k = a := by
  simp [accessBytes]

/-- An access inside an address space of `2 ^ 32` bytes stays below a bound exactly if its end
does. -/
theorem accessBytes_inside_iff {info : UInt32} {offset n bound : Nat} (hn : 0 < n)
    (hsmall : n < 2 ^ 32) (hbound : bound < 2 ^ 32) :
    (∀ a ∈ accessBytes (info + UInt32.ofNat offset) n, (a - info).toNat < bound) ↔
      offset % 2 ^ 32 + n ≤ bound := by
  have hdistance (k : Nat) :
      (info + UInt32.ofNat offset + UInt32.ofNat k - info).toNat = (offset + k) % 2 ^ 32 := by
    rw [add_ofNat_add, UInt32.add_comm, UInt32.add_sub_cancel, UInt32.toNat_ofNat']
  constructor
  · intro hall
    -- the last byte, or the last one before the address space ends
    by_cases hwrap : offset % 2 ^ 32 + n ≤ 2 ^ 32
    · have hlast := hall _ (mem_accessBytes.mpr ⟨n - 1, by omega, rfl⟩)
      rw [hdistance] at hlast
      omega
    · have hlast := hall _ (mem_accessBytes.mpr ⟨2 ^ 32 - 1 - offset % 2 ^ 32, by omega, rfl⟩)
      rw [hdistance] at hlast
      omega
  · rintro hend a ha
    obtain ⟨k, hk, rfl⟩ := mem_accessBytes.mp ha
    rw [hdistance]
    omega

theorem accessBytes_add (address : UInt32) (n k : Nat) :
    accessBytes address (n + k) =
      accessBytes address n ++ accessBytes (address + UInt32.ofNat n) k := by
  simp only [accessBytes, List.range_add, List.map_append, List.map_map]
  congr 1
  apply List.map_congr_left
  intro i _
  rw [Function.comp_apply, add_ofNat_add]

/-- The fields of an entry. -/
theorem accessBytes_fields (entry : UInt32) :
    accessBytes entry 20 =
      accessBytes entry 8 ++ accessBytes (entry + 8) 8 ++ accessBytes (entry + 16) 4 :=
  (accessBytes_add entry 16 4).trans (congrArg (· ++ _) (accessBytes_add entry 8 8))

theorem mem_entryBytes {entrySize info a : UInt32} {n offset : Nat} :
    a ∈ entryBytes entrySize n (info + UInt32.ofNat offset) ↔
      ∃ i < n, a ∈ accessBytes (info + UInt32.ofNat (offset + i * entrySize.toNat)) 20 := by
  induction n generalizing offset with
  | zero => simp [entryBytes]
  | succ n ih =>
    have hnext : info + UInt32.ofNat offset + entrySize =
        info + UInt32.ofNat (offset + entrySize.toNat) := by
      rw [← add_ofNat_add, UInt32.ofNat_toNat]
    rw [entryBytes, ← accessBytes_fields, hnext, List.mem_append, ih]
    constructor
    · rintro (hfirst | ⟨i, hi, hlater⟩)
      · exact ⟨0, Nat.succ_pos n, by rwa [Nat.zero_mul, Nat.add_zero]⟩
      · refine ⟨i + 1, Nat.succ_lt_succ hi, ?_⟩
        rwa [Nat.succ_mul, Nat.add_comm (i * _), ← Nat.add_assoc]
    · rintro ⟨i, hi, hin⟩
      cases i with
      | zero => exact .inl (by rwa [Nat.zero_mul, Nat.add_zero] at hin)
      | succ i =>
        refine .inr ⟨i, Nat.lt_of_succ_lt_succ hi, ?_⟩
        rwa [Nat.succ_mul, Nat.add_comm (i * _), ← Nat.add_assoc] at hin

theorem entryBytes_inside_iff {entrySize info : UInt32} {n offset bound : Nat}
    (hbound : bound < 2 ^ 32) :
    (∀ a ∈ entryBytes entrySize n (info + UInt32.ofNat offset), (a - info).toNat < bound) ↔
      ∀ i < n, (offset + i * entrySize.toNat) % 2 ^ 32 + 20 ≤ bound := by
  simp only [mem_entryBytes, forall_exists_index, and_imp]
  constructor
  · intro h i hi
    exact (accessBytes_inside_iff (by decide) (by decide) hbound).mp fun a ha => h a i hi ha
  · intro h a i hi ha
    exact (accessBytes_inside_iff (by decide) (by decide) hbound).mpr (h i hi) a ha

section Walk

variable {memory : Pmm → Memory} {info totalSize : UInt32}

theorem turnBytes_of_guard {s : UInt32 × Pmm} (hguard : ¬ s.1 + 8 ≤ totalSize) :
    turnBytes memory info totalSize s = [] ∧ nextTag memory info totalSize s = none :=
  ⟨if_pos hguard, if_pos hguard⟩

/-- A turn that leaves the loop at its second guard reads the header of the tag. -/
theorem turnBytes_of_break {s : UInt32 × Pmm} (hguard : s.1 + 8 ≤ totalSize)
    (hbreak : nextTag memory info totalSize s = none) :
    turnBytes memory info totalSize s = accessBytes (info + s.1) 8 := by
  have hsize : tagSize memory info s.1 s.2 < 8 ∨ totalSize < s.1 + tagSize memory info s.1 s.2 := by
    by_contra hpass
    rw [nextTag, if_neg (not_not.mpr hguard), if_neg hpass] at hbreak
    cases hbreak
  rw [turnBytes, if_neg (not_not.mpr hguard), if_pos hsize, List.append_nil]

/-- A turn that goes on reads a memory map to its end. -/
theorem turnBytes_of_next {s : UInt32 × Pmm} (hnext : nextTag memory info totalSize s ≠ none) :
    turnBytes memory info totalSize s = accessBytes (info + s.1) 8 ++
      if tagType memory info s.1 s.2 = 6 then
        accessBytes (info + s.1 + 8) 4 ++
          entryBytes (tagEntrySize memory info s.1 s.2) (tagEntries memory info s.1 s.2)
            (info + s.1 + 16)
      else [] := by
  have hguard : ¬ ¬ s.1 + 8 ≤ totalSize := fun hstop => hnext (turnBytes_of_guard hstop).2
  have hsize : ¬ (tagSize memory info s.1 s.2 < 8 ∨
      totalSize < s.1 + tagSize memory info s.1 s.2) := by
    intro hbreak
    exact hnext ((if_neg hguard).trans (if_pos hbreak))
  rw [turnBytes, if_neg hguard, if_neg hsize]

/-- The tags of the walk are aligned, also where the offset has wrapped around. -/
theorem TagReached.aligned {s : UInt32 × Pmm} (h : TagReached memory info totalSize s) :
    s.1.toNat % 8 = 0 := by
  induction h with
  | refl => rfl
  | tail _ hnext ih =>
    obtain ⟨-, -, -, rfl⟩ := nextTag_eq_some_iff.mp hnext
    simp only [next_offset_toNat]
    omega

/-- How many entries a memory map of at least 16 bytes has. -/
theorem tagEntries_inside {s : UInt32 × Pmm} (hheader : 16 ≤ (tagSize memory info s.1 s.2).toNat)
    {i : Nat} (hi : i < tagEntries memory info s.1 s.2) :
    24 ≤ (tagEntrySize memory info s.1 s.2).toNat ∧
      16 + (i + 1) * (tagEntrySize memory info s.1 s.2).toNat ≤
        (tagSize memory info s.1 s.2).toNat := by
  simp only [tagEntries] at hi
  split_ifs at hi with hmap
  · have hleast : 24 ≤ (tagEntrySize memory info s.1 s.2).toNat := hmap.2
    rw [UInt32.toNat_div, UInt32.toNat_sub_of_le _ _ hheader] at hi
    have hfit := (Nat.le_div_iff_mul_le (by omega)).mp (Nat.succ_le_of_lt hi)
    refine ⟨hleast, ?_⟩
    have hsixteen : (16 : UInt32).toNat = 16 := rfl
    rw [hsixteen] at hfit
    rw [Nat.succ_eq_add_one] at hfit
    omega
  · exact absurd hi (Nat.not_lt_zero i)

/-- The entries of a tag that passes the guards stay inside the block exactly if they end
there or step over what lies behind it. -/
theorem entries_inside_iff {s : UInt32 × Pmm}
    (hnext : nextTag memory info totalSize s ≠ none)
    (hheader : 0 < tagEntries memory info s.1 s.2 → 16 ≤ (tagSize memory info s.1 s.2).toNat) :
    (∀ i < tagEntries memory info s.1 s.2,
        (s.1.toNat + 16 + i * (tagEntrySize memory info s.1 s.2).toNat) % 2 ^ 32 + 20 ≤
          max totalSize.toNat 4) ↔
      (s.1.toNat + (tagSize memory info s.1 s.2).toNat ≤ totalSize.toNat ∨
        ∀ i < tagEntries memory info s.1 s.2,
          let entry := s.1.toNat + 16 + i * (tagEntrySize memory info s.1 s.2).toNat
          entry + 20 ≤ totalSize.toNat ∨ 2 ^ 32 ≤ entry) := by
  obtain ⟨s', hturn⟩ := Option.ne_none_iff_exists'.mp hnext
  obtain ⟨-, -, hend, -⟩ := nextTag_eq_some_iff.mp hturn
  have hoffset := s.1.toNat_lt
  have hsize := (tagSize memory info s.1 s.2).toNat_lt
  have htotal := totalSize.toNat_lt
  have hentry (i : Nat) (hi : i < tagEntries memory info s.1 s.2) :
      i * (tagEntrySize memory info s.1 s.2).toNat + 40 ≤
        (tagSize memory info s.1 s.2).toNat := by
    obtain ⟨hleast, hfit⟩ := tagEntries_inside (hheader (Nat.zero_lt_of_lt hi)) hi
    rw [Nat.succ_mul] at hfit
    omega
  constructor
  · refine fun h => .inr fun i hi => ?_
    have hinside := h i hi
    have hfit := hentry i hi
    simp only
    omega
  · rintro (hblock | h) i hi
    · have hfit := hentry i hi
      omega
    · have hskip := h i hi
      have hfit := hentry i hi
      simp only at hskip
      omega

theorem access_inside_iff (offset : UInt32) {n : Nat} (k : Nat) (hn : 0 < n) (hsmall : n < 2 ^ 32) :
    (∀ a ∈ accessBytes (info + offset + UInt32.ofNat k) n,
        (a - info).toNat < max totalSize.toNat 4) ↔
      (offset.toNat + k) % 2 ^ 32 + n ≤ max totalSize.toNat 4 := by
  have hbound : max totalSize.toNat 4 < 2 ^ 32 := max_lt totalSize.toNat_lt (by decide)
  rw [← accessBytes_inside_iff hn hsmall hbound, ← add_ofNat_add, UInt32.ofNat_toNat]

/-- The header of an aligned tag that passes the guard is inside, unless the guard wraps. -/
theorem header_inside_iff {offset : UInt32} (haligned : offset.toNat % 8 = 0)
    (hguard : (offset.toNat + 8) % 2 ^ 32 ≤ totalSize.toNat) :
    (∀ a ∈ accessBytes (info + offset) 8, (a - info).toNat < max totalSize.toNat 4) ↔
      offset ≠ 0xFFFFFFF8 := by
  have hinside := @access_inside_iff info totalSize offset 8 0 (by decide) (by decide)
  rw [show UInt32.ofNat 0 = 0 from rfl, UInt32.add_zero] at hinside
  have hlast : (0xFFFFFFF8 : UInt32).toNat = 0xFFFFFFF8 := rfl
  rw [hinside, ne_eq, ← UInt32.toNat_inj, hlast]
  have hoffset := offset.toNat_lt
  have htotal := totalSize.toNat_lt
  omega

theorem tagEntries_of_ne {offset : UInt32} {p : Pmm} (h : tagType memory info offset p ≠ 6) :
    tagEntries memory info offset p = 0 :=
  if_neg fun hmap => h hmap.1

/-- The reads of a turn that goes on. -/
theorem turnBytes_inside_iff {s : UInt32 × Pmm} (haligned : s.1.toNat % 8 = 0)
    (hnext : nextTag memory info totalSize s ≠ none) :
    (∀ a ∈ turnBytes memory info totalSize s, (a - info).toNat < max totalSize.toNat 4) ↔
      s.1 ≠ 0xFFFFFFF8 ∧
        (tagType memory info s.1 s.2 = 6 → s.1.toNat + 12 ≤ totalSize.toNat) ∧
        ∀ i < tagEntries memory info s.1 s.2,
          (s.1.toNat + 16 + i * (tagEntrySize memory info s.1 s.2).toNat) % 2 ^ 32 + 20 ≤
            max totalSize.toNat 4 := by
  obtain ⟨s', hturn⟩ := Option.ne_none_iff_exists'.mp hnext
  have hguard := (nextTag_eq_some_iff.mp hturn).1
  have hheader := @header_inside_iff info totalSize s.1 haligned hguard
  rw [turnBytes_of_next hnext, List.forall_mem_append, hheader]
  refine and_congr_right fun hlast => ?_
  have hoffset : s.1.toNat + 8 < 2 ^ 32 := by
    have hne : s.1.toNat ≠ 0xFFFFFFF8 := fun h => hlast (UInt32.toNat_inj.mp h)
    have hlt := s.1.toNat_lt
    omega
  by_cases hsix : tagType memory info s.1 s.2 = 6
  · have hentrySize := @access_inside_iff info totalSize s.1 4 8 (by decide) (by decide)
    have hbound : max totalSize.toNat 4 < 2 ^ 32 := max_lt totalSize.toNat_lt (by decide)
    have hentries := @entryBytes_inside_iff (tagEntrySize memory info s.1 s.2) info
      (tagEntries memory info s.1 s.2) (s.1.toNat + 16) _ hbound
    rw [← add_ofNat_add, UInt32.ofNat_toNat] at hentries
    rw [if_pos hsix, List.forall_mem_append]
    refine and_congr ?_ hentries
    rw [forall_prop_of_true hsix]
    refine hentrySize.trans ?_
    omega
  · rw [if_neg hsix, tagEntries_of_ne hsix]
    simp [hsix]

/-- One turn: its reads and its entries stay inside exactly if the tag fits. -/
theorem tagFits_iff {s : UInt32 × Pmm} (haligned : s.1.toNat % 8 = 0) :
    TagFits memory info totalSize s ↔
      (∀ a ∈ turnBytes memory info totalSize s, (a - info).toNat < max totalSize.toNat 4) ∧
      (∀ s', nextTag memory info totalSize s = some s' →
        ∀ i < tagEntries memory info s.1 s.2,
          16 + (i + 1) * (tagEntrySize memory info s.1 s.2).toNat ≤
            (tagSize memory info s.1 s.2).toNat) := by
  cases hturn : nextTag memory info totalSize s with
  | some s' =>
    have hnext : nextTag memory info totalSize s ≠ none := by
      rw [hturn]
      exact Option.some_ne_none s'
    rw [turnBytes_inside_iff haligned hnext]
    constructor
    · intro h
      have hheader := h.entries_header hnext
      refine ⟨⟨h.guard, h.map_header hnext, ?_⟩, fun _ _ i hi => ?_⟩
      · exact (entries_inside_iff hnext hheader).mpr (h.entries_inside hnext)
      · exact (tagEntries_inside (hheader (Nat.zero_lt_of_lt hi)) hi).2
    · rintro ⟨⟨hguard, hmap, hentries⟩, htag⟩
      have hheader (hsome : 0 < tagEntries memory info s.1 s.2) :
          16 ≤ (tagSize memory info s.1 s.2).toNat :=
        le_of_add_le_left (htag s' rfl 0 hsome)
      exact ⟨hguard, fun _ => hmap, fun _ => hheader,
        fun _ => (entries_inside_iff hnext hheader).mp hentries⟩
  | none =>
    have hfits : TagFits memory info totalSize s ↔ s.1 ≠ 0xFFFFFFF8 :=
      ⟨TagFits.guard, fun h => ⟨h, absurd hturn, absurd hturn, absurd hturn⟩⟩
    have hpass : s.1 + 8 ≤ totalSize ↔ (s.1.toNat + 8) % 2 ^ 32 ≤ totalSize.toNat := by
      rw [UInt32.le_iff_toNat_le, UInt32.toNat_add]
      rfl
    simp only [hfits, reduceCtorEq, IsEmpty.forall_iff, implies_true, and_true]
    by_cases hguard : s.1 + 8 ≤ totalSize
    · rw [turnBytes_of_break hguard hturn, header_inside_iff haligned (hpass.mp hguard)]
    · rw [(turnBytes_of_guard hguard).1]
      -- behind the last offset the guard is passed
      refine iff_of_true (fun hlast => hguard ?_) (by simp)
      rw [hlast]
      exact UInt32.le_iff_toNat_le.mpr (Nat.zero_le _)

theorem walkInside_of_fits
    (h : info ≠ 0 → ∀ s, TagReached memory info (load32 (memory cleared) info) s →
      TagFits memory info (load32 (memory cleared) info) s) : WalkInside memory info := by
  refine ⟨?_, fun hinfo s s' hs => ((tagFits_iff hs.aligned).mp (h hinfo s hs)).2 s'⟩
  rintro a ⟨hinfo, hsize | ⟨s, hs, ha⟩⟩
  · obtain ⟨k, hk, rfl⟩ := mem_accessBytes.mp hsize
    rw [UInt32.add_comm, UInt32.add_sub_cancel, UInt32.toNat_ofNat']
    omega
  · exact ((tagFits_iff hs.aligned).mp (h hinfo s hs)).1 a ha

/-- The walk stays inside the block, and the entries inside their tags, exactly if every
tag it comes to fits. -/
theorem walkInside_iff (memory : Pmm → Memory) (info : UInt32) :
    WalkInside memory info ↔
      (info ≠ 0 → ∀ s, TagReached memory info (load32 (memory cleared) info) s →
        TagFits memory info (load32 (memory cleared) info) s) := by
  refine ⟨fun h hinfo s hs => (tagFits_iff hs.aligned).mpr ⟨fun a ha => ?_, ?_⟩, walkInside_of_fits⟩
  · exact h.block a ⟨hinfo, .inr ⟨s, hs, ha⟩⟩
  · exact fun s' => h.tag hinfo s s' hs

theorem Handed.tagSize_toNat (h : Handed memory info) {offset : UInt32} (p : Pmm)
    (hin : offset.toNat + 8 ≤ blockSize (memory cleared) info) :
    (tagSize memory info offset p).toNat =
      blockWord (memory cleared) info (offset.toNat + 4) := by
  rw [← blockWord_toNat h p (by omega), ← add_ofNat_add, UInt32.ofNat_toNat]
  rfl

/-- The walk over a well-formed block visits its tags. -/
theorem Handed.tagFrom (h : Handed memory info) {s : UInt32 × Pmm}
    (hs : TagReached memory info (load32 (memory cleared) info) s) :
    s.1.toNat ≤ blockSize (memory cleared) info + 8 ∧
      (s.1.toNat + 8 ≤ blockSize (memory cleared) info →
        TagFrom (memory cleared) info 8 s.1.toNat) := by
  have hlimit := h.wellFormed.size_lt
  induction hs with
  | refl => exact ⟨Nat.le_add_left _ _, tagFrom_self⟩
  | @tail s s' _ hnext ih =>
    obtain ⟨hguard, -, -, rfl⟩ := nextTag_eq_some_iff.mp hnext
    have hblock : (load32 (memory cleared) info).toNat = blockSize (memory cleared) info := rfl
    rw [hblock] at hguard
    have hin : s.1.toNat + 8 ≤ blockSize (memory cleared) info := by
      have hlow := ih.1
      omega
    have htag := ih.2 hin
    have hinside := h.wellFormed.inside _ htag
    have hsize := h.tagSize_toNat s.2 hin
    have hend : (s.1 + ((tagSize memory info s.1 s.2 + 7) &&& ~~~7)).toNat =
        tagEnd (memory cleared) info s.1.toNat := by
      rw [next_offset_toNat, hsize, tagEnd]
      omega
    simp only [hend]
    refine ⟨?_, fun hnextIn => htag.trans ((tagFrom_iff hin).mpr (.inr (tagFrom_self hnextIn)))⟩
    rw [tagEnd]
    omega

/-- Nothing outside a well-formed block is read. -/
theorem Handed.walkInside (h : Handed memory info) : WalkInside memory info := by
  refine walkInside_of_fits fun _ s hs => ?_
  obtain ⟨hlow, htag⟩ := h.tagFrom hs
  have hlimit := h.wellFormed.size_lt
  have hblock : (load32 (memory cleared) info).toNat = blockSize (memory cleared) info := rfl
  -- a turn that is taken finds a tag of a well-formed block
  have hturn (hnext : nextTag memory info (load32 (memory cleared) info) s ≠ none) :
      s.1.toNat + (tagSize memory info s.1 s.2).toNat ≤ blockSize (memory cleared) info ∧
        (tagType memory info s.1 s.2 = 6 → 16 ≤ (tagSize memory info s.1 s.2).toNat) := by
    obtain ⟨s', hturn⟩ := Option.ne_none_iff_exists'.mp hnext
    have hguard := (nextTag_eq_some_iff.mp hturn).1
    rw [hblock] at hguard
    have hin : s.1.toNat + 8 ≤ blockSize (memory cleared) info := by omega
    have hoffset : info + s.1 = info + UInt32.ofNat s.1.toNat := by rw [UInt32.ofNat_toNat]
    have htype : (tagType memory info s.1 s.2).toNat =
        blockWord (memory cleared) info s.1.toNat := by
      rw [← blockWord_toNat h s.2 (by omega), ← hoffset]
      rfl
    rw [h.tagSize_toNat s.2 hin]
    refine ⟨h.wellFormed.inside _ (htag hin), fun hsix => ?_⟩
    exact h.wellFormed.map_header _ (htag hin) (by rw [← htype, hsix]; rfl)
  constructor
  · rintro hlast
    rw [hlast] at hlow
    have hvalue : (0xFFFFFFF8 : UInt32).toNat = 0xFFFFFFF8 := rfl
    omega
  · intro hnext hsix
    have hfit := hturn hnext
    have hheader := hfit.2 hsix
    omega
  · intro hnext hsome
    refine (hturn hnext).2 ?_
    by_contra hsix
    rw [tagEntries_of_ne hsix] at hsome
    exact absurd hsome (Nat.lt_irrefl 0)
  · exact fun hnext => .inl (hturn hnext).1

end Walk

/-! ## What the reads decide -/

section Congruence

theorem load32_of_access {m m' : Memory} {address : UInt32}
    (h : ∀ a ∈ accessBytes address 4, m' a = m a) : load32 m' address = load32 m address :=
  load32_congr fun k hk => h _ (mem_accessBytes.mpr ⟨k, hk, rfl⟩)

theorem load64_of_access {m m' : Memory} {address : UInt32}
    (h : ∀ a ∈ accessBytes address 8, m' a = m a) : load64 m' address = load64 m address := by
  rw [show 8 = 4 + 4 from rfl, accessBytes_add, List.forall_mem_append] at h
  have hhigh : load32 m' (address + 4) = load32 m (address + 4) := load32_of_access h.2
  rw [load64, load64, load32_of_access h.1, hhigh]

variable {memory memory' : Pmm → Memory} {info totalSize : UInt32}

theorem walkEntries_congr {entrySize : UInt32} {n : Nat} {entry : UInt32} {p : Pmm}
    (h : ∀ q, ∀ a ∈ entryBytes entrySize n entry, memory' q a = memory q a) :
    walkEntries memory' entrySize n entry p = walkEntries memory entrySize n entry p := by
  induction n generalizing entry p with
  | zero => rfl
  | succ n ih =>
    simp only [entryBytes, List.forall_mem_append] at h
    rw [walkEntries, walkEntries, load64_of_access (h p).1.1.1, load64_of_access (h p).1.1.2,
      load32_of_access (h p).1.2]
    exact ih fun q => (h q).2

/-- A memory map is read entry by entry; another tag has none. -/
theorem visitTag_eq (memory : Pmm → Memory) (info offset : UInt32) (p : Pmm) :
    visitTag memory info offset p =
      walkEntries memory (tagEntrySize memory info offset p) (tagEntries memory info offset p)
        (info + offset + 16) p := by
  by_cases hmap : load32 (memory p) (info + offset) = 6 ∧
      24 ≤ load32 (memory p) (info + offset + 8)
  · have hentries : tagEntries memory info offset p = _ := if_pos hmap
    rw [hentries]
    exact if_pos hmap
  · have hentries : tagEntries memory info offset p = 0 := if_neg hmap
    rw [hentries]
    exact if_neg hmap

theorem visitTag_congr {offset : UInt32} {p : Pmm}
    (htype : tagType memory' info offset p = tagType memory info offset p)
    (hsize : tagSize memory' info offset p = tagSize memory info offset p)
    (hmap : tagType memory info offset p = 6 → ∀ q,
      ∀ a ∈ accessBytes (info + offset + 8) 4 ++
        entryBytes (tagEntrySize memory info offset p) (tagEntries memory info offset p)
          (info + offset + 16), memory' q a = memory q a) :
    visitTag memory' info offset p = visitTag memory info offset p := by
  rw [visitTag_eq, visitTag_eq]
  by_cases hsix : tagType memory info offset p = 6
  · have hread := fun q => List.forall_mem_append.mp (hmap hsix q)
    have hentrySize : tagEntrySize memory' info offset p = tagEntrySize memory info offset p :=
      load32_of_access (hread p).1
    have hentries : tagEntries memory' info offset p = tagEntries memory info offset p := by
      rw [tagEntries, tagEntries, htype, hsize, hentrySize]
    rw [hentrySize, hentries]
    exact walkEntries_congr fun q => (hread q).2
  · rw [tagEntries_of_ne hsix, tagEntries_of_ne (htype ▸ hsix)]
    rfl

/-- A turn depends on the bytes it reads. -/
theorem nextTag_congr {s : UInt32 × Pmm}
    (h : ∀ q, ∀ a ∈ turnBytes memory info totalSize s, memory' q a = memory q a) :
    nextTag memory' info totalSize s = nextTag memory info totalSize s := by
  by_cases hguard : s.1 + 8 ≤ totalSize
  · have hheader (q : Pmm) : ∀ a ∈ accessBytes (info + s.1) (4 + 4), memory' q a = memory q a := by
      refine fun a ha => h q a ?_
      rw [turnBytes, if_neg (not_not.mpr hguard)]
      exact List.mem_append_left _ ha
    simp only [accessBytes_add, List.forall_mem_append] at hheader
    have hsize : tagSize memory' info s.1 s.2 = tagSize memory info s.1 s.2 :=
      load32_of_access (hheader s.2).2
    rw [nextTag, nextTag, hsize]
    by_cases hbreak : tagSize memory info s.1 s.2 < 8 ∨
        totalSize < s.1 + tagSize memory info s.1 s.2
    · simp only [if_pos hbreak]
    · have hvisit := visitTag_congr (load32_of_access (hheader s.2).1) hsize fun hsix q a ha => by
        refine h q a ?_
        rw [turnBytes, if_neg (not_not.mpr hguard), if_neg hbreak, if_pos hsix]
        exact List.mem_append_right _ ha
      rw [hvisit]
  · rw [(turnBytes_of_guard hguard).2, nextTag, if_pos hguard]

theorem walkTags_congr {s : UInt32 × Pmm} (hs : TagReached memory info totalSize s)
    (h : ∀ s, TagReached memory info totalSize s →
      ∀ q, ∀ a ∈ turnBytes memory info totalSize s, memory' q a = memory q a) (fuel : Nat) :
    walkTags memory' info totalSize fuel s.1 s.2 = walkTags memory info totalSize fuel s.1 s.2 := by
  induction fuel generalizing s with
  | zero => rfl
  | succ fuel ih =>
    rw [walkTags_succ, walkTags_succ, nextTag_congr (h s hs)]
    cases hnext : nextTag memory info totalSize s with
    | none => rfl
    | some s' => exact ih (hs.tail hnext)

/-- What `pmm_init` makes of the memory map depends on nothing but the bytes it reads. -/
theorem readMap_congr (h : ∀ q a, WalkReads memory info a → memory' q a = memory q a)
    (fuel : Nat) : readMap memory' info fuel = readMap memory info fuel := by
  by_cases hinfo : info ≠ 0
  · have htotal : load32 (memory' cleared) info = load32 (memory cleared) info :=
      load32_of_access fun a ha => h cleared a ⟨hinfo, .inl ha⟩
    have hwalk : walkTags memory' info (load32 (memory cleared) info) fuel 8 cleared =
        walkTags memory info (load32 (memory cleared) info) fuel 8 cleared :=
      walkTags_congr .refl (fun s hs q a ha => h q a ⟨hinfo, .inr ⟨s, hs, ha⟩⟩) fuel
    rw [readMap, readMap, if_pos hinfo, if_pos hinfo, htotal]
    exact congrArg (Option.map _) hwalk
  · rw [readMap, readMap, if_neg hinfo, if_neg hinfo]

end Congruence

/-! ## A memory map without room for its header -/

/-- A block of 24 bytes whose memory map claims 8 bytes. The word behind it is read as an
entry size. -/
def shortMapBlock : Memory := blockMemory 0x200000 [24, 0, 6, 8, 24, 0]

/-- The first of 178956970 entries is read behind the end of the block. -/
theorem shortMapBlock_left : ¬ WalkInside (fun _ => shortMapBlock) 0x200000 := by
  intro h
  have htotal : load32 shortMapBlock 0x200000 = 24 := by decide
  have hread : WalkReads (fun _ => shortMapBlock) 0x200000 0x200018 := by
    refine ⟨by decide, .inr ⟨(8, cleared), .refl, ?_⟩⟩
    have hnext : nextTag (fun _ => shortMapBlock) 0x200000 24 (8, cleared) ≠ none := by
      refine Option.ne_none_iff_exists'.mpr ⟨_, nextTag_eq_some_iff.mpr ⟨?_, ?_, ?_, rfl⟩⟩
      · decide
      · decide
      · decide
    have hentries : 0 < tagEntries (fun _ => shortMapBlock) 0x200000 8 cleared := by decide
    rw [htotal, turnBytes_of_next hnext, if_pos (by decide)]
    refine List.mem_append_right _ (List.mem_append_right _ (mem_entryBytes.mpr ?_))
    exact ⟨0, hentries, mem_accessBytes.mpr ⟨0, by decide, by decide⟩⟩
  have hinside := h.block _ hread
  rw [htotal] at hinside
  exact absurd hinside (by decide)

end Pmm

end LevOS.Memory
