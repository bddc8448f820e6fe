import LevOS.Memory.PageSet
import Mathlib.Logic.Relation

/-!
# The walk over the tags

The loop of `pmm_init` steps from tag to tag in 32-bit arithmetic. The size of a tag
comes from the boot loader's block, and both its rounding and the sums in the guards
can wrap around. The walk ends as it should exactly if no tag that is reached in exact
arithmetic passes the guards by wrapping.

## Main definitions

* `nextTag`, one turn of the loop
* `TagAt`, the tags in exact arithmetic
* `TagWalkEnds`, `NoOverrun`

## Main results

* `tagWalkEnds_iff`
-/

namespace LevOS.Memory

open LevOS.Foundation

namespace Pmm

/-! ## Turns -/

section Turns

variable (memory : Pmm → Memory) (info totalSize : UInt32)

/-- The size of the tag at an offset. -/
def tagSize (offset : UInt32) (p : Pmm) : UInt32 := load32 (memory p) (info + offset + 4)

/-- A tag's size, rounded up to the next tag in exact arithmetic. -/
def rounded (size : UInt32) : Nat := (size.toNat + 7) / 8 * 8

/-- What the loop makes of the tag at an offset: a memory map is read. -/
def visitTag (offset : UInt32) (p : Pmm) : Pmm :=
  let entrySize := load32 (memory p) (info + offset + 8)
  if load32 (memory p) (info + offset) = 6 ∧ 24 ≤ entrySize then
    walkEntries memory entrySize ((tagSize memory info offset p - 16) / entrySize).toNat
      (info + offset + 16) p
  else p

/-- One turn of the loop over the tags, or nothing when the loop is left. -/
def nextTag (s : UInt32 × Pmm) : Option (UInt32 × Pmm) :=
  let size := tagSize memory info s.1 s.2
  if ¬ s.1 + 8 ≤ totalSize then none
  else if size < 8 ∨ totalSize < s.1 + size then none
  else some (s.1 + ((size + 7) &&& ~~~7), visitTag memory info s.1 s.2)

theorem walkTags_succ (fuel : Nat) (s : UInt32 × Pmm) :
    walkTags memory info totalSize (fuel + 1) s.1 s.2 =
      match nextTag memory info totalSize s with
      | none => some s.2
      | some s' => walkTags memory info totalSize fuel s'.1 s'.2 := by
  rw [walkTags]
  by_cases hguard : ¬ s.1 + 8 ≤ totalSize
  · have hnext : nextTag memory info totalSize s = none := if_pos hguard
    rw [hnext, if_pos hguard]
  · rw [if_neg hguard]
    by_cases hbreak : tagSize memory info s.1 s.2 < 8 ∨
        totalSize < s.1 + tagSize memory info s.1 s.2
    · have hnext : nextTag memory info totalSize s = none := (if_neg hguard).trans (if_pos hbreak)
      rw [hnext]
      exact if_pos hbreak
    · have hnext : nextTag memory info totalSize s = some
          (s.1 + ((tagSize memory info s.1 s.2 + 7) &&& ~~~7), visitTag memory info s.1 s.2) :=
        (if_neg hguard).trans (if_neg hbreak)
      rw [hnext]
      exact if_neg hbreak

/-- The states in which the loop tests its guard. -/
def TagReached (s : UInt32 × Pmm) : Prop :=
  Relation.ReflTransGen (fun s s' => nextTag memory info totalSize s = some s') (8, cleared) s

/-- The walk ends, and each turn moves the offset up by the rounded size of the tag. -/
structure TagWalkEnds : Prop where
  ends : ∃ fuel p, walkTags memory info totalSize fuel 8 cleared = some p
  increases : ∀ s s', TagReached memory info totalSize s →
    nextTag memory info totalSize s = some s' →
      s.1 < s'.1 ∧ s'.1.toNat = s.1.toNat + rounded (tagSize memory info s.1 s.2)

/-- The tags of the block, with their offsets in exact arithmetic, and the allocator as
the tags in front of them leave it. -/
inductive TagAt : Nat → Pmm → Prop
  | first : TagAt 8 cleared
  | next {offset : Nat} {p : Pmm} (previous : TagAt offset p)
    (header : 8 ≤ (tagSize memory info (UInt32.ofNat offset) p).toNat)
    (inside : offset + (tagSize memory info (UInt32.ofNat offset) p).toNat ≤ totalSize.toNat) :
    TagAt (offset + rounded (tagSize memory info (UInt32.ofNat offset) p))
      (visitTag memory info (UInt32.ofNat offset) p)

/-- No tag passes the guards of the loop because a sum wraps around: a tag that passes
them ends, with its padding, inside the address space. -/
def NoOverrun : Prop :=
  ∀ offset p, TagAt memory info totalSize offset p →
    let size := (tagSize memory info (UInt32.ofNat offset) p).toNat
    (offset + 8) % 2 ^ 32 ≤ totalSize.toNat → 8 ≤ size →
      (offset + size) % 2 ^ 32 ≤ totalSize.toNat → offset + size ≤ 2 ^ 32 - 8

end Turns

/-! ## Rounding -/

theorem and_not_seven_toNat (x : UInt32) : (x &&& ~~~7).toNat = x.toNat / 8 * 8 := by
  rw [show ~~~(7 : UInt32) = 0xFFFFFFF8 from by decide, UInt32.toNat_and]
  apply Nat.eq_of_testBit_eq
  intro i
  rw [Nat.testBit_and, show (0xFFFFFFF8 : UInt32).toNat = (2 ^ 29 - 1) * 2 ^ 3 from rfl,
    Nat.testBit_mul_two_pow, Nat.testBit_two_pow_sub_one, show 8 = 2 ^ 3 from rfl,
    Nat.testBit_mul_two_pow, Nat.testBit_div_two_pow]
  by_cases hi : 3 ≤ i
  · have hshift : i - 3 + 3 = i := by omega
    by_cases hlt : i - 3 < 29
    · simp [hi, hlt]
    · have hhigh : x.toNat.testBit i = false :=
        Nat.testBit_lt_two_pow (x.toNat_lt.trans_le (Nat.pow_le_pow_right (by decide) (by omega)))
      simp [hshift, hhigh]
  · simp [hi]

/-- Where the next tag is looked for. -/
theorem next_offset_toNat (offset size : UInt32) :
    (offset + ((size + 7) &&& ~~~7)).toNat =
      (offset.toNat + (size.toNat + 7) % 2 ^ 32 / 8 * 8) % 2 ^ 32 := by
  rw [UInt32.toNat_add, and_not_seven_toNat, UInt32.toNat_add]
  rfl

section Walk

variable {memory : Pmm → Memory} {info totalSize : UInt32}

/-- A turn that does not leave the loop: the guards in terms of numbers. -/
theorem nextTag_eq_some_iff {s s' : UInt32 × Pmm} :
    nextTag memory info totalSize s = some s' ↔
      (s.1.toNat + 8) % 2 ^ 32 ≤ totalSize.toNat ∧
        8 ≤ (tagSize memory info s.1 s.2).toNat ∧
        (s.1.toNat + (tagSize memory info s.1 s.2).toNat) % 2 ^ 32 ≤ totalSize.toNat ∧
        s' = (s.1 + ((tagSize memory info s.1 s.2 + 7) &&& ~~~7),
          visitTag memory info s.1 s.2) := by
  have hguard : s.1 + 8 ≤ totalSize ↔ (s.1.toNat + 8) % 2 ^ 32 ≤ totalSize.toNat := by
    rw [UInt32.le_iff_toNat_le, UInt32.toNat_add]
    rfl
  have hsize : tagSize memory info s.1 s.2 < 8 ↔ ¬ 8 ≤ (tagSize memory info s.1 s.2).toNat := by
    rw [UInt32.lt_iff_toNat_lt, Nat.not_le]
    rfl
  have hend : totalSize < s.1 + tagSize memory info s.1 s.2 ↔
      ¬ (s.1.toNat + (tagSize memory info s.1 s.2).toNat) % 2 ^ 32 ≤ totalSize.toNat := by
    rw [UInt32.lt_iff_toNat_lt, UInt32.toNat_add, Nat.not_le]
  rw [nextTag]
  simp only [hguard, hsize, hend]
  constructor
  · intro h
    split_ifs at h with hstop hbreak
    obtain ⟨hheader, hinside⟩ := not_or.mp hbreak
    exact ⟨hstop, not_not.mp hheader, not_not.mp hinside, (Option.some.inj h).symm⟩
  · rintro ⟨hstop, hheader, hinside, rfl⟩
    rw [if_neg (not_not.mpr hstop), if_neg (not_or.mpr ⟨not_not.mpr hheader, not_not.mpr hinside⟩)]

/-- Behind the last tag the loop is left. -/
theorem walkTags_stop {fuel n : Nat} (hfuel : n < fuel) {offset : UInt32}
    (hguard : totalSize.toNat < (offset.toNat + 8) % 2 ^ 32) (p : Pmm) :
    walkTags memory info totalSize fuel offset p = some p := by
  obtain ⟨fuel, rfl⟩ : ∃ k, fuel = k + 1 := ⟨fuel - 1, by omega⟩
  have hnext : nextTag memory info totalSize (offset, p) = none := by
    apply Option.eq_none_iff_forall_ne_some.mpr
    intro s' hturn
    exact absurd (nextTag_eq_some_iff.mp hturn).1 (Nat.not_le.mpr hguard)
  rw [walkTags_succ _ _ _ fuel (offset, p), hnext]

theorem nextTag_ofNat {offset : Nat} {p : Pmm} (hword : (UInt32.ofNat offset).toNat = offset)
    (hguard : (offset + 8) % 2 ^ 32 ≤ totalSize.toNat)
    (hheader : 8 ≤ (tagSize memory info (UInt32.ofNat offset) p).toNat)
    (hinside : (offset + (tagSize memory info (UInt32.ofNat offset) p).toNat) % 2 ^ 32 ≤
      totalSize.toNat) :
    nextTag memory info totalSize (UInt32.ofNat offset, p) = some
      (UInt32.ofNat offset + ((tagSize memory info (UInt32.ofNat offset) p + 7) &&& ~~~7),
        visitTag memory info (UInt32.ofNat offset) p) := by
  apply nextTag_eq_some_iff.mpr
  simp only [hword]
  exact ⟨hguard, hheader, hinside, trivial⟩

/-- A turn moves the offset up exactly if the tag ends inside the address space. -/
theorem nextTag_increases_iff {s s' : UInt32 × Pmm} (h : nextTag memory info totalSize s = some s')
    (haligned : s.1.toNat % 8 = 0) :
    (s.1 < s'.1 ∧ s'.1.toNat = s.1.toNat + rounded (tagSize memory info s.1 s.2)) ↔
      s.1.toNat + (tagSize memory info s.1 s.2).toNat ≤ 2 ^ 32 - 8 := by
  obtain ⟨-, hheader, -, rfl⟩ := nextTag_eq_some_iff.mp h
  have hoffset := s.1.toNat_lt
  have hsize := (tagSize memory info s.1 s.2).toNat_lt
  have hnext := next_offset_toNat s.1 (tagSize memory info s.1 s.2)
  rw [UInt32.lt_iff_toNat_lt]
  simp only [hnext, rounded]
  omega

/-! ## From the walk to the tags -/

/-- As long as no tag overruns, the walk visits the tags. -/
theorem NoOverrun.tagAt (h : NoOverrun memory info totalSize) {s : UInt32 × Pmm}
    (hs : TagReached memory info totalSize s) :
    s.1.toNat % 8 = 0 ∧ TagAt memory info totalSize s.1.toNat s.2 := by
  -- induction on the turns so far
  induction hs with
  | refl => exact ⟨rfl, .first⟩
  | @tail s s' hreached hnext ih =>
    obtain ⟨haligned, htag⟩ := ih
    obtain ⟨hguard, hheader, hinside, -⟩ := nextTag_eq_some_iff.mp hnext
    have hword : UInt32.ofNat s.1.toNat = s.1 := UInt32.ofNat_toNat
    have hfit := h _ _ htag
    simp only [hword] at hfit
    have hfit := hfit hguard hheader hinside
    obtain ⟨-, hoffset⟩ := (nextTag_increases_iff hnext haligned).mpr hfit
    have hexact : s.1.toNat + (tagSize memory info s.1 s.2).toNat ≤ totalSize.toNat := by
      rwa [Nat.mod_eq_of_lt (by omega)] at hinside
    have hnextTag := htag.next (by rw [hword]; exact hheader) (by rw [hword]; exact hexact)
    rw [hword, ← hoffset] at hnextTag
    obtain ⟨-, -, -, rfl⟩ := nextTag_eq_some_iff.mp hnext
    refine ⟨?_, hnextTag⟩
    rw [hoffset, rounded]
    omega

theorem NoOverrun.increases (h : NoOverrun memory info totalSize) {s s' : UInt32 × Pmm}
    (hs : TagReached memory info totalSize s) (hnext : nextTag memory info totalSize s = some s') :
    s.1 < s'.1 ∧ s'.1.toNat = s.1.toNat + rounded (tagSize memory info s.1 s.2) := by
  obtain ⟨haligned, htag⟩ := h.tagAt hs
  obtain ⟨hguard, hheader, hinside, -⟩ := nextTag_eq_some_iff.mp hnext
  have hfit := h _ _ htag
  simp only [UInt32.ofNat_toNat] at hfit
  exact (nextTag_increases_iff hnext haligned).mpr (hfit hguard hheader hinside)

/-- A walk whose turns all move the offset up ends. -/
theorem walkTags_ends
    (h : ∀ s s', TagReached memory info totalSize s → nextTag memory info totalSize s = some s' →
      s.1 < s'.1) {s : UInt32 × Pmm} (hs : TagReached memory info totalSize s) :
    ∃ fuel p, walkTags memory info totalSize fuel s.1 s.2 = some p := by
  -- induction on the room above the offset
  induction hroom : 2 ^ 32 - s.1.toNat using Nat.strong_induction_on generalizing s with
  | _ room ih =>
    cases hnext : nextTag memory info totalSize s with
    | none =>
      refine ⟨1, s.2, ?_⟩
      rw [walkTags_succ, hnext]
    | some s' =>
      have hless := UInt32.lt_iff_toNat_lt.mp (h s s' hs hnext)
      have hbound := s'.1.toNat_lt
      obtain ⟨fuel, p, hrest⟩ := ih (2 ^ 32 - s'.1.toNat) (by omega) (hs.tail hnext) rfl
      refine ⟨fuel + 1, p, ?_⟩
      rw [walkTags_succ, hnext]
      exact hrest

/-! ## From the tags to the walk -/

/-- When every turn moves the offset up, each tag is reached. -/
theorem TagWalkEnds.reached (h : TagWalkEnds memory info totalSize) {offset : Nat} {p : Pmm}
    (htag : TagAt memory info totalSize offset p) :
    offset ≤ 2 ^ 32 - 8 ∧ offset % 8 = 0 ∧
      TagReached memory info totalSize (UInt32.ofNat offset, p) := by
  induction htag with
  | first => exact ⟨by decide, rfl, .refl⟩
  | @next offset p previous header inside ih =>
    obtain ⟨hlow, haligned, hreached⟩ := ih
    have htotal := totalSize.toNat_lt
    have hword : (UInt32.ofNat offset).toNat = offset := by
      rw [UInt32.toNat_ofNat', Nat.mod_eq_of_lt (by omega)]
    have hguard : (offset + 8) % 2 ^ 32 ≤ totalSize.toNat := by
      rw [Nat.mod_eq_of_lt] <;> omega
    have hinside : (offset + (tagSize memory info (UInt32.ofNat offset) p).toNat) % 2 ^ 32 ≤
        totalSize.toNat := by
      rw [Nat.mod_eq_of_lt] <;> omega
    have hnext := nextTag_ofNat hword hguard header hinside
    -- the walk ends, so that the offset has not wrapped around
    have hoffset : (UInt32.ofNat offset +
        ((tagSize memory info (UInt32.ofNat offset) p + 7) &&& ~~~7)).toNat =
          (UInt32.ofNat offset).toNat + rounded (tagSize memory info (UInt32.ofNat offset) p) :=
      (h.increases _ _ hreached hnext).2
    have hbound := (UInt32.ofNat offset +
      ((tagSize memory info (UInt32.ofNat offset) p + 7) &&& ~~~7)).toNat_lt
    rw [hword] at hoffset
    refine ⟨?_, ?_, ?_⟩
    · rw [rounded] at hoffset ⊢
      omega
    · rw [rounded]
      omega
    · rw [← hoffset, UInt32.ofNat_toNat]
      exact hreached.tail hnext

/-- The loop over the tags ends, each turn moving the offset up without wrapping around,
exactly if no tag overruns the address space. -/
theorem tagWalkEnds_iff (memory : Pmm → Memory) (info totalSize : UInt32) :
    TagWalkEnds memory info totalSize ↔ NoOverrun memory info totalSize := by
  constructor
  · intro h offset p htag size hguard hheader hinside
    obtain ⟨hlow, haligned, hreached⟩ := h.reached htag
    have hword : (UInt32.ofNat offset).toNat = offset := by
      rw [UInt32.toNat_ofNat', Nat.mod_eq_of_lt (by omega)]
    have hnext := nextTag_ofNat hword hguard hheader hinside
    have hfit := (nextTag_increases_iff hnext (by rwa [hword])).mp (h.increases _ _ hreached hnext)
    rwa [hword] at hfit
  · intro h
    exact ⟨walkTags_ends (fun s s' hs hnext => (h.increases hs hnext).1) .refl,
      fun s s' hs hnext => h.increases hs hnext⟩

end Walk

/-! ## A size that wraps around -/

/-- Memory that holds the given words from an address on, and is clear elsewhere. -/
def blockMemory (start : UInt32) (words : List UInt32) : Memory := fun a =>
  wordByte (words.getD ((a - start).toNat / 4) 0) ((a - start).toNat % 4)

theorem load32_blockMemory {start : UInt32} {words : List UInt32} {k : Nat} (hk : 4 * k < 2 ^ 30) :
    load32 (blockMemory start words) (start + UInt32.ofNat (4 * k)) = words.getD k 0 := by
  have hbyte (j : Nat) (hj : j < 4) :
      blockMemory start words (start + UInt32.ofNat (4 * k) + UInt32.ofNat j) =
        wordByte (words.getD k 0) j := by
    have hdistance : (start + UInt32.ofNat (4 * k) + UInt32.ofNat j - start).toNat = 4 * k + j := by
      rw [toNat_add_ofNat_sub, UInt32.add_comm, UInt32.add_sub_cancel, UInt32.toNat_ofNat']
      omega
    rw [blockMemory, hdistance, show (4 * k + j) / 4 = k by omega,
      show (4 * k + j) % 4 = j by omega]
  have h := load32_store32_self (blockMemory start words) (start + UInt32.ofNat (4 * k))
    (words.getD k 0)
  rw [← h]
  apply load32_congr
  intro j hj
  rw [hbyte j hj, store32]
  have hdistance : (start + UInt32.ofNat (4 * k) + UInt32.ofNat j -
      (start + UInt32.ofNat (4 * k))).toNat = j := by
    rw [UInt32.add_comm, UInt32.add_sub_cancel, UInt32.toNat_ofNat', Nat.mod_eq_of_lt (by omega)]
  rw [hdistance, if_pos hj]

/-- A block of 16 bytes whose only tag claims `0xFFFFFFF9` bytes. -/
def wrappingBlock : Memory := blockMemory 0x200000 [0x10, 0, 0, 0xFFFFFFF9]

/-- The end of the tag wraps around to 1 and its rounded size to 0, so the loop visits it
for ever. -/
theorem walkTags_stuck :
    ¬ TagWalkEnds (fun _ => wrappingBlock) 0x200000 (load32 wrappingBlock 0x200000) := by
  rintro ⟨⟨fuel, p, hends⟩, -⟩
  have hturn : nextTag (fun _ => wrappingBlock) 0x200000 (load32 wrappingBlock 0x200000)
      (8, cleared) = some (8, cleared) := by
    have hsize : tagSize (fun _ => wrappingBlock) 0x200000 8 cleared = 0xFFFFFFF9 := by decide
    have hvisit : visitTag (fun _ => wrappingBlock) 0x200000 8 cleared = cleared := by
      unfold visitTag
      exact if_neg (by decide)
    apply nextTag_eq_some_iff.mpr
    simp only [hsize, hvisit]
    exact ⟨by decide, by decide, by decide, rfl⟩
  induction fuel with
  | zero => cases hends
  | succ fuel ih =>
    rw [walkTags_succ _ _ _ fuel (8, cleared), hturn] at hends
    exact ih hends

end Pmm

end LevOS.Memory
