import LevOS.Foundation.Checks
import LevOS.Memory.Identity

/-!
# User ranges

`user_range_valid` decides whether user code may use a range of addresses. It looks
at the directory and the tables page by page; what it accepts is what the
processor's own translation grants to user code.

## Main definitions

* `userPresent`, a page that user code may use
* `UserPage`, the same in terms of the bits

## Main results

* `translate_user_iff`, user pages are those the translation grants
* `userRangeValid_eq`, the pages of a range are tested as its bytes would be
* `userRangeValid_iff`, a valid range is below the limit and made of user pages
* `userRangeValid_pages`, the same for the pages that a range meets
-/

namespace LevOS.Memory

open LevOS.Foundation

/-! ## Pages -/

/-- The test of `user_page_present`, with the tables at their physical addresses. -/
def userPresent (m : Memory) (directory address : UInt32) : Bool :=
  load32 m (directorySlot directory address) &&& (presentFlag ||| userFlag) =
      presentFlag ||| userFlag &&
    load32 m (tableSlot (frameOf (load32 m (directorySlot directory address))) address) &&&
      (presentFlag ||| userFlag) = presentFlag ||| userFlag

theorem userPagePresent_direct (s : Space) (directory address : UInt32) :
    userPagePresent direct s directory address = some (userPresent s.memory directory address) := by
  unfold userPagePresent userPresent
  simp only [Space.load, direct, Option.map_some, Option.bind_eq_bind, Option.bind_some]
  by_cases hdirectory : load32 s.memory (directorySlot directory address) &&&
      (presentFlag ||| userFlag) = presentFlag ||| userFlag
  · simp [hdirectory]
  · simp [hdirectory]

theorem and_two_pow_ne_zero (e : UInt32) (k : Nat) (flag : UInt32) (hflag : flag.toNat = 2 ^ k) :
    e &&& flag ≠ 0 ↔ e.toNat.testBit k = true := by
  rw [ne_eq, ← UInt32.toNat_inj, UInt32.toNat_and, hflag, Nat.and_two_pow]
  cases e.toNat.testBit k <;> simp

/-- Both flags are set exactly if each of them is. -/
theorem and_flags_iff (e : UInt32) :
    e &&& (presentFlag ||| userFlag) = presentFlag ||| userFlag ↔
      e &&& presentFlag ≠ 0 ∧ e &&& userFlag ≠ 0 := by
  rw [and_two_pow_ne_zero e 0 presentFlag rfl, and_two_pow_ne_zero e 2 userFlag rfl,
    ← UInt32.toNat_inj, UInt32.toNat_and,
    show (presentFlag ||| userFlag).toNat = 2 ^ 0 ||| 2 ^ 2 from rfl, Nat.and_or_distrib_left,
    Nat.and_two_pow, Nat.and_two_pow]
  cases e.toNat.testBit 0 <;> cases e.toNat.testBit 2 <;> decide

/-- A flag that both levels must set. -/
theorem and_and_flag_iff (d e : UInt32) {k : Nat} {flag : UInt32} (hflag : flag.toNat = 2 ^ k) :
    (d &&& e &&& flag != 0) = true ↔ d &&& flag ≠ 0 ∧ e &&& flag ≠ 0 := by
  rw [bne_iff_ne, and_two_pow_ne_zero _ k flag hflag, and_two_pow_ne_zero d k flag hflag,
    and_two_pow_ne_zero e k flag hflag, UInt32.toNat_and, Nat.testBit_and, Bool.and_eq_true]

theorem and_and_user_iff (d e : UInt32) :
    (d &&& e &&& userFlag != 0) = true ↔ d &&& userFlag ≠ 0 ∧ e &&& userFlag ≠ 0 :=
  and_and_flag_iff d e (show userFlag.toNat = 2 ^ 2 from rfl)

/-- The pages that `user_page_present` accepts are those which the translation grants to
user code. -/
theorem translate_user_iff (m : Memory) (directory address : UInt32) :
    userPresent m directory address = true ↔
      ∃ a, translate m directory address = some (a, true) := by
  unfold userPresent translate
  simp only [Bool.and_eq_true, decide_eq_true_eq, and_flags_iff]
  generalize load32 m (directorySlot directory address) = d
  generalize load32 m (tableSlot (frameOf d) address) = e
  constructor
  · rintro ⟨⟨hpresent, huser⟩, hpresent', huser'⟩
    rw [if_neg hpresent, if_neg hpresent', (and_and_user_iff d e).mpr ⟨huser, huser'⟩]
    exact ⟨_, rfl⟩
  · rintro ⟨a, h⟩
    split_ifs at h with hpresent hpresent'
    obtain ⟨-, huser⟩ := Prod.mk.inj (Option.some.inj h)
    obtain ⟨hd, he⟩ := (and_and_user_iff d e).mp huser
    exact ⟨⟨hpresent, hd⟩, hpresent', he⟩

theorem shiftRight_toNat (x : UInt32) (k : Nat) (hk : k < 32) :
    (x >>> UInt32.ofNat k).toNat = x.toNat / 2 ^ k := by
  rw [UInt32.toNat_shiftRight, Nat.shiftRight_eq_div_pow, UInt32.toNat_ofNat',
    Nat.mod_mod_of_dvd _ (by decide), Nat.mod_eq_of_lt hk]

/-- Addresses of one page lead to the same entries. -/
theorem slots_of_page {a b : UInt32} (h : a.toNat / 4096 = b.toNat / 4096) (base : UInt32) :
    directorySlot base a = directorySlot base b ∧ tableSlot base a = tableSlot base b := by
  have hpage : a >>> 12 = b >>> 12 := UInt32.toNat_inj.mp
    ((shiftRight_toNat a 12 (by decide)).trans
      (h.trans (shiftRight_toNat b 12 (by decide)).symm))
  have htable : a >>> 22 = b >>> 22 := by
    apply UInt32.toNat_inj.mp
    have ha := shiftRight_toNat a 22 (by decide)
    have hb := shiftRight_toNat b 22 (by decide)
    refine ha.trans (Eq.trans ?_ hb.symm)
    omega
  rw [directorySlot, directorySlot, tableSlot, tableSlot, hpage, htable]
  exact ⟨rfl, rfl⟩

theorem userPagePresent_of_page {a b : UInt32} (h : a.toNat / 4096 = b.toNat / 4096)
    (access : Access) (s : Space) (directory : UInt32) :
    userPagePresent access s directory a = userPagePresent access s directory b := by
  unfold userPagePresent
  rw [(slots_of_page h directory).1]
  simp only [(slots_of_page h _).2]

theorem userPresent_of_page {a b : UInt32} (h : a.toNat / 4096 = b.toNat / 4096) (m : Memory)
    (directory : UInt32) : userPresent m directory a = userPresent m directory b := by
  unfold userPresent
  rw [(slots_of_page h directory).1, (slots_of_page h _).2]

/-! ## Ranges -/

/-- The loop of `user_range_valid` over `k` more pages. -/
theorem userPagesPresent_eq {access : Access} {s : Space} {directory : UInt32} {n k : Nat}
    {page last : UInt32} (hlast : last.toNat = page.toNat + 4096 * k) (hk : k < n) :
    userPagesPresent access s directory last n page =
      (List.range (k + 1)).allM fun i =>
        userPagePresent access s directory (page + UInt32.ofNat (4096 * i)) := by
  -- on the turns left, which are more than the pages left
  induction n generalizing k page with
  | zero => exact absurd hk (Nat.not_lt_zero k)
  | succ n ih =>
    rw [userPagesPresent, allM_range_succ,
      show page + UInt32.ofNat (4096 * 0) = page from UInt32.add_zero page]
    refine bind_congr fun present => ?_
    cases present with
    | false => rfl
    | true =>
      rw [if_pos rfl, if_pos rfl]
      cases k with
      | zero =>
        have hsame : page = last := UInt32.toNat_inj.mp (by omega)
        rw [if_pos hsame]
        rfl
      | succ k =>
        have hbound := last.toNat_lt
        have hnext : (page + 0x1000).toNat = page.toNat + 4096 :=
          toNat_add_ofNat (n := 4096) (by omega)
        have hdifferent : page ≠ last := by
          intro hsame
          rw [hsame] at hlast
          omega
        have hstep : ∀ i, page + 0x1000 + UInt32.ofNat (4096 * i) =
            page + UInt32.ofNat (4096 * (i + 1)) := by
          intro i
          rw [UInt32.add_assoc, show (0x1000 : UInt32) = UInt32.ofNat 4096 from rfl,
            ← UInt32.ofNat_add, Nat.mul_succ, Nat.add_comm]
        rw [if_neg hdifferent, ih (k := k) (by omega) (by omega)]
        simp only [hstep]

/-- A check that is the same for all addresses of a page: checking the pages of a range
comes to the same as checking its bytes. -/
theorem allM_pages_eq_bytes {check : UInt32 → Option Bool}
    (hpage : ∀ a b : UInt32, a.toNat / 4096 = b.toNat / 4096 → check a = check b)
    {address length : UInt32} (hlength : length ≠ 0)
    (hfit : address.toNat + length.toNat ≤ 0xC0000000) :
    ((List.range ((address.toNat + length.toNat - 1) / 4096 - address.toNat / 4096 + 1)).allM
        fun i => check (frameOf address + UInt32.ofNat (4096 * i))) =
      (List.range length.toNat).allM fun i => check (address + UInt32.ofNat i) := by
  have hpositive : 0 < length.toNat :=
    Nat.pos_of_ne_zero fun hzero => hlength (UInt32.toNat_inj.mp hzero)
  have hframe := frameOf_toNat address
  -- a byte of the range is checked as its page is
  have hbyte : ∀ i < length.toNat, check (address + UInt32.ofNat i) = check (frameOf address +
      UInt32.ofNat (4096 * ((address.toNat + i) / 4096 - address.toNat / 4096))) := by
    intro i hi
    apply hpage
    rw [toNat_add_ofNat (by omega), toNat_add_ofNat (by omega), hframe]
    omega
  rw [allM_range_congr fun i hi _ => hbyte i hi]
  refine (allM_range_group ?_ ?_ ?_).symm
  · intro i j hij
    simp only
    omega
  · intro page hlt
    cases page with
    | zero => exact ⟨0, hpositive, by omega⟩
    | succ page =>
      exact ⟨4096 * (address.toNat / 4096 + (page + 1)) - address.toNat, by omega, by omega⟩
  · intro i hi
    omega

/-- `user_range_valid` tests the limit, and then comes to the same as a test of the page of
each byte in turn. -/
theorem userRangeValid_eq (access : Access) (s : Space) (directory address length : UInt32) :
    userRangeValid access s directory address length =
      if directory ≠ 0 ∧ address.toNat < 0xC0000000 ∧
          address.toNat + length.toNat ≤ 0xC0000000 then
        (List.range length.toNat).allM fun i =>
          userPagePresent access s directory (address + UInt32.ofNat i)
      else some false := by
  have hlimit : (0xC0000000 : UInt32).toNat = 0xC0000000 := rfl
  unfold userRangeValid
  simp only
  -- the tests of the source in their order; each failing one contradicts a part of the condition
  by_cases hstart : directory = 0 ∨ 0xC0000000 ≤ address
  · rw [if_pos hstart, if_neg]
    rintro ⟨hdirectory, haddress, -⟩
    rcases hstart with hzero | hge
    · exact absurd hzero hdirectory
    · have := UInt32.le_iff_toNat_le.mp hge
      omega
  rw [if_neg hstart]
  obtain ⟨hdirectory, haddress⟩ := not_or.mp hstart
  have haddress : address.toNat < 0xC0000000 :=
    UInt32.lt_iff_toNat_lt.mp (UInt32.not_le.mp haddress)
  by_cases hempty : length = 0
  · rw [if_pos hempty, hempty, if_pos ⟨hdirectory, haddress, haddress.le⟩]
    rfl
  rw [if_neg hempty]
  -- the room is computed by subtraction, so that nothing overflows
  have hroom : ((0xC0000000 : UInt32) - address).toNat = 0xC0000000 - address.toNat := by
    rw [UInt32.toNat_sub_of_le _ _ (UInt32.le_iff_toNat_le.mpr (by omega)), hlimit]
  by_cases hlong : (0xC0000000 : UInt32) - address < length
  · rw [if_pos hlong, if_neg]
    rintro ⟨-, -, hfit⟩
    have := UInt32.lt_iff_toNat_lt.mp hlong
    omega
  rw [if_neg hlong]
  have hfit : address.toNat + length.toNat ≤ 0xC0000000 := by
    have := UInt32.le_iff_toNat_le.mp (UInt32.not_lt.mp hlong)
    omega
  have hpositive : 0 < length.toNat :=
    Nat.pos_of_ne_zero fun hzero => hempty (UInt32.toNat_inj.mp hzero)
  -- the last byte, which is below the limit
  have hend : (address + length - 1).toNat = address.toNat + length.toNat - 1 := by
    have hsum : (address + length).toNat = address.toNat + length.toNat := by
      rw [UInt32.toNat_add, Nat.mod_eq_of_lt (by omega)]
    rw [UInt32.toNat_sub_of_le _ _ (UInt32.le_iff_toNat_le.mpr (by rw [hsum]; simp; omega)), hsum]
    rfl
  have hlast : (frameOf (address + length - 1)).toNat = (frameOf address).toNat +
      4096 * ((address.toNat + length.toNat - 1) / 4096 - address.toNat / 4096) := by
    rw [frameOf_toNat, frameOf_toNat, hend]
    omega
  have hturns : (address.toNat + length.toNat - 1) / 4096 - address.toNat / 4096 < maxPages := by
    have hmax : maxPages = 1048576 := rfl
    omega
  rw [userPagesPresent_eq hlast hturns, if_pos ⟨hdirectory, haddress, hfit⟩]
  exact allM_pages_eq_bytes (fun a b hab => userPagePresent_of_page hab access s directory)
    hempty hfit

/-- A range is valid exactly if it stays below the limit and every byte of it is in a
user page; the function always returns. -/
theorem userRangeValid_iff (s : Space) (directory address length : UInt32) :
    ∃ valid, userRangeValid direct s directory address length = some valid ∧
      (valid = true ↔ directory ≠ 0 ∧ address.toNat < 0xC0000000 ∧
        address.toNat + length.toNat ≤ 0xC0000000 ∧
        ∀ i < length.toNat, userPresent s.memory directory (address + UInt32.ofNat i) = true) := by
  rw [userRangeValid_eq]
  simp only [userPagePresent_direct]
  split_ifs with hlimit
  · refine ⟨(List.range length.toNat).all fun i =>
      userPresent s.memory directory (address + UInt32.ofNat i), List.allM_pure, ?_⟩
    simp [hlimit]
  · exact ⟨false, rfl, fun h => absurd h (by simp), fun h => absurd ⟨h.1, h.2.1, h.2.2.1⟩ hlimit⟩

/-! ## The pages of a range -/

/-- The present and user bits of a page are set in its directory entry and in its table
entry. -/
def UserPage (m : Memory) (directory address : UInt32) : Prop :=
  let directoryEntry := load32 m (directorySlot directory address)
  let pageEntry := load32 m (tableSlot (frameOf directoryEntry) address)
  (directoryEntry &&& presentFlag ≠ 0 ∧ directoryEntry &&& userFlag ≠ 0) ∧
    pageEntry &&& presentFlag ≠ 0 ∧ pageEntry &&& userFlag ≠ 0

theorem userPresent_iff (m : Memory) (directory address : UInt32) :
    userPresent m directory address = true ↔ UserPage m directory address := by
  unfold userPresent UserPage
  simp only [Bool.and_eq_true, decide_eq_true_eq, and_flags_iff]

/-- The bytes of a range are those of the pages it meets, as far as user pages go. -/
theorem bytes_iff_meets {m : Memory} {directory address length : UInt32}
    (hfit : address.toNat + length.toNat ≤ 0xC0000000) :
    (∀ i < length.toNat, userPresent m directory (address + UInt32.ofNat i) = true) ↔
      ∀ page, Meets page address.toNat length.toNat →
        UserPage m directory (UInt32.ofNat (page * 4096)) := by
  -- a byte of the range and the start of its page lead to the same entries
  have hsame (a : Nat) (hstart : address.toNat ≤ a) (hend : a < address.toNat + length.toNat) :
      UserPage m directory (UInt32.ofNat (a / 4096 * 4096)) ↔
        userPresent m directory (address + UInt32.ofNat (a - address.toNat)) = true := by
    have hbyte : (address + UInt32.ofNat (a - address.toNat)).toNat = a := by
      rw [toNat_add_ofNat (by omega)]
      omega
    have hpage : (UInt32.ofNat (a / 4096 * 4096)).toNat = a / 4096 * 4096 := by
      rw [UInt32.toNat_ofNat', Nat.mod_eq_of_lt (by omega)]
    have hsamePage : (UInt32.ofNat (a / 4096 * 4096)).toNat / 4096 =
        (address + UInt32.ofNat (a - address.toNat)).toNat / 4096 := by
      rw [hpage, hbyte]
      omega
    rw [← userPresent_iff, userPresent_of_page hsamePage]
  constructor
  · rintro hbytes page ⟨a, hstart, hend, rfl⟩
    exact (hsame a hstart hend).mpr (hbytes (a - address.toNat) (by omega))
  · intro hpages i hi
    have hbyte := (hsame (address.toNat + i) (by omega) (by omega)).mp
      (hpages _ ⟨_, by omega, by omega, rfl⟩)
    rwa [Nat.add_sub_cancel_left] at hbyte

/-- The loop ends, and a range is accepted exactly if it is empty or all the pages it
meets are user pages below the limit. The directory and its tables are read at their
physical addresses, where the processor reads them too. -/
theorem userRangeValid_pages (s : Space) (directory address length : UInt32) :
    ∃ valid, userRangeValid direct s directory address length = some valid ∧
      (valid = true ↔ directory ≠ 0 ∧ address.toNat < 0xC0000000 ∧
        (length = 0 ∨ address.toNat + length.toNat ≤ 0xC0000000 ∧
          ∀ page, Meets page address.toNat length.toNat →
            UserPage s.memory directory (UInt32.ofNat (page * 4096)))) := by
  obtain ⟨valid, hvalid, hiff⟩ := userRangeValid_iff s directory address length
  refine ⟨valid, hvalid, hiff.trans (and_congr_right fun _ => and_congr_right fun haddress => ?_)⟩
  by_cases hempty : length = 0
  · subst hempty
    rw [UInt32.toNat_zero]
    exact ⟨fun _ => .inl rfl,
      fun _ => ⟨haddress.le, fun i hi => absurd hi (Nat.not_lt_zero i)⟩⟩
  · rw [or_iff_right hempty]
    exact and_congr_right fun hfit => bytes_iff_meets hfit

end LevOS.Memory
