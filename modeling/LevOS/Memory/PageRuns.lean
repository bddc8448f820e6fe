import LevOS.Memory.PageSet

/-!
# Runs of the page allocator

After initialisation the allocator is called in any order and with any
addresses. Its count and bitmap stay in step whatever the callers do; if they
only give back what they hold, no page is handed out twice.

## Main definitions

* `PageCall`, `PageRun`, the calls and a run with the addresses its callers hold
* `PageRun.Disciplined`, every address given back is held
* `PageRun.Kept`, the account of the pages that are free and held

## Main results

* `PageRun.Kept.allocate`, `PageRun.Kept.free`
* `pageRun_sound`
-/

namespace LevOS.Memory

/-- A call of the allocator. -/
inductive PageCall
  | allocate
  | free (address : UInt32)

/-- The allocator and the addresses handed out and not given back since. -/
structure PageRun where
  pmm : Pmm
  held : List UInt32

namespace PageRun

/-- A call, with the account of what its callers hold. -/
def step (run : PageRun) : PageCall → PageRun
  | .allocate =>
    match run.pmm.allocatePage with
    | (address, p) => ⟨p, if address = 0 then run.held else address :: run.held⟩
  | .free address => ⟨run.pmm.freePage address, run.held.erase address⟩

/-- A sequence of calls. -/
def after (run : PageRun) (calls : List PageCall) : PageRun := calls.foldl step run

/-- Every address given back is held at the time. -/
def Disciplined : PageRun → List PageCall → Prop
  | _, [] => True
  | run, .allocate :: calls => (run.step .allocate).Disciplined calls
  | run, .free address :: calls =>
    address ∈ run.held ∧ (run.step (.free address)).Disciplined calls

theorem sound_after {run : PageRun} (h : run.pmm.Sound) (calls : List PageCall) :
    (run.after calls).pmm.Sound := by
  induction calls generalizing run with
  | nil => exact h
  | cons call calls ih =>
    apply ih
    cases call with
    | allocate => exact h.allocatePage
    | free address => exact h.freePage address

/-- The account of a run in which callers only give back what they hold: what is
held is in use and was free in the beginning, as is everything free now. -/
structure Accounted (start : Pmm) (run : PageRun) : Prop where
  sound : run.pmm.Sound
  highest : run.pmm.highestPage = start.highestPage
  held_nodup : run.held.Nodup
  held_page : ∀ address ∈ run.held, address.toNat % 4096 = 0 ∧
    address.toNat / 4096 ∉ run.pmm.free ∧ address.toNat / 4096 ∈ start.free
  free_subset : run.pmm.free ⊆ start.free

theorem accounted_start {start : Pmm} (h : start.Sound) : Accounted start ⟨start, []⟩ where
  sound := h
  highest := rfl
  held_nodup := List.nodup_nil
  held_page := by simp
  free_subset := Finset.Subset.refl _

section Steps

variable {start : Pmm} {run : PageRun}

/-- An allocation hands out a page that nobody holds. -/
theorem Accounted.allocate (h : Accounted start run) :
    Accounted start (run.step .allocate) ∧
      (run.pmm.allocatePage.1 ≠ 0 →
        run.pmm.allocatePage.1 ∉ run.held ∧ run.pmm.allocatePage.1.toNat / 4096 ∈ start.free) := by
  rcases h.sound.allocatePage_cases with ⟨-, heq⟩ | htaken
  · rw [step, heq]
    exact ⟨h, fun hne => absurd rfl hne⟩
  · rw [step]
    generalize run.pmm.allocatePage = page at htaken ⊢
    obtain ⟨address, p⟩ := page
    obtain ⟨hsound, hnonzero, haligned, hfree, hrest, hhighest⟩ := htaken
    simp only at hsound hnonzero haligned hfree hrest hhighest ⊢
    have hfresh : address ∉ run.held := fun hheld => (h.held_page _ hheld).2.1 hfree
    rw [if_neg hnonzero]
    refine ⟨⟨hsound, hhighest.trans h.highest, List.nodup_cons.mpr ⟨hfresh, h.held_nodup⟩, ?_, ?_⟩,
      fun _ => ?_⟩
    · intro other hother
      rw [hrest]
      rcases List.mem_cons.mp hother with rfl | hold
      · exact ⟨haligned, Finset.notMem_erase _ _, h.free_subset hfree⟩
      · obtain ⟨haligned', hused, hstart⟩ := h.held_page other hold
        exact ⟨haligned', fun hin => hused (Finset.mem_of_mem_erase hin), hstart⟩
    · rw [hrest]
      exact (Finset.erase_subset _ _).trans h.free_subset
    · exact ⟨hfresh, h.free_subset hfree⟩

/-- Giving back a held address frees its page and nothing else. -/
theorem Accounted.free (h : Accounted start run) (hstart : start.Sound) {address : UInt32}
    (hheld : address ∈ run.held) : Accounted start (run.step (.free address)) := by
  obtain ⟨haligned, hused, hpage⟩ := h.held_page address hheld
  have hpos : 1 ≤ address.toNat / 4096 := by
    apply Nat.pos_of_ne_zero
    intro hzero
    exact hstart.zero_used (hzero ▸ hpage)
  have hbelow := hstart.below _ hpage
  rw [← h.highest] at hbelow
  rcases h.sound.freePage_eq address with ⟨-, hignored⟩ | ⟨hsound, hfree⟩
  · exact absurd ⟨hpos, hbelow, hused⟩ hignored
  · refine ⟨hsound, (run.pmm.highestPage_freePage address).trans h.highest,
      h.held_nodup.erase address, ?_, ?_⟩
    · intro other hother
      obtain ⟨hne, hold⟩ := (h.held_nodup.mem_erase_iff).mp hother
      obtain ⟨haligned', hused', hstart'⟩ := h.held_page other hold
      refine ⟨haligned', ?_, hstart'⟩
      rw [step, hfree, Finset.mem_insert, not_or]
      -- two aligned addresses on one page are equal
      refine ⟨fun heq => hne (UInt32.toNat_inj.mp ?_), hused'⟩
      omega
    · rw [step, hfree]
      exact Finset.insert_subset hpage h.free_subset

theorem Accounted.after (h : Accounted start run) (hstart : start.Sound) {calls : List PageCall}
    (hcalls : run.Disciplined calls) : Accounted start (run.after calls) := by
  induction calls generalizing run with
  | nil => exact h
  | cons call calls ih =>
    cases call with
    | allocate => exact ih h.allocate.1 hcalls
    | free address => exact ih (h.free hstart hcalls.1) hcalls.2

/-! ### Conservation -/

/-- No page is lost: every page that was free in the beginning is free or held. -/
structure Kept (start : Pmm) (run : PageRun) : Prop extends Accounted start run where
  conserved : run.pmm.free.card + run.held.length = start.free.card

theorem kept_start (h : start.Sound) : Kept start ⟨start, []⟩ :=
  ⟨accounted_start h, Nat.add_zero _⟩

theorem Kept.allocate (h : Kept start run) : Kept start (run.step .allocate) := by
  refine ⟨h.toAccounted.allocate.1, ?_⟩
  have hconserved := h.conserved
  rcases h.sound.allocatePage_cases with ⟨-, heq⟩ | htaken
  · rw [step, heq]
    exact hconserved
  · rw [step]
    generalize run.pmm.allocatePage = page at htaken ⊢
    obtain ⟨address, p⟩ := page
    have hpos := Finset.card_pos.mpr ⟨_, htaken.was_free⟩
    simp only
    rw [if_neg htaken.ne_zero, htaken.free_eq, Finset.card_erase_of_mem htaken.was_free,
      List.length_cons]
    omega

theorem Kept.free (h : Kept start run) (hstart : start.Sound) {address : UInt32}
    (hheld : address ∈ run.held) : Kept start (run.step (.free address)) := by
  refine ⟨h.toAccounted.free hstart hheld, ?_⟩
  have hconserved := h.conserved
  have hpos := List.length_pos_of_mem hheld
  obtain ⟨-, hused, hpage⟩ := h.held_page address hheld
  have hbelow := hstart.below _ hpage
  rw [← h.highest] at hbelow
  have hnonzero : 1 ≤ address.toNat / 4096 :=
    Nat.pos_of_ne_zero fun hzero => hstart.zero_used (hzero ▸ hpage)
  rcases h.sound.freePage_eq address with ⟨-, hignored⟩ | ⟨-, hfree⟩
  · exact absurd ⟨hnonzero, hbelow, hused⟩ hignored
  · rw [step]
    simp only
    rw [hfree, Finset.card_insert_of_notMem hused, List.length_erase_of_mem hheld]
    omega

/-- When nothing is held any more, the same pages are free as in the beginning. -/
theorem Kept.free_eq (h : Kept start run) (hheld : run.held = []) :
    run.pmm.free = start.free := by
  apply Finset.eq_of_subset_of_card_le h.free_subset
  have hconserved := h.conserved
  rw [hheld, List.length_nil, Nat.add_zero] at hconserved
  exact hconserved.ge

end Steps

/-! ### Allocations only -/

theorem disciplined_replicate (run : PageRun) (n : Nat) :
    run.Disciplined (List.replicate n .allocate) := by
  induction n generalizing run with
  | zero => exact trivial
  | succ n ih => exact ih _

/-- Every free page is handed out in the end. -/
theorem exists_allocate {start : Pmm} (h : start.Sound) {page : Nat} (hpage : page ∈ start.free)
    (held : List UInt32) :
    ∃ n, (after ⟨start, held⟩ (List.replicate n .allocate)).pmm.allocatePage.1.toNat =
      page * 4096 := by
  -- induction on the number of free pages
  induction hcard : start.free.card using Nat.strong_induction_on generalizing start held with
  | _ card ih =>
    rcases h.allocatePage_cases with ⟨hempty, -⟩ | htaken
    · rw [hempty] at hpage
      exact absurd hpage (Finset.notMem_empty page)
    · by_cases hfirst : start.allocatePage.1.toNat / 4096 = page
      · refine ⟨0, ?_⟩
        have haligned := htaken.aligned
        change start.allocatePage.1.toNat = _
        omega
      · have hleft : page ∈ start.allocatePage.2.free := by
          rw [htaken.free_eq]
          exact Finset.mem_erase.mpr ⟨Ne.symm hfirst, hpage⟩
        have hless : start.allocatePage.2.free.card < card := by
          rw [← hcard, htaken.free_eq]
          exact Finset.card_erase_lt_of_mem htaken.was_free
        obtain ⟨n, hn⟩ := ih _ hless htaken.sound hleft
          (step ⟨start, held⟩ .allocate).held rfl
        exact ⟨n + 1, hn⟩

/-- The pages that any number of allocations hand out are the free ones. -/
theorem allocated_iff {start : Pmm} (h : start.Sound) (good : Nat → Prop) :
    (∀ n, let address := (after ⟨start, []⟩ (List.replicate n .allocate)).pmm.allocatePage.1
      address ≠ 0 → good address.toNat) ↔ ∀ page ∈ start.free, good (page * 4096) := by
  constructor
  · intro hall page hpage
    obtain ⟨n, hn⟩ := exists_allocate h hpage []
    have hgood := hall n
    simp only [hn] at hgood
    refine hgood fun hzero => ?_
    rw [hzero, UInt32.toNat_zero] at hn
    exact h.zero_used (by rwa [show page = 0 by omega] at hpage)
  · intro hall n address hne
    have hrun := (accounted_start h).after h (disciplined_replicate _ n)
    have hpage := (hrun.allocate.2 hne).2
    have hgood : good (address.toNat / 4096 * 4096) := hall _ hpage
    rcases hrun.sound.allocatePage_cases with ⟨-, heq⟩ | htaken
    · exact absurd (congrArg Prod.fst heq) hne
    · have haligned : address.toNat % 4096 = 0 := htaken.aligned
      rwa [show address.toNat / 4096 * 4096 = address.toNat by omega] at hgood

end PageRun

/-- A state of the allocator that some boot and some calls lead to. -/
def Pmm.Reachable (p : Pmm) : Prop :=
  ∃ (memory : Pmm → Foundation.Memory) (kernelEnd info : UInt32) (fuel : Nat) (start : Pmm)
    (calls : List PageCall), Pmm.pmmInit memory kernelEnd info fuel = some start ∧
      p = (PageRun.after ⟨start, []⟩ calls).pmm

theorem Pmm.Reachable.sound {p : Pmm} (h : p.Reachable) : p.Sound := by
  obtain ⟨memory, kernelEnd, info, fuel, start, calls, hinit, rfl⟩ := h
  exact PageRun.sound_after (Pmm.pmmInit_sound hinit) calls

/-- Page allocator soundness: after `pmm_init` and any calls, the free count is
the number of clear bits, the clear bits lie between the first page and the
bound, and `allocate_page` returns the lowest of them exactly when there is one.
If the callers only give back what they hold, it returns no page that is held
and none that was in use at the end of `pmm_init`. -/
theorem pageRun_sound {memory : Pmm → Foundation.Memory} {kernelEnd info : UInt32} {fuel : Nat}
    {start : Pmm} (hinit : Pmm.pmmInit memory kernelEnd info fuel = some start)
    (calls : List PageCall) :
    let run := PageRun.after ⟨start, []⟩ calls
    run.pmm.pmmFreePages.toNat = run.pmm.free.card ∧
      run.pmm.highestPage.toNat ≤ 2 ^ 20 ∧
      (∀ page ∈ run.pmm.free, 1 ≤ page ∧ page < run.pmm.highestPage.toNat) ∧
      (run.pmm.allocatePage.1 = 0 ↔ run.pmm.pmmFreePages = 0) ∧
      (run.pmm.pmmFreePages ≠ 0 → ∃ page, IsLeast (run.pmm.free : Set Nat) page ∧
        run.pmm.allocatePage.1.toNat = page * 4096) ∧
      (PageRun.Disciplined ⟨start, []⟩ calls → run.pmm.allocatePage.1 ≠ 0 →
        run.pmm.allocatePage.1 ∉ run.held ∧
          run.pmm.allocatePage.1.toNat / 4096 ∈ start.free) := by
  intro run
  have hstart := Pmm.pmmInit_sound hinit
  have hsound : run.pmm.Sound := PageRun.sound_after hstart calls
  have hcount : run.pmm.freeCount.toNat = run.pmm.free.card := hsound.counted
  have hzero : run.pmm.freeCount = 0 ↔ run.pmm.free = ∅ := by
    rw [← Finset.card_eq_zero, ← hcount]
    exact ⟨fun h => by rw [h]; rfl, fun h => UInt32.toNat_inj.mp h⟩
  refine ⟨hcount, hsound.highest_le, fun page hpage => ⟨?_, hsound.below page hpage⟩, ?_, ?_, ?_⟩
  · apply Nat.pos_of_ne_zero
    rintro rfl
    exact hsound.zero_used hpage
  · -- page zero is never free, so that its address can stand for a failure
    rw [Pmm.pmmFreePages, hzero]
    rcases hsound.allocatePage_eq with ⟨hempty, heq⟩ | ⟨least, hleast, heq⟩
    · simp [heq, hempty]
    · have hfree : least.toNat ∈ run.pmm.free := hleast.1
      have hnat := Pmm.least_toNat_mul hfree
      refine iff_of_false (fun h => ?_) fun h => ?_
      · have hzeroNat : (least * pageSize).toNat = 0 := by
          rw [heq] at h
          rw [show least * pageSize = 0 from h]
          rfl
        exact hsound.zero_used (by rwa [show least.toNat = 0 by omega] at hfree)
      · rw [h] at hfree
        exact absurd hfree (Finset.notMem_empty _)
  · intro hne
    rcases hsound.allocatePage_eq with ⟨hempty, -⟩ | ⟨least, hleast, heq⟩
    · exact absurd (hzero.mpr hempty) hne
    · exact ⟨least.toNat, hleast, by rw [heq]; exact Pmm.least_toNat_mul hleast.1⟩
  · intro hcalls
    exact ((PageRun.accounted_start hstart).after hstart hcalls).allocate.2

/-! ### A boot without a memory map -/

section NoMap

variable {p : Pmm}

/-- Behind a kernel image of 128 KiB the first page is free. -/
theorem noMap_isLeast (h : Pmm.pmmInit (fun _ _ => 0) 0x120000 0 0 = some p) :
    IsLeast (p.free : Set Nat) 0x120 := by
  refine ⟨Pmm.pmmInit_noMap_free h (by decide) (by decide) (by decide), fun page hpage => ?_⟩
  have habove : 0x120000 ≤ page * 4096 := Pmm.pmmInit_above_kernel h hpage
  omega

theorem noMap_allocatePage (h : Pmm.pmmInit (fun _ _ => 0) 0x120000 0 0 = some p) :
    0x120 ∈ p.free ∧ p.allocatePage.1 = 0x120000 := by
  have hleast := noMap_isLeast h
  exact ⟨hleast.1, UInt32.toNat_inj.mp ((Pmm.pmmInit_sound h).allocatePage_least hleast).1⟩

/-- The page behind it is next. -/
theorem noMap_allocatePage_next (h : Pmm.pmmInit (fun _ _ => 0) 0x120000 0 0 = some p) :
    0x121 ∈ p.allocatePage.2.free ∧ p.allocatePage.2.allocatePage.1 = 0x121000 := by
  obtain ⟨-, hsound, hfree⟩ := (Pmm.pmmInit_sound h).allocatePage_least (noMap_isLeast h)
  have hleast : IsLeast (p.allocatePage.2.free : Set Nat) 0x121 := by
    rw [hfree]
    refine ⟨?_, fun page hpage => ?_⟩
    · exact Finset.mem_erase.mpr ⟨by decide,
        Pmm.pmmInit_noMap_free h (by decide) (by decide) (by decide)⟩
    · obtain ⟨hne, hold⟩ := Finset.mem_erase.mp hpage
      have hle : 0x120 ≤ page := (noMap_isLeast h).2 hold
      omega
  exact ⟨hleast.1, UInt32.toNat_inj.mp (hsound.allocatePage_least hleast).1⟩

theorem noMap_boots : ∃ p, Pmm.pmmInit (fun _ _ => 0) 0x120000 0 0 = some p := by
  rw [Pmm.pmmInit, Pmm.readMap, if_neg (by decide), Option.map_some]
  exact ⟨_, rfl⟩

end NoMap

/-- Two pages are handed out and the first one is given back: the next one handed out is not
the one that is held. -/
theorem pageRun_sound_noMap :
    ∃ start, Pmm.pmmInit (fun _ _ => 0) 0x120000 0 0 = some start ∧
      let run := PageRun.after ⟨start, []⟩ [.allocate, .allocate, .free 0x120000]
      run.held = [0x121000] ∧ run.pmm.pmmFreePages.toNat = run.pmm.free.card ∧
        (run.pmm.allocatePage.1 ≠ 0 → run.pmm.allocatePage.1 ≠ 0x121000) := by
  obtain ⟨start, hstart⟩ := noMap_boots
  have hfirst := (noMap_allocatePage hstart).2
  have hsecond := (noMap_allocatePage_next hstart).2
  have hheld : (PageRun.after ⟨start, []⟩ [.allocate, .allocate]).held = [0x121000, 0x120000] := by
    simp [PageRun.after, PageRun.step, hfirst, hsecond]
  have hlast : (PageRun.after ⟨start, []⟩ [.allocate, .allocate, .free 0x120000]).held =
      [0x121000] := by
    change List.erase (PageRun.after ⟨start, []⟩ [.allocate, .allocate]).held 0x120000 = _
    rw [hheld]
    rfl
  obtain ⟨hcount, -, -, -, -, hfresh⟩ :=
    pageRun_sound hstart [.allocate, .allocate, .free 0x120000]
  refine ⟨start, hstart, hlast, hcount, fun hne => ?_⟩
  have hnot := (hfresh ⟨?_, trivial⟩ hne).1
  · rw [hlast] at hnot
    exact List.ne_of_not_mem_cons hnot
  · change 0x120000 ∈ (PageRun.after ⟨start, []⟩ [.allocate, .allocate]).held
    rw [hheld]
    decide

end LevOS.Memory
