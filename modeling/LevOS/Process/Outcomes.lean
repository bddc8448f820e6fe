import LevOS.Process.Start
import LevOS.Memory.PageRuns

/-!
# The outcomes of a creation

Where addresses are taken as they are, a creation call has two outcomes. It fails
and leaves the kernel as it was, with the same pages free; or it enters a process
whose pages, its two or four, are exactly those that were taken, and memory
changes in these pages only, apart from two entries of an identity table.

## Main definitions

* `Kernel.Failed`, `KernelStarted`

## Main results

* `processCreate_plain`, `processCreateUser_plain`
-/

namespace LevOS

open Foundation Memory

/-! ## Pages of a failed creation -/

/-- What is held after an allocation. -/
def Memory.PageRun.taking (a : UInt32) (held : List UInt32) : List UInt32 :=
  if a = 0 then held else a :: held

/-- What is held after a page is released, unless its allocation failed. -/
def Memory.PageRun.giving (a : UInt32) (held : List UInt32) : List UInt32 :=
  if a = 0 then held else held.erase a

section Pages

open PageRun

variable {p q : Pmm} {held : List UInt32}

theorem Memory.PageRun.mem_taking {a x : UInt32} :
    x ∈ taking a held ↔ a ≠ 0 ∧ x = a ∨ x ∈ held := by
  unfold taking
  split_ifs with hzero <;> simp [hzero]

theorem Memory.PageRun.mem_giving (hnodup : held.Nodup) {a x : UInt32} :
    x ∈ giving a held ↔ x ∈ held ∧ (a ≠ 0 → x ≠ a) := by
  unfold giving
  split_ifs with hzero
  · simp [hzero]
  · rw [hnodup.mem_erase_iff]
    tauto

theorem Memory.PageRun.Kept.taking (h : Kept p ⟨q, held⟩) :
    Kept p ⟨q.allocatePage.2, taking q.allocatePage.1 held⟩ ∧
      (q.allocatePage.1 ≠ 0 → q.allocatePage.1 ∉ held) :=
  ⟨h.allocate, fun hne => (h.toAccounted.allocate.2 hne).1⟩

theorem Memory.PageRun.Kept.giving (h : Kept p ⟨q, held⟩) (hp : p.Sound) {a : UInt32}
    (ha : a ≠ 0 → a ∈ held) (s : Space) :
    ∃ pmm, Kernel.release { s with pmm := q } a = { s with pmm := pmm } ∧
      Kept p ⟨pmm, giving a held⟩ := by
  unfold Kernel.release PageRun.giving
  by_cases hzero : a = 0
  · rw [if_neg (not_not_intro hzero), if_pos hzero]
    exact ⟨q, rfl, h⟩
  · rw [if_pos hzero, if_neg hzero]
    exact ⟨_, rfl, h.free hp (ha hzero)⟩

/-- An allocation that fails changes nothing. -/
theorem Memory.Pmm.Sound.exhausted (h : p.Sound) (hzero : p.allocatePage.1 = 0) :
    p.allocatePage = (0, p) := by
  rcases h.allocatePage_cases with ⟨-, heq⟩ | htaken
  · exact heq
  · exact absurd hzero htaken.ne_zero

theorem Memory.Pmm.Sound.exhausted_next (h : p.Sound) (hzero : p.allocatePage.1 = 0) :
    p.allocatePage.2.allocatePage.1 = 0 := by
  rw [show p.allocatePage.2 = p from congrArg Prod.snd (h.exhausted hzero)]
  exact hzero

/-- Of two allocations the second fails if one of them does. -/
theorem Memory.Pmm.Sound.exhausted_second (h : p.Sound)
    (hfailed : p.allocatePage.1 = 0 ∨ p.allocatePage.2.allocatePage.1 = 0) :
    p.allocatePage.2.allocatePage.1 = 0 :=
  hfailed.elim h.exhausted_next id

/-- Pages are taken one after the other: when one allocation fails then so does the last. -/
theorem Memory.Pmm.Sound.exhausted_last (h : p.Sound)
    (hfailed : p.allocatePage.1 = 0 ∨ p.allocatePage.2.allocatePage.1 = 0 ∨
      p.allocatePage.2.allocatePage.2.allocatePage.1 = 0 ∨
      p.allocatePage.2.allocatePage.2.allocatePage.2.allocatePage.1 = 0) :
    p.allocatePage.2.allocatePage.2.allocatePage.2.allocatePage.1 = 0 := by
  have h₁ := h.allocatePage
  have h₂ := h₁.allocatePage
  rcases hfailed with hzero | hzero | hzero | hzero
  · exact h₂.exhausted_next (h₁.exhausted_next (h.exhausted_next hzero))
  · exact h₂.exhausted_next (h₁.exhausted_next hzero)
  · exact h₂.exhausted_next hzero
  · exact hzero

theorem Memory.Pmm.Sound.card_taken (h : p.Sound) (hne : p.allocatePage.1 ≠ 0) :
    p.allocatePage.2.free.card + 1 = p.free.card := by
  have htaken := h.taken_allocatePage hne
  have hpos := Finset.card_pos.mpr ⟨_, htaken.was_free⟩
  rw [htaken.free_eq, Finset.card_erase_of_mem htaken.was_free]
  omega

/-- An allocation succeeds if a later one does. -/
theorem Memory.Pmm.Sound.ne_zero_of_next (h : p.Sound)
    (hne : p.allocatePage.2.allocatePage.1 ≠ 0) : p.allocatePage.1 ≠ 0 :=
  fun hzero => hne (h.exhausted_next hzero)

theorem Memory.Pmm.Sound.two_le_card (h : p.Sound)
    (hne : p.allocatePage.2.allocatePage.1 ≠ 0) : 2 ≤ p.free.card ∧ p.allocatePage.1 ≠ 0 := by
  have hfirst := h.ne_zero_of_next hne
  have hcard := h.card_taken hfirst
  have hcard' := h.allocatePage.card_taken hne
  exact ⟨by omega, hfirst⟩

theorem Memory.Pmm.Sound.four_le_card (h : p.Sound)
    (hne : p.allocatePage.2.allocatePage.2.allocatePage.2.allocatePage.1 ≠ 0) :
    4 ≤ p.free.card ∧ p.allocatePage.1 ≠ 0 ∧ p.allocatePage.2.allocatePage.1 ≠ 0 ∧
      p.allocatePage.2.allocatePage.2.allocatePage.1 ≠ 0 := by
  obtain ⟨htwo, hthird⟩ := h.allocatePage.allocatePage.two_le_card hne
  have hsecond := h.allocatePage.ne_zero_of_next hthird
  have hfirst := h.ne_zero_of_next hsecond
  have hcard := h.card_taken hfirst
  have hcard' := h.allocatePage.card_taken hsecond
  exact ⟨by omega, hfirst, hsecond, hthird⟩

/-- With two pages free, two allocations succeed. -/
theorem Memory.Pmm.Sound.two_ne_zero (h : p.Sound) (hcard : 2 ≤ p.free.card) :
    p.allocatePage.1 ≠ 0 ∧ p.allocatePage.2.allocatePage.1 ≠ 0 := by
  have hcard₁ := h.card_allocatePage
  have hcard₂ := h.allocatePage.card_allocatePage
  refine ⟨fun hzero => ?_, fun hzero => ?_⟩
  · have := hcard₁.2 hzero
    omega
  · have := hcard₂.2 hzero
    omega

/-- With four pages free, four allocations succeed. -/
theorem Memory.Pmm.Sound.four_ne_zero (h : p.Sound) (hcard : 4 ≤ p.free.card) :
    p.allocatePage.1 ≠ 0 ∧ p.allocatePage.2.allocatePage.1 ≠ 0 ∧
      p.allocatePage.2.allocatePage.2.allocatePage.1 ≠ 0 ∧
      p.allocatePage.2.allocatePage.2.allocatePage.2.allocatePage.1 ≠ 0 := by
  have h₁ := h.allocatePage
  have hcard₁ := h.card_allocatePage
  have hcard₂ := h₁.card_allocatePage
  obtain ⟨hstack, hcode⟩ := h.two_ne_zero (by omega)
  exact ⟨hstack, hcode, h₁.allocatePage.two_ne_zero (by omega)⟩

/-- After a failed `process_create` the same pages are free as before. -/
theorem release_stack (hp : p.Sound) (hfailed : p.allocatePage.2.allocatePage.1 = 0) (s : Space) :
    ∃ pmm, Kernel.release { s with pmm := p.allocatePage.2.allocatePage.2 } p.allocatePage.1 =
        { s with pmm := pmm } ∧ pmm.Sound ∧ pmm.free = p.free := by
  obtain ⟨hkept, -⟩ := (kept_start hp).taking
  rw [hkept.sound.exhausted hfailed]
  obtain ⟨pmm, hrelease, hgiven⟩ := hkept.giving hp (fun hne => mem_taking.mpr (.inl ⟨hne, rfl⟩)) s
  refine ⟨pmm, hrelease, hgiven.sound, hgiven.free_eq ?_⟩
  refine List.eq_nil_iff_forall_not_mem.mpr fun x hx => ?_
  have hmem := (mem_giving hkept.held_nodup).mp hx
  rw [mem_taking] at hmem
  have hnil : x ∉ ([] : List UInt32) := List.not_mem_nil
  tauto

/-- Three pages are taken and released in the same order. -/
theorem Memory.PageRun.Kept.release_three (hp : p.Sound) {a b c : UInt32}
    (h : Kept p ⟨q, PageRun.taking c (PageRun.taking b (PageRun.taking a []))⟩)
    (hb : b ≠ 0 → b ∉ PageRun.taking a [])
    (hc : c ≠ 0 → c ∉ PageRun.taking b (PageRun.taking a [])) (s : Space) :
    ∃ pmm, Kernel.release (Kernel.release (Kernel.release { s with pmm := q } a) b) c =
      { s with pmm := pmm } ∧ pmm.Sound ∧ pmm.free = p.free := by
  have hnil {x : UInt32} : x ∉ ([] : List UInt32) := List.not_mem_nil
  simp only [mem_taking, hnil, or_false] at hb hc
  obtain ⟨q₁, hrelease₁, hgiven₁⟩ := h.giving (a := a) hp
    (fun hne => by simp only [mem_taking]; exact .inr (.inr (.inl ⟨hne, trivial⟩))) s
  obtain ⟨q₂, hrelease₂, hgiven₂⟩ := hgiven₁.giving (a := b) hp (fun hne => by
    rw [mem_giving h.held_nodup]
    simp only [mem_taking]
    exact ⟨.inr (.inl ⟨hne, trivial⟩), fun ha heq => hb hne ⟨ha, heq⟩⟩) s
  obtain ⟨q₃, hrelease₃, hgiven₃⟩ := hgiven₂.giving (a := c) hp (fun hne => by
    rw [mem_giving hgiven₁.held_nodup, mem_giving h.held_nodup]
    simp only [mem_taking]
    exact ⟨⟨.inl ⟨hne, trivial⟩, fun ha heq => hc hne (.inr ⟨ha, heq⟩)⟩,
      fun hb' heq => hc hne (.inl ⟨hb', heq⟩)⟩) s
  refine ⟨q₃, by rw [hrelease₁, hrelease₂, hrelease₃], hgiven₃.sound, hgiven₃.free_eq ?_⟩
  refine List.eq_nil_iff_forall_not_mem.mpr fun x hx => ?_
  rw [mem_giving hgiven₂.held_nodup, mem_giving hgiven₁.held_nodup, mem_giving h.held_nodup] at hx
  simp only [mem_taking, hnil, or_false] at hx
  obtain ⟨⟨⟨⟨hzero, rfl⟩ | ⟨hzero, rfl⟩ | ⟨hzero, rfl⟩, hxa⟩, hxb⟩, hxc⟩ := hx
  · exact hxc hzero rfl
  · exact hxb hzero rfl
  · exact hxa hzero rfl

/-- After a failed `process_create_user` the same pages are free as before. -/
theorem release_pages (hp : p.Sound)
    (hfailed : p.allocatePage.2.allocatePage.2.allocatePage.2.allocatePage.1 = 0) (s : Space) :
    ∃ pmm, Kernel.release (Kernel.release (Kernel.release
        { s with pmm := p.allocatePage.2.allocatePage.2.allocatePage.2.allocatePage.2 }
          p.allocatePage.1) p.allocatePage.2.allocatePage.1)
          p.allocatePage.2.allocatePage.2.allocatePage.1 = { s with pmm := pmm } ∧
      pmm.Sound ∧ pmm.free = p.free := by
  obtain ⟨hkept₁, -⟩ := (kept_start hp).taking
  obtain ⟨hkept₂, hfresh₂⟩ := hkept₁.taking
  obtain ⟨hkept₃, hfresh₃⟩ := hkept₂.taking
  rw [hkept₃.sound.exhausted hfailed]
  exact hkept₃.release_three hp hfresh₂ hfresh₃ s

/-- The pages of a new user process lie above the kernel. -/
theorem newPages {layout : Layout} (hp : p.Sound)
    (habove : AboveKernel layout p.free)
    (hstack : p.allocatePage.1 ≠ 0) (hcode : p.allocatePage.2.allocatePage.1 ≠ 0)
    (huser : p.allocatePage.2.allocatePage.2.allocatePage.1 ≠ 0)
    (hdirectory : p.allocatePage.2.allocatePage.2.allocatePage.2.allocatePage.1 ≠ 0) :
    NewPages layout p.allocatePage.1 p.allocatePage.2.allocatePage.1
      p.allocatePage.2.allocatePage.2.allocatePage.1
      p.allocatePage.2.allocatePage.2.allocatePage.2.allocatePage.1 := by
  obtain ⟨-, hnodup, hpage⟩ := (hp.takenFour hstack hcode huser hdirectory).spec
  generalize p.allocatePage.1 = a, p.allocatePage.2.allocatePage.1 = b,
    p.allocatePage.2.allocatePage.2.allocatePage.1 = c,
    p.allocatePage.2.allocatePage.2.allocatePage.2.allocatePage.1 = d at hnodup hpage ⊢
  simp only [List.mem_cons, List.not_mem_nil, or_false, forall_eq_or_imp, forall_eq] at hpage
  obtain ⟨⟨-, ha, ha', -⟩, ⟨-, hb, hb', -⟩, ⟨-, hc, hc', -⟩, -, hd, hd', -⟩ := hpage
  have haabove := habove _ ha'
  have hbabove := habove _ hb'
  have hcabove := habove _ hc'
  have hdabove := habove _ hd'
  simp only [List.nodup_cons, List.mem_cons, List.not_mem_nil, or_false, not_or] at hnodup
  obtain ⟨⟨hab, -, had⟩, ⟨-, hbd⟩, -⟩ := hnodup
  refine ⟨⟨ha, hb, hc, hd⟩, ⟨by omega, by omega, by omega, by omega⟩, ?_, ?_, ?_⟩
  · exact fun heq => hab (UInt32.toNat_inj.mp heq)
  · exact fun heq => had (UInt32.toNat_inj.mp heq)
  · exact fun heq => hbd (UInt32.toNat_inj.mp heq)

end Pages

/-! ## Outcomes -/

/-- A creation that fails: the same pages are free, and nothing else changes. -/
def Kernel.Failed (k k' : Kernel) : Prop :=
  ∃ pmm, k' = { k with space := { k.space with pmm := pmm } } ∧ pmm.Sound ∧
    pmm.free = k.space.pmm.free

/-- What a successful `process_create` does to memory. -/
structure KernelStarted (layout : Layout) (m m' : Memory) (stack directory : UInt32) : Prop where
  frame : ∀ a, Outside a stack 4096 → Outside a directory 4096 → m' a = m a
  entries : ∀ t < 1023, load32 m' (directory + UInt32.ofNat (4 * t)) =
    load32 m (layout.pageDirectory + UInt32.ofNat (4 * t))

section Outcomes

variable {access : Access} {layout : Layout} {good : Memory → Prop}
  {readable writable : UInt32 → Prop} {k k' : Kernel} {result : Int32}

theorem Kernel.Failed.of_sound (hsound : k.space.pmm.Sound) : k.Failed k :=
  ⟨k.space.pmm, rfl, hsound, rfl⟩

/-- A failed creation gives out no pid. -/
theorem Kernel.not_failed_enterProcess {slot : Slot} {process : Process} {space : Space} :
    ¬ k.Failed (k.enterProcess slot process space) := by
  rintro ⟨pmm, heq, -⟩
  have hpid : k.nextPid + 1 = k.nextPid := congrArg Kernel.nextPid heq
  exact absurd (UInt32.add_eq_left.mp hpid) (by decide)

theorem createPageDirectory_failed {s : Space} (hzero : s.pmm.allocatePage.1 = 0) :
    createPageDirectory access layout s = some ({ s with pmm := s.pmm.allocatePage.2 }, 0) := by
  unfold createPageDirectory
  generalize s.pmm.allocatePage = page at hzero ⊢
  obtain ⟨address, pmm⟩ := page
  exact if_pos hzero

/-- Both user addresses lie behind the second entry of a directory, at the two ends of
its table. -/
theorem userSlots (base : UInt32) :
    directorySlot base Kernel.userCodeAddress = base + 4 ∧
      directorySlot base (Kernel.userStackTop - 4096) = base + 4 ∧
      tableSlot base Kernel.userCodeAddress = base ∧
      tableSlot base (Kernel.userStackTop - 4096) = base + 4092 :=
  ⟨rfl, rfl, UInt32.add_zero base, rfl⟩

/-- Mapping the two pages of a user process. -/
theorem mapPages_plain {s : Space} {stack code user directory : UInt32}
    (hplain : Plain access s.cr3 good readable writable) (hgood : good s.memory)
    (hpages : NewPages layout stack code user directory)
    (hreach : Reaches layout readable writable stack code directory)
    (hslot : load32 s.memory (directory + 4) = identityEntry layout 1) :
    ∃ s₁, mapPageIn access s directory Kernel.userCodeAddress code 0x55 = some s₁ ∧
      mapPageIn access s₁ directory (Kernel.userStackTop - 4096) user 0x55 =
        some { s with memory := pagesMapped layout s.memory code user directory } ∧
      good (pagesMapped layout s.memory code user directory) := by
  obtain ⟨-, -, -, hdaligned⟩ := hpages.aligned
  obtain ⟨hdslot, hdslot', -, -⟩ := userSlots directory
  obtain ⟨-, -, htslot, htslot'⟩ := userSlots (tableAddress layout 1)
  obtain ⟨hmarked, htwice⟩ := mappedMemory_twice hpages hslot
  have htaligned := tableAddress_aligned layout (show 1 ≤ 4 by decide)
  have hlt := directory.toNat_lt
  have haligned : (directory + 4).toNat % 4 = 0 := by
    rw [UInt32.toNat_add, show (4 : UInt32).toNat = 4 from rfl]
    omega
  have hwrite : writable (directory + 4) := hreach.entries.2 1 (by decide)
  obtain ⟨hfirst, hgood₁⟩ : mapPageIn access s directory Kernel.userCodeAddress code 0x55 =
      some { s with memory := mappedMemory s.memory directory Kernel.userCodeAddress code } ∧
        good (mappedMemory s.memory directory Kernel.userCodeAddress code) := by
    apply hplain.mapPageIn hgood code
    · exact hdslot ▸ hreach.slot
    · exact hdslot ▸ hwrite
    · exact hdslot ▸ haligned
    · rw [hdslot, hslot]
      exact identityEntry_present (by decide)
    · rw [hdslot, hslot, frameOf_identityEntry (by decide), htslot]
      exact hreach.first
    · rw [hdslot, hslot, frameOf_identityEntry (by decide), htslot]
      omega
  set m := mappedMemory s.memory directory Kernel.userCodeAddress code
  -- the second mapping finds the entry that the first one has marked
  obtain ⟨hsecond, hgood₂⟩ : mapPageIn access { s with memory := m } directory
      (Kernel.userStackTop - 4096) user 0x55 =
        some { s with memory := mappedMemory m directory (Kernel.userStackTop - 4096) user } ∧
        good (mappedMemory m directory (Kernel.userStackTop - 4096) user) := by
    have hlast : (tableAddress layout 1 + 4092).toNat % 4 = 0 := by
      rw [UInt32.toNat_add, show (4092 : UInt32).toNat = 4092 from rfl]
      omega
    apply Plain.mapPageIn (s := { s with memory := m }) hplain hgood₁ user
    · exact hdslot' ▸ hreach.slot
    · exact hdslot' ▸ hwrite
    · exact hdslot' ▸ haligned
    · rw [hdslot', hmarked]
      exact userEntry_present (by decide)
    · rw [hdslot', hmarked, frameOf_userEntry (by decide), htslot']
      exact hreach.last
    · rw [hdslot', hmarked, frameOf_userEntry (by decide), htslot']
      exact hlast
  rw [htwice] at hsecond hgood₂
  exact ⟨_, hfirst, hsecond, hgood₂⟩

/-- The outcome of `process_create_user`. -/
theorem processCreateUser_plain (hsound : k.space.pmm.Sound)
    (habove : AboveKernel layout k.space.pmm.free)
    (hplain : Plain access k.space.cr3 good readable writable) (hgood : good k.space.memory)
    (hentry : load32 k.space.memory (layout.pageDirectory + 4) = identityEntry layout 1)
    {image imageSize : UInt32}
    (h : k.processCreateUser access layout image imageSize = some (k', result)) :
    let stack := k.space.pmm.allocatePage
    let code := stack.2.allocatePage
    let user := code.2.allocatePage
    let directory := user.2.allocatePage
    (directory.1 ≠ 0 → Reaches layout readable writable stack.1 code.1 directory.1) →
    k.Failed k' ∨ ∃ slot m, k.vacantSlot = some slot ∧
      NewPages layout stack.1 code.1 user.1 directory.1 ∧
      UserStarted layout k.space.memory m stack.1 code.1 user.1 directory.1 ∧ good m ∧
      k' = k.enterProcess slot (k.userProcess directory.1 stack.1 code.1 user.1)
        { k.space with memory := m, pmm := directory.2 } := by
  intro stack code user directory hreach
  rcases processCreateUser_cases h with ⟨-, rfl, -⟩ | ⟨slot, s, d, hslot, hcreate, hrest⟩
  · exact .inl (.of_sound hsound)
  rcases hrest with ⟨hfailed, -, rfl⟩ | ⟨hstack, hcode, huser, hdirectory, hsize, -, s₁, s₂, s₃, s₄,
    s₅, hmap₁, hmap₂, himage, hclear, hfields, rfl⟩
  · have hzero : directory.1 = 0 :=
      hsound.exhausted_last ((createPageDirectory_eq hcreate).1 ▸ hfailed)
    rw [createPageDirectory_failed hzero] at hcreate
    obtain ⟨rfl, -⟩ := Prod.mk.inj (Option.some.inj hcreate)
    obtain ⟨pmm, hrelease, hreleased⟩ := release_pages hsound hzero k.space
    exact .inl ⟨pmm, congrArg (fun space => { k with space := space }) hrelease, hreleased⟩
  · obtain rfl : d = directory.1 := (createPageDirectory_eq hcreate).1
    have hpages : NewPages layout stack.1 code.1 user.1 directory.1 :=
      newPages hsound habove hstack hcode huser hdirectory
    have hreach := hreach hdirectory
    obtain ⟨hsaligned, hcaligned, -, hdaligned⟩ := hpages.aligned
    have hclt := code.1.toNat_lt
    -- the directory
    obtain ⟨hcreated, hgood₁⟩ := Plain.createPageDirectory (s := { k.space with pmm := user.2 })
      hplain hgood hreach.source hdirectory hreach.entries
    rw [hcreated] at hcreate
    obtain ⟨rfl, -⟩ := Prod.mk.inj (Option.some.inj hcreate)
    -- the two mappings
    have hslot₁ : load32 (directoryMemory layout k.space.memory directory.1) (directory.1 + 4) =
        identityEntry layout 1 :=
      (load32_directoryMemory (t := 1) hdaligned hpages.above.2.2.2 (by decide)).trans hentry
    set m₁ := directoryMemory layout k.space.memory directory.1
    obtain ⟨s₁', hmapped₁, hmapped₂, hgood₂⟩ :=
      mapPages_plain (s := { k.space with memory := m₁, pmm := directory.2 })
        hplain hgood₁ hpages hreach hslot₁
    rw [hmapped₁] at hmap₁
    obtain rfl := Option.some.inj hmap₁
    rw [hmapped₂] at hmap₂
    obtain rfl := Option.some.inj hmap₂
    -- the image
    have hlength : imageSize.toNat ≤ 4096 := UInt32.le_iff_toNat_le.mp hsize
    set m₂ := pagesMapped layout m₁ code.1 user.1 directory.1
    obtain ⟨m₃, rfl, hgood₃, hcopied⟩ := Plain.copyBytes
      (s := { k.space with memory := m₂, pmm := directory.2 })
      hplain hgood₂ (fun i hi => hreach.code i (by omega)) (by omega) himage
    -- the context
    obtain ⟨hcleared, hgood₄⟩ := Plain.clear (s := { k.space with memory := m₃, pmm := directory.2 })
      hplain hgood₃ hreach.context
    rw [hcleared] at hclear
    obtain rfl := Option.some.inj hclear
    obtain ⟨hstored, hgood₅⟩ : storeFields access _ Kernel.userFrame _ = _ ∧
        good (contextMemory m₃ stack.1 Kernel.userFrame) := Plain.storeFields
      (s := { k.space with memory := clearWords m₃ _ contextWords, pmm := directory.2 }) hplain hgood₄
      hreach.context
    rw [hstored] at hfields
    obtain rfl := Option.some.inj hfields
    refine .inr ⟨slot, _, hslot, hpages, ?_, hgood₅, rfl⟩
    exact userStarted_memory hpages fun a ha => hcopied a (ha.mono hlength)

/-- With an image that can be read, `process_create_user` succeeds. -/
theorem processCreateUser_total (hsound : k.space.pmm.Sound)
    (habove : AboveKernel layout k.space.pmm.free)
    (hplain : Plain access k.space.cr3 good readable writable) (hgood : good k.space.memory)
    (hentry : load32 k.space.memory (layout.pageDirectory + 4) = identityEntry layout 1)
    {image imageSize : UInt32} (hargs : ¬ (image = 0 ∨ imageSize = 0 ∨ 4096 < imageSize))
    (hread : ∀ i < imageSize.toNat, readable (image + UInt32.ofNat i)) {slot : Slot}
    (hslot : k.vacantSlot = some slot) (hpages : 4 ≤ k.space.pmm.free.card) :
    let stack := k.space.pmm.allocatePage
    let code := stack.2.allocatePage
    let user := code.2.allocatePage
    let directory := user.2.allocatePage
    Reaches layout readable writable stack.1 code.1 directory.1 →
    ∃ process space, k.processCreateUser access layout image imageSize =
      some (k.enterProcess slot process space, k.nextPid.toInt32) := by
  intro stack code user directory hreach
  obtain ⟨hstack, hcode, huser, hdirectory⟩ := hsound.four_ne_zero hpages
  have hpages : NewPages layout stack.1 code.1 user.1 directory.1 :=
    newPages hsound habove hstack hcode huser hdirectory
  obtain ⟨-, -, -, hdaligned⟩ := hpages.aligned
  have hclt := code.1.toNat_lt
  -- the stages in their order, each of which leaves the memory good for the next
  obtain ⟨hcreated, hgood₁⟩ := Plain.createPageDirectory (s := { k.space with pmm := user.2 })
    hplain hgood hreach.source hdirectory hreach.entries
  have hslot₁ : load32 (directoryMemory layout k.space.memory directory.1) (directory.1 + 4) =
      identityEntry layout 1 :=
    (load32_directoryMemory (t := 1) hdaligned hpages.above.2.2.2 (by decide)).trans hentry
  set m₁ := directoryMemory layout k.space.memory directory.1
  obtain ⟨s₁, hmap₁, hmap₂, hgood₂⟩ :=
    mapPages_plain (s := { k.space with memory := m₁, pmm := directory.2 })
      hplain hgood₁ hpages hreach hslot₁
  have hlength : imageSize.toNat ≤ 4096 :=
    UInt32.le_iff_toNat_le.mp (UInt32.not_lt.mp fun hlt => hargs (.inr (.inr hlt)))
  have hcaligned := hpages.aligned.2.1
  have hwrite (i : Nat) (hi : i < imageSize.toNat) := hreach.code i (by omega)
  set m₂ := pagesMapped layout m₁ code.1 user.1 directory.1
  obtain ⟨s₃, himage⟩ := Plain.copyBytes_total
    (s := { k.space with memory := m₂, pmm := directory.2 }) hplain hgood₂ hread hwrite (by omega)
  obtain ⟨m₃, rfl, hgood₃, -⟩ := Plain.copyBytes
    (s := { k.space with memory := m₂, pmm := directory.2 }) hplain hgood₂ hwrite (by omega) himage
  obtain ⟨hclear, hgood₄⟩ := Plain.clear (s := { k.space with memory := m₃, pmm := directory.2 })
    hplain hgood₃ hreach.context
  have hfields : storeFields access _ Kernel.userFrame _ = _ := (Plain.storeFields
    (s := { k.space with memory := clearWords m₃ _ contextWords, pmm := directory.2 }) hplain hgood₄
    hreach.context).1
  -- four pages were free, so that none of the allocations failed
  have hne : ¬ (stack.1 = 0 ∨ code.1 = 0 ∨ user.1 = 0 ∨ directory.1 = 0) := by
    rintro (hzero | hzero | hzero | hzero)
    · exact hstack hzero
    · exact hcode hzero
    · exact huser hzero
    · exact hdirectory hzero
  exact ⟨_, _, processCreateUser_eq hargs hslot hcreated hne hmap₁ hmap₂ himage hclear hfields⟩

/-- With two pages and a vacant slot, `process_create` succeeds. -/
theorem processCreate_total (hsound : k.space.pmm.Sound)
    (hplain : Plain access k.space.cr3 good readable writable) (hgood : good k.space.memory)
    {entry : UInt32} (hentry : entry ≠ 0) (argument : UInt32) {slot : Slot}
    (hslot : k.vacantSlot = some slot) (hpages : 2 ≤ k.space.pmm.free.card) :
    let stack := k.space.pmm.allocatePage
    let directory := stack.2.allocatePage
    EachWord readable layout.pageDirectory 1024 → EachWord writable directory.1 1024 →
    EachWord writable (stack.1 + 4096 - contextSize) contextWords →
    ∃ process space, k.processCreate access layout entry argument =
      some (k.enterProcess slot process space, k.nextPid.toInt32) := by
  intro stack directory hsource hentries hcontext
  obtain ⟨hstack, hdirectory⟩ := hsound.two_ne_zero hpages
  obtain ⟨hcreated, hgood₁⟩ := Plain.createPageDirectory (s := { k.space with pmm := stack.2 })
    hplain hgood hsource hdirectory hentries
  set m₁ := directoryMemory layout k.space.memory directory.1
  obtain ⟨hclear, hgood₂⟩ := Plain.clear (s := { k.space with memory := m₁, pmm := directory.2 })
    hplain hgood₁ hcontext
  have hfields : storeFields access _ (Kernel.kernelFrame layout stack.1) _ = _ :=
    (Plain.storeFields (s := { k.space with
      memory := clearWords m₁ (stack.1 + 4096 - contextSize) contextWords, pmm := directory.2 })
      hplain hgood₂ hcontext).1
  exact ⟨_, _, processCreate_eq hentry hslot hcreated (not_or.mpr ⟨hstack, hdirectory⟩) hclear
    hfields⟩

/-- The outcome of `process_create`. -/
theorem processCreate_plain (hsound : k.space.pmm.Sound)
    (habove : AboveKernel layout k.space.pmm.free)
    (hplain : Plain access k.space.cr3 good readable writable) (hgood : good k.space.memory)
    {entry argument : UInt32}
    (h : k.processCreate access layout entry argument = some (k', result)) :
    let stack := k.space.pmm.allocatePage
    let directory := stack.2.allocatePage
    (directory.1 ≠ 0 → EachWord readable layout.pageDirectory 1024 ∧
      EachWord writable directory.1 1024 ∧
      EachWord writable (stack.1 + 4096 - contextSize) contextWords) →
    k.Failed k' ∨ ∃ slot m, k.vacantSlot = some slot ∧
      KernelStarted layout k.space.memory m stack.1 directory.1 ∧ good m ∧
      stack.1 ≠ 0 ∧ directory.1 ≠ 0 ∧
      k' = k.enterProcess slot (k.kernelProcess directory.1 stack.1 entry argument)
        { k.space with memory := m, pmm := directory.2 } := by
  intro stack directory hreach
  rcases processCreate_cases h with ⟨-, rfl, -⟩ | ⟨slot, s, d, hslot, hcreate, hrest⟩
  · exact .inl (.of_sound hsound)
  rcases hrest with ⟨hfailed, -, rfl⟩ | ⟨hstack, hdirectory, -, s₁, s₂, hclear, hfields, rfl⟩
  · -- without a stack there is no page for a directory either
    have hzero : directory.1 = 0 :=
      hsound.exhausted_second ((createPageDirectory_eq hcreate).1 ▸ hfailed)
    rw [createPageDirectory_failed hzero] at hcreate
    obtain ⟨rfl, -⟩ := Prod.mk.inj (Option.some.inj hcreate)
    obtain ⟨pmm, hrelease, hreleased⟩ := release_stack hsound hzero k.space
    exact .inl ⟨pmm, congrArg (fun space => { k with space := space }) hrelease, hreleased⟩
  · obtain rfl : d = directory.1 := (createPageDirectory_eq hcreate).1
    obtain ⟨hsource, hentries, hcontext⟩ := hreach hdirectory
    obtain ⟨-, hnodup, hpage⟩ := (hsound.takenTwo hstack hdirectory).spec
    obtain ⟨-, hsaligned, -, -⟩ := hpage stack.1 List.mem_cons_self
    obtain ⟨-, hdaligned, hdfree, -⟩ := hpage directory.1 (List.mem_cons_of_mem _ List.mem_cons_self)
    have hdabove := habove _ hdfree
    have hne : stack.1.toNat ≠ directory.1.toNat := fun heq =>
      (List.nodup_cons.mp hnodup).1 (List.mem_singleton.mpr (UInt32.toNat_inj.mp heq))
    have hdlt := directory.1.toNat_lt
    have hdmem := layout.pageDirectory_mem
    -- directory, cleared context and frame: what each of them leaves in memory
    obtain ⟨hcreated, hgood₁⟩ := Plain.createPageDirectory (s := { k.space with pmm := stack.2 })
      hplain hgood hsource hdirectory hentries
    rw [hcreated] at hcreate
    obtain ⟨rfl, -⟩ := Prod.mk.inj (Option.some.inj hcreate)
    set m₁ := directoryMemory layout k.space.memory directory.1
    obtain ⟨hcleared, hgood₂⟩ := Plain.clear (s := { k.space with memory := m₁, pmm := directory.2 })
      hplain hgood₁ hcontext
    rw [hcleared] at hclear
    obtain rfl := Option.some.inj hclear
    obtain ⟨hstored, hgood₃⟩ : storeFields access _ (Kernel.kernelFrame layout stack.1) _ = _ ∧
        good (contextMemory m₁ stack.1 (Kernel.kernelFrame layout stack.1)) := Plain.storeFields
      (s := { k.space with memory := clearWords m₁ _ contextWords, pmm := directory.2 }) hplain hgood₂
      hcontext
    rw [hstored] at hfields
    obtain rfl := Option.some.inj hfields
    refine .inr ⟨slot, _, hslot, ⟨fun a hs hd => ?_, fun t ht => ?_⟩, hgood₃, hstack, hdirectory, rfl⟩
    · exact (contextMemory_outside hsaligned hs).trans (directoryMemory_outside hdaligned hd)
    · -- the context is on the stack, apart from the directory
      have hslot : (directory.1 + UInt32.ofNat (4 * t)).toNat = directory.1.toNat + 4 * t :=
        toNat_add_ofNat (by omega)
      refine (load32_of_outside (fun a ha => contextMemory_outside hsaligned ha) ?_ ?_).trans ?_
      · omega
      · omega
      · exact load32_directoryMemory hdaligned (by omega) ht

end Outcomes

end LevOS
