import LevOS.Process.Scheduler
import LevOS.Memory.PageSet

/-!
# What a creation does

Both creation functions either give up, with at most fewer pages free than
before, or enter a process into a vacant slot, with pages that were free until
then. Nothing here depends on how addresses are translated.

## Main definitions

* `Process.pages`, the pages a process owns
* `Fresh`, a process whose pages were just taken
* `Creation`, the outcome of a creation call

## Main results

* `processCreate_creation`, `processCreateUser_creation`
-/

namespace LevOS

open Foundation Memory

/-- The pages lie above the kernel image. -/
def AboveKernel (layout : Layout) (pages : Finset Nat) : Prop :=
  ∀ page ∈ pages, layout.kernelEnd.toNat ≤ page * 4096

theorem AboveKernel.mono {layout : Layout} {pages pages' : Finset Nat}
    (h : AboveKernel layout pages) (hsubset : pages' ⊆ pages) : AboveKernel layout pages' :=
  fun page hpage => h page (hsubset hpage)

/-- `pmm_init` frees no page of the kernel image. -/
theorem aboveKernel_pmmInit {layout : Layout} {bytes : Pmm → Memory} {info : UInt32} {fuel : Nat}
    {pmm : Pmm} (hpmm : Pmm.pmmInit bytes layout.kernelEnd info fuel = some pmm) :
    AboveKernel layout pmm.free :=
  fun _ hpage => Pmm.pmmInit_above_kernel hpmm hpage

/-- The pages a process owns. -/
def Process.pages (p : Process) : List UInt32 :=
  p.stackBase :: p.directory :: if p.user then [p.userCodeBase, p.userStackBase] else []

/-- Fewer pages free, in a sound allocator. -/
structure Memory.Pmm.Shrinks (p p' : Pmm) : Prop where
  sound : p'.Sound
  free_subset : p'.free ⊆ p.free

namespace Memory.Pmm

variable {p p' p'' : Pmm} {address : UInt32}

theorem Shrinks.refl (h : p.Sound) : p.Shrinks p := ⟨h, Finset.Subset.refl _⟩

theorem Shrinks.trans (h : p.Shrinks p') (h' : p'.Shrinks p'') : p.Shrinks p'' :=
  ⟨h'.sound, Finset.Subset.trans h'.free_subset h.free_subset⟩

theorem Taken.shrinks (h : Taken p address p') : p.Shrinks p' :=
  ⟨h.sound, by rw [h.free_eq]; exact Finset.erase_subset _ _⟩

theorem Sound.shrinks_allocatePage (h : p.Sound) : p.Shrinks p.allocatePage.2 := by
  rcases h.allocatePage_cases with ⟨-, heq⟩ | htaken
  · rw [heq]
    exact .refl h
  · exact htaken.shrinks

theorem Sound.taken_allocatePage (h : p.Sound) (hne : p.allocatePage.1 ≠ 0) :
    Taken p p.allocatePage.1 p.allocatePage.2 := by
  rcases h.allocatePage_cases with ⟨-, heq⟩ | htaken
  · rw [heq] at hne
    exact absurd rfl hne
  · exact htaken

/-- An allocation takes a page if there is one. -/
theorem Sound.card_allocatePage (h : p.Sound) :
    p.allocatePage.2.free.card = p.free.card - 1 ∧
      (p.allocatePage.1 = 0 → p.free.card = 0) := by
  rcases h.allocatePage_cases with ⟨hempty, heq⟩ | htaken
  · rw [heq, hempty]
    exact ⟨rfl, fun _ => rfl⟩
  · rw [htaken.free_eq]
    exact ⟨Finset.card_erase_of_mem htaken.was_free, fun hzero => absurd hzero htaken.ne_zero⟩

/-- Giving back a page that was free before leaves fewer pages free than before. -/
theorem Shrinks.freePage (h : p.Shrinks p')
    (haddress : address ≠ 0 → address.toNat / 4096 ∈ p.free) (hne : address ≠ 0) :
    p.Shrinks (p'.freePage address) := by
  rcases h.sound.freePage_eq address with ⟨heq, -⟩ | ⟨hsound, hfree⟩
  · rwa [heq]
  · refine ⟨hsound, ?_⟩
    rw [hfree]
    exact Finset.insert_subset (haddress hne) h.free_subset

/-- Pages taken one after the other. -/
def TakenAll : Pmm → List UInt32 → Pmm → Prop
  | p, [], p' => p.Shrinks p'
  | p, address :: addresses, p' => ∃ q, Taken p address q ∧ TakenAll q addresses p'

/-- What is taken was free, and no page is taken twice. -/
theorem TakenAll.spec {addresses : List UInt32} (h : TakenAll p addresses p') :
    p.Shrinks p' ∧ addresses.Nodup ∧
      ∀ a ∈ addresses, a ≠ 0 ∧ a.toNat % 4096 = 0 ∧ a.toNat / 4096 ∈ p.free ∧
        a.toNat / 4096 ∉ p'.free := by
  induction addresses generalizing p with
  | nil => exact ⟨h, List.nodup_nil, by simp⟩
  | cons address addresses ih =>
    obtain ⟨q, htaken, hrest⟩ := h
    obtain ⟨hshrinks, hnodup, hpage⟩ := ih hrest
    have herased : address.toNat / 4096 ∉ q.free := by
      rw [htaken.free_eq]
      exact Finset.notMem_erase _ _
    refine ⟨htaken.shrinks.trans hshrinks, List.nodup_cons.mpr ⟨?_, hnodup⟩, ?_⟩
    · exact fun hmem => herased (hpage _ hmem).2.2.1
    · intro a ha
      rcases List.mem_cons.mp ha with rfl | hmem
      · exact ⟨htaken.ne_zero, htaken.aligned, htaken.was_free,
          fun hin => herased (hshrinks.free_subset hin)⟩
      · obtain ⟨hne, haligned, hfree, hused⟩ := hpage a hmem
        exact ⟨hne, haligned, htaken.shrinks.free_subset hfree, hused⟩

theorem TakenAll.shrink {addresses : List UInt32} (h : TakenAll p addresses p')
    (hshrinks : p'.Shrinks p'') : TakenAll p addresses p'' := by
  induction addresses generalizing p with
  | nil => exact Shrinks.trans h hshrinks
  | cons address addresses ih =>
    obtain ⟨q, htaken, hrest⟩ := h
    exact ⟨q, htaken, ih hrest⟩

/-- The two pages of a kernel process. -/
theorem Sound.takenTwo (h : p.Sound) (h₁ : p.allocatePage.1 ≠ 0)
    (h₂ : p.allocatePage.2.allocatePage.1 ≠ 0) :
    TakenAll p [p.allocatePage.1, p.allocatePage.2.allocatePage.1]
      p.allocatePage.2.allocatePage.2 := by
  have hfirst := h.taken_allocatePage h₁
  have hsecond := hfirst.sound.taken_allocatePage h₂
  exact ⟨_, hfirst, _, hsecond, .refl hsecond.sound⟩

/-- The four pages of a user process. -/
theorem Sound.takenFour (h : p.Sound) (h₁ : p.allocatePage.1 ≠ 0)
    (h₂ : p.allocatePage.2.allocatePage.1 ≠ 0)
    (h₃ : p.allocatePage.2.allocatePage.2.allocatePage.1 ≠ 0)
    (h₄ : p.allocatePage.2.allocatePage.2.allocatePage.2.allocatePage.1 ≠ 0) :
    TakenAll p
      [p.allocatePage.1, p.allocatePage.2.allocatePage.1,
        p.allocatePage.2.allocatePage.2.allocatePage.1,
        p.allocatePage.2.allocatePage.2.allocatePage.2.allocatePage.1]
      p.allocatePage.2.allocatePage.2.allocatePage.2.allocatePage.2 := by
  have hfirst := h.taken_allocatePage h₁
  exact ⟨_, hfirst, _, hfirst.sound.taken_allocatePage h₂,
    (hfirst.sound.taken_allocatePage h₂).sound.takenTwo h₃ h₄⟩

end Memory.Pmm

/-- A process in a state fit to run, with pages that were free in one state of
the allocator and are not in a later one. -/
structure Fresh (p p' : Pmm) (process : Process) : Prop where
  shrinks : p.Shrinks p'
  bootstrap : process.bootstrap = false
  state : process.state = .ready
  context : process.context = process.stackBase + 4096 - contextSize
  nodup : process.pages.Nodup
  page : ∀ a ∈ process.pages, a ≠ 0 ∧ a.toNat % 4096 = 0 ∧ a.toNat / 4096 ∈ p.free ∧
    a.toNat / 4096 ∉ p'.free

/-- The outcome of a creation call that needs a number of pages. It fails because
its arguments are rejected, no slot is vacant or too few pages are free. -/
inductive Creation (rejected : Prop) (pages : Nat) (k : Kernel) : Kernel → Int32 → Prop
  | failed (m : Memory) (pmm : Pmm) (shrinks : k.space.pmm.Shrinks pmm)
    (reason : rejected ∨ k.vacantSlot = none ∨ k.space.pmm.free.card < pages) :
    Creation rejected pages k { k with space := { k.space with memory := m, pmm := pmm } } (-1)
  | entered (slot : Slot) (process : Process) (m : Memory) (pmm : Pmm)
    (vacant : k.vacantSlot = some slot) (fresh : Fresh k.space.pmm pmm process)
    (pid : process.pid = k.nextPid) :
    Creation rejected pages k (k.enterProcess slot process { k.space with memory := m, pmm := pmm })
      k.nextPid.toInt32

theorem storeFields_eq {access : Access} {context : UInt32} {fields : List (Field × UInt32)}
    {s s' : Space} (h : storeFields access context fields s = some s') :
    ∃ m, s' = { s with memory := m } := by
  induction fields generalizing s with
  | nil => exact ⟨s.memory, (Option.some.inj h).symm⟩
  | cons head fields ih =>
    obtain ⟨s₁, hstore, hrest⟩ := Option.bind_eq_some_iff.mp h
    obtain ⟨m₁, rfl⟩ := Space.store_eq hstore
    obtain ⟨m₂, rfl⟩ := ih hrest
    exact ⟨m₂, rfl⟩

section Calls

variable {access : Access} {layout : Layout} {k k' : Kernel} {result : Int32}

/-- Releasing pages of a failed creation leaves fewer pages free than before it. -/
theorem release_eq {p : Pmm} {s : Space} (h : p.Shrinks s.pmm) {address : UInt32}
    (haddress : address ≠ 0 → address.toNat / 4096 ∈ p.free) :
    ∃ pmm, p.Shrinks pmm ∧ Kernel.release s address = { s with pmm := pmm } := by
  unfold Kernel.release
  split_ifs with hzero
  · exact ⟨_, h.freePage haddress hzero, rfl⟩
  · exact ⟨s.pmm, h, rfl⟩

theorem mapPageIn_shrinks {s s' : Space} (hsound : s.pmm.Sound)
    {directory virtualAddress physicalAddress : UInt32} {mode : UInt8}
    (h : mapPageIn access s directory virtualAddress physicalAddress mode = some s') :
    ∃ m pmm, s.pmm.Shrinks pmm ∧ s' = { s with memory := m, pmm := pmm } := by
  obtain ⟨m, rfl | rfl⟩ := mapPageIn_eq h
  · exact ⟨m, s.pmm, .refl hsound, rfl⟩
  · exact ⟨m, _, hsound.shrinks_allocatePage, rfl⟩

/-- The stages of `process_create`. -/
theorem processCreate_cases {entry argument : UInt32}
    (h : k.processCreate access layout entry argument = some (k', result)) :
    let stack := k.space.pmm.allocatePage
    ((entry = 0 ∨ k.vacantSlot = none) ∧ k' = k ∧ result = -1) ∨
      ∃ slot s directory, k.vacantSlot = some slot ∧
        createPageDirectory access layout { k.space with pmm := stack.2 } = some (s, directory) ∧
        (((stack.1 = 0 ∨ directory = 0) ∧ result = -1 ∧
            k' = { k with space := Kernel.release s stack.1 }) ∨
          (stack.1 ≠ 0 ∧ directory ≠ 0 ∧ result = k.nextPid.toInt32 ∧
            ∃ s₁ s₂, s.clear access (stack.1 + 4096 - contextSize) contextWords = some s₁ ∧
              storeFields access (stack.1 + 4096 - contextSize)
                (Kernel.kernelFrame layout stack.1) s₁ = some s₂ ∧
              k' = k.enterProcess slot (k.kernelProcess directory stack.1 entry argument) s₂)) := by
  unfold Kernel.processCreate at h
  generalize k.space.pmm.allocatePage = page at h ⊢
  obtain ⟨stack, p₁⟩ := page
  simp only at h ⊢
  split_ifs at h with hentry
  · obtain ⟨rfl, rfl⟩ := Prod.mk.inj (Option.some.inj h)
    exact .inl ⟨.inl hentry, rfl, rfl⟩
  rcases hslot : k.vacantSlot with _ | slot
  · rw [hslot] at h
    obtain ⟨rfl, rfl⟩ := Prod.mk.inj (Option.some.inj h)
    exact .inl ⟨.inr rfl, rfl, rfl⟩
  rw [hslot] at h
  obtain ⟨⟨s, directory⟩, hcreate, hrest⟩ := Option.bind_eq_some_iff.mp h
  refine .inr ⟨slot, s, directory, rfl, hcreate, ?_⟩
  simp only at hrest
  split_ifs at hrest with hfailed
  · obtain ⟨rfl, rfl⟩ := Prod.mk.inj (Option.some.inj hrest)
    exact .inl ⟨hfailed, rfl, rfl⟩
  · obtain ⟨hstack, hdirectory⟩ := not_or.mp hfailed
    obtain ⟨s₁, hclear, hrest⟩ := Option.bind_eq_some_iff.mp hrest
    obtain ⟨s₂, hfields, hpair⟩ := Option.bind_eq_some_iff.mp hrest
    obtain ⟨rfl, rfl⟩ := Prod.mk.inj (Option.some.inj hpair)
    exact .inr ⟨hstack, hdirectory, rfl, s₁, s₂, hclear, hfields, rfl⟩

/-- The stages of `process_create_user`. -/
theorem processCreateUser_cases {image imageSize : UInt32}
    (h : k.processCreateUser access layout image imageSize = some (k', result)) :
    let stack := k.space.pmm.allocatePage
    let code := stack.2.allocatePage
    let user := code.2.allocatePage
    let context := stack.1 + 4096 - contextSize
    ((image = 0 ∨ imageSize = 0 ∨ 4096 < imageSize) ∨ k.vacantSlot = none) ∧ k' = k ∧
        result = -1 ∨
      ∃ slot s directory, k.vacantSlot = some slot ∧
        createPageDirectory access layout { k.space with pmm := user.2 } = some (s, directory) ∧
        (((stack.1 = 0 ∨ code.1 = 0 ∨ user.1 = 0 ∨ directory = 0) ∧ result = -1 ∧
            k' = { k with
              space := Kernel.release (Kernel.release (Kernel.release s stack.1) code.1) user.1 }) ∨
          (stack.1 ≠ 0 ∧ code.1 ≠ 0 ∧ user.1 ≠ 0 ∧ directory ≠ 0 ∧ imageSize ≤ 4096 ∧
            result = k.nextPid.toInt32 ∧
            ∃ s₁ s₂ s₃ s₄ s₅,
              mapPageIn access s directory Kernel.userCodeAddress code.1 0x55 = some s₁ ∧
              mapPageIn access s₁ directory (Kernel.userStackTop - 4096) user.1 0x55 = some s₂ ∧
              s₂.copyBytes access image code.1 imageSize.toNat = some s₃ ∧
              s₃.clear access context contextWords = some s₄ ∧
              storeFields access context Kernel.userFrame s₄ = some s₅ ∧
              k' = k.enterProcess slot (k.userProcess directory stack.1 code.1 user.1) s₅)) := by
  unfold Kernel.processCreateUser at h
  -- name the pages, then follow the early returns of the function
  generalize k.space.pmm.allocatePage = page at h ⊢
  obtain ⟨stack, p₁⟩ := page
  simp only at h ⊢
  generalize p₁.allocatePage = page at h ⊢
  obtain ⟨code, p₂⟩ := page
  simp only at h ⊢
  generalize p₂.allocatePage = page at h ⊢
  obtain ⟨user, p₃⟩ := page
  simp only at h ⊢
  split_ifs at h with hrejected
  · obtain ⟨rfl, rfl⟩ := Prod.mk.inj (Option.some.inj h)
    exact .inl ⟨.inl hrejected, rfl, rfl⟩
  rcases hslot : k.vacantSlot with _ | slot
  · rw [hslot] at h
    obtain ⟨rfl, rfl⟩ := Prod.mk.inj (Option.some.inj h)
    exact .inl ⟨.inr rfl, rfl, rfl⟩
  rw [hslot] at h
  obtain ⟨⟨s, directory⟩, hcreate, hrest⟩ := Option.bind_eq_some_iff.mp h
  refine .inr ⟨slot, s, directory, rfl, hcreate, ?_⟩
  simp only at hrest
  split_ifs at hrest with hfailed
  · obtain ⟨rfl, rfl⟩ := Prod.mk.inj (Option.some.inj hrest)
    exact .inl ⟨hfailed, rfl, rfl⟩
  · obtain ⟨hstack, hcode, huser, hdirectory⟩ :
        stack ≠ 0 ∧ code ≠ 0 ∧ user ≠ 0 ∧ directory ≠ 0 := by
      simpa only [not_or] using hfailed
    have hsize : imageSize ≤ 4096 := UInt32.not_lt.mp fun hlt => hrejected (.inr (.inr hlt))
    -- the rest cannot fail but by a fault
    obtain ⟨s₁, hmap₁, hrest⟩ := Option.bind_eq_some_iff.mp hrest
    obtain ⟨s₂, hmap₂, hrest⟩ := Option.bind_eq_some_iff.mp hrest
    obtain ⟨s₃, himage, hrest⟩ := Option.bind_eq_some_iff.mp hrest
    obtain ⟨s₄, hclear, hrest⟩ := Option.bind_eq_some_iff.mp hrest
    obtain ⟨s₅, hfields, hpair⟩ := Option.bind_eq_some_iff.mp hrest
    obtain ⟨rfl, rfl⟩ := Prod.mk.inj (Option.some.inj hpair)
    exact .inr ⟨hstack, hcode, huser, hdirectory, hsize, rfl, s₁, s₂, s₃, s₄, s₅, hmap₁, hmap₂,
      himage, hclear, hfields, rfl⟩

/-- A `process_create` that finds nothing to do. -/
theorem processCreate_refused {entry argument : UInt32}
    (h : k.processCreate access layout entry argument = some (k', result))
    (hreason : entry = 0 ∨ k.vacantSlot = none) : k' = k := by
  rcases hreason with hzero | hnone
  · rw [Kernel.processCreate, if_pos hzero] at h
    exact (Prod.mk.inj (Option.some.inj h)).1.symm
  · rcases processCreate_cases h with ⟨-, heq, -⟩ | ⟨slot, s, d, hslot, -⟩
    · exact heq
    · rw [hnone] at hslot
      cases hslot

/-- A `process_create_user` that finds nothing to do. -/
theorem processCreateUser_refused {image imageSize : UInt32}
    (h : k.processCreateUser access layout image imageSize = some (k', result))
    (hreason : (image = 0 ∨ imageSize = 0 ∨ 4096 < imageSize) ∨ k.vacantSlot = none) :
    k' = k := by
  rcases hreason with hrejected | hnone
  · rw [Kernel.processCreateUser, if_pos hrejected] at h
    exact (Prod.mk.inj (Option.some.inj h)).1.symm
  · rcases processCreateUser_cases h with ⟨-, heq, -⟩ | ⟨slot, s, d, hslot, -⟩
    · exact heq
    · rw [hnone] at hslot
      cases hslot

/-- The stages of a `process_create` that succeeds. -/
theorem processCreate_eq {entry argument directory : UInt32} {slot : Slot} {s s₁ s₂ : Space}
    (hentry : entry ≠ 0) (hslot : k.vacantSlot = some slot) :
    let stack := k.space.pmm.allocatePage
    let context := stack.1 + 4096 - contextSize
    createPageDirectory access layout { k.space with pmm := stack.2 } = some (s, directory) →
    ¬ (stack.1 = 0 ∨ directory = 0) → s.clear access context contextWords = some s₁ →
    storeFields access context (Kernel.kernelFrame layout stack.1) s₁ = some s₂ →
    k.processCreate access layout entry argument =
      some (k.enterProcess slot (k.kernelProcess directory stack.1 entry argument) s₂,
        k.nextPid.toInt32) := by
  unfold Kernel.processCreate
  generalize k.space.pmm.allocatePage = page
  obtain ⟨stack, p₁⟩ := page
  simp only
  intro hcreate hne hclear hfields
  rw [if_neg hentry, hslot]
  simp only [hcreate, hclear, hfields, if_neg hne, Option.bind_eq_bind, Option.bind_some]
  rfl

/-- The stages of a `process_create_user` that succeeds. -/
theorem processCreateUser_eq {image imageSize directory : UInt32} {slot : Slot}
    {s s₁ s₂ s₃ s₄ s₅ : Space} (hargs : ¬ (image = 0 ∨ imageSize = 0 ∨ 4096 < imageSize))
    (hslot : k.vacantSlot = some slot) :
    let stack := k.space.pmm.allocatePage
    let code := stack.2.allocatePage
    let user := code.2.allocatePage
    let context := stack.1 + 4096 - contextSize
    createPageDirectory access layout { k.space with pmm := user.2 } = some (s, directory) →
    ¬ (stack.1 = 0 ∨ code.1 = 0 ∨ user.1 = 0 ∨ directory = 0) →
    mapPageIn access s directory Kernel.userCodeAddress code.1 0x55 = some s₁ →
    mapPageIn access s₁ directory (Kernel.userStackTop - 4096) user.1 0x55 = some s₂ →
    s₂.copyBytes access image code.1 imageSize.toNat = some s₃ →
    s₃.clear access context contextWords = some s₄ →
    storeFields access context Kernel.userFrame s₄ = some s₅ →
    k.processCreateUser access layout image imageSize =
      some (k.enterProcess slot (k.userProcess directory stack.1 code.1 user.1) s₅,
        k.nextPid.toInt32) := by
  unfold Kernel.processCreateUser
  generalize k.space.pmm.allocatePage = page
  obtain ⟨stack, p₁⟩ := page
  simp only
  generalize p₁.allocatePage = page
  obtain ⟨code, p₂⟩ := page
  simp only
  generalize p₂.allocatePage = page
  obtain ⟨user, p₃⟩ := page
  simp only
  intro hcreate hne hmap₁ hmap₂ himage hclear hfields
  rw [if_neg hargs, hslot]
  simp only [hcreate, Option.bind_eq_bind, Option.bind_some]
  rw [if_neg hne, hmap₁, Option.bind_some, hmap₂, Option.bind_some, himage, Option.bind_some, hclear,
    Option.bind_some, hfields]
  rfl

/-- The process that `process_create` fills in has fresh pages. -/
theorem fresh_kernelProcess {p : Pmm} (hsound : p.Sound) (hstack : p.allocatePage.1 ≠ 0)
    (hdirectory : p.allocatePage.2.allocatePage.1 ≠ 0) (k : Kernel) (entry argument : UInt32) :
    Fresh p p.allocatePage.2.allocatePage.2
      (k.kernelProcess p.allocatePage.2.allocatePage.1 p.allocatePage.1 entry argument) := by
  obtain ⟨hall, hnodup, hpage⟩ := (hsound.takenTwo hstack hdirectory).spec
  exact ⟨hall, rfl, rfl, rfl, hnodup, hpage⟩

/-- The process that `process_create_user` fills in has fresh pages. -/
theorem fresh_userProcess {p q : Pmm} {stack code user directory : UInt32}
    (htaken : Pmm.TakenAll p [stack, code, user, directory] q) (k : Kernel) :
    Fresh p q (k.userProcess directory stack code user) := by
  obtain ⟨hall, hnodup, hpage⟩ := htaken.spec
  have hperm : [stack, code, user, directory].Perm [stack, directory, code, user] :=
    .cons _ (@List.perm_append_comm _ [code, user] [directory])
  exact ⟨hall, rfl, rfl, rfl, hperm.nodup_iff.mp hnodup,
    fun a ha => hpage a (hperm.mem_iff.mpr ha)⟩

theorem processCreate_creation (hsound : k.space.pmm.Sound) {entry argument : UInt32}
    (h : k.processCreate access layout entry argument = some (k', result)) :
    Creation (entry = 0) 2 k k' result := by
  have hshrinks := hsound.shrinks_allocatePage
  have hshrinks₂ := hshrinks.trans hshrinks.sound.shrinks_allocatePage
  rcases processCreate_cases h with ⟨hreason, rfl, rfl⟩ |
    ⟨slot, s, directory, hslot, hcreate, hrest⟩
  · exact .failed k'.space.memory k'.space.pmm (.refl hsound) (hreason.imp id .inl)
  obtain ⟨rfl, m₁, rfl⟩ := createPageDirectory_eq hcreate
  rcases hrest with ⟨hfailed, rfl, rfl⟩ | ⟨hstack, hdirectory, rfl, s₁, s₂, hclear, hfields, rfl⟩
  · obtain ⟨pmm, hpmm, hrelease⟩ := release_eq
      (s := { k.space with memory := m₁, pmm := _ }) hshrinks₂
      (fun hne => (hsound.taken_allocatePage hne).was_free)
    have hfew : k.space.pmm.free.card < 2 := by
      have hcard := hsound.card_allocatePage
      rcases hfailed with hzero | hzero
      · have := hcard.2 hzero
        omega
      · have := hshrinks.sound.card_allocatePage.2 hzero
        omega
    rw [hrelease]
    exact .failed m₁ pmm hpmm (.inr (.inr hfew))
  · obtain ⟨m₂, rfl⟩ := Space.clear_eq hclear
    obtain ⟨m₃, rfl⟩ := storeFields_eq hfields
    exact .entered slot _ m₃ _ hslot (fresh_kernelProcess hsound hstack hdirectory k _ _) rfl

theorem processCreateUser_creation (hsound : k.space.pmm.Sound) {image imageSize : UInt32}
    (h : k.processCreateUser access layout image imageSize = some (k', result)) :
    Creation (image = 0 ∨ imageSize = 0 ∨ 4096 < imageSize) 4 k k' result := by
  have hshrinks₁ := hsound.shrinks_allocatePage
  have hshrinks₂ := hshrinks₁.trans hshrinks₁.sound.shrinks_allocatePage
  have hshrinks₃ := hshrinks₂.trans hshrinks₂.sound.shrinks_allocatePage
  have hshrinks₄ := hshrinks₃.trans hshrinks₃.sound.shrinks_allocatePage
  rcases processCreateUser_cases h with ⟨hreason, rfl, rfl⟩ |
    ⟨slot, s, directory, hslot, hcreate, hrest⟩
  · exact .failed k'.space.memory k'.space.pmm (.refl hsound) (hreason.imp id .inl)
  obtain ⟨rfl, m₁, rfl⟩ := createPageDirectory_eq hcreate
  rcases hrest with ⟨hfailed, rfl, rfl⟩ | ⟨hstack, hcode, huser, hdirectory, -, rfl, s₁, s₂, s₃, s₄,
    s₅, hmap₁, hmap₂, himage, hclear, hfields, rfl⟩
  · obtain ⟨q₁, hq₁, hrelease₁⟩ := release_eq
      (s := { k.space with memory := m₁, pmm := _ }) hshrinks₄
      (fun hne => (hsound.taken_allocatePage hne).was_free)
    obtain ⟨q₂, hq₂, hrelease₂⟩ := release_eq
      (s := { k.space with memory := m₁, pmm := q₁ }) hq₁
      (fun hne => hshrinks₁.free_subset (hshrinks₁.sound.taken_allocatePage hne).was_free)
    obtain ⟨q₃, hq₃, hrelease₃⟩ := release_eq
      (s := { k.space with memory := m₁, pmm := q₂ }) hq₂
      (fun hne => hshrinks₂.free_subset (hshrinks₂.sound.taken_allocatePage hne).was_free)
    have hfew : k.space.pmm.free.card < 4 := by
      have hcard₁ := hsound.card_allocatePage
      have hcard₂ := hshrinks₁.sound.card_allocatePage
      have hcard₃ := hshrinks₂.sound.card_allocatePage
      rcases hfailed with hzero | hzero | hzero | hzero
      · have := hcard₁.2 hzero
        omega
      · have := hcard₂.2 hzero
        omega
      · have := hcard₃.2 hzero
        omega
      · have := hshrinks₃.sound.card_allocatePage.2 hzero
        omega
    rw [hrelease₁, hrelease₂, hrelease₃]
    exact .failed m₁ q₃ hq₃ (.inr (.inr hfew))
  · -- the mappings may take a page for a table each
    obtain ⟨m₂, q₁, hq₁, rfl⟩ := mapPageIn_shrinks hshrinks₄.sound hmap₁
    obtain ⟨m₃, q₂, hq₂, rfl⟩ := mapPageIn_shrinks hq₁.sound hmap₂
    obtain ⟨m₄, rfl⟩ := Space.copyBytes_eq himage
    obtain ⟨m₅, rfl⟩ := Space.clear_eq hclear
    obtain ⟨m₆, rfl⟩ := storeFields_eq hfields
    have htaken := (hsound.takenFour hstack hcode huser hdirectory).shrink (hq₁.trans hq₂)
    exact .entered slot _ m₆ q₂ hslot (fresh_userProcess htaken k) rfl

end Calls

end LevOS
