import LevOS.Process.TableRuns
import LevOS.Process.Outcomes
import LevOS.Process.Stacks
import Mathlib.Algebra.BigOperators.Fin

/-!
# Conservation of pages

A creation takes pages for its process, and none of them is given back when the
process exits. As long as creations find unused slots the pages are still
accounted for: each is free or belongs to a slot. A creation that takes over the
slot of a process which has exited forgets that process's pages.

## Main definitions

* `Kernel.slotPages`, the number of pages that a slot owns
* `Call.Spares`, calls that take over no such slot

## Main results

* `tableRun_conserves`
-/

namespace LevOS

open Foundation Memory

/-! ## Pages of the table -/

/-- The number of pages that a slot owns. -/
def Kernel.slotPages (k : Kernel) (i : Slot) : Nat :=
  if i ≠ 0 ∧ (k.processes i).state ≠ .unused then (k.processes i).pages.length else 0

section Table

variable {layout : Layout} {pool : Finset Nat} {k k' : Kernel}

theorem Kernel.length_ownedPages (k : Kernel) : k.ownedPages.length = ∑ i, k.slotPages i := by
  rw [Kernel.ownedPages, List.length_flatMap, ← List.sum_ofFn, List.ofFn_eq_map]
  generalize List.finRange 16 = slots
  induction slots with
  | nil => rfl
  | cons i slots ih =>
    rw [List.map_cons, List.sum_cons, ← ih, List.filter_cons]
    by_cases hi : i ≠ 0 ∧ (k.processes i).state ≠ .unused
    · rw [if_pos (by simpa using hi), Kernel.slotPages, if_pos hi, List.map_cons, List.sum_cons]
    · rw [if_neg (by simpa using hi), Kernel.slotPages, if_neg hi, Nat.zero_add]

/-- A new process replaces what its slot owned. -/
theorem Kernel.length_ownedPages_enter (k : Kernel) {slot : Slot} (hslot : slot ≠ 0)
    (process : Process) (hstate : process.state ≠ .unused) (space : Space) :
    (k.enterProcess slot process space).ownedPages.length + k.slotPages slot =
      k.ownedPages.length + process.pages.length := by
  have hnew : (k.enterProcess slot process space).slotPages =
      Function.update k.slotPages slot process.pages.length := by
    funext i
    by_cases hi : i = slot
    · rw [hi, Function.update_self, Kernel.slotPages, k.enterProcess_self, if_pos ⟨hslot, hstate⟩]
    · rw [Function.update_of_ne hi, Kernel.slotPages, k.enterProcess_of_ne hi, Kernel.slotPages]
  rw [Kernel.length_ownedPages, Kernel.length_ownedPages, hnew,
    Finset.sum_update_of_mem (Finset.mem_univ slot),
    ← Finset.add_sum_erase _ k.slotPages (Finset.mem_univ slot), Finset.sdiff_singleton_eq_erase]
  omega

/-- Changes of state that make no slot unused or used leave the account alone. -/
theorem Kernel.length_ownedPages_congr
    (h : ∀ i, ∃ state, k'.processes i = { k.processes i with state := state } ∧
      (state = .unused ↔ (k.processes i).state = .unused)) :
    k'.ownedPages.length = k.ownedPages.length := by
  rw [Kernel.length_ownedPages, Kernel.length_ownedPages]
  refine Finset.sum_congr rfl fun i _ => ?_
  obtain ⟨state, heq, hstate⟩ := h i
  rw [Kernel.slotPages, Kernel.slotPages, heq]
  simp only [ne_eq, hstate]
  rfl

end Table

/-! ## Steps -/

/-- The kernel's directory still leads to the table of the user addresses. -/
def Kernel.Rooted (layout : Layout) (k : Kernel) : Prop :=
  load32 k.space.memory (layout.pageDirectory + 4) = identityEntry layout 1

/-- The pages of the pool are free or belong to a slot. -/
structure Conserved (layout : Layout) (pool : Finset Nat) (k : Kernel) : Prop where
  owned : Owned layout pool k
  rooted : k.Rooted layout
  balance : k.space.pmm.free.card + k.ownedPages.length = pool.card

/-- The account after a creation that takes pages: what the slot owned before is lost. -/
structure Spent (layout : Layout) (pages : Nat) (k k' : Kernel) (slot : Slot) : Prop where
  vacant : k.vacantSlot = some slot
  enough : pages ≤ k.space.pmm.free.card
  rooted : k'.Rooted layout
  balance : k'.space.pmm.free.card + k'.ownedPages.length + k.slotPages slot =
    k.space.pmm.free.card + k.ownedPages.length

section Steps

variable {layout : Layout} {pool : Finset Nat} {k k' : Kernel} {result : Int32}

/-- Memory that changes outside of the kernel image, and in the identity tables, leaves
the kernel's directory alone. -/
theorem Kernel.Rooted.frame (h : k.Rooted layout)
    (hframe : ∀ a, layout.pageDirectory.toNat ≤ a.toNat →
      a.toNat < layout.pageDirectory.toNat + 4096 → k'.space.memory a = k.space.memory a) :
    k'.Rooted layout := by
  have hmem := layout.pageDirectory_mem
  have himage := layout.image_le
  have hslot : (layout.pageDirectory + 4).toNat = layout.pageDirectory.toNat + 4 :=
    toNat_add_ofNat (n := 4) (by omega)
  refine Eq.trans (load32_congr fun i hi => ?_) h
  have haddress : (layout.pageDirectory + 4 + UInt32.ofNat i).toNat =
      layout.pageDirectory.toNat + 4 + i := by
    rw [toNat_add_ofNat (by omega), hslot]
  exact hframe _ (by omega) (by omega)

theorem Memory.Pmm.Sound.aligned_allocatePage {p : Pmm} (h : p.Sound) :
    p.allocatePage.1.toNat % 4096 = 0 := by
  rcases h.allocatePage_cases with ⟨-, heq⟩ | htaken
  · rw [heq]
    rfl
  · exact htaken.aligned

theorem eachWord_true {target : UInt32} (haligned : target.toNat % 4 = 0) (n : Nat) :
    EachWord (fun _ => True) target n :=
  ⟨haligned, fun _ _ => trivial⟩

/-- `process_create` either fails or takes two pages for its process. -/
theorem Kernel.Rooted.create (h : k.Rooted layout) (hsound : k.space.pmm.Sound)
    (habove : AboveKernel layout k.space.pmm.free)
    {entry argument : UInt32}
    (hcreate : k.processCreate direct layout entry argument = some (k', result)) :
    k.Failed k' ∨ ∃ slot, Spent layout 2 k k' slot := by
  have hsound₁ := hsound.allocatePage
  have hsaligned := hsound.aligned_allocatePage
  have hcontext := context_toNat hsaligned
  have hdaligned := hsound₁.aligned_allocatePage
  have hkaligned := layout.pageDirectory_aligned
  have hdmem := layout.pageDirectory_mem
  rcases processCreate_plain hsound habove (plain_direct k.space.cr3) trivial hcreate (fun _ =>
    ⟨eachWord_true (by omega) _, eachWord_true (by omega) _, eachWord_true (by omega) _⟩) with
    hfailed | ⟨slot, m, hvacant, hstarted, -, hstack, hdirectory, rfl⟩
  · exact .inl hfailed
  · right
    have hcard := hsound.card_taken hstack
    have hcard' := hsound₁.card_taken hdirectory
    refine ⟨slot, hvacant, by omega, h.frame fun a hlow hhigh => hstarted.frame a ?_ ?_, ?_⟩
    · have hpage := habove _ (hsound.taken_allocatePage hstack).was_free
      unfold Outside
      omega
    · have hpage := habove _ (hsound.shrinks_allocatePage.free_subset
        (hsound₁.taken_allocatePage hdirectory).was_free)
      unfold Outside
      omega
    · have henter := k.length_ownedPages_enter (vacantSlot_spec hvacant).1
        (k.kernelProcess k.space.pmm.allocatePage.2.allocatePage.1 k.space.pmm.allocatePage.1
          entry argument) (by rintro ⟨⟩)
        { k.space with memory := m, pmm := k.space.pmm.allocatePage.2.allocatePage.2 }
      rw [show (k.kernelProcess _ _ entry argument).pages.length = 2 from rfl] at henter
      change k.space.pmm.allocatePage.2.allocatePage.2.free.card + _ + _ = _
      omega

/-- What `process_create_user` comes to at physical addresses. The table of the user
addresses exists, so no page is taken for it. -/
theorem Kernel.Rooted.createUser_cases (h : k.Rooted layout) (hsound : k.space.pmm.Sound)
    (habove : AboveKernel layout k.space.pmm.free)
    {image imageSize : UInt32}
    (hcreate : k.processCreateUser direct layout image imageSize = some (k', result)) :
    let stack := k.space.pmm.allocatePage
    let code := stack.2.allocatePage
    let user := code.2.allocatePage
    let directory := user.2.allocatePage
    k.Failed k' ∨ ∃ slot m, k.vacantSlot = some slot ∧
      NewPages layout stack.1 code.1 user.1 directory.1 ∧
      UserStarted layout k.space.memory m stack.1 code.1 user.1 directory.1 ∧
      k' = k.enterProcess slot (k.userProcess directory.1 stack.1 code.1 user.1)
        { k.space with memory := m, pmm := directory.2 } := by
  intro stack code user directory
  have hsaligned := hsound.aligned_allocatePage
  have hcontext := context_toNat hsaligned
  have hdaligned := hsound.allocatePage.allocatePage.allocatePage.aligned_allocatePage
  have hkaligned := layout.pageDirectory_aligned
  rcases processCreateUser_plain hsound habove (plain_direct k.space.cr3) trivial h hcreate (fun _ =>
    ⟨eachWord_true (by omega) _, eachWord_true (by omega) _, trivial, trivial, trivial,
      fun _ _ => trivial, eachWord_true (by omega) _⟩) with
    hfailed | ⟨slot, m, hvacant, hpages, hstarted, -, heq⟩
  · exact .inl hfailed
  · exact .inr ⟨slot, m, hvacant, hpages, hstarted, heq⟩

/-- The pages of a new user process were free. -/
theorem NewPages.taken (hsound : k.space.pmm.Sound)
    (hpages : NewPages layout k.space.pmm.allocatePage.1 k.space.pmm.allocatePage.2.allocatePage.1
      k.space.pmm.allocatePage.2.allocatePage.2.allocatePage.1
      k.space.pmm.allocatePage.2.allocatePage.2.allocatePage.2.allocatePage.1) :
    Pmm.TakenAll k.space.pmm
      [k.space.pmm.allocatePage.1, k.space.pmm.allocatePage.2.allocatePage.1,
        k.space.pmm.allocatePage.2.allocatePage.2.allocatePage.1,
        k.space.pmm.allocatePage.2.allocatePage.2.allocatePage.2.allocatePage.1]
      k.space.pmm.allocatePage.2.allocatePage.2.allocatePage.2.allocatePage.2 := by
  have hdmem := layout.pageDirectory_mem
  obtain ⟨hsabove, hcabove, huabove, hdabove⟩ := hpages.above
  have hne {x : UInt32} (hx : layout.kernelEnd.toNat ≤ x.toNat) : x ≠ 0 := by
    rintro rfl
    rw [UInt32.toNat_zero] at hx
    omega
  exact hsound.takenFour (hne hsabove) (hne hcabove) (hne huabove) (hne hdabove)

/-- `process_create_user` either fails or takes four pages for its process. -/
theorem Kernel.Rooted.createUser (h : k.Rooted layout) (hsound : k.space.pmm.Sound)
    (habove : AboveKernel layout k.space.pmm.free)
    {image imageSize : UInt32}
    (hcreate : k.processCreateUser direct layout image imageSize = some (k', result)) :
    k.Failed k' ∨ ∃ slot, Spent layout 4 k k' slot := by
  have hsound₁ := hsound.allocatePage
  have hsound₂ := hsound₁.allocatePage
  have hsound₃ := hsound₂.allocatePage
  have hdmem := layout.pageDirectory_mem
  have htmem := layout.identityTables_mem
  have hapart := layout.directory_tables
  have htable : (tableAddress layout 1).toNat = layout.identityTables.toNat + 4096 * 1 :=
    tableAddress_toNat (by decide)
  rcases h.createUser_cases hsound habove hcreate with
    hfailed | ⟨slot, m, hvacant, hpages, hstarted, rfl⟩
  · exact .inl hfailed
  · right
    obtain ⟨hsabove, hcabove, huabove, hdabove⟩ := hpages.above
    obtain ⟨-, -, hpage⟩ := (hpages.taken hsound).spec
    simp only [List.mem_cons, List.not_mem_nil, or_false, forall_eq_or_imp, forall_eq] at hpage
    -- each page taken is one free page less
    have hcard := hsound.card_taken hpage.1.1
    have hcard₁ := hsound₁.card_taken hpage.2.1.1
    have hcard₂ := hsound₂.card_taken hpage.2.2.1.1
    have hcard₃ := hsound₃.card_taken hpage.2.2.2.1
    refine ⟨slot, hvacant, by omega, h.frame fun a hlow hhigh => hstarted.frame a ?_ ?_ ?_ ?_, ?_⟩
    · unfold Outside
      omega
    · unfold Outside
      omega
    · unfold Outside
      omega
    · unfold Outside
      omega
    · have henter := k.length_ownedPages_enter (vacantSlot_spec hvacant).1
        (k.userProcess k.space.pmm.allocatePage.2.allocatePage.2.allocatePage.2.allocatePage.1
          k.space.pmm.allocatePage.1 k.space.pmm.allocatePage.2.allocatePage.1
          k.space.pmm.allocatePage.2.allocatePage.2.allocatePage.1) (by rintro ⟨⟩)
        { k.space with
          memory := m
          pmm := k.space.pmm.allocatePage.2.allocatePage.2.allocatePage.2.allocatePage.2 }
      rw [show (k.userProcess _ _ _ _).pages.length = 4 from rfl] at henter
      change k.space.pmm.allocatePage.2.allocatePage.2.allocatePage.2.allocatePage.2.free.card + _ +
        _ = _
      omega

theorem Conserved.failed (h : Conserved layout pool k) (howned : Owned layout pool k')
    (hfailed : k.Failed k') : Conserved layout pool k' := by
  obtain ⟨pmm, rfl, -, hfree⟩ := hfailed
  refine ⟨howned, h.rooted, ?_⟩
  change pmm.free.card + k.ownedPages.length = _
  rw [hfree]
  exact h.balance

/-- A creation in an unused slot keeps the account. -/
theorem Conserved.spent (h : Conserved layout pool k) (howned : Owned layout pool k') {pages : Nat}
    {slot : Slot} (hspent : Spent layout pages k k' slot)
    (hspares : k.space.pmm.pmmFreePages.toNat < pages ∨
      ∀ i, k.vacantSlot = some i → (k.processes i).state = .unused) :
    Conserved layout pool k' := by
  have hcount : k.space.pmm.pmmFreePages.toNat = k.space.pmm.free.card := h.owned.sound.counted
  have hunused : (k.processes slot).state = .unused := by
    rcases hspares with hfew | hunused
    · exact absurd hspent.enough (by omega)
    · exact hunused slot hspent.vacant
  refine ⟨howned, hspent.rooted, ?_⟩
  have hbalance := hspent.balance
  rw [Kernel.slotPages, if_neg (fun hused => hused.2 hunused), Nat.add_zero] at hbalance
  exact hbalance.trans h.balance

theorem Conserved.terminate (h : Conserved layout pool k) :
    Conserved layout pool k.processTerminateCurrent := by
  refine ⟨h.owned.terminate, ?_, ?_⟩
  · rcases h.owned.terminate_cases with ⟨-, heq⟩ | ⟨r, -, -, heq⟩
    · rw [heq]
      exact h.rooted
    · rw [heq]
      exact h.rooted
  · rcases h.owned.terminate_cases with ⟨-, heq⟩ | ⟨r, -, hocc, heq⟩
    · rw [heq]
      exact h.balance
    · rw [heq]
      have hsame : (k.setState r .zombie).ownedPages.length = k.ownedPages.length := by
        refine Kernel.length_ownedPages_congr fun i => ?_
        by_cases hi : i = r
        · subst hi
          exact ⟨.zombie, k.setState_self i .zombie, iff_of_false (by rintro ⟨⟩) hocc.2⟩
        · exact ⟨_, k.setState_of_ne hi .zombie, Iff.rfl⟩
      rw [hsame]
      exact h.balance

theorem Conserved.countTick (h : Conserved layout pool k) :
    Conserved layout pool { k with quantumTicks := k.quantumTicks + 1 } :=
  ⟨h.owned.congr (.refl h.owned.sound) h.owned.current rfl rfl (.refl rfl), h.rooted, h.balance⟩

/-- The saved contexts are apart from the kernel's directory. -/
theorem Owned.context_outside (h : Owned layout pool k)
    (hpool : AboveKernel layout pool) {r : Slot} (hr : k.Used r) :
    ∀ a : UInt32, layout.pageDirectory.toNat ≤ a.toNat →
      a.toNat < layout.pageDirectory.toNat + 4096 → Outside a (k.processes r).context 60 := by
  have hdmem := layout.pageDirectory_mem
  have hapart := layout.directory_bootstrap
  intro a hlow hhigh
  unfold Outside
  rcases hr with rfl | hocc
  · have hcontext := h.context_zero_toNat
    omega
  · have hcontext := h.context_toNat hocc
    obtain ⟨haligned, habove⟩ := h.stackBase_spec hpool hocc
    omega

theorem Conserved.schedule (h : Conserved layout pool k)
    (hpool : AboveKernel layout pool) {context next : UInt32}
    (hschedule : k.schedule direct layout context = some (k', next)) : Conserved layout pool k' := by
  have howned := h.owned.schedule hschedule
  obtain ⟨r, hr, ⟨-, -, rfl, -⟩ | ⟨i, space, -, hnext, hsave, -, rfl⟩⟩ :=
    h.owned.schedule_cases hschedule
  · exact ⟨howned, h.rooted, h.balance⟩
  · have hused := h.owned.used_running hr
    have hfit := h.owned.context_fits hused
    have houtside := h.owned.context_outside hpool hused
    refine ⟨howned, h.rooted.frame fun a hlow hhigh => ?_, ?_⟩
    · exact Kernel.savedSpace_direct hsave hfit (houtside a hlow hhigh)
    · obtain ⟨m, rfl⟩ := Kernel.savedSpace_eq hsave
      have hsame : (Kernel.dispatch layout { k with space := { k.space with memory := m } } i
          ).ownedPages.length = k.ownedPages.length := by
        refine Kernel.length_ownedPages_congr fun j => ?_
        by_cases hj : j = i
        · subst hj
          refine ⟨.running, Kernel.dispatch_self _ _ _, iff_of_false (by rintro ⟨⟩) fun hunused => ?_⟩
          have hlive := Kernel.live_of_nextLive hnext
          rw [Process.live, hunused] at hlive
          cases hlive
        · exact ⟨_, Kernel.dispatch_of_ne _ _ hj, Iff.rfl⟩
      exact (congrArg (k.space.pmm.free.card + ·) hsame).trans h.balance

end Steps

/-! ## Runs -/

/-- A creation finds an unused slot, or fails for another reason; and what else runs
leaves the kernel's own directory alone. -/
def Call.Spares (layout : Layout) (k : Kernel) : Call → Prop
  | .create entry _ => entry = 0 ∨ k.space.pmm.pmmFreePages.toNat < 2 ∨
    ∀ i, k.vacantSlot = some i → (k.processes i).state = .unused
  | .createUser image imageSize => (image = 0 ∨ imageSize = 0 ∨ 4096 < imageSize) ∨
    k.space.pmm.pmmFreePages.toNat < 4 ∨
    ∀ i, k.vacantSlot = some i → (k.processes i).state = .unused
  | .tick _ | .yield _ | .terminate => True
  | .other memory _ => ∀ a, layout.pageDirectory.toNat ≤ a.toNat →
    a.toNat < layout.pageDirectory.toNat + 4096 → memory a = k.space.memory a

/-- One run leads to another by a call that takes over no slot of a process which has
exited. -/
def TableRun.SparingStep (layout : Layout) (run run' : TableRun) : Prop :=
  ∃ call : Call, call.Spares layout run.kernel ∧ run.step direct layout call = some run'

section Runs

variable {layout : Layout} {pool : Finset Nat} {run run' : TableRun}

theorem Conserved.step (h : Conserved layout pool run.kernel)
    (hpool : AboveKernel layout pool)
    (hstep : run.SparingStep layout run') : Conserved layout pool run'.kernel := by
  have habove : AboveKernel layout run.kernel.space.pmm.free :=
    hpool.mono h.owned.free_subset
  obtain ⟨call, hspares, hcall⟩ := hstep
  cases call with
  | create entry argument =>
    obtain ⟨⟨k, result⟩, hcreate, rfl⟩ := Option.map_eq_some_iff.mp hcall
    have howned := h.owned.creation (processCreate_creation h.owned.sound hcreate)
    -- refused before anything is allocated, or with pages enough
    rcases hspares with hzero | hspares
    · rw [Kernel.processCreate, if_pos hzero] at hcreate
      obtain ⟨rfl, -⟩ := Prod.mk.inj (Option.some.inj hcreate)
      exact h
    · rcases h.rooted.create h.owned.sound habove hcreate with hfailed | ⟨slot, hspent⟩
      · exact h.failed howned hfailed
      · exact h.spent howned hspent hspares
  | createUser image imageSize =>
    obtain ⟨⟨k, result⟩, hcreate, rfl⟩ := Option.map_eq_some_iff.mp hcall
    have howned := h.owned.creation (processCreateUser_creation h.owned.sound hcreate)
    rcases hspares with hrejected | hspares
    · rw [Kernel.processCreateUser, if_pos hrejected] at hcreate
      obtain ⟨rfl, -⟩ := Prod.mk.inj (Option.some.inj hcreate)
      exact h
    · rcases h.rooted.createUser h.owned.sound habove hcreate with hfailed | ⟨slot, hspent⟩
      · exact h.failed howned hfailed
      · exact h.spent howned hspent hspares
  | tick context =>
    obtain ⟨⟨k, next⟩, htick, rfl⟩ := Option.map_eq_some_iff.mp hcall
    exact h.countTick.schedule hpool htick
  | yield context =>
    obtain ⟨⟨k, next⟩, hyield, rfl⟩ := Option.map_eq_some_iff.mp hcall
    exact h.schedule hpool hyield
  | terminate =>
    obtain rfl := Option.some.inj hcall
    exact h.terminate
  | other memory cr3 =>
    obtain rfl := Option.some.inj hcall
    exact ⟨h.owned.setMemory memory cr3, h.rooted.frame hspares, h.balance⟩

theorem Conserved.reach (h : Conserved layout pool run.kernel)
    (hpool : AboveKernel layout pool)
    (hsteps : Relation.ReflTransGen (TableRun.SparingStep layout) run run') :
    Conserved layout pool run'.kernel := by
  induction hsteps with
  | refl => exact h
  | tail _ hstep ih => exact ih.step hpool hstep

/-- A tick that gives the processor to the only other live slot. -/
theorem Conserved.tick_to {k : Kernel} (h : Conserved layout pool k)
    (hpool : AboveKernel layout pool) {r i : Slot}
    (hr : k.running = some r) (hir : i ≠ r) (hi : (k.processes i).live = true)
    (honly : ∀ j ≠ r, (k.processes j).live = true → j = i)
    (hstate : (k.processes r).state = .zombie ∨ (k.processes r).live = true) (context : UInt32)
    (created : Nat) :
    ∃ k', TableRun.step direct layout ⟨k, created⟩ (.tick context) = some ⟨k', created⟩ ∧
      Conserved layout pool k' ∧ k'.running = some i ∧ k'.space.pmm = k.space.pmm ∧
      k'.processes i = { k.processes i with state := .running } ∧
      ∀ j ≠ i, k'.processes j = k.processes j := by
  have hcounted := h.countTick
  obtain ⟨m, directory, next, hschedule⟩ :=
    hcounted.owned.schedule_to hr hir hi honly hstate context
  have hstep := congrArg (Option.map fun result => TableRun.mk result.1 created) hschedule
  refine ⟨_, hstep, ?_, rfl, rfl, Kernel.dispatch_self layout _ i,
    fun j hj => Kernel.dispatch_of_ne layout _ hj⟩
  exact hcounted.schedule hpool hschedule

variable {bytes : Pmm → Memory} {info : UInt32} {fuel : Nat} {pmm : Pmm} {memory : Memory}
  {esp0 : UInt32} {k₀ : Kernel}

/-- When `scheduler_init` returns no slot owns a page. -/
theorem conserved_start (hpmm : Pmm.pmmInit bytes layout.kernelEnd info fuel = some pmm)
    (hinit : schedulerInit direct layout (Kernel.boot layout memory pmm esp0) = some k₀) :
    Conserved layout pmm.free k₀ ∧ k₀.space.pmm = pmm := by
  have howned := (TableRun.invariant_start hpmm hinit).owned
  have hvacant := schedulerInit_vacant hinit
  have hcontext := bootstrapContextAddress_toNat layout
  have hdmem := layout.pageDirectory_mem
  have hbmem := layout.bootstrapStack_mem
  have hapart := layout.directory_bootstrap
  have himage := layout.image_le
  have hspace := schedulerInit_space hinit
  rw [Space.clear_direct] at hspace
  have hspace := Option.some.inj hspace
  refine ⟨⟨howned, ?_, ?_⟩, ?_⟩
  · have hboot : (Kernel.boot layout memory pmm esp0).Rooted layout :=
      @initPaging_directory layout { memory := memory, cr3 := 0, pmm := pmm } 1 (by decide)
    refine hboot.frame fun a hlow hhigh => ?_
    rw [← hspace]
    apply clearWords_outside
    · change Outside a _ 60
      unfold Outside
      omega
    · change _ + 60 ≤ _
      omega
  · have hnone : ∀ i ∈ Finset.univ, k₀.slotPages i = 0 := fun i _ => if_neg (hvacant i)
    rw [Kernel.length_ownedPages, Finset.sum_eq_zero hnone, Nat.add_zero, ← hspace]
    exact congrArg (·.free.card) (Kernel.boot_pmm layout memory pmm esp0)
  · rw [← hspace]
    exact Kernel.boot_pmm layout memory pmm esp0

end Runs

/-- Page conservation: in every run in which no creation takes over the slot of a process
that has exited, the free pages and the pages of the slots add up to the pages that were
free after `scheduler_init`. The kernel reaches the pages of the allocator at their physical
addresses. -/
theorem tableRun_conserves {layout : Layout} {bytes : Pmm → Memory} {info : UInt32} {fuel : Nat}
    {pmm : Pmm} {memory : Memory} {esp0 : UInt32} {k₀ : Kernel} {run : TableRun}
    (hpmm : Pmm.pmmInit bytes layout.kernelEnd info fuel = some pmm)
    (hinit : schedulerInit direct layout (Kernel.boot layout memory pmm esp0) = some k₀)
    (hrun : Relation.ReflTransGen (TableRun.SparingStep layout) ⟨k₀, 0⟩ run) :
    run.kernel.space.pmm.pmmFreePages.toNat + run.kernel.ownedPages.length =
      k₀.space.pmm.pmmFreePages.toNat := by
  obtain ⟨hstart, hfree⟩ := conserved_start hpmm hinit
  have hconserved : Conserved layout pmm.free run.kernel :=
    Conserved.reach hstart (aboveKernel_pmmInit hpmm) hrun
  have hcount : run.kernel.space.pmm.pmmFreePages.toNat = run.kernel.space.pmm.free.card :=
    hconserved.owned.sound.counted
  have hcount₀ : k₀.space.pmm.pmmFreePages.toNat = k₀.space.pmm.free.card :=
    hstart.owned.sound.counted
  rw [hcount, hcount₀, hfree]
  exact hconserved.balance

/-- A process is created; its two pages are no longer free. -/
theorem tableRun_conserves_created :
    ∃ (pmm : Pmm) (k₀ k₁ : Kernel),
      schedulerInit direct sampleLayout (Kernel.boot sampleLayout (fun _ => 0) pmm 0) = some k₀ ∧
      TableRun.step direct sampleLayout ⟨k₀, 0⟩ (.create 0x101000 0) = some ⟨k₁, 1⟩ ∧
      k₁.space.pmm.pmmFreePages.toNat + k₁.ownedPages.length =
        k₀.space.pmm.pmmFreePages.toNat := by
  obtain ⟨pmm, k₀, process, m, p, hpmm, hinit, hcreate, -, -, -, -, -, htable, -⟩ := noMapCreate
  have hcall : TableRun.step direct sampleLayout ⟨k₀, 0⟩ (.create 0x101000 0) =
      some ⟨k₀.enterProcess 1 process { k₀.space with memory := m, pmm := p }, 1⟩ := by
    rw [TableRun.step, hcreate]
    rfl
  refine ⟨pmm, k₀, _, hinit, hcall, tableRun_conserves hpmm hinit (.single ⟨_, ?_, hcall⟩)⟩
  refine .inr (.inr fun i hi => ?_)
  rw [htable, initialProcesses_of_ne sampleLayout (vacantSlot_spec hi).1]
  rfl

/-- The first process exits, and the next one takes over its slot: two pages are lost. -/
theorem tableRun_leak :
    ∃ (pmm : Pmm) (k₀ : Kernel) (run : TableRun),
      Pmm.pmmInit (fun _ _ => 0) sampleLayout.kernelEnd 0 0 = some pmm ∧
      schedulerInit direct sampleLayout (Kernel.boot sampleLayout (fun _ => 0) pmm 0) = some k₀ ∧
      Relation.ReflTransGen (TableRun.Step direct sampleLayout) ⟨k₀, 0⟩ run ∧
      run.kernel.space.pmm.pmmFreePages.toNat + run.kernel.ownedPages.length + 2 =
        k₀.space.pmm.pmmFreePages.toNat := by
  obtain ⟨pmm, k₀, process, m, p, hpmm, hinit, hcreate, hfresh, huser, -, hcard, hrunning, htable,
    -⟩ := noMapCreate
  obtain ⟨hstart, hfree⟩ := conserved_start hpmm hinit
  have hpool : AboveKernel sampleLayout pmm.free := aboveKernel_pmmInit hpmm
  set k₁ := k₀.enterProcess 1 process { k₀.space with memory := m, pmm := p } with hk₁
  have hself : k₁.processes 1 = process := k₀.enterProcess_self _ _ _
  have hother {j : Slot} (hj : j ≠ 1) : k₁.processes j = initialProcesses sampleLayout j := by
    rw [hk₁, k₀.enterProcess_of_ne hj, htable]
  -- the process is created
  have hcall₀ : TableRun.step direct sampleLayout ⟨k₀, 0⟩ (.create 0x101000 0) = some ⟨k₁, 1⟩ := by
    rw [TableRun.step, hcreate]
    rfl
  have hspares₀ : (Call.create 0x101000 0).Spares sampleLayout k₀ := by
    refine .inr (.inr fun i hi => ?_)
    rw [htable, initialProcesses_of_ne sampleLayout (vacantSlot_spec hi).1]
    rfl
  have hkept₁ : Conserved sampleLayout pmm.free k₁ :=
    Conserved.step (hstart : Conserved _ _ (TableRun.mk k₀ 0).kernel) hpool ⟨_, hspares₀, hcall₀⟩
  -- a tick gives it the processor
  have hlive₁ : (k₁.processes 1).live = true := by
    rw [hself, Process.live, hfresh.state]
    rfl
  have honly₁ (j : Slot) (hj : j ≠ 0) (hlive : (k₁.processes j).live = true) : j = 1 := by
    by_contra hne
    rw [hother hne, initialProcesses_of_ne sampleLayout hj] at hlive
    cases hlive
  obtain ⟨k₂, hcall₁, hkept₂, hrunning₂, hpmm₂, hself₂, hother₂⟩ :=
    hkept₁.tick_to hpool hrunning (show (1 : Slot) ≠ 0 by decide) hlive₁ honly₁
      (.inr hkept₁.owned.live_zero) 0x117000 1
  -- it exits
  have hkept₃ := hkept₂.terminate
  have hexit : k₂.processTerminateCurrent = k₂.setState 1 .zombie := by
    rcases hkept₂.owned.terminate_cases with ⟨hzero, -⟩ | ⟨r, hr, -, heq⟩
    · rw [hrunning₂] at hzero
      cases hzero
    · rwa [← Option.some.inj (hrunning₂.symm.trans hr)] at heq
  have hcall₂ : TableRun.step direct sampleLayout ⟨k₂, 1⟩ .terminate =
      some ⟨k₂.setState 1 .zombie, 1⟩ := by
    rw [TableRun.step, ← hexit]
  rw [hexit] at hkept₃
  set k₃ := k₂.setState 1 .zombie
  have hself₃ : k₃.processes 1 = { process with state := .zombie } := by
    rw [k₂.setState_self, hself₂, hself]
  have hother₃ {j : Slot} (hj : j ≠ 1) : k₃.processes j = k₁.processes j :=
    (k₂.setState_of_ne hj .zombie).trans (hother₂ j hj)
  -- and the processor goes back to the bootstrap process
  obtain ⟨k₄, hcall₃, hkept₄, -, hpmm₄, -, hother₄⟩ :=
    hkept₃.tick_to hpool hrunning₂ (show (0 : Slot) ≠ 1 by decide) hkept₃.owned.live_zero
      (fun j hj hlive => by
        by_contra hne
        exact hj (honly₁ j hne (hother₃ hj ▸ hlive)))
      (.inl (congrArg Process.state hself₃)) 0x117000 1
  have hzombie : k₄.processes 1 = { process with state := .zombie } :=
    (hother₄ 1 (by decide)).trans hself₃
  have hvacant : k₄.vacantSlot = some 1 := by
    refine List.find?_cons_of_pos ?_
    change (k₄.processes 1).vacant = true
    rw [hzombie]
    rfl
  have hfree₄ : k₄.space.pmm = p := hpmm₄.trans hpmm₂
  -- the next process takes over the slot
  obtain ⟨-, hcard₅, m₅, hcreate₄⟩ := processCreate_entered sampleLayout hkept₄.owned.sound
    (show (0x101000 : UInt32) ≠ 0 by decide) 0 hvacant (by rw [hfree₄]; omega)
  have howned₅ := hkept₄.owned.creation (processCreate_creation hkept₄.owned.sound hcreate₄)
  have hcall₄ : TableRun.step direct sampleLayout ⟨k₄, 1⟩ (.create 0x101000 0) = _ :=
    congrArg (Option.map (TableRun.count 1)) hcreate₄
  refine ⟨pmm, k₀, _, hpmm, hinit, .tail (.tail (.tail (.tail (.single ⟨_, hcall₀⟩) ⟨_, hcall₁⟩)
    ⟨_, hcall₂⟩) ⟨_, hcall₃⟩) ⟨_, hcall₄⟩, ?_⟩
  have hlost : k₄.slotPages 1 = 2 := by
    rw [Kernel.slotPages, hzombie, if_pos ⟨by decide, by rintro ⟨⟩⟩, Process.pages]
    simp only [huser, List.length_cons]
    rfl
  have henter := k₄.length_ownedPages_enter (show (1 : Slot) ≠ 0 by decide)
    (k₄.kernelProcess k₄.space.pmm.allocatePage.2.allocatePage.1 k₄.space.pmm.allocatePage.1
      0x101000 0) (by rintro ⟨⟩)
    { k₄.space with memory := m₅, pmm := k₄.space.pmm.allocatePage.2.allocatePage.2 }
  rw [show (k₄.kernelProcess _ _ 0x101000 0).pages.length = 2 from rfl, hlost] at henter
  have hbalance := hkept₄.balance
  have hcount₀ : k₀.space.pmm.pmmFreePages.toNat = k₀.space.pmm.free.card :=
    hstart.owned.sound.counted
  have hcount₅ : k₄.space.pmm.allocatePage.2.allocatePage.2.pmmFreePages.toNat =
      k₄.space.pmm.allocatePage.2.allocatePage.2.free.card := howned₅.sound.counted
  have hcard₄ : k₄.space.pmm.free.card = p.free.card := by rw [hfree₄]
  have hcard₀ : k₀.space.pmm.free.card = pmm.free.card := by rw [hfree]
  change k₄.space.pmm.allocatePage.2.allocatePage.2.pmmFreePages.toNat +
    (k₄.enterProcess 1 (k₄.kernelProcess _ _ 0x101000 0) _).ownedPages.length + 2 = _
  omega

end LevOS
