import LevOS.Memory.BootMap
import LevOS.Process.Outcomes
import LevOS.Process.TableRuns

/-!
# Creations that fail

A creation takes its pages before it looks at any of them. When one is missing it
gives back the others, and since an allocation that fails is followed only by
allocations that fail, there is no directory to give back: the allocator is left bit
by bit as it was.

## Main definitions

* `Kernel.Refused`, a creation that changes nothing, and why
* `TableRun.Budgeted`, what the creations of a run cost

## Main results

* `processCreate_failed`, `processCreateUser_failed`
* `creation_atomic`
-/

namespace LevOS

open Foundation Memory

/-! ## The allocator is as it was -/

section Pages

variable {p q : Pmm}

/-- Giving back a page, unless its allocation failed, moves no bound. -/
theorem Memory.Pmm.Alike.release {s : Space} (h : p.Alike s.pmm) (hsound : s.pmm.Sound)
    (address : UInt32) : p.Alike (Kernel.release s address).pmm := by
  unfold Kernel.release
  split_ifs
  · exact h.trans (hsound.alike_freePage address)
  · exact h

theorem Memory.Pmm.Sound.release {s : Space} (h : s.pmm.Sound) (address : UInt32) :
    (Kernel.release s address).pmm.Sound := by
  unfold Kernel.release
  split_ifs
  · rcases h.freePage_eq address with ⟨heq, -⟩ | ⟨hsound, -⟩
    · rwa [heq]
    · exact hsound
  · exact h

/-- A space with the pages it had is the space it was. -/
theorem space_eq_of_alike {s : Space} (hp : p.Sound) (halike : p.Alike q) (hq : q.Sound)
    (hfree : q.free = p.free) (hs : s.pmm = p) : { s with pmm := q } = s := by
  rw [halike.eq hp.counted hq.counted hfree, ← hs]

end Pages

/-! ## Calls that fail -/

/-- A creation that is refused: nothing changes, and its arguments are rejected, every
slot of the table but the first is taken, or too few pages are free. -/
structure Kernel.Refused (rejected : Prop) (pages : Nat) (k k' : Kernel) : Prop where
  unchanged : k' = k
  reason : rejected ∨
    (∀ i : Slot, i ≠ 0 → (k.processes i).state ≠ .unused ∧ (k.processes i).state ≠ .zombie) ∨
    k.space.pmm.pmmFreePages.toNat < pages

section Calls

variable {access : Access} {layout : Layout} {k k' : Kernel} {result : Int32}

/-- The search for a slot fails if there is none to find. -/
theorem Kernel.vacantSlot_eq_none (h : k.vacantSlot = none) {i : Slot} (hi : i ≠ 0) :
    (k.processes i).state ≠ .unused ∧ (k.processes i).state ≠ .zombie := by
  have htail : ∀ i : Slot, i ≠ 0 → i ∈ (List.finRange 16).tail := by decide
  have hvacant := List.find?_eq_none.mp h i (htail i hi)
  simpa only [Process.vacant, Bool.or_eq_true, decide_eq_true_eq, not_or] using hvacant

/-- The reasons for a failure, in the words of the table and the allocator. -/
theorem Kernel.Refused.of_reason (hsound : k.space.pmm.Sound) {rejected : Prop} {pages : Nat}
    (h : rejected ∨ k.vacantSlot = none ∨ k.space.pmm.free.card < pages) :
    k.Refused rejected pages k := by
  refine ⟨rfl, h.imp id (Or.imp (fun hnone i hi => Kernel.vacantSlot_eq_none hnone hi) ?_)⟩
  intro hcard
  have hcount : k.space.pmm.freeCount.toNat = _ := hsound.counted
  rwa [Pmm.pmmFreePages, hcount]

/-- A creation that gives out no pid has a reason. -/
theorem Creation.reason {rejected : Prop} {pages : Nat}
    (h : Creation rejected pages k k' result) (hnext : k'.nextPid = k.nextPid) :
    rejected ∨ k.vacantSlot = none ∨ k.space.pmm.free.card < pages := by
  cases h with
  | failed m pmm hshrinks hreason => exact hreason
  | entered slot process m pmm hvacant hfresh hpid =>
    exact absurd (UInt32.add_eq_left.mp hnext) (by decide)

/-- A creation that changes nothing is refused. -/
theorem Creation.refused (hsound : k.space.pmm.Sound) {rejected : Prop} {pages : Nat}
    (h : Creation rejected pages k k' result) (heq : k' = k) :
    k.Refused rejected pages k' := by
  have hreason := h.reason (congrArg Kernel.nextPid heq)
  rw [heq]
  exact .of_reason hsound hreason

/-- With enough pages `process_create` returns the next pid, else it fails without a trace. -/
theorem processCreate_failed (hsound : k.space.pmm.Sound) {entry argument : UInt32}
    (h : k.processCreate access layout entry argument = some (k', result)) :
    2 ≤ k.space.pmm.free.card ∧ result = k.nextPid.toInt32 ∨ k.Refused (entry = 0) 2 k' := by
  have hcreation := processCreate_creation hsound h
  rcases processCreate_cases h with ⟨-, heq, -⟩ | ⟨slot, s, d, -, hcreate, hrest⟩
  · exact .inr (hcreation.refused hsound heq)
  rcases hrest with ⟨hfailed, -, heq⟩ | ⟨-, hdirectory, hresult, -⟩
  swap
  · rw [(createPageDirectory_eq hcreate).1] at hdirectory
    exact .inl ⟨(hsound.two_le_card hdirectory).1, hresult⟩
  right
  apply hcreation.refused hsound
  have hsound₁ := hsound.allocatePage
  -- if the stack is missing then so is the directory
  have hzero : k.space.pmm.allocatePage.2.allocatePage.1 = 0 :=
    hsound.exhausted_second ((createPageDirectory_eq hcreate).1 ▸ hfailed)
  rw [createPageDirectory_failed hzero] at hcreate
  obtain ⟨rfl, -⟩ := Prod.mk.inj (Option.some.inj hcreate)
  obtain ⟨pmm, hrelease, hreleased, hfree⟩ := release_stack hsound hzero k.space
  have halike := (hsound.alike_allocatePage.trans hsound₁.alike_allocatePage).release
    (s := { k.space with pmm := k.space.pmm.allocatePage.2.allocatePage.2 }) hsound₁.allocatePage
    k.space.pmm.allocatePage.1
  rw [hrelease] at halike heq
  rw [heq, space_eq_of_alike hsound halike hreleased hfree rfl]

/-- With enough pages `process_create_user` returns the next pid, else it fails without a
trace. -/
theorem processCreateUser_failed (hsound : k.space.pmm.Sound) {image imageSize : UInt32}
    (h : k.processCreateUser access layout image imageSize = some (k', result)) :
    4 ≤ k.space.pmm.free.card ∧ result = k.nextPid.toInt32 ∨
      k.Refused (image = 0 ∨ imageSize = 0 ∨ 4096 < imageSize) 4 k' := by
  have hcreation := processCreateUser_creation hsound h
  rcases processCreateUser_cases h with ⟨-, heq, -⟩ | ⟨slot, s, d, -, hcreate, hrest⟩
  · exact .inr (hcreation.refused hsound heq)
  rcases hrest with ⟨hfailed, -, heq⟩ | ⟨-, -, -, hdirectory, -, hresult, -⟩
  swap
  · rw [(createPageDirectory_eq hcreate).1] at hdirectory
    exact .inl ⟨(hsound.four_le_card hdirectory).1, hresult⟩
  right
  apply hcreation.refused hsound
  have hsound₁ := hsound.allocatePage
  have hsound₂ := hsound₁.allocatePage
  have hsound₃ := hsound₂.allocatePage
  -- if one page is missing then so are those after it, the directory last
  have hzero : k.space.pmm.allocatePage.2.allocatePage.2.allocatePage.2.allocatePage.1 = 0 :=
    hsound.exhausted_last ((createPageDirectory_eq hcreate).1 ▸ hfailed)
  rw [createPageDirectory_failed hzero] at hcreate
  obtain ⟨rfl, -⟩ := Prod.mk.inj (Option.some.inj hcreate)
  obtain ⟨pmm, hrelease, hreleased, hfree⟩ := release_pages hsound hzero k.space
  set stack := k.space.pmm.allocatePage
  set code := stack.2.allocatePage
  set user := code.2.allocatePage
  set s : Space := { k.space with pmm := user.2.allocatePage.2 }
  have halike : k.space.pmm.Alike s.pmm :=
    ((hsound.alike_allocatePage.trans hsound₁.alike_allocatePage).trans
      hsound₂.alike_allocatePage).trans hsound₃.alike_allocatePage
  have hs : s.pmm.Sound := hsound₃.allocatePage
  have hreleased' := ((halike.release hs stack.1).release (hs.release _) code.1).release
    ((hs.release _).release _) user.1
  rw [hrelease] at hreleased' heq
  rw [heq, space_eq_of_alike hsound hreleased' hreleased hfree rfl]

/-- The two pages that every process has. -/
theorem Fresh.card {p p' : Pmm} {process : Process} (h : Fresh p p' process) :
    p'.free.card + 2 ≤ p.free.card := by
  obtain ⟨-, hstack, hstackFree, hstackUsed⟩ := h.page process.stackBase List.mem_cons_self
  obtain ⟨-, hdirectory, hdirectoryFree, hdirectoryUsed⟩ :=
    h.page process.directory (List.mem_cons_of_mem _ List.mem_cons_self)
  have hne : process.stackBase ≠ process.directory := by
    rintro heq
    apply (List.nodup_cons.mp h.nodup).1
    rw [heq]
    exact List.mem_cons_self
  have hpages : process.stackBase.toNat / 4096 ≠ process.directory.toNat / 4096 := by
    intro heq
    apply hne
    apply UInt32.toNat_inj.mp
    omega
  set taken : Finset Nat := {process.stackBase.toNat / 4096, process.directory.toNat / 4096}
  have htaken : taken ⊆ p.free := by
    apply Finset.insert_subset hstackFree
    exact Finset.singleton_subset_iff.mpr hdirectoryFree
  have hapart : Disjoint p'.free taken := by
    rw [Finset.disjoint_insert_right, Finset.disjoint_singleton_right]
    exact ⟨hstackUsed, hdirectoryUsed⟩
  have hcard : taken.card = 2 := Finset.card_pair hpages
  have hunion := Finset.card_le_card (Finset.union_subset h.shrinks.free_subset htaken)
  rwa [Finset.card_union_of_disjoint hapart, hcard] at hunion

end Calls

/-! ## Runs -/

namespace TableRun

/-- The invariant of a run with what its creations cost: each took two pages at least,
and no page was ever given back. -/
structure Budgeted (layout : Layout) (pool : Finset Nat) (run : TableRun) : Prop
    extends Invariant layout pool run where
  spent : 2 * run.created + run.kernel.space.pmm.free.card ≤ pool.card

variable {access : Access} {layout : Layout} {pool : Finset Nat} {run run' : TableRun}

theorem Budgeted.creation (h : Budgeted layout pool run) {rejected : Prop} {pages : Nat}
    {k : Kernel} {result : Int32} (hcreation : Creation rejected pages run.kernel k result) :
    Budgeted layout pool (count run.created (k, result)) := by
  refine ⟨h.toInvariant.creation hcreation, ?_⟩
  have hspent := h.spent
  cases hcreation with
  | failed m pmm hshrinks hreason =>
    have hle := Finset.card_le_card hshrinks.free_subset
    rw [count, if_pos rfl]
    change 2 * run.created + pmm.free.card ≤ _
    omega
  | entered slot process m pmm hvacant hfresh hpid =>
    have hcard := hfresh.card
    unfold count
    split_ifs
    · change 2 * run.created + pmm.free.card ≤ _
      omega
    · change 2 * (run.created + 1) + pmm.free.card ≤ _
      omega

theorem Budgeted.step (h : Budgeted layout pool run) (hstep : Step access layout run run') :
    Budgeted layout pool run' := by
  have hinvariant := h.toInvariant.step hstep
  obtain ⟨call, hcall⟩ := hstep
  cases call with
  | create entry argument =>
    obtain ⟨⟨k, result⟩, hcreate, rfl⟩ := Option.map_eq_some_iff.mp hcall
    exact h.creation (processCreate_creation h.owned.sound hcreate)
  | createUser image imageSize =>
    obtain ⟨⟨k, result⟩, hcreate, rfl⟩ := Option.map_eq_some_iff.mp hcall
    exact h.creation (processCreateUser_creation h.owned.sound hcreate)
  | tick context =>
    obtain ⟨result, htick, rfl⟩ := Option.map_eq_some_iff.mp hcall
    have hcounted : Owned layout pool
        { run.kernel with quantumTicks := run.kernel.quantumTicks + 1 } :=
      h.owned.congr (.refl h.owned.sound) h.owned.current rfl rfl (.refl rfl)
    have hpmm : result.1.space.pmm = run.kernel.space.pmm := hcounted.schedule_pmm htick
    exact ⟨hinvariant, hpmm ▸ h.spent⟩
  | yield context =>
    obtain ⟨result, hyield, rfl⟩ := Option.map_eq_some_iff.mp hcall
    have hpmm : result.1.space.pmm = run.kernel.space.pmm := h.owned.schedule_pmm hyield
    exact ⟨hinvariant, hpmm ▸ h.spent⟩
  | terminate =>
    obtain rfl := Option.some.inj hcall
    exact ⟨hinvariant, h.owned.terminate_pmm ▸ h.spent⟩
  | other memory cr3 =>
    obtain rfl := Option.some.inj hcall
    exact ⟨hinvariant, h.spent⟩

theorem Budgeted.reach (h : Budgeted layout pool run)
    (hsteps : Relation.ReflTransGen (Step access layout) run run') :
    Budgeted layout pool run' := by
  induction hsteps with
  | refl => exact h
  | tail _ hstep ih => exact ih.step hstep

/-- Memory has too few pages for the pids to run out. -/
theorem Budgeted.nextPid_ne (h : Budgeted layout pool run) (hpool : pool.card ≤ maxPages) :
    run.kernel.nextPid.toInt32 ≠ -1 := by
  have hspent := h.spent
  have hmax : maxPages = 2 ^ 20 := rfl
  have hnext := (h.numbered (by omega)).next
  intro heq
  have hword : run.kernel.nextPid = (-1 : Int32).toUInt32 := by
    rw [← heq, UInt32.toUInt32_toInt32]
  rw [hword] at hnext
  change 4294967295 = _ at hnext
  omega

end TableRun

section Reachable

variable {access : Access} {layout : Layout} {bytes : Pmm → Memory} {info : UInt32} {fuel : Nat}
  {pmm : Pmm} {memory : Memory} {esp0 : UInt32} {k₀ : Kernel} {run : TableRun}

theorem budgeted_of_reachable (hpmm : Pmm.pmmInit bytes layout.kernelEnd info fuel = some pmm)
    (hinit : schedulerInit access layout (Kernel.boot layout memory pmm esp0) = some k₀)
    (hrun : Relation.ReflTransGen (TableRun.Step access layout) ⟨k₀, 0⟩ run) :
    TableRun.Budgeted layout pmm.free run ∧ pmm.free.card ≤ maxPages := by
  have hstart := TableRun.invariant_start hpmm hinit
  have hfree : k₀.space.pmm.free.card ≤ pmm.free.card :=
    Finset.card_le_card hstart.owned.free_subset
  have hbudget : TableRun.Budgeted layout pmm.free ⟨k₀, 0⟩ := by
    refine ⟨hstart, ?_⟩
    change 2 * 0 + k₀.space.pmm.free.card ≤ _
    omega
  refine ⟨hbudget.reach hrun, ?_⟩
  have hsubset : pmm.free ⊆ Finset.range maxPages := by
    intro page hpage
    exact Finset.mem_range.mpr (Pmm.lt_of_mem_free hpage)
  exact (Finset.card_le_card hsubset).trans_eq (Finset.card_range _)

/-- Failed creations are atomic: in every state that `scheduler_init` and any calls lead
to, a creation that returns `-1` leaves the whole state of the kernel as it was, and its
arguments were rejected, no slot but the first was unused or held an exited process, or
fewer pages were free than it needs. -/
theorem creation_atomic (hpmm : Pmm.pmmInit bytes layout.kernelEnd info fuel = some pmm)
    (hinit : schedulerInit access layout (Kernel.boot layout memory pmm esp0) = some k₀)
    (hrun : Relation.ReflTransGen (TableRun.Step access layout) ⟨k₀, 0⟩ run) (k' : Kernel) :
    (∀ entry argument : UInt32,
      run.kernel.processCreate access layout entry argument = some (k', -1) →
      run.kernel.Refused (entry = 0) 2 k') ∧
    ∀ image imageSize : UInt32,
      run.kernel.processCreateUser access layout image imageSize = some (k', -1) →
      run.kernel.Refused (image = 0 ∨ imageSize = 0 ∨ 4096 < imageSize) 4 k' := by
  obtain ⟨hbudget, hcard⟩ := budgeted_of_reachable hpmm hinit hrun
  have hpid := hbudget.nextPid_ne hcard
  constructor
  · intro entry argument h
    exact (processCreate_failed hbudget.owned.sound h).resolve_left fun hpid' => hpid hpid'.2.symm
  · intro image imageSize h
    exact (processCreateUser_failed hbudget.owned.sound h).resolve_left
      fun hpid' => hpid hpid'.2.symm

end Reachable

/-- A memory map with three pages: the creation of a user process takes all of them, misses
the one for its directory, and gives them back. -/
theorem creation_atomic_exhausted :
    ∃ pmm k₀ k', Pmm.pmmInit (fun _ => Pmm.mapBlock 0x201000 0x3000) sampleLayout.kernelEnd
        0x200000 8 = some pmm ∧
      schedulerInit direct sampleLayout (Kernel.boot sampleLayout (fun _ => 0) pmm 0) = some k₀ ∧
      pmm.free = {0x201, 0x202, 0x203} ∧
      k₀.processCreateUser direct sampleLayout 0x101000 16 = some (k', -1) ∧
      k₀.Refused ((0x101000 : UInt32) = 0 ∨ (16 : UInt32) = 0 ∨ (4096 : UInt32) < 16) 4 k' := by
  obtain ⟨pmm, hpmm, hpages⟩ := Pmm.pmmInit_mapBlock (show (0x3000 : UInt32) ≠ 0 by decide)
    (show 4096 ≤ (0x201000 : UInt32).toNat + _ by decide) sampleLayout.kernelEnd
  have hfree : pmm.free = {0x201, 0x202, 0x203} := by
    ext page
    rw [hpages, show (0x201000 : UInt32).toNat = 0x201000 from rfl,
      show (0x3000 : UInt32).toNat = 0x3000 from rfl,
      show sampleLayout.kernelEnd.toNat = 0x120000 from rfl]
    simp only [Finset.mem_insert, Finset.mem_singleton]
    omega
  obtain ⟨k₀, hinit⟩ : ∃ k₀, schedulerInit direct sampleLayout
      (Kernel.boot sampleLayout (fun _ => 0) pmm 0) = some k₀ := ⟨_, rfl⟩
  have hspace : k₀.space.pmm = pmm := by
    obtain ⟨m, rfl⟩ := schedulerInit_eq hinit
    exact Kernel.boot_pmm sampleLayout (fun _ => 0) pmm 0
  have hsound : k₀.space.pmm.Sound := hspace ▸ Pmm.pmmInit_sound hpmm
  obtain ⟨k', result, hcreate⟩ := processCreateUser_direct k₀ sampleLayout 0x101000 16
  have hfew : ¬ 4 ≤ k₀.space.pmm.free.card := by
    rw [hspace, hfree]
    decide
  have hrefused := (processCreateUser_failed hsound hcreate).resolve_left fun h => hfew h.1
  obtain rfl : result = -1 := by
    have hnext := congrArg Kernel.nextPid hrefused.unchanged
    cases processCreateUser_creation hsound hcreate with
    | failed => rfl
    | entered => exact absurd (UInt32.add_eq_left.mp hnext) (by decide)
  exact ⟨pmm, k₀, k', hpmm, hinit, hfree, hcreate,
    (creation_atomic hpmm hinit .refl k').2 _ _ hcreate⟩

end LevOS
