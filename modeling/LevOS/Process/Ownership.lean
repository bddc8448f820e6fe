import LevOS.Process.Creation
import LevOS.Foundation.Rounds
import Mathlib.Order.Interval.Finset.Nat

/-!
# Ownership of the process table

Every occupied slot owns its pages alone. Creations, scheduling passes and exits
rewrite the table in any order, while the allocator changes underneath; the two
are tied together in one invariant.

## Main definitions

* `Kernel.boot`, the state in which `scheduler_init` is called
* `Owned`, the invariant

## Main results

* `Owned.schedule_cases`, what a scheduling pass does
* `Owned.creation`, `Owned.terminate`, `Owned.schedule`, `schedulerInit_owned`
* `noMapBoot`, a boot without a memory map
-/

namespace LevOS

open Foundation Memory

/-- The state in which `scheduler_init` is called: the static data as loaded, an
initialised allocator and the directory of `init_paging`. -/
def Kernel.boot (layout : Layout) (memory : Memory) (pmm : Pmm) (esp0 : UInt32) : Kernel where
  space := initPaging layout { memory := memory, cr3 := 0, pmm := pmm }
  processes := fun _ => Process.empty
  nextPid := 1
  running := none
  bootstrapContext := 0
  esp0 := esp0
  schedulerNextDirectory := 0
  quantumTicks := 0
  ticks := 0
  output := []

theorem Kernel.boot_pmm (layout : Layout) (memory : Memory) (pmm : Pmm) (esp0 : UInt32) :
    (Kernel.boot layout memory pmm esp0).space.pmm = pmm := by
  rw [Kernel.boot, initPaging]

/-- A slot that a created process has taken. -/
def Kernel.Occupied (k : Kernel) (i : Slot) : Prop := i ≠ 0 ∧ (k.processes i).state ≠ .unused

/-- Processes in two tables differ in their states only, and no vacant slot is
occupied without a creation. -/
def Kernel.Relabels (k k' : Kernel) : Prop :=
  ∀ i, ∃ state, k'.processes i = { k.processes i with state := state } ∧
    (state ≠ .unused → (k.processes i).state ≠ .unused)

/-- A created process, whose pages come from a pool and are not free. -/
structure Created (pool free : Finset Nat) (p : Process) : Prop where
  bootstrap : p.bootstrap = false
  context : p.context = p.stackBase + 4096 - contextSize
  nodup : p.pages.Nodup
  page : ∀ a ∈ p.pages, a ≠ 0 ∧ a.toNat % 4096 = 0 ∧ a.toNat / 4096 ∈ pool ∧
    a.toNat / 4096 ∉ free

/-- The ownership invariant, relative to the pages that were free in the beginning. -/
structure Owned (layout : Layout) (pool : Finset Nat) (k : Kernel) : Prop where
  sound : k.space.pmm.Sound
  free_subset : k.space.pmm.free ⊆ pool
  current : ∃ r, k.running = some r ∧ (r = 0 ∨ k.Occupied r)
  bootstrap : k.processes 0 = bootstrapProcess layout (bootstrapContextAddress layout)
  bootstrapContext : k.bootstrapContext = bootstrapContextAddress layout
  created : ∀ i, k.Occupied i → Created pool k.space.pmm.free (k.processes i)
  disjoint : ∀ i j, k.Occupied i → k.Occupied j → i ≠ j →
    List.Disjoint (k.processes i).pages (k.processes j).pages

section Invariant

variable {access : Access} {layout : Layout} {pool : Finset Nat} {k k' : Kernel}

theorem Owned.live_zero (h : Owned layout pool k) : (k.processes 0).live = true := by
  rw [h.bootstrap]
  rfl

theorem Kernel.Relabels.refl (hprocesses : k'.processes = k.processes) : k.Relabels k' :=
  fun i => ⟨(k.processes i).state, by rw [hprocesses], id⟩

theorem Kernel.Relabels.occupied (h : k.Relabels k') {i : Slot} (hi : k'.Occupied i) :
    k.Occupied i ∧ ∃ state, k'.processes i = { k.processes i with state := state } := by
  obtain ⟨state, heq, hstate⟩ := h i
  refine ⟨⟨hi.1, hstate ?_⟩, state, heq⟩
  have hused := hi.2
  rwa [heq] at hused

theorem Kernel.occupied_of_live {i : Slot} (hi : i ≠ 0) (hlive : (k.processes i).live = true) :
    k.Occupied i := by
  refine ⟨hi, fun hunused => ?_⟩
  rw [Process.live, hunused] at hlive
  cases hlive

theorem Kernel.relabels_setState {slot : Slot} (hocc : k.Occupied slot) (state : ProcessState) :
    k.Relabels (k.setState slot state) := by
  intro i
  by_cases hi : i = slot
  · exact ⟨state, hi ▸ k.setState_self slot state, fun _ => hi ▸ hocc.2⟩
  · exact ⟨(k.processes i).state, k.setState_of_ne hi state, id⟩

theorem Kernel.relabels_dispatch (layout : Layout) {slot : Slot}
    (hlive : (k.processes slot).live = true) :
    k.Relabels (k.dispatch layout slot) := by
  intro i
  by_cases hi : i = slot
  · refine ⟨.running, hi ▸ k.dispatch_self layout slot, fun _ hunused => ?_⟩
    rw [Process.live, ← hi, hunused] at hlive
    cases hlive
  · exact ⟨(k.processes i).state, k.dispatch_of_ne layout hi, id⟩

/-- Changes of memory, of states and of the running slot leave the owners alone. -/
theorem Owned.congr (h : Owned layout pool k) (hpmm : k.space.pmm.Shrinks k'.space.pmm)
    (hcurrent : ∃ r, k'.running = some r ∧ (r = 0 ∨ k'.Occupied r))
    (hcontext : k'.bootstrapContext = k.bootstrapContext)
    (hzero : k'.processes 0 = k.processes 0) (hother : k.Relabels k') : Owned layout pool k' := by
  refine ⟨hpmm.sound, Finset.Subset.trans hpmm.free_subset h.free_subset, hcurrent,
    hzero.trans h.bootstrap, hcontext.trans h.bootstrapContext, ?_, ?_⟩
  · intro i hi
    obtain ⟨hocc, state, heq⟩ := hother.occupied hi
    obtain ⟨hboot, hctx, hnodup, hpage⟩ := h.created i hocc
    rw [heq]
    refine ⟨hboot, hctx, hnodup, fun a ha => ?_⟩
    obtain ⟨hne, haligned, hpool, hused⟩ := hpage a ha
    exact ⟨hne, haligned, hpool, fun hin => hused (hpmm.free_subset hin)⟩
  · intro i j hi hj hij
    obtain ⟨hocc, state, heq⟩ := hother.occupied hi
    obtain ⟨hocc', state', heq'⟩ := hother.occupied hj
    rw [heq, heq']
    exact h.disjoint i j hocc hocc' hij

theorem Owned.setSpace (h : Owned layout pool k) {s : Space} (hpmm : k.space.pmm.Shrinks s.pmm) :
    Owned layout pool { k with space := s } :=
  h.congr hpmm h.current rfl rfl (.refl rfl)

/-- Whatever happens to memory alone leaves the owners alone. -/
theorem Owned.setMemory (h : Owned layout pool k) (m : Memory) (cr3 : UInt32) :
    Owned layout pool { k with space := { k.space with memory := m, cr3 := cr3 } } :=
  h.setSpace (.refl h.sound)

theorem vacantSlot_spec {slot : Slot} (h : k.vacantSlot = some slot) :
    slot ≠ 0 ∧ (k.processes slot).vacant = true := by
  have htail : ∀ i ∈ (List.finRange 16).tail, i ≠ 0 := by decide
  have hvacant := List.find?_some h
  exact ⟨htail slot (List.mem_of_find?_eq_some h), hvacant⟩

/-- The process that runs is not in a vacant slot, unless it has exited. -/
theorem Owned.running_ne_vacant (h : Owned layout pool k) {slot r : Slot}
    (hvacant : k.vacantSlot = some slot) (hr : k.running = some r)
    (hmarked : (k.processes r).state ≠ .zombie) : r ≠ slot := by
  rintro rfl
  obtain ⟨hslot, hstate⟩ := vacantSlot_spec hvacant
  obtain ⟨r', hr', hused⟩ := h.current
  obtain rfl : r = r' := Option.some.inj (hr.symm.trans hr')
  have hocc := hused.resolve_left hslot
  rw [Process.vacant, Bool.or_eq_true, decide_eq_true_eq, decide_eq_true_eq] at hstate
  exact hstate.elim hocc.2 hmarked

/-- A process with fresh pages may take over a slot. -/
theorem Owned.enter (h : Owned layout pool k) {slot : Slot} {process : Process} {m : Memory}
    {pmm : Pmm} (hslot : slot ≠ 0) (hfresh : Fresh k.space.pmm pmm process) :
    Owned layout pool (k.enterProcess slot process { k.space with memory := m, pmm := pmm }) := by
  set k' := k.enterProcess slot process { k.space with memory := m, pmm := pmm }
  have hself : k'.processes slot = process := k.enterProcess_self _ _ _
  have hne {i : Slot} (hi : i ≠ slot) : k'.processes i = k.processes i :=
    k.enterProcess_of_ne hi _ _
  have hold {i : Slot} (hi : i ≠ slot) (hocc : k'.Occupied i) : k.Occupied i :=
    ⟨hocc.1, hne hi ▸ hocc.2⟩
  -- a page of an old process is in use, so it is none of the fresh ones
  have hapart {i : Slot} (hi : i ≠ slot) (hocc : k'.Occupied i) :
      List.Disjoint (k.processes i).pages process.pages := by
    intro a ha hnew
    exact ((h.created i (hold hi hocc)).page a ha).2.2.2 (hfresh.page a hnew).2.2.1
  refine ⟨hfresh.shrinks.sound, Finset.Subset.trans hfresh.shrinks.free_subset h.free_subset, ?_,
    (hne hslot.symm).trans h.bootstrap, h.bootstrapContext, ?_, ?_⟩
  · obtain ⟨r, hr, hocc⟩ := h.current
    refine ⟨r, hr, hocc.imp id fun hocc => ⟨hocc.1, ?_⟩⟩
    by_cases hrs : r = slot
    · rw [hrs, hself, hfresh.state]
      decide
    · rw [hne hrs]
      exact hocc.2
  · intro i hocc
    by_cases hi : i = slot
    · rw [hi, hself]
      refine ⟨hfresh.bootstrap, hfresh.context, hfresh.nodup, fun a ha => ?_⟩
      obtain ⟨hnonzero, haligned, hfree, hused⟩ := hfresh.page a ha
      exact ⟨hnonzero, haligned, h.free_subset hfree, hused⟩
    · rw [hne hi]
      obtain ⟨hboot, hctx, hnodup, hpage⟩ := h.created i (hold hi hocc)
      refine ⟨hboot, hctx, hnodup, fun a ha => ?_⟩
      obtain ⟨hnonzero, haligned, hpool, hused⟩ := hpage a ha
      exact ⟨hnonzero, haligned, hpool, fun hin => hused (hfresh.shrinks.free_subset hin)⟩
  · intro i j hocci hoccj hij
    by_cases hi : i = slot <;> by_cases hj : j = slot
    · exact absurd (hi.trans hj.symm) hij
    · rw [hi, hself, hne hj]
      exact (hapart hj hoccj).symm
    · rw [hj, hself, hne hi]
      exact hapart hi hocci
    · rw [hne hi, hne hj]
      exact h.disjoint i j (hold hi hocci) (hold hj hoccj) hij

theorem Owned.creation (h : Owned layout pool k) {rejected : Prop} {pages : Nat} {result : Int32}
    (hcreation : Creation rejected pages k k' result) : Owned layout pool k' := by
  cases hcreation with
  | failed m pmm hshrinks hreason => exact h.setSpace hshrinks
  | entered slot process m pmm hvacant hfresh hpid =>
    exact h.enter (vacantSlot_spec hvacant).1 hfresh

theorem Owned.setState (h : Owned layout pool k) {slot : Slot} (hocc : k.Occupied slot)
    {state : ProcessState} (hstate : state ≠ .unused) :
    Owned layout pool (k.setState slot state) := by
  have hself := k.setState_self slot state
  refine h.congr (.refl h.sound) ?_ rfl (k.setState_of_ne hocc.1.symm state)
    (Kernel.relabels_setState hocc state)
  obtain ⟨r, hr, hrocc⟩ := h.current
  refine ⟨r, hr, hrocc.imp id fun hrocc => ⟨hrocc.1, ?_⟩⟩
  by_cases hrs : r = slot
  · rw [hrs, hself]
    exact hstate
  · rw [k.setState_of_ne hrs]
    exact hrocc.2

/-- An exit marks the running process, unless it is the bootstrap process. -/
theorem Owned.terminate_cases (h : Owned layout pool k) :
    (k.running = some 0 ∧ k.processTerminateCurrent = k) ∨
      ∃ r, k.running = some r ∧ k.Occupied r ∧
        k.processTerminateCurrent = k.setState r .zombie := by
  obtain ⟨r, hr, hocc⟩ := h.current
  unfold Kernel.processTerminateCurrent
  rw [hr]
  rcases hocc with rfl | hocc
  · left
    refine ⟨rfl, if_pos ?_⟩
    rw [h.bootstrap]
    rfl
  · right
    refine ⟨r, rfl, hocc, ?_⟩
    simp only [(h.created r hocc).bootstrap, Bool.false_eq_true, if_false]

theorem Owned.terminate (h : Owned layout pool k) :
    Owned layout pool k.processTerminateCurrent := by
  rcases h.terminate_cases with ⟨-, heq⟩ | ⟨r, -, hocc, heq⟩
  · rwa [heq]
  · rw [heq]
    exact h.setState hocc (by decide)

/-! ## Scheduling passes -/

theorem Kernel.mem_rotation (k : Kernel) (i : Slot) : i ∈ k.rotation := by
  refine List.mem_map.mpr ⟨i - k.running.getD 0 - 1, List.mem_finRange _, ?_⟩
  grind

theorem Kernel.live_of_nextLive {k : Kernel} {i : Slot} (h : k.nextLive = some i) :
    (k.processes i).live = true := by
  have hlive := List.find?_some h
  exact hlive

/-- Giving the processor to a slot makes it live. -/
theorem Kernel.live_dispatch_iff (layout : Layout) (k : Kernel) (slot i : Slot) :
    ((k.dispatch layout slot).processes i).live = true ↔
      i = slot ∨ (k.processes i).live = true := by
  by_cases hi : i = slot
  · subst hi
    rw [k.dispatch_self layout]
    exact ⟨fun _ => .inl rfl, fun _ => rfl⟩
  · rw [k.dispatch_of_ne layout hi]
    exact ⟨.inr, fun hlive => hlive.resolve_left hi⟩

/-- With two live processes, one of them is not in a given slot. -/
theorem Kernel.exists_live_ne {k : Kernel} (h : 2 ≤ k.processCount) (r : Slot) :
    ∃ i, i ≠ r ∧ (k.processes i).live = true := by
  by_contra hnone
  have honly : ∀ i ∈ List.finRange 16, (k.processes i).live = true → (i == r) = true := by
    intro i _ hlive
    by_contra hne
    exact hnone ⟨i, fun heq => hne (beq_iff_eq.mpr heq), hlive⟩
  have hle := List.countP_mono_left honly
  have hone := List.nodup_iff_count_le_one.mp (List.nodup_finRange 16) r
  exact absurd (h.trans (hle.trans hone)) (by decide)

/-- The loop stops at the first live slot after the running one, which comes last. -/
theorem Kernel.next_of_nextLive {k : Kernel} {r i : Slot} (hr : k.running = some r)
    (h : k.nextLive = some i) : Next (fun j => (k.processes j).live = true) r i := by
  refine ⟨Kernel.live_of_nextLive h, fun x hx => ?_⟩
  obtain ⟨-, n, hn, hget, hbefore⟩ := List.find?_eq_some_iff_getElem.mp h
  have hlength : k.rotation.length = 16 := by simp [Kernel.rotation]
  have hentry (s : Nat) (hs : s < k.rotation.length) :
      k.rotation[s] = r + ⟨s, hlength ▸ hs⟩ + 1 := by
    simp [Kernel.rotation, hr]
  -- the loop looks at a slot after as many others as it is away
  have hplace (s : Nat) (hs : s < k.rotation.length) : place (r + 1) k.rotation[s] = s := by
    rw [hentry s hs, place, show r + ⟨s, hlength ▸ hs⟩ + 1 - (r + 1) = ⟨s, hlength ▸ hs⟩ by grind]
  have hfar : place (r + 1) x < k.rotation.length := hlength.symm ▸ place_lt (r + 1) x
  have hfound : k.rotation[place (r + 1) x] = x :=
    place_inj (hplace (place (r + 1) x) hfar)
  rw [← hget, hplace n hn]
  by_contra hlt
  have hdead := hbefore (place (r + 1) x) (Nat.not_le.mp hlt)
  rw [hfound, hx] at hdead
  cases hdead

theorem Kernel.nextLive_ne {k : Kernel} {r i j : Slot} (hr : k.running = some r)
    (hj : j ≠ r) (hlive : (k.processes j).live = true) (h : k.nextLive = some i) : i ≠ r := by
  rintro rfl
  have hback := (Kernel.next_of_nextLive hr h).back hlive
  rw [place_self] at hback
  exact hj (place_inj ((Nat.le_zero.mp hback).trans (place_self i).symm))

/-- Memory after the context of a slot is saved: it is copied to the place of the
slot's saved context, unless it is that of a created process and there already. -/
def Kernel.savedSpace (access : Access) (k : Kernel) (r : Slot) (context : UInt32) :
    Option Space :=
  if r ≠ 0 ∧ (k.processes r).context = context then some k.space
  else k.space.copy access context (k.processes r).context contextWords

theorem Owned.saveContext_eq (h : Owned layout pool k) {r : Slot} (hr : k.running = some r)
    (context : UInt32) :
    k.processSaveContext access context =
      (k.savedSpace access r context).map fun s => { k with space := s } := by
  obtain ⟨r', hr', hocc⟩ := h.current
  obtain rfl : r' = r := Option.some.inj (hr'.symm.trans hr)
  rcases hocc with rfl | hocc
  · have hcontext : (k.processes 0).context = k.bootstrapContext := by
      rw [h.bootstrap, h.bootstrapContext]
      rfl
    have hsame : Function.update k.processes 0
        { k.processes 0 with context := k.bootstrapContext } = k.processes := by
      rw [← hcontext, Function.update_eq_self]
    have hboot : (k.processes 0).bootstrap = true := by
      rw [h.bootstrap]
      rfl
    rw [Kernel.processSaveContext, Kernel.savedSpace, if_neg (fun hne => hne.1 rfl), hcontext, hr]
    simp only
    rw [if_pos hboot]
    cases k.space.copy access context k.bootstrapContext contextWords with
    | none => rfl
    | some space =>
      exact congrArg (fun p => some { k with space := space, running := some 0, processes := p })
        hsame
  · rw [Kernel.processSaveContext, Kernel.savedSpace, hr]
    simp only [(h.created _ hocc).bootstrap, Bool.false_eq_true, if_false]
    by_cases heq : (k.processes r').context = context
    · rw [if_pos heq, if_pos ⟨hocc.1, heq⟩, ← hr]
      rfl
    · rw [if_neg heq, if_neg (fun hboth => heq hboth.2)]
      cases k.space.copy access context (k.processes r').context contextWords <;> rfl

theorem Kernel.savedSpace_eq {r : Slot} {context : UInt32} {space : Space}
    (h : k.savedSpace access r context = some space) :
    ∃ m, space = { k.space with memory := m } := by
  unfold Kernel.savedSpace at h
  split_ifs at h
  · exact ⟨k.space.memory, (Option.some.inj h).symm⟩
  · exact Space.copy_eq h

theorem Owned.context_toNat (h : Owned layout pool k) {i : Slot} (hi : k.Occupied i) :
    (k.processes i).context.toNat = (k.processes i).stackBase.toNat + 4036 := by
  obtain ⟨-, haligned, -⟩ := (h.created i hi).page _ List.mem_cons_self
  have hlt := (k.processes i).stackBase.toNat_lt
  rw [(h.created i hi).context, UInt32.toNat_sub, UInt32.toNat_add]
  simp only [contextSize, UInt32.reduceToNat]
  omega

theorem bootstrapContextAddress_toNat (layout : Layout) :
    (bootstrapContextAddress layout).toNat = layout.bootstrapStack.toNat + 4036 := by
  have hstack := layout.bootstrapStack_mem
  have himage := layout.image_le
  rw [bootstrapContextAddress, UInt32.toNat_sub, UInt32.toNat_add]
  simp only [contextSize, UInt32.reduceToNat]
  omega

theorem Owned.context_zero_toNat (h : Owned layout pool k) :
    (k.processes 0).context.toNat = layout.bootstrapStack.toNat + 4036 := by
  rw [h.bootstrap]
  exact bootstrapContextAddress_toNat layout

theorem Owned.context_ne_zero (h : Owned layout pool k) {i : Slot}
    (hlive : (k.processes i).live = true) : (k.processes i).context ≠ 0 := by
  intro hzero
  have hnat : (k.processes i).context.toNat = 0 := by
    rw [hzero]
    rfl
  by_cases hi : i = 0
  · subst hi
    rw [h.context_zero_toNat] at hnat
    omega
  · rw [h.context_toNat (Kernel.occupied_of_live hi hlive)] at hnat
    omega

/-- What a scheduling pass does: with one live process, which runs, nothing;
otherwise it saves the running process and gives the processor to another one.
The loop over the table always finds one, and its context is never null. -/
theorem Owned.schedule_cases (h : Owned layout pool k) {context next : UInt32}
    (hschedule : k.schedule access layout context = some (k', next)) :
    ∃ r, k.running = some r ∧
      ((k.processCount < 2 ∧ (k.processes r).state ≠ .zombie ∧
          k' = { k with schedulerNextDirectory := 0 } ∧ next = context) ∨
        ∃ i space, i ≠ r ∧ k.nextLive = some i ∧
          k.savedSpace access r context = some space ∧ next = (k.processes i).context ∧
          k' = { { k with space := space }.dispatch layout i with
            schedulerNextDirectory :=
              if (k.processes i).context = context then 0 else (k.processes i).directory }) := by
  obtain ⟨r, hr, hocc⟩ := h.current
  refine ⟨r, hr, ?_⟩
  unfold Kernel.schedule at hschedule
  obtain ⟨r', hr', hrest⟩ := Option.bind_eq_some_iff.mp hschedule
  obtain rfl : r = r' := Option.some.inj (hr.symm.trans hr')
  split_ifs at hrest with hidle
  · obtain ⟨rfl, rfl⟩ := Prod.mk.inj (Option.some.inj hrest)
    exact .inl ⟨hidle.1, hidle.2, rfl, rfl⟩
  right
  obtain ⟨k₁, hsave, hrest⟩ := Option.bind_eq_some_iff.mp hrest
  have hclear : Owned layout pool { k with schedulerNextDirectory := 0 } :=
    h.congr (.refl h.sound) h.current rfl rfl (.refl rfl)
  rw [hclear.saveContext_eq hr] at hsave
  obtain ⟨space, hspace, rfl⟩ := Option.map_eq_some_iff.mp hsave
  set k₁ : Kernel := { k with schedulerNextDirectory := 0, space := space }
  -- slot 0 is live, so the loop ends at a live slot
  obtain ⟨i, hi⟩ : ∃ i, k₁.nextLive = some i := by
    refine Option.isSome_iff_exists.mp (List.find?_isSome.mpr ⟨0, k₁.mem_rotation 0, ?_⟩)
    exact h.live_zero
  have hlive : (k.processes i).live = true := Kernel.live_of_nextLive hi
  have hne : i ≠ r := by
    by_cases hzombie : (k.processes r).state = .zombie
    · rintro rfl
      rw [Process.live, hzombie] at hlive
      cases hlive
    · have hcount : 2 ≤ k.processCount := by
        by_contra hlt
        exact hidle ⟨Nat.not_le.mp hlt, hzombie⟩
      obtain ⟨j, hj, hjlive⟩ := Kernel.exists_live_ne hcount r
      exact Kernel.nextLive_ne (k := k₁) hr hj hjlive hi
  have hself := k₁.dispatch_self layout i
  have hnonzero : ((k₁.dispatch layout i).processes i).context ≠ 0 := by
    rw [hself]
    exact h.context_ne_zero hlive
  refine ⟨i, space, hne, hi, hspace, ?_⟩
  rw [Kernel.processNextRoundRobin, hi] at hrest
  simp only at hrest
  rw [if_neg hnonzero, hself] at hrest
  by_cases hsame : (k.processes i).context = context
  · rw [if_neg (not_not_intro hsame)] at hrest
    obtain ⟨rfl, rfl⟩ := Prod.mk.inj (Option.some.inj hrest)
    rw [if_pos hsame]
    exact ⟨hsame.symm, rfl⟩
  · rw [if_pos hsame] at hrest
    obtain ⟨rfl, rfl⟩ := Prod.mk.inj (Option.some.inj hrest)
    rw [if_neg hsame]
    exact ⟨rfl, rfl⟩

theorem Owned.dispatch (h : Owned layout pool k) {i : Slot} (hlive : (k.processes i).live = true) :
    Owned layout pool (k.dispatch layout i) := by
  have hself := k.dispatch_self layout i
  refine h.congr (.refl h.sound) ⟨i, rfl, ?_⟩ rfl ?_ (Kernel.relabels_dispatch layout hlive)
  · refine (eq_or_ne i 0).imp id fun hi => ⟨hi, ?_⟩
    rw [hself]
    exact fun hunused => by cases hunused
  · by_cases hi : i = 0
    · subst hi
      rw [hself, h.bootstrap]
      rfl
    · exact k.dispatch_of_ne layout (Ne.symm hi)

theorem Owned.schedule (h : Owned layout pool k) {context next : UInt32}
    (hschedule : k.schedule access layout context = some (k', next)) : Owned layout pool k' := by
  obtain ⟨r, -, ⟨-, -, rfl, -⟩ | ⟨i, space, -, hnext, hsave, -, rfl⟩⟩ := h.schedule_cases hschedule
  · exact h.congr (.refl h.sound) h.current rfl rfl (.refl rfl)
  · obtain ⟨m, rfl⟩ := Kernel.savedSpace_eq hsave
    have hdispatch := (h.setMemory m k.space.cr3).dispatch (Kernel.live_of_nextLive hnext)
    exact hdispatch.congr (.refl hdispatch.sound) hdispatch.current rfl rfl (.refl rfl)

/-- A pass takes no pages and gives none back. -/
theorem Owned.schedule_pmm (h : Owned layout pool k) {context next : UInt32}
    (hschedule : k.schedule access layout context = some (k', next)) :
    k'.space.pmm = k.space.pmm := by
  obtain ⟨r, -, ⟨-, -, rfl, -⟩ | ⟨i, space, -, -, hsave, -, rfl⟩⟩ := h.schedule_cases hschedule
  · rfl
  · obtain ⟨m, rfl⟩ := Kernel.savedSpace_eq hsave
    rfl

/-- An exit gives no pages back. -/
theorem Owned.terminate_pmm (h : Owned layout pool k) :
    k.processTerminateCurrent.space.pmm = k.space.pmm := by
  rcases h.terminate_cases with ⟨-, heq⟩ | ⟨r, -, -, heq⟩ <;> rw [heq]
  rfl

/-- `scheduler_init` starts with the bootstrap process alone. -/
theorem schedulerInit_eq (hinit : schedulerInit access layout k = some k') :
    ∃ m, k' = { k with
      space := { k.space with memory := m }
      bootstrapContext := bootstrapContextAddress layout
      processes := initialProcesses layout
      running := some 0
      esp0 := processKernelStackTop layout (initialProcesses layout 0)
      schedulerNextDirectory := 0
      quantumTicks := 0 } := by
  obtain ⟨k₁, hsystem, hrest⟩ := Option.bind_eq_some_iff.mp hinit
  obtain ⟨space, hclear, hpair⟩ := Option.bind_eq_some_iff.mp hsystem
  obtain ⟨m, rfl⟩ := Space.clear_eq hclear
  obtain rfl := Option.some.inj hpair
  exact ⟨m, (Option.some.inj hrest).symm⟩

/-- It clears the context of the bootstrap process. -/
theorem schedulerInit_space (hinit : schedulerInit access layout k = some k') :
    k.space.clear access (bootstrapContextAddress layout) contextWords = some k'.space := by
  obtain ⟨k₁, hsystem, hrest⟩ := Option.bind_eq_some_iff.mp hinit
  obtain ⟨space, hclear, hpair⟩ := Option.bind_eq_some_iff.mp hsystem
  obtain rfl := Option.some.inj hpair
  obtain rfl := Option.some.inj hrest
  exact hclear

theorem schedulerInit_vacant (hinit : schedulerInit access layout k = some k') (i : Slot) :
    ¬ k'.Occupied i := by
  obtain ⟨m, rfl⟩ := schedulerInit_eq hinit
  rintro ⟨hi, hstate⟩
  exact hstate (congrArg Process.state (initialProcesses_of_ne layout hi))

theorem schedulerInit_owned (hsound : k.space.pmm.Sound)
    (hinit : schedulerInit access layout k = some k') : Owned layout k.space.pmm.free k' := by
  have hvacant := schedulerInit_vacant hinit
  obtain ⟨m, rfl⟩ := schedulerInit_eq hinit
  exact ⟨hsound, Finset.Subset.refl _, ⟨0, rfl, .inl rfl⟩, initialProcesses_zero layout, rfl,
    fun i hi => absurd hi (hvacant i), fun i j hi => absurd hi (hvacant i)⟩

end Invariant

/-! ## A boot without a memory map -/

/-- The state after `scheduler_init`, with the pages above the kernel image free. -/
theorem noMapBoot :
    ∃ pmm k₀, Pmm.pmmInit (fun _ _ => 0) sampleLayout.kernelEnd 0 0 = some pmm ∧
      schedulerInit direct sampleLayout (Kernel.boot sampleLayout (fun _ => 0) pmm 0) = some k₀ ∧
      k₀.space.pmm = pmm ∧ 16 ≤ pmm.free.card := by
  obtain ⟨pmm, hpmm⟩ :
      ∃ pmm, Pmm.pmmInit (fun _ _ => 0) sampleLayout.kernelEnd 0 0 = some pmm := by
    rw [Pmm.pmmInit, Pmm.readMap, if_neg (by decide), Option.map_some]
    exact ⟨_, rfl⟩
  obtain ⟨k₀, hinit⟩ : ∃ k₀, schedulerInit direct sampleLayout
      (Kernel.boot sampleLayout (fun _ => 0) pmm 0) = some k₀ := ⟨_, rfl⟩
  refine ⟨pmm, k₀, hpmm, hinit, ?_, ?_⟩
  · obtain ⟨m, rfl⟩ := schedulerInit_eq hinit
    exact Kernel.boot_pmm sampleLayout (fun _ => 0) pmm 0
  · have hsubset : Finset.Ico 0x120 0x130 ⊆ pmm.free := by
      intro page hpage
      obtain ⟨hlow, hhigh⟩ := Finset.mem_Ico.mp hpage
      have hend : sampleLayout.kernelEnd.toNat = 0x120000 := rfl
      exact Pmm.pmmInit_noMap_free hpmm (by omega) (by omega) (by omega)
    exact (Nat.card_Ico _ _).symm.trans_le (Finset.card_le_card hsubset)

end LevOS
