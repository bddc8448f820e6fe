import LevOS.Process.Ownership

/-!
# Kernel stacks

Each process has a kernel stack of its own: the bootstrap process the boot stack
and the buffer for its saved context, a created process its stack page. No
address lies on two of them.

## Main results

* `Owned.onStack_unique`, `Owned.onStack_context`
-/

namespace LevOS

open Foundation Memory

/-- The address lies on the stack of the process in a slot. -/
def Kernel.OnStack (layout : Layout) (k : Kernel) (i : Slot) (a : UInt32) : Prop :=
  if i = 0 then
    (layout.kernelStack.toNat ≤ a.toNat ∧ a.toNat < layout.kernelStack.toNat + 16384) ∨
      (layout.bootstrapStack.toNat ≤ a.toNat ∧ a.toNat < layout.bootstrapStack.toNat + 4096)
  else
    (k.processes i).stackBase.toNat ≤ a.toNat ∧ a.toNat < (k.processes i).stackBase.toNat + 4096

/-- A slot with a process in it. -/
def Kernel.Used (k : Kernel) (i : Slot) : Prop := i = 0 ∨ k.Occupied i

section Stacks

variable {layout : Layout} {pool : Finset Nat} {k : Kernel}

theorem Kernel.used_of_live {i : Slot} (hlive : (k.processes i).live = true) : k.Used i :=
  (eq_or_ne i 0).imp id fun hi => Kernel.occupied_of_live hi hlive

theorem Owned.used_running (h : Owned layout pool k) {i : Slot} (hi : k.running = some i) :
    k.Used i := by
  obtain ⟨i', hi', hused⟩ := h.current
  obtain rfl : i = i' := Option.some.inj (hi.symm.trans hi')
  exact hused

/-- The stack page of a created process lies above the kernel image. -/
theorem Owned.stackBase_spec (h : Owned layout pool k)
    (hpool : AboveKernel layout pool) {i : Slot}
    (hi : k.Occupied i) :
    (k.processes i).stackBase.toNat % 4096 = 0 ∧
      layout.kernelEnd.toNat ≤ (k.processes i).stackBase.toNat := by
  obtain ⟨-, haligned, hmem, -⟩ := (h.created i hi).page _ List.mem_cons_self
  have := hpool _ hmem
  exact ⟨haligned, by omega⟩

theorem Owned.le_stackBase (h : Owned layout pool k) {i : Slot} (hi : k.Occupied i) :
    4096 ≤ (k.processes i).stackBase.toNat := by
  obtain ⟨hne, haligned, -⟩ := (h.created i hi).page _ List.mem_cons_self
  have hpositive : (k.processes i).stackBase.toNat ≠ 0 := fun hzero =>
    hne (UInt32.toNat_inj.mp hzero)
  omega

theorem Owned.onStack_unique (h : Owned layout pool k)
    (hpool : AboveKernel layout pool) {i j : Slot} {a : UInt32}
    (hi : k.Used i) (hj : k.Used j) (hia : k.OnStack layout i a) (hja : k.OnStack layout j a) :
    i = j := by
  have hboot := layout.bootstrapStack_mem
  have hkernel := layout.kernelStack_mem
  unfold Kernel.OnStack at hia hja
  -- static stacks end below the kernel's end, where the pages begin
  rcases hi with rfl | hi <;> rcases hj with rfl | hj
  · rfl
  · obtain ⟨-, habove⟩ := h.stackBase_spec hpool hj
    rw [if_pos rfl] at hia
    rw [if_neg hj.1] at hja
    omega
  · obtain ⟨-, habove⟩ := h.stackBase_spec hpool hi
    rw [if_pos rfl] at hja
    rw [if_neg hi.1] at hia
    omega
  · by_contra hne
    obtain ⟨haligned, -⟩ := h.stackBase_spec hpool hi
    obtain ⟨haligned', -⟩ := h.stackBase_spec hpool hj
    rw [if_neg hi.1] at hia
    rw [if_neg hj.1] at hja
    have hsame : (k.processes i).stackBase = (k.processes j).stackBase :=
      UInt32.toNat_inj.mp (by omega)
    exact h.disjoint i j hi hj hne (List.mem_cons_self) (hsame ▸ List.mem_cons_self)

/-- The saved context of a process lies at the end of its ring-0 stack. -/
theorem Owned.context_eq (h : Owned layout pool k) {i : Slot} (hi : k.Used i) :
    (k.processes i).context = processKernelStackTop layout (k.processes i) - contextSize := by
  rcases hi with rfl | hi
  · rw [h.bootstrap]
    rfl
  · rw [(h.created i hi).context, processKernelStackTop, (h.created i hi).bootstrap]
    rfl

theorem Owned.onStack_context (h : Owned layout pool k) {i : Slot} (hi : k.Used i) :
    k.OnStack layout i (k.processes i).context := by
  unfold Kernel.OnStack
  rcases hi with rfl | hi
  · rw [if_pos rfl, h.context_zero_toNat]
    omega
  · rw [if_neg hi.1, h.context_toNat hi]
    omega

/-- A saved context does not wrap around the end of memory. -/
theorem Owned.context_fits (h : Owned layout pool k) {i : Slot} (hi : k.Used i) :
    (k.processes i).context.toNat + 60 ≤ 2 ^ 32 := by
  rcases hi with rfl | hocc
  · have hcontext := h.context_zero_toNat
    have hmem := layout.bootstrapStack_mem
    have himage := layout.image_le
    omega
  · have hcontext := h.context_toNat hocc
    obtain ⟨-, haligned, -⟩ := (h.created i hocc).page _ List.mem_cons_self
    have hlt := (k.processes i).stackBase.toNat_lt
    omega

theorem Owned.context_aligned (h : Owned layout pool k) {i : Slot} (hi : k.Used i) :
    (k.processes i).context.toNat % 4 = 0 := by
  rcases hi with rfl | hocc
  · have hcontext := h.context_zero_toNat
    have haligned := layout.bootstrapStack_aligned
    omega
  · have hcontext := h.context_toNat hocc
    obtain ⟨-, haligned, -⟩ := (h.created i hocc).page _ List.mem_cons_self
    omega

theorem Owned.directory_ne_zero (h : Owned layout pool k) {i : Slot} (hi : k.Used i) :
    (k.processes i).directory ≠ 0 := by
  rcases hi with rfl | hi
  · rw [h.bootstrap]
    intro hzero
    have hmem := layout.pageDirectory_mem
    have hnat : layout.pageDirectory.toNat = 0 := congrArg UInt32.toNat hzero
    omega
  · exact ((h.created i hi).page _ (by simp [Process.pages])).1

end Stacks

end LevOS
