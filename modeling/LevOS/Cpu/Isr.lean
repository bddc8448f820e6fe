import LevOS.Cpu.Machine

/-!
# The interrupt stubs

`isr_stub_N` and `isr_common` of `cpu/idt.asm`, instruction by instruction. The
frame they build is the `struct cpu_context` the C handler receives; the return
path unpacks the context whose address the handler returns.

## Main definitions

* `isrStub`, `isrCommon`, the code
* `Machine.interrupt`, from the interrupted state to the state after `iretd`
* `savedFrame`, the words on the stack when the handler is called

## Main results

* `run_isrExit_user`, `run_isrExit_kernel`: what the return path restores
* `interrupt_transparent_iff`: when an interrupt goes unnoticed
-/

namespace LevOS.Cpu

open LevOS.Foundation

/-! ## The code -/

/-- The vectors with an `ISR_ERROR` stub: the processor pushes their error code. -/
def hasErrorCode (vector : UInt8) : Bool :=
  vector = 8 || (10 ≤ vector && vector ≤ 14) || vector = 17

/-- `isr_stub_N`, up to its jump to `isr_common`. -/
def isrStub (vector : UInt8) : List Instr :=
  if hasErrorCode vector then [.pushImm vector.toUInt32]
  else [.pushImm 0, .pushImm vector.toUInt32]

/-- The entry of `isr_common`, up to the call of the C handler. -/
def isrSave : List Instr := [.cld, .pusha, .push .esp]

/-- The call of the C handler. -/
def isrCall : List Instr := [.callHandler, .add .esp 4]

/-- The return path of `isr_common`. The argument is the address of
`scheduler_next_directory`. -/
def isrExit (nextDirectory : UInt32) : List Instr :=
  [ .mov .esi .eax,
    .loadAt .edx nextDirectory,
    .test .edx,
    .jz .keepDirectory,
    .movCr3 .edx,
    .label .keepDirectory,
    .mov .esp .esi,
    .popa,
    .load .edi .esp (0 - 20),
    .add .esp 8,
    .testByte .esp 4 3,
    .jnz .returnFrame,
    .load .eax .esp 0,
    .load .ebx .esp 4,
    .load .ecx .esp 8,
    .add .edi 8,
    .store .edi 0 .eax,
    .store .edi 4 .ebx,
    .store .edi 8 .ecx,
    .mov .esp .edi,
    .label .returnFrame,
    .iretd ]

/-- `isr_common`. -/
def isrCommon (nextDirectory : UInt32) : List Instr :=
  isrSave ++ (isrCall ++ isrExit nextDirectory)

/-- The code selector of the interrupt gates. -/
def kernelCode : UInt16 := 0x08

/-- An interrupt from its delivery to the `iretd` of the return path. -/
def Machine.interrupt (s : Machine) (tss : Machine.Tss) (entry : UInt32) (vector : UInt8)
    (error nextDirectory : UInt32) (handler : Machine → Machine) : Option Machine :=
  Machine.run handler none (isrStub vector ++ isrCommon nextDirectory)
    (s.deliver tss kernelCode entry (if hasErrorCode vector then some error else none))

/-! ## The return path -/

section Exit

variable {handler : Machine → Machine} {nextDirectory : UInt32}

/-- A conditional jump sees what the last test found. -/
theorem Machine.zero_setZero (s : Machine) (zero : Bool) : (s.setZero zero).zero = zero := by
  have hset (f : UInt32) : (f ||| zeroFlag) &&& zeroFlag = zeroFlag := by
    apply UInt32.eq_of_toBitVec_eq
    ext i hi
    simp only [UInt32.toBitVec_and, UInt32.toBitVec_or, BitVec.getElem_and, BitVec.getElem_or]
    cases f.toBitVec[i] <;> simp
  have hclear (f : UInt32) : (f &&& ~~~zeroFlag) &&& zeroFlag = 0 := by
    apply UInt32.eq_of_toBitVec_eq
    ext i hi
    simp only [UInt32.toBitVec_and, UInt32.toBitVec_not, BitVec.getElem_and, BitVec.getElem_not]
    cases f.toBitVec[i] <;> simp
  cases zero with
  | true =>
    change ((s.eflags ||| zeroFlag) &&& zeroFlag != 0) = true
    rw [hset]
    rfl
  | false =>
    change ((s.eflags &&& ~~~zeroFlag) &&& zeroFlag != 0) = false
    rw [hclear]
    rfl

/-- Straight-line code runs to its end. -/
theorem run_straight (block rest : List Instr) (s : Machine)
    (h : block.all Instr.straight = true) :
    Machine.run handler none (block ++ rest) s =
      Machine.run handler none rest (block.foldl (Machine.exec handler) s) := by
  induction block generalizing s with
  | nil => rfl
  | cons instr block ih =>
    rw [List.all_cons, Bool.and_eq_true] at h
    rw [List.cons_append, List.foldl_cons, ← ih _ h.2]
    cases instr <;> first | rfl | exact absurd h.1 Bool.false_ne_true

/-- The registers of a context that `popa` restores, with the stack pointer left
out of account. -/
def popped (m : Memory) (context : UInt32) (edi esp : UInt32) : Reg → UInt32
  | .edi => edi
  | .esi => load32 m (context + 4)
  | .ebp => load32 m (context + 8)
  | .esp => esp
  | .ebx => load32 m (context + 16)
  | .edx => load32 m (context + 20)
  | .ecx => load32 m (context + 24)
  | .eax => load32 m (context + 28)

/-- The directory in force after the return path: zero keeps the old one. -/
def loadedDirectory (nextDirectory : UInt32) (s : Machine) : UInt32 :=
  if load32 s.memory nextDirectory = 0 then s.cr3 else load32 s.memory nextDirectory

/-- The state to which the return path resumes a ring-3 context. The saved stack
pointer of `pusha` is left in `edi`. -/
def resumeUser (nextDirectory : UInt32) (s : Machine) : Machine where
  regs := popped s.memory (s.regs .eax) (load32 s.memory (s.regs .eax + 12))
    (load32 s.memory (s.regs .eax + 52))
  eip := load32 s.memory (s.regs .eax + 40)
  cs := (load32 s.memory (s.regs .eax + 44)).toUInt16
  ss := (load32 s.memory (s.regs .eax + 56)).toUInt16
  eflags := load32 s.memory (s.regs .eax + 48)
  cr3 := loadedDirectory nextDirectory s
  memory := s.memory

/-- The state to which the return path resumes a ring-0 context: the three words
for `iretd` are copied above the saved stack pointer of `pusha`, through
registers that `popa` had restored. -/
def resumeKernel (nextDirectory : UInt32) (s : Machine) : Machine :=
  let m := s.memory
  let context := s.regs .eax
  let frame := load32 m (context + 12) + 8
  let eip := load32 m (context + 40)
  let cs := load32 m (context + 44)
  let eflags := load32 m (context + 48)
  { regs := fun
      | .eax => eip
      | .ebx => cs
      | .ecx => eflags
      | r => popped m context frame (frame + 12) r
    eip := eip
    cs := cs.toUInt16
    ss := s.ss
    eflags := eflags
    cr3 := loadedDirectory nextDirectory s
    memory := store32 (store32 (store32 m frame eip) (frame + 4) cs) (frame + 8) eflags }

/-- The return path from the selection of the context on. -/
def isrUnpack : List Instr :=
  [.mov .esp .esi, .popa, .load .edi .esp (0 - 20), .add .esp 8, .testByte .esp 4 3]

/-- The return path of a ring-0 context behind the test of its selector. -/
def isrCopy : List Instr :=
  [.load .eax .esp 0, .load .ebx .esp 4, .load .ecx .esp 8, .add .edi 8, .store .edi 0 .eax,
    .store .edi 4 .ebx, .store .edi 8 .ecx, .mov .esp .edi]

/-- The first part of the return path loads the directory, unless it is zero. -/
theorem run_select (s : Machine) :
    ∃ t, Machine.run handler none (isrExit nextDirectory) s =
        Machine.run handler none
          (isrUnpack ++ .jnz .returnFrame :: (isrCopy ++ [.label .returnFrame, .iretd])) t ∧
      t.regs .esi = s.regs .eax ∧ t.memory = s.memory ∧ t.cs = s.cs ∧ t.ss = s.ss ∧
      t.cr3 = loadedDirectory nextDirectory s := by
  -- the state at the jump, with the directory word in `edx`
  set t := [Instr.mov .esi .eax, .loadAt .edx nextDirectory, .test .edx].foldl
    (Machine.exec handler) s with ht
  have hzero : t.zero = (load32 s.memory nextDirectory == 0) := Machine.zero_setZero _ _
  have hrun : Machine.run handler none (isrExit nextDirectory) s =
      Machine.run handler none (.jz .keepDirectory :: .movCr3 .edx :: .label .keepDirectory ::
        (isrUnpack ++ .jnz .returnFrame :: (isrCopy ++ [.label .returnFrame, .iretd]))) t :=
    run_straight [.mov .esi .eax, .loadAt .edx nextDirectory, .test .edx] _ s rfl
  by_cases hkeep : load32 s.memory nextDirectory = 0
  · refine ⟨t, ?_, rfl, rfl, rfl, rfl, ?_⟩
    · rw [hrun, Machine.run, hzero, hkeep]
      rfl
    · rw [loadedDirectory, if_pos hkeep]
      rfl
  · refine ⟨{ t with cr3 := load32 s.memory nextDirectory }, ?_, rfl, rfl, rfl, rfl, ?_⟩
    · rw [hrun, Machine.run, hzero, beq_false_of_ne hkeep]
      rfl
    · rw [loadedDirectory, if_neg hkeep]

/-- The second part unpacks the context and tests its code selector. -/
theorem run_unpack (rest : List Instr) (t : Machine) :
    ∃ u, Machine.run handler none (isrUnpack ++ rest) t = Machine.run handler none rest u ∧
      u.regs = popped t.memory (t.regs .esi) (load32 t.memory (t.regs .esi + 12))
        (t.regs .esi + 40) ∧
      u.memory = t.memory ∧ u.cs = t.cs ∧ u.ss = t.ss ∧ u.cr3 = t.cr3 ∧
      u.zero = (t.memory (t.regs .esi + 44) &&& 3 == 0) := by
  refine ⟨_, run_straight isrUnpack rest t rfl, ?_, rfl, rfl, rfl, rfl, ?_⟩
  · funext r
    cases r with
    | edi =>
      change load32 t.memory (t.regs .esi + 32 + (0 - 20)) = _
      rw [UInt32.add_assoc]
      rfl
    | esp =>
      change t.regs .esi + 32 + 8 = _
      rw [UInt32.add_assoc]
      rfl
    | _ => rfl
  · refine (Machine.zero_setZero _ _).trans ?_
    change (t.memory (t.regs .esi + 32 + 8 + 4) &&& 3 == 0) = _
    rw [UInt32.add_assoc, UInt32.add_assoc]
    rfl

/-- The low byte of a code selector in memory shows its privilege level. -/
theorem ring_load32 (m : Memory) (a : UInt32) :
    Machine.ring (load32 m a).toUInt16 = 0 ↔ m a &&& 3 = 0 := by
  have hlow (n : Nat) : n &&& 3 = n % 4 := Nat.and_two_pow_sub_one_eq_mod n 2
  rw [Machine.ring, ← UInt16.toNat_inj, ← UInt8.toNat_inj, UInt16.toNat_and, UInt8.toNat_and,
    UInt32.toNat_toUInt16, load32_toNat]
  change _ &&& 3 = 0 ↔ _ &&& 3 = 0
  rw [hlow, hlow]
  omega

/-- The return path ends in `iretd`, after the copy for a ring-0 context. -/
theorem run_isrExit (s : Machine) :
    ∃ u : Machine, Machine.run handler none (isrExit nextDirectory) s =
        some (if s.memory (s.regs .eax + 44) &&& 3 = 0 then
          (isrCopy.foldl (Machine.exec handler) u).iretd else u.iretd) ∧
      u.regs = popped s.memory (s.regs .eax) (load32 s.memory (s.regs .eax + 12))
        (s.regs .eax + 40) ∧
      u.memory = s.memory ∧ u.cs = s.cs ∧ u.ss = s.ss ∧
      u.cr3 = loadedDirectory nextDirectory s := by
  obtain ⟨t, hselect, hesi, hmemory, hcs, hss, hcr3⟩ := run_select s
  obtain ⟨u, hunpack, hregs, humemory, hucs, huss, hucr3, hzero⟩ :=
    run_unpack (.jnz .returnFrame :: (isrCopy ++ [.label .returnFrame, .iretd])) t
  rw [hesi, hmemory] at hregs hzero
  refine ⟨u, ?_, hregs, humemory.trans hmemory, hucs.trans hcs, huss.trans hss, hucr3.trans hcr3⟩
  rw [hselect, hunpack, Machine.run, hzero]
  by_cases hring : s.memory (s.regs .eax + 44) &&& 3 = 0
  · rw [if_pos hring, hring]
    exact run_straight isrCopy [.label .returnFrame, .iretd] u rfl
  · rw [if_neg hring, beq_false_of_ne hring]
    rfl

/-- The return path to a ring-3 context. -/
theorem run_isrExit_user {s : Machine} (hcs : Machine.ring s.cs = 0)
    (huser : s.memory (s.regs .eax + 44) &&& 3 ≠ 0) :
    Machine.run handler none (isrExit nextDirectory) s = some (resumeUser nextDirectory s) := by
  obtain ⟨u, hrun, hregs, hmemory, hucs, huss, hcr3⟩ := run_isrExit s
  rw [hrun, if_neg huser]
  obtain ⟨regs, eip, cs, ss, eflags, cr3, memory⟩ := u
  obtain ⟨rfl, rfl, rfl, rfl, rfl⟩ : _ ∧ _ ∧ _ ∧ _ ∧ _ := ⟨hregs, hmemory, hucs, huss, hcr3⟩
  have hring : Machine.ring (load32 s.memory (s.regs .eax + 44)).toUInt16 ≠ Machine.ring s.cs := by
    rw [hcs]
    exact fun hzero => huser ((ring_load32 _ _).mp hzero)
  congr 1
  simp only [Machine.iretd, Machine.word, popped, UInt32.add_assoc, UInt32.reduceAdd, if_neg hring,
    UInt32.add_zero]
  rw [resumeUser, Machine.set, Machine.mk.injEq]
  refine ⟨?_, rfl, rfl, rfl, rfl, rfl, rfl⟩
  funext r
  cases r <;> rfl

/-- The copy of the three words for `iretd`, and the registers it goes through. -/
theorem copy_spec (handler : Machine → Machine) (u : Machine) :
    let frame := u.regs .edi + 8
    let v := isrCopy.foldl (Machine.exec handler) u
    (v.regs = fun
      | .eax => u.word .esp 0
      | .ebx => u.word .esp 4
      | .ecx => u.word .esp 8
      | .edi => frame
      | .esp => frame
      | r => u.regs r) ∧
    v.memory = store32 (store32 (store32 u.memory (frame + 0) (u.word .esp 0)) (frame + 4)
      (u.word .esp 4)) (frame + 8) (u.word .esp 8) ∧
    v.cs = u.cs ∧ v.ss = u.ss ∧ v.cr3 = u.cr3 := by
  refine ⟨?_, rfl, rfl, rfl, rfl⟩
  funext r
  cases r <;> rfl

/-- Three words stored in a row are found again. -/
theorem load32_frame (m : Memory) (frame a b c : UInt32) :
    load32 (store32 (store32 (store32 m frame a) (frame + 4) b) (frame + 8) c) frame = a ∧
    load32 (store32 (store32 (store32 m frame a) (frame + 4) b) (frame + 8) c) (frame + 4) = b ∧
    load32 (store32 (store32 (store32 m frame a) (frame + 4) b) (frame + 8) c) (frame + 8) = c := by
  refine ⟨?_, ?_, load32_store32_self _ _ _⟩
  · rw [load32_store32_of_apart, load32_store32_of_apart, load32_store32_self]
    · rw [show frame - (frame + 4) = 0 - 4 by grind]
      decide
    · rw [show frame + 4 - frame = 4 by grind]
      decide
    · rw [show frame - (frame + 8) = 0 - 8 by grind]
      decide
    · rw [show frame + 8 - frame = 8 by grind]
      decide
  · rw [load32_store32_of_apart, load32_store32_self]
    · rw [show frame + 4 - (frame + 8) = 0 - 4 by grind]
      decide
    · rw [show frame + 8 - (frame + 4) = 4 by grind]
      decide

/-- The return path to a ring-0 context. -/
theorem run_isrExit_kernel {s : Machine} (hcs : Machine.ring s.cs = 0)
    (hkernel : s.memory (s.regs .eax + 44) &&& 3 = 0) :
    Machine.run handler none (isrExit nextDirectory) s = some (resumeKernel nextDirectory s) := by
  obtain ⟨u, hrun, hregs, hmemory, hucs, huss, hcr3⟩ := run_isrExit s
  rw [hrun, if_pos hkernel]
  have hring : Machine.ring (load32 s.memory (s.regs .eax + 44)).toUInt16 = Machine.ring s.cs := by
    rw [hcs]
    exact (ring_load32 _ _).mpr hkernel
  have hword (offset : UInt32) :
      u.word .esp offset = load32 s.memory (s.regs .eax + (40 + offset)) := by
    rw [Machine.word, hmemory, hregs, ← UInt32.add_assoc]
    rfl
  obtain ⟨hvregs, hvmemory, hvcs, hvss, hvcr3⟩ := copy_spec handler u
  set v := isrCopy.foldl (Machine.exec handler) u
  have hframe : u.regs .edi + 8 = load32 s.memory (s.regs .eax + 12) + 8 := by rw [hregs]; rfl
  rw [hframe] at hvregs hvmemory
  rw [show u.word .esp 0 = load32 s.memory (s.regs .eax + 40) from hword 0,
    show u.word .esp 4 = load32 s.memory (s.regs .eax + 44) from hword 4,
    show u.word .esp 8 = load32 s.memory (s.regs .eax + 48) from hword 8] at hvregs hvmemory
  rw [hmemory, UInt32.add_zero] at hvmemory
  set frame := load32 s.memory (s.regs .eax + 12) + 8
  -- `iretd` finds the words that were just copied
  obtain ⟨heip, hcsword, heflags⟩ := load32_frame s.memory frame
    (load32 s.memory (s.regs .eax + 40)) (load32 s.memory (s.regs .eax + 44))
    (load32 s.memory (s.regs .eax + 48))
  rw [← hvmemory] at heip hcsword heflags
  have hvword (offset : UInt32) : v.word .esp offset = load32 v.memory (frame + offset) := by
    rw [Machine.word, hvregs]
  congr 1
  rw [Machine.iretd, hvword, hvword, hvword, UInt32.add_zero, heip, hcsword, heflags, hvcs, hucs]
  simp only
  rw [if_pos hring, Machine.set, resumeKernel, Machine.mk.injEq]
  refine ⟨?_, rfl, rfl, hvss.trans huss, rfl, hvcr3.trans hcr3, hvmemory⟩
  rw [hvregs, hregs]
  funext r
  cases r <;> rfl

end Exit

/-! ## The frame -/

theorem Machine.pushAll_eq (s : Machine) (values : List UInt32) :
    s.pushAll values =
      { s with
        regs := Function.update s.regs .esp (s.regs .esp - UInt32.ofNat (4 * values.length))
        memory := pushWords s.memory (s.regs .esp) values } := by
  induction values generalizing s with
  | nil =>
    rw [List.length_nil, Nat.mul_zero, show UInt32.ofNat 0 = 0 from rfl, UInt32.sub_zero,
      Function.update_eq_self]
    rfl
  | cons value values ih =>
    change (s.push value).pushAll values = _
    rw [ih, Machine.push, List.length_cons, bottom_cons]
    simp only [Function.update_self, Function.update_idem]
    rfl

section Frame

variable (s : Machine) (tss : Machine.Tss) (entry : UInt32) (vector : UInt8) (error : UInt32)

/-- The state at the entry of `isr_common`. -/
def Machine.atCommon : Machine :=
  (isrStub vector).foldl (Machine.exec id)
    (s.deliver tss kernelCode entry (if hasErrorCode vector then some error else none))

/-- The state in which `isr_common` calls the handler. -/
def Machine.atCall : Machine :=
  isrSave.foldl (Machine.exec id) (s.atCommon tss entry vector error)

/-- The stack on which an interrupt is taken. -/
def Machine.entryStack : UInt32 := if Machine.ring s.cs = 0 then s.regs .esp else tss.esp0

/-- The words pushed before `isr_common` is entered. -/
def interruptWords : List UInt32 :=
  (if Machine.ring s.cs = 0 then [] else [s.ss.toUInt32, s.regs .esp]) ++
    [s.eflags, s.cs.toUInt32, s.eip, if hasErrorCode vector then error else 0, vector.toUInt32]

/-- The address of the vector in the frame: the stack pointer that `pusha` saves. -/
def Machine.vectorAddress : UInt32 :=
  s.entryStack tss - UInt32.ofNat (4 * (interruptWords s vector error).length)

/-- The words an interrupt saves, in the order of the pushes. -/
def savedFrame : List UInt32 :=
  interruptWords s vector error ++
    [s.regs .eax, s.regs .ecx, s.regs .edx, s.regs .ebx, s.vectorAddress tss vector error,
      s.regs .ebp, s.regs .esi, s.regs .edi]

/-- The address of the saved frame, which is passed to the handler. -/
def Machine.context : UInt32 :=
  s.entryStack tss - UInt32.ofNat (4 * (savedFrame s tss vector error).length)

theorem atCommon_spec :
    (s.atCommon tss entry vector error).memory =
        pushWords s.memory (s.entryStack tss) (interruptWords s vector error) ∧
      (s.atCommon tss entry vector error).regs =
        Function.update s.regs .esp (s.vectorAddress tss vector error) ∧
      (s.atCommon tss entry vector error).cs = kernelCode := by
  have h5 (a : UInt32) : a - UInt32.ofNat 20 = a - 4 - 4 - 4 - 4 - 4 := by
    rw [show UInt32.ofNat 20 = 20 from rfl]
    grind
  have h7 (a : UInt32) : a - UInt32.ofNat 28 = a - 4 - 4 - 4 - 4 - 4 - 4 - 4 := by
    rw [show UInt32.ofNat 28 = 28 from rfl]
    grind
  unfold Machine.atCommon Machine.deliver isrStub Machine.vectorAddress interruptWords
    Machine.entryStack
  -- on either stack, and with either origin of the error code, the same words are pushed
  by_cases hring : Machine.ring s.cs = 0 <;> cases hasErrorCode vector
  all_goals
    simp only [hring, if_true, if_false, Bool.false_eq_true]
    refine ⟨rfl, ?_, rfl⟩
    funext r
    cases r <;> first | rfl | exact (h5 _).symm | exact (h7 _).symm

theorem atCall_spec :
    (s.atCall tss entry vector error).memory =
        pushWords s.memory (s.entryStack tss)
          (savedFrame s tss vector error ++ [s.context tss vector error]) ∧
      (s.atCall tss entry vector error).regs .esp = s.context tss vector error - 4 ∧
      (s.atCall tss entry vector error).cs = kernelCode := by
  obtain ⟨hmemory, hregs, hcs⟩ := atCommon_spec s tss entry vector error
  set t := s.atCommon tss entry vector error
  have hsave : s.atCall tss entry vector error =
      Machine.push (Machine.pusha { t with eflags := t.eflags &&& ~~~0x400 })
        ((Machine.pusha { t with eflags := t.eflags &&& ~~~0x400 }).regs .esp) := rfl
  have hother (r : Reg) (hr : r ≠ .esp) : t.regs r = s.regs r := by
    rw [hregs, Function.update_of_ne hr]
  have hesp : t.regs .esp = s.vectorAddress tss vector error := by
    rw [hregs, Function.update_self]
  have hcontext : s.vectorAddress tss vector error - UInt32.ofNat 32 =
      s.context tss vector error := by
    rw [Machine.vectorAddress, Machine.context, savedFrame, List.length_append, Nat.mul_add,
      UInt32.ofNat_add]
    simp only [List.length_cons, List.length_nil]
    grind
  -- the eight registers are pushed as they were at the interrupt
  rw [hsave, Machine.pusha, Machine.pushAll_eq, Machine.push]
  simp only [Function.update_self, List.length_cons, List.length_nil, Nat.reduceAdd, Nat.reduceMul,
    hesp, hmemory, hother .eax (by decide), hother .ecx (by decide), hother .edx (by decide),
    hother .ebx (by decide), hother .ebp (by decide), hother .esi (by decide),
    hother .edi (by decide), hcontext]
  refine ⟨?_, trivial, hcs⟩
  rw [pushWords_append]
  conv => rhs; rw [savedFrame, pushWords_append]
  rfl

/-- The size of the saved frame in bytes. -/
def frameSize : Nat := 4 * (savedFrame s tss vector error).length

theorem savedFrame_length_le : (savedFrame s tss vector error).length ≤ 15 := by
  rw [savedFrame, interruptWords]
  split_ifs <;> simp

/-- A handler run that returns the context it was given and leaves the saved
frame as it was. It keeps the stack pointer, as every C function does, and may
do anything else. -/
structure ReturnsSame (called returned : Machine) : Prop where
  esp : returned.regs .esp = called.regs .esp
  eax : returned.regs .eax = s.context tss vector error
  frame : ∀ i < frameSize s tss vector error,
    returned.memory (s.context tss vector error + UInt32.ofNat i) =
      called.memory (s.context tss vector error + UInt32.ofNat i)
  cs : returned.cs = called.cs

theorem interrupt_eq (nextDirectory : UInt32) (handler : Machine → Machine) :
    s.interrupt tss entry vector error nextDirectory handler =
      Machine.run handler none (isrExit nextDirectory)
        ((handler (s.atCall tss entry vector error)).set .esp
          ((handler (s.atCall tss entry vector error)).regs .esp + 4)) := by
  have hstub : (isrStub vector).all Instr.straight = true := by
    unfold isrStub
    split_ifs <;> rfl
  have hexec (t : Machine) : (isrStub vector).foldl (Machine.exec handler) t =
      (isrStub vector).foldl (Machine.exec id) t := by
    unfold isrStub
    split_ifs <;> rfl
  rw [Machine.interrupt, run_straight _ _ _ hstub, hexec, isrCommon]
  exact (run_straight isrSave _ _ rfl).trans (run_straight isrCall _ _ rfl)

variable {s tss entry vector error}

/-- Whatever the handler did elsewhere, the return path finds the saved words. -/
theorem ReturnsSame.load32_eq {returned : Machine}
    (h : ReturnsSame s tss vector error (s.atCall tss entry vector error) returned) {k : Nat}
    (hk : k < (savedFrame s tss vector error).length) :
    load32 returned.memory (s.context tss vector error + UInt32.ofNat (4 * k)) =
      (savedFrame s tss vector error).reverse.getD k 0 := by
  have hlength := savedFrame_length_le s tss vector error
  obtain ⟨hmemory, -, -⟩ := atCall_spec s tss entry vector error
  have hcalled : load32 (s.atCall tss entry vector error).memory
        (s.context tss vector error + UInt32.ofNat (4 * k)) =
      (savedFrame s tss vector error).reverse.getD k 0 := by
    rw [← load32_pushWords_bottom (m := s.memory) (by omega) hk, hmemory, pushWords_append]
    -- the argument pushed for the handler lies below the frame
    apply load32_congr
    intro j hj
    apply pushWords_of_le (by simp)
    rw [UInt32.add_assoc, ← UInt32.ofNat_add, toNat_add_ofNat_sub, ← Machine.context]
    rw [show s.context tss vector error - (s.context tss vector error -
      UInt32.ofNat (4 * [s.context tss vector error].length)) = 4 by
        simp only [List.length_singleton]; grind]
    simp only [List.length_singleton]
    change 4 ≤ (4 + (4 * k + j)) % 2 ^ 32
    omega
  rw [← hcalled]
  apply load32_congr
  intro j hj
  rw [UInt32.add_assoc, ← UInt32.ofNat_add]
  exact h.frame _ (by rw [frameSize]; omega)

theorem savedFrame_user (hring : Machine.ring s.cs ≠ 0) :
    savedFrame s tss vector error =
      [s.ss.toUInt32, s.regs .esp, s.eflags, s.cs.toUInt32, s.eip,
        if hasErrorCode vector then error else 0, vector.toUInt32, s.regs .eax, s.regs .ecx,
        s.regs .edx, s.regs .ebx, tss.esp0 - 28, s.regs .ebp, s.regs .esi, s.regs .edi] := by
  rw [savedFrame, Machine.vectorAddress, Machine.entryStack, interruptWords, if_neg hring,
    if_neg hring]
  rfl

theorem savedFrame_kernel (hring : Machine.ring s.cs = 0) :
    savedFrame s tss vector error =
      [s.eflags, s.cs.toUInt32, s.eip, if hasErrorCode vector then error else 0, vector.toUInt32,
        s.regs .eax, s.regs .ecx, s.regs .edx, s.regs .ebx, s.regs .esp - 20, s.regs .ebp,
        s.regs .esi, s.regs .edi] := by
  rw [savedFrame, Machine.vectorAddress, Machine.entryStack, interruptWords, if_pos hring,
    if_pos hring]
  rfl

variable {handler : Machine → Machine} (nextDirectory : UInt32)

/-- The return path starts from the saved frame. -/
theorem ReturnsSame.exit
    (h : ReturnsSame s tss vector error (s.atCall tss entry vector error)
      (handler (s.atCall tss entry vector error))) :
    ∃ r : Machine, s.interrupt tss entry vector error nextDirectory handler =
        Machine.run handler none (isrExit nextDirectory) r ∧
      r.regs .eax = s.context tss vector error ∧ Machine.ring r.cs = 0 ∧
      ∀ k < (savedFrame s tss vector error).length,
        load32 r.memory (s.context tss vector error + UInt32.ofNat (4 * k)) =
          (savedFrame s tss vector error).reverse.getD k 0 := by
  refine ⟨_, interrupt_eq _ _ _ _ _ _ _, h.eax, ?_, fun k hk => h.load32_eq hk⟩
  change Machine.ring (handler (s.atCall tss entry vector error)).cs = 0
  rw [h.cs, (atCall_spec s tss entry vector error).2.2]
  decide

/-- An interrupt of ring 3 is resumed with everything in place but `edi`. -/
theorem interrupt_user (hring : Machine.ring s.cs ≠ 0)
    (h : ReturnsSame s tss vector error (s.atCall tss entry vector error)
      (handler (s.atCall tss entry vector error))) :
    ∃ s', s.interrupt tss entry vector error nextDirectory handler = some s' ∧
      s'.regs = Function.update s.regs .edi (tss.esp0 - 28) ∧ s'.eip = s.eip ∧ s'.cs = s.cs ∧
      s'.eflags = s.eflags ∧ s'.ss = s.ss := by
  obtain ⟨r, hrun, heax, hkernel, hfield⟩ := h.exit nextDirectory
  rw [savedFrame_user hring] at hfield
  -- the saved selectors tell the return path that it goes back to ring 3
  have hcs : load32 r.memory (r.regs .eax + 44) = s.cs.toUInt32 := by
    rw [heax]
    exact hfield 11 (by simp)
  have hss : load32 r.memory (r.regs .eax + 56) = s.ss.toUInt32 := by
    rw [heax]
    exact hfield 14 (by simp)
  have huser : r.memory (r.regs .eax + 44) &&& 3 ≠ 0 := by
    rw [ne_eq, ← ring_load32, hcs, UInt16.toUInt16_toUInt32]
    exact hring
  rw [hrun, run_isrExit_user hkernel huser]
  refine ⟨_, rfl, ?_, ?_, ?_, ?_, ?_⟩
  · funext r'
    rw [resumeUser, heax]
    cases r' with
    | eax => exact hfield 7 (by simp)
    | ecx => exact hfield 6 (by simp)
    | edx => exact hfield 5 (by simp)
    | ebx => exact hfield 4 (by simp)
    | esp => exact hfield 13 (by simp)
    | ebp => exact hfield 2 (by simp)
    | esi => exact hfield 1 (by simp)
    | edi => exact hfield 3 (by simp)
  · rw [resumeUser, heax]
    exact hfield 10 (by simp)
  · rw [resumeUser, hcs, UInt16.toUInt16_toUInt32]
  · rw [resumeUser, heax]
    exact hfield 12 (by simp)
  · rw [resumeUser, hss, UInt16.toUInt16_toUInt32]

/-- An interrupt of ring 0 is resumed with the instruction pointer, the code
selector and the flags in `eax`, `ebx` and `ecx`, and a stack address in `edi`. -/
theorem interrupt_kernel (hring : Machine.ring s.cs = 0)
    (h : ReturnsSame s tss vector error (s.atCall tss entry vector error)
      (handler (s.atCall tss entry vector error))) :
    ∃ s', s.interrupt tss entry vector error nextDirectory handler = some s' ∧
      (s'.regs = fun
        | .eax => s.eip
        | .ebx => s.cs.toUInt32
        | .ecx => s.eflags
        | .edi => s.regs .esp - 12
        | r => s.regs r) ∧
      s'.eip = s.eip ∧ s'.cs = s.cs ∧ s'.eflags = s.eflags := by
  obtain ⟨r, hrun, heax, hkernel, hfield⟩ := h.exit nextDirectory
  rw [savedFrame_kernel hring] at hfield
  -- the words that the return path reads, as the entry has saved them
  have hsaved : load32 r.memory (s.context tss vector error + 12) = s.regs .esp - 20 :=
    hfield 3 (by simp)
  have heip : load32 r.memory (s.context tss vector error + 40) = s.eip := hfield 10 (by simp)
  have hcs : load32 r.memory (s.context tss vector error + 44) = s.cs.toUInt32 :=
    hfield 11 (by simp)
  have heflags : load32 r.memory (s.context tss vector error + 48) = s.eflags :=
    hfield 12 (by simp)
  -- it sees the saved selector, and so takes the way back to ring 0
  have hring' : r.memory (r.regs .eax + 44) &&& 3 = 0 := by
    rw [← ring_load32, heax, hcs, UInt16.toUInt16_toUInt32]
    exact hring
  rw [hrun, run_isrExit_kernel hkernel hring']
  refine ⟨_, rfl, ?_, ?_, ?_, ?_⟩
  · funext r'
    rw [resumeKernel, heax]
    cases r' with
    | eax => exact heip
    | ebx => exact hcs
    | ecx => exact heflags
    | edx => exact hfield 5 (by simp)
    | ebp => exact hfield 2 (by simp)
    | esi => exact hfield 1 (by simp)
    | edi =>
      change load32 r.memory (s.context tss vector error + 12) + 8 = s.regs .esp - 12
      rw [hsaved]
      grind
    | esp =>
      change load32 r.memory (s.context tss vector error + 12) + 8 + 12 = s.regs .esp
      rw [hsaved]
      grind
  · rw [resumeKernel, heax]
    exact heip
  · rw [resumeKernel, heax, hcs, UInt16.toUInt16_toUInt32]
  · rw [resumeKernel, heax]
    exact heflags

end Frame

/-! ## Transparency -/

/-- The interrupted code finds its registers, its instruction pointer, its code
selector and its flags as they were, and in ring 3 its stack selector. -/
def Unnoticed (s s' : Machine) : Prop :=
  s'.regs = s.regs ∧ s'.eip = s.eip ∧ s'.cs = s.cs ∧ s'.eflags = s.eflags ∧
    (Machine.ring s.cs = 3 → s'.ss = s.ss)

/-- A handler that only returns its argument. -/
def returnArgument (s : Machine) : Machine := s.set .eax (s.word .esp 0)

theorem returnArgument_returnsSame (s : Machine) (tss : Machine.Tss) (entry : UInt32)
    (vector : UInt8) (error : UInt32) :
    ReturnsSame s tss vector error (s.atCall tss entry vector error)
      (returnArgument (s.atCall tss entry vector error)) := by
  obtain ⟨hmemory, hesp, -⟩ := atCall_spec s tss entry vector error
  generalize s.atCall tss entry vector error = t at hmemory hesp
  refine ⟨rfl, ?_, fun _ _ => rfl, rfl⟩
  change t.word .esp 0 = _
  rw [Machine.word, hesp, hmemory, pushWords_append, ← Machine.context, UInt32.add_zero]
  -- the argument is the word pushed last
  exact load32_store32_self _ _ _

/-- Interrupt transparency: an interrupt whose handler returns the context it was
given, unchanged, goes unnoticed exactly when the registers through which the
return path works already hold what it leaves in them. -/
theorem interrupt_transparent_iff {s : Machine} {tss : Machine.Tss} {entry : UInt32}
    {vector : UInt8} {error nextDirectory : UInt32} {handler : Machine → Machine}
    (h : ReturnsSame s tss vector error (s.atCall tss entry vector error)
      (handler (s.atCall tss entry vector error))) :
    ∃ s', s.interrupt tss entry vector error nextDirectory handler = some s' ∧
      (Unnoticed s s' ↔
        if Machine.ring s.cs = 0 then
          s.regs .eax = s.eip ∧ s.regs .ebx = s.cs.toUInt32 ∧ s.regs .ecx = s.eflags ∧
            s.regs .edi = s.regs .esp - 12
        else s.regs .edi = tss.esp0 - 28) := by
  -- the two ways back spoil different registers
  by_cases hzero : Machine.ring s.cs = 0
  · obtain ⟨s', hrun, hregs, heip, hcs, heflags⟩ := interrupt_kernel nextDirectory hzero h
    refine ⟨s', hrun, ?_⟩
    rw [if_pos hzero, Unnoticed, hregs]
    constructor
    · rintro ⟨hsame, -⟩
      exact ⟨(congrFun hsame .eax).symm, (congrFun hsame .ebx).symm, (congrFun hsame .ecx).symm,
        (congrFun hsame .edi).symm⟩
    · rintro ⟨heax, hebx, hecx, hedi⟩
      refine ⟨?_, heip, hcs, heflags, fun hthree => ?_⟩
      · funext r
        cases r with
        | eax => exact heax.symm
        | ebx => exact hebx.symm
        | ecx => exact hecx.symm
        | edi => exact hedi.symm
        | _ => rfl
      · rw [hzero] at hthree
        exact absurd hthree (by decide)
  · obtain ⟨s', hrun, hregs, heip, hcs, heflags, hss⟩ := interrupt_user nextDirectory hzero h
    refine ⟨s', hrun, ?_⟩
    rw [if_neg hzero, Unnoticed, hregs]
    constructor
    · rintro ⟨hsame, -⟩
      have hedi := congrFun hsame .edi
      rw [Function.update_self] at hedi
      exact hedi.symm
    · intro hedi
      refine ⟨?_, heip, hcs, heflags, fun _ => hss⟩
      rw [← hedi, Function.update_eq_self]

/-- A program in ring 3, with a value in `edi`. -/
def userProgram (edi : UInt32) : Machine where
  regs
    | .esp => 0x7FFFF0
    | .edi => edi
    | _ => 0
  eip := 0x400010
  cs := 0x1B
  ss := 0x23
  eflags := 0x202
  cr3 := 0x10000
  memory := fun _ => 0

/-- The ring-0 stack of a user process. -/
def userTss : Machine.Tss where
  esp0 := 0x202000
  ss0 := 0x10

theorem interrupt_transparent_iff_sample :
    ∃ s', (userProgram 0x201FE4).interrupt userTss 0x100000 32 0 0x5000 returnArgument = some s' ∧
      Unnoticed (userProgram 0x201FE4) s' := by
  have hsame := returnArgument_returnsSame (userProgram 0x201FE4) userTss 0x100000 32 0
  obtain ⟨s', hrun, hiff⟩ := interrupt_transparent_iff hsame
  exact ⟨s', hrun, hiff.mpr (by decide)⟩

/-- A timer tick takes the value of `edi` from a program in ring 3. -/
theorem interrupt_noticed :
    ¬ ∀ (s : Machine) (tss : Machine.Tss) (entry : UInt32) (vector : UInt8)
      (error nextDirectory : UInt32) (handler : Machine → Machine),
      (Machine.ring s.cs = 0 ∨ Machine.ring s.cs = 3) →
      ReturnsSame s tss vector error (s.atCall tss entry vector error)
        (handler (s.atCall tss entry vector error)) →
      ∃ s', s.interrupt tss entry vector error nextDirectory handler = some s' ∧
        Unnoticed s s' := by
  intro hall
  have hsame := returnArgument_returnsSame (userProgram 0) userTss 0x100000 32 0
  obtain ⟨s', hrun, hregs, -⟩ := hall _ _ _ _ _ 0x5000 _ (.inr (by decide)) hsame
  obtain ⟨s'', hrun', hregs', -⟩ := interrupt_user 0x5000 (by decide) hsame
  obtain rfl : s' = s'' := Option.some.inj (hrun.symm.trans hrun')
  have hedi : userTss.esp0 - 28 = (userProgram 0).regs .edi := by
    rw [← hregs, hregs', Function.update_self]
  exact absurd hedi (by decide)

end LevOS.Cpu
