import LevOS.Process.Creation
import LevOS.Memory.Identity

/-!
# What a new user process finds

`process_create_user` makes a directory, maps two pages through it, copies the
image and writes the initial context. Where addresses are taken as they are, this
determines memory: the new pages and two entries of an identity table change, and
nothing else.

## Main definitions

* `storedFields`, `assigned`, the fields of a context
* `UserStarted`, what a successful creation does to memory

## Main results

* `userStarted_memory`
-/

namespace LevOS

open Foundation Memory

/-! ## Contexts -/

/-- Memory after the fields of a context are stored. -/
def storedFields (context : UInt32) : List (Field × UInt32) → Memory → Memory
  | [], m => m
  | (field, value) :: fields, m =>
    storedFields context fields (store32 m (field.of context) value)

/-- The value of the `n`-th word after fields are stored. -/
def assigned (n : Nat) : List (Field × UInt32) → UInt32 → UInt32
  | [], value => value
  | (field, value') :: fields, value =>
    assigned n fields (if field.index = n then value' else value)

theorem Field.index_lt (field : Field) : field.index < contextWords := by
  cases field <;> decide

section Contexts

variable {context a : UInt32} {m : Memory} {fields : List (Field × UInt32)}

theorem Field.of_toNat (field : Field) (hfit : context.toNat + 60 ≤ 2 ^ 32) :
    (field.of context).toNat = context.toNat + 4 * field.index := by
  have hlt : field.index < 15 := field.index_lt
  exact toNat_add_ofNat (by omega)

theorem storedFields_outside (h : Outside a context 60) (hfit : context.toNat + 60 ≤ 2 ^ 32) :
    storedFields context fields m a = m a := by
  induction fields generalizing m with
  | nil => rfl
  | cons head fields ih =>
    obtain ⟨field, value⟩ := head
    have hlt : field.index < 15 := field.index_lt
    have haddress := field.of_toNat hfit
    rw [storedFields, ih, store32_outside _ (by omega)]
    unfold Outside at *
    omega

theorem load32_storedFields {n : Nat} (hn : n < 15) (hfit : context.toNat + 60 ≤ 2 ^ 32) :
    load32 (storedFields context fields m) (context + UInt32.ofNat (4 * n)) =
      assigned n fields (load32 m (context + UInt32.ofNat (4 * n))) := by
  have hword : (context + UInt32.ofNat (4 * n)).toNat = context.toNat + 4 * n :=
    toNat_add_ofNat (by omega)
  induction fields generalizing m with
  | nil => rfl
  | cons head fields ih =>
    obtain ⟨field, value⟩ := head
    have hlt : field.index < 15 := field.index_lt
    have haddress := field.of_toNat hfit
    rw [storedFields, ih, assigned]
    congr 1
    split_ifs with hindex
    · rw [Field.of, hindex]
      exact load32_store32_self _ _ _
    · exact load32_store32_apart (by omega) (by omega) (by omega)

theorem Memory.Plain.storeFields {access : Access} {good : Memory → Prop}
    {readable writable : UInt32 → Prop} {s : Space}
    (h : Plain access s.cr3 good readable writable) (hgood : good s.memory)
    (hcontext : EachWord writable context contextWords) :
    LevOS.storeFields access context fields s =
        some { s with memory := storedFields context fields s.memory } ∧
      good (storedFields context fields s.memory) := by
  induction fields generalizing s with
  | nil => exact ⟨rfl, hgood⟩
  | cons head fields ih =>
    obtain ⟨field, value⟩ := head
    have hwrite : writable (field.of context) := hcontext.2 _ field.index_lt
    have hkept := h.keep _ _ value hgood hwrite (hcontext.aligned field.index)
    obtain ⟨hrest, hkept'⟩ := ih (s := { s with memory := store32 s.memory (field.of context) value })
      h hkept
    refine ⟨?_, hkept'⟩
    rw [LevOS.storeFields, h.store_eq hgood hwrite]
    exact hrest

end Contexts

/-! ## User processes -/

/-- The pages of a new user process: aligned, above the kernel, and distinct. -/
structure NewPages (layout : Layout) (stack code user directory : UInt32) : Prop where
  aligned : stack.toNat % 4096 = 0 ∧ code.toNat % 4096 = 0 ∧ user.toNat % 4096 = 0 ∧
    directory.toNat % 4096 = 0
  above : layout.kernelEnd.toNat ≤ stack.toNat ∧ layout.kernelEnd.toNat ≤ code.toNat ∧
    layout.kernelEnd.toNat ≤ user.toNat ∧ layout.kernelEnd.toNat ≤ directory.toNat
  distinct : stack.toNat ≠ code.toNat ∧ stack.toNat ≠ directory.toNat ∧
    code.toNat ≠ directory.toNat

/-- The places that a creation reads from and writes to. -/
structure Reaches (layout : Layout) (readable writable : UInt32 → Prop)
    (stack code directory : UInt32) : Prop where
  source : EachWord readable layout.pageDirectory 1024
  entries : EachWord writable directory 1024
  slot : readable (directory + 4)
  first : writable (tableAddress layout 1)
  last : writable (tableAddress layout 1 + 4092)
  code : ∀ i < 4096, writable (code + UInt32.ofNat i)
  context : EachWord writable (stack + 4096 - contextSize) contextWords

/-- What a successful `process_create_user` does to memory. -/
structure UserStarted (layout : Layout) (m m' : Memory) (stack code user directory : UInt32) :
    Prop where
  frame : ∀ a, Outside a stack 4096 → Outside a code 4096 → Outside a directory 4096 →
    Outside a (tableAddress layout 1) 4096 → m' a = m a
  context : ∀ n < 15, load32 m' (stack + 4096 - contextSize + UInt32.ofNat (4 * n)) =
    assigned n Kernel.userFrame 0
  first : load32 m' (tableAddress layout 1) = frameOf code ||| flagsFor 0x55
  last : load32 m' (tableAddress layout 1 + 4092) = frameOf user ||| flagsFor 0x55
  table : ∀ e, 0 < e → e < 1023 →
    load32 m' (tableAddress layout 1 + UInt32.ofNat (4 * e)) =
      load32 m (tableAddress layout 1 + UInt32.ofNat (4 * e))
  slot : load32 m' (directory + 4) = identityEntry layout 1 ||| userFlag
  entries : ∀ t, t ≠ 1 → t < 1023 → load32 m' (directory + UInt32.ofNat (4 * t)) =
    load32 m (layout.pageDirectory + UInt32.ofNat (4 * t))

/-- Memory after the two pages of a user process are mapped. -/
def pagesMapped (layout : Layout) (m : Memory) (code user directory : UInt32) : Memory :=
  let entry := identityEntry layout 1 ||| userFlag
  let m' := store32 (store32 m (directory + 4) entry) (tableAddress layout 1)
    (frameOf code ||| flagsFor 0x55)
  store32 (store32 m' (directory + 4) entry) (tableAddress layout 1 + 4092)
    (frameOf user ||| flagsFor 0x55)

section Started

variable {layout : Layout} {stack code user directory : UInt32}

/-- Both mappings go through the same table. -/
theorem mappedMemory_twice {m : Memory} (hpages : NewPages layout stack code user directory)
    (hslot : load32 m (directory + 4) = identityEntry layout 1) :
    load32 (mappedMemory m directory Kernel.userCodeAddress code) (directory + 4) =
        identityEntry layout 1 ||| userFlag ∧
      mappedMemory (mappedMemory m directory Kernel.userCodeAddress code) directory
        (Kernel.userStackTop - 4096) user = pagesMapped layout m code user directory := by
  obtain ⟨-, -, -, haligned⟩ := hpages.aligned
  obtain ⟨-, -, -, habove⟩ := hpages.above
  have htable : (tableAddress layout 1).toNat = layout.identityTables.toNat + 4096 * 1 :=
    tableAddress_toNat (by decide)
  have htmem := layout.identityTables_mem
  have hlt := directory.toNat_lt
  have hdslot : (directory + 4).toNat = directory.toNat + 4 := toNat_add_ofNat (n := 4) (by omega)
  have hfirst : mappedMemory m directory Kernel.userCodeAddress code =
      store32 (store32 m (directory + 4) (identityEntry layout 1 ||| userFlag))
        (tableAddress layout 1) (frameOf code ||| flagsFor 0x55) := by
    change store32 (store32 m (directory + 4) (load32 m (directory + 4) ||| userFlag))
      (frameOf (load32 m (directory + 4)) + 0) _ = _
    rw [hslot, frameOf_identityEntry (by decide), UInt32.add_zero]
  have hmarked : load32 (mappedMemory m directory Kernel.userCodeAddress code) (directory + 4) =
      identityEntry layout 1 ||| userFlag := by
    rw [hfirst, load32_store32_apart (by omega) (by omega) (by omega), load32_store32_self]
  refine ⟨hmarked, ?_⟩
  rw [hfirst] at hmarked ⊢
  set m' := store32 (store32 m (directory + 4) (identityEntry layout 1 ||| userFlag))
    (tableAddress layout 1) (frameOf code ||| flagsFor 0x55)
  change store32 (store32 m' (directory + 4) (load32 m' (directory + 4) ||| userFlag))
    (frameOf (load32 m' (directory + 4)) + 4092) _ = _
  rw [hmarked, frameOf_userEntry (by decide), UInt32.or_assoc, UInt32.or_self]
  rfl

/-- Memory after a user process is created, given the memory after its image is
copied. -/
def contextMemory (m : Memory) (stack : UInt32) (fields : List (Field × UInt32)) : Memory :=
  storedFields (stack + 4096 - contextSize) fields
    (clearWords m (stack + 4096 - contextSize) contextWords)

theorem context_toNat {stack : UInt32} (haligned : stack.toNat % 4096 = 0) :
    (stack + 4096 - contextSize).toNat = stack.toNat + 4036 := by
  have hlt := stack.toNat_lt
  rw [UInt32.toNat_sub, UInt32.toNat_add]
  simp only [contextSize, UInt32.reduceToNat]
  omega

theorem contextMemory_outside {m : Memory} {fields : List (Field × UInt32)} {a : UInt32}
    (haligned : stack.toNat % 4096 = 0) (h : Outside a stack 4096) :
    contextMemory m stack fields a = m a := by
  have hcontext := context_toNat haligned
  have hlt := stack.toNat_lt
  have houtside : Outside a (stack + 4096 - contextSize) 60 := by
    unfold Outside at *
    omega
  rw [contextMemory, storedFields_outside houtside (by omega)]
  exact clearWords_outside houtside (show _ + 4 * 15 ≤ _ by omega)

theorem load32_contextMemory {m : Memory} {fields : List (Field × UInt32)}
    (haligned : stack.toNat % 4096 = 0) {n : Nat} (hn : n < 15) :
    load32 (contextMemory m stack fields) (stack + 4096 - contextSize + UInt32.ofNat (4 * n)) =
      assigned n fields 0 := by
  have hcontext := context_toNat haligned
  have hlt := stack.toNat_lt
  have hcleared : load32 (clearWords m (stack + 4096 - contextSize) contextWords)
      (stack + 4096 - contextSize + UInt32.ofNat (4 * n)) = 0 := by
    exact load32_clearWords (show _ + 4 * 15 ≤ _ by omega) hn
  rw [contextMemory, load32_storedFields hn (by omega), hcleared]

theorem directoryMemory_outside {m : Memory} {a : UInt32} (haligned : directory.toNat % 4096 = 0)
    (h : Outside a directory 4096) : directoryMemory layout m directory a = m a := by
  have hlt := directory.toNat_lt
  have hlast : (directory + 4 * 1023).toNat = directory.toNat + 4092 :=
    toNat_add_ofNat (n := 4092) (by omega)
  rw [directoryMemory, store32_outside _ (by omega)]
  · exact copyWords_outside h (show _ + 4 * 1024 ≤ _ by omega)
  · unfold Outside at *
    omega

/-- A new directory has the entries of the kernel's, but for the last one. -/
theorem load32_directoryMemory {m : Memory} (haligned : directory.toNat % 4096 = 0)
    (habove : layout.kernelEnd.toNat ≤ directory.toNat) {t : Nat} (ht : t < 1023) :
    load32 (directoryMemory layout m directory) (directory + UInt32.ofNat (4 * t)) =
      load32 m (layout.pageDirectory + UInt32.ofNat (4 * t)) := by
  have hmem := layout.pageDirectory_mem
  have hlt := directory.toNat_lt
  have hlast : (directory + 4 * 1023).toNat = directory.toNat + 4092 :=
    toNat_add_ofNat (n := 4092) (by omega)
  have hslot : (directory + UInt32.ofNat (4 * t)).toNat = directory.toNat + 4 * t :=
    toNat_add_ofNat (by omega)
  rw [directoryMemory, load32_store32_apart (by omega) (by omega) (by omega)]
  exact load32_copyWords (n := 1024) (by omega) (by omega) (by omega) (by omega)

/-- The mappings change one entry of the directory and two of the table. -/
theorem pagesMapped_outside {m : Memory} (hpages : NewPages layout stack code user directory)
    {a : UInt32} (hdirectory : Outside a (directory + 4) 4)
    (hfirst : Outside a (tableAddress layout 1) 4)
    (hlast : Outside a (tableAddress layout 1 + 4092) 4) :
    pagesMapped layout m code user directory a = m a := by
  obtain ⟨-, -, -, haligned⟩ := hpages.aligned
  have hlt := directory.toNat_lt
  have hmem := layout.identityTables_mem
  have himage := layout.image_le
  have htable : (tableAddress layout 1).toNat = layout.identityTables.toNat + 4096 * 1 :=
    tableAddress_toNat (by decide)
  have hslot : (directory + 4).toNat = directory.toNat + 4 := toNat_add_ofNat (n := 4) (by omega)
  have hend : (tableAddress layout 1 + 4092).toNat = (tableAddress layout 1).toNat + 4092 :=
    toNat_add_ofNat (n := 4092) (by omega)
  rw [pagesMapped, store32_outside hlast (by omega), store32_outside hdirectory (by omega),
    store32_outside hfirst (by omega), store32_outside hdirectory (by omega)]

theorem load32_pagesMapped {m : Memory} (hpages : NewPages layout stack code user directory) :
    load32 (pagesMapped layout m code user directory) (tableAddress layout 1) =
        (frameOf code ||| flagsFor 0x55) ∧
      load32 (pagesMapped layout m code user directory) (tableAddress layout 1 + 4092) =
        (frameOf user ||| flagsFor 0x55) ∧
      load32 (pagesMapped layout m code user directory) (directory + 4) =
        (identityEntry layout 1 ||| userFlag) := by
  obtain ⟨-, -, -, haligned⟩ := hpages.aligned
  obtain ⟨-, -, -, habove⟩ := hpages.above
  have hlt := directory.toNat_lt
  have hmem := layout.identityTables_mem
  have himage := layout.image_le
  have htable : (tableAddress layout 1).toNat = layout.identityTables.toNat + 4096 * 1 :=
    tableAddress_toNat (by decide)
  have hslot : (directory + 4).toNat = directory.toNat + 4 := toNat_add_ofNat (n := 4) (by omega)
  have hend : (tableAddress layout 1 + 4092).toNat = (tableAddress layout 1).toNat + 4092 :=
    toNat_add_ofNat (n := 4092) (by omega)
  refine ⟨?_, load32_store32_self _ _ _, ?_⟩
  · rw [pagesMapped, load32_store32_apart (by omega) (by omega) (by omega),
      load32_store32_apart (by omega) (by omega) (by omega), load32_store32_self]
  · rw [pagesMapped, load32_store32_apart (by omega) (by omega) (by omega), load32_store32_self]

/-- What the stages of a creation come to. -/
theorem userStarted_memory {m m' : Memory} (hpages : NewPages layout stack code user directory)
    (himage : ∀ a, Outside a code 4096 →
      m' a = pagesMapped layout (directoryMemory layout m directory) code user directory a) :
    UserStarted layout m (contextMemory m' stack Kernel.userFrame) stack code user directory := by
  obtain ⟨hsaligned, hcaligned, -, hdaligned⟩ := hpages.aligned
  obtain ⟨hsabove, hcabove, -, hdabove⟩ := hpages.above
  obtain ⟨hstackcode, hstackdirectory, hcodedirectory⟩ := hpages.distinct
  have hslt := stack.toNat_lt
  have hclt := code.toNat_lt
  have hdlt := directory.toNat_lt
  have hmem := layout.identityTables_mem
  have himagele := layout.image_le
  have htable : (tableAddress layout 1).toNat = layout.identityTables.toNat + 4096 * 1 :=
    tableAddress_toNat (by decide)
  have hslot : (directory + 4).toNat = directory.toNat + 4 := toNat_add_ofNat (n := 4) (by omega)
  have hend : (tableAddress layout 1 + 4092).toNat = (tableAddress layout 1).toNat + 4092 :=
    toNat_add_ofNat (n := 4092) (by omega)
  have hlate {a : UInt32} (hs : Outside a stack 4096) (hc : Outside a code 4096) :
      contextMemory m' stack Kernel.userFrame a =
        pagesMapped layout (directoryMemory layout m directory) code user directory a :=
    (contextMemory_outside hsaligned hs).trans (himage a hc)
  -- a word outside of the stack and the code page is as the mappings left it
  have hword {b : UInt32} (hs : b.toNat + 4 ≤ stack.toNat ∨ stack.toNat + 4096 ≤ b.toNat)
      (hc : b.toNat + 4 ≤ code.toNat ∨ code.toNat + 4096 ≤ b.toNat) (hb : b.toNat + 4 ≤ 2 ^ 32) :
      load32 (contextMemory m' stack Kernel.userFrame) b =
        load32 (pagesMapped layout (directoryMemory layout m directory) code user directory) b := by
    apply load32_congr
    intro i hi
    have haddress : (b + UInt32.ofNat i).toNat = b.toNat + i := toNat_add_ofNat (by omega)
    apply hlate
    · unfold Outside
      omega
    · unfold Outside
      omega
  obtain ⟨hfirst, hlast, huser⟩ :=
    load32_pagesMapped (m := directoryMemory layout m directory) hpages
  refine ⟨fun a hs hc hd ht => ?_, fun n hn => load32_contextMemory hsaligned hn, ?_, ?_,
    fun e hpos he => ?_, ?_, fun t hne ht => ?_⟩
  · rw [hlate hs hc, pagesMapped_outside hpages, directoryMemory_outside hdaligned hd]
    all_goals
      unfold Outside at *
      omega
  · rw [hword (by omega) (by omega) (by omega), hfirst]
  · rw [hword (by omega) (by omega) (by omega), hlast]
  · have hentry : (tableAddress layout 1 + UInt32.ofNat (4 * e)).toNat =
        (tableAddress layout 1).toNat + 4 * e := toNat_add_ofNat (by omega)
    rw [hword (by omega) (by omega) (by omega)]
    apply load32_congr
    intro i hi
    have haddress : (tableAddress layout 1 + UInt32.ofNat (4 * e) + UInt32.ofNat i).toNat =
        (tableAddress layout 1).toNat + 4 * e + i := by
      rw [toNat_add_ofNat (by omega), hentry]
    rw [pagesMapped_outside hpages, directoryMemory_outside hdaligned]
    all_goals
      unfold Outside
      omega
  · rw [hword (by omega) (by omega) (by omega), huser]
  · have hentry : (directory + UInt32.ofNat (4 * t)).toNat = directory.toNat + 4 * t :=
      toNat_add_ofNat (by omega)
    rw [hword (by omega) (by omega) (by omega), ← load32_directoryMemory hdaligned hdabove ht]
    apply load32_congr
    intro i hi
    have haddress : (directory + UInt32.ofNat (4 * t) + UInt32.ofNat i).toNat =
        directory.toNat + 4 * t + i := by
      rw [toNat_add_ofNat (by omega), hentry]
    apply pagesMapped_outside hpages
    all_goals
      unfold Outside
      omega

end Started

end LevOS
