import LevOS.Filesystem.Listing

/-!
# Short names

A directory record holds a name in two fields that are padded with spaces, eight
bytes for the base and three for the extension. `entry_from_raw` trims each field
and puts a dot between them where there is an extension. The padding can be added
again, so the decoded name determines both fields.

## Main definitions

* `field`, a field without its padding

## Main results

* `namesEqual_shortName_iff`, names compare equal exactly if the fields do
* `shortName_faithful`, moreover a decoded name without separators is a path component
-/

namespace LevOS.Filesystem

open LevOS.Drivers

/-! ## Fields -/

theorem le_trimEnd (raw : Buffer) {low e : Nat} (h : low ≤ e) : low ≤ trimEnd raw low e := by
  fun_induction trimEnd raw low e with
  | case1 => exact h
  | case2 e hpad ih => exact ih (by omega)
  | case3 e hend => exact h

/-- Only padding is trimmed. -/
theorem eq_space_of_trimEnd {raw : Buffer} {low e i : Nat} (hi : trimEnd raw low e ≤ i)
    (hlt : i < e) : raw i = 0x20 := by
  fun_induction trimEnd raw low e with
  | case1 => exact absurd hlt (Nat.not_lt_zero i)
  | case2 e hpad ih =>
    rcases Nat.lt_succ_iff_lt_or_eq.mp hlt with hlow | rfl
    · exact ih hi hlow
    · exact hpad.2
  | case3 e hend => omega

/-- What is trimmed depends on where the spaces are. -/
theorem trimEnd_eq_of_spaces {raw raw' : Buffer} {low e : Nat}
    (h : ∀ i, low ≤ i → i < e → (raw i = 0x20 ↔ raw' i = 0x20)) :
    trimEnd raw low e = trimEnd raw' low e := by
  induction e with
  | zero => rfl
  | succ e ih =>
    have hrest := ih fun i hlow hi => h i hlow (Nat.lt_succ_of_lt hi)
    rw [trimEnd, trimEnd, hrest]
    refine if_congr (and_congr_right fun hlow => ?_) rfl rfl
    exact h e (Nat.le_of_lt_succ hlow) (Nat.lt_succ_self e)

/-- A field of the record, without its padding. -/
def field (raw : Buffer) (low e : Nat) : List UInt8 :=
  (List.range' low (trimEnd raw low e - low)).map raw

theorem mem_field {raw : Buffer} {low e : Nat} {c : UInt8} (h : c ∈ field raw low e) :
    ∃ i, low ≤ i ∧ i < e ∧ raw i = c := by
  obtain ⟨i, hi, rfl⟩ := List.mem_map.mp h
  have hrange := List.mem_range'_1.mp hi
  have hend := trimEnd_le raw low e
  exact ⟨i, hrange.1, by omega, rfl⟩

theorem upperChar_eq_space_iff (c : UInt8) : upperChar c = 0x20 ↔ c = 0x20 := by
  have hall : ∀ b : BitVec 8, upperChar ⟨b⟩ = 0x20 ↔ (⟨b⟩ : UInt8) = 0x20 := by decide +kernel
  exact hall c.toBitVec

/-- Trimmed fields agree up to case exactly if the padded ones do. -/
theorem uppercase_field_eq_iff {raw raw' : Buffer} {low e : Nat} (hle : low ≤ e) :
    uppercase (field raw low e) = uppercase (field raw' low e) ↔
      ∀ i, low ≤ i → i < e → upperChar (raw i) = upperChar (raw' i) := by
  unfold uppercase field
  rw [List.map_map, List.map_map]
  constructor
  · intro h i hlow hi
    have hlength := congrArg List.length h
    have hend := le_trimEnd raw hle
    have hend' := le_trimEnd raw' hle
    rw [List.length_map, List.length_map, List.length_range', List.length_range'] at hlength
    have hsame : trimEnd raw low e = trimEnd raw' low e := by omega
    rw [hsame] at h
    by_cases hkept : i < trimEnd raw' low e
    · exact List.map_inj_left.mp h i (List.mem_range'_1.mpr ⟨hlow, by omega⟩)
    · -- past the end of both fields there is padding
      have hpad : raw i = 0x20 := eq_space_of_trimEnd (by omega : trimEnd raw low e ≤ i) hi
      have hpad' : raw' i = 0x20 := eq_space_of_trimEnd (by omega : trimEnd raw' low e ≤ i) hi
      rw [hpad, hpad']
  · intro h
    have hspaces : trimEnd raw low e = trimEnd raw' low e := by
      apply trimEnd_eq_of_spaces
      intro i hlow hi
      rw [← upperChar_eq_space_iff, h i hlow hi, upperChar_eq_space_iff]
    rw [hspaces]
    apply List.map_congr_left
    intro i hmem
    have hrange := List.mem_range'_1.mp hmem
    have hend := trimEnd_le raw' low e
    exact h i hrange.1 (by omega)

/-! ## Names -/

/-- A base and an extension, with the dot that stands between them. -/
def joinName (base extension : List UInt8) : List UInt8 :=
  base ++ if extension = [] then [] else 0x2E :: extension

/-- The decoded name is made of the two fields. -/
theorem entryFromRaw_name {raw : Buffer} {entry : Dirent} (h : entryFromRaw raw = some entry) :
    entry.name = joinName (field raw 0 8) (field raw 8 11) := by
  have hlow := le_trimEnd raw (show 8 ≤ 11 by decide)
  have hempty : field raw 8 11 = [] ↔ ¬ 8 < trimEnd raw 8 11 := by
    rw [field, List.map_eq_nil_iff, List.range'_eq_nil_iff]
    omega
  unfold entryFromRaw at h
  split_ifs at h with hreject
  obtain rfl := Option.some.inj h
  have hbase : (List.range (trimEnd raw 0 8)).map raw = field raw 0 8 := by
    rw [field, List.range_eq_range', Nat.sub_zero]
  change (List.range (trimEnd raw 0 8)).map raw ++ _ = _
  rw [hbase, joinName]
  congr 1
  by_cases hext : 8 < trimEnd raw 8 11
  · rw [if_pos hext, if_neg fun hnil => hempty.mp hnil hext, field]
  · rw [if_neg hext, if_pos (hempty.mpr hext)]

theorem uppercase_joinName (base extension : List UInt8) :
    uppercase (joinName base extension) = joinName (uppercase base) (uppercase extension) := by
  have hnil : uppercase extension = [] ↔ extension = [] := List.map_eq_nil_iff
  unfold joinName
  rw [if_congr hnil rfl rfl, uppercase, List.map_append, apply_ite (List.map upperChar)]
  rfl

/-- The first dot of a name ends its base, if the base has none. -/
theorem takeWhile_joinName {base : List UInt8} (h : 0x2E ∉ base) (extension : List UInt8) :
    (joinName base extension).takeWhile (· != 0x2E) = base := by
  have hbase : base.takeWhile (· != 0x2E) = base := by
    apply List.takeWhile_eq_self_iff.mpr
    intro c hc
    exact bne_iff_ne.mpr fun heq => h (heq ▸ hc)
  rw [joinName, List.takeWhile_append, hbase, if_pos rfl]
  split_ifs <;> simp

/-- A base without a dot and an extension can be read off their name. -/
theorem joinName_inj {base base' extension extension' : List UInt8} (hbase : 0x2E ∉ base)
    (hbase' : 0x2E ∉ base') :
    joinName base extension = joinName base' extension' ↔
      base = base' ∧ extension = extension' := by
  constructor
  · intro h
    have hsame : base = base' := by
      rw [← takeWhile_joinName hbase extension, h, takeWhile_joinName hbase' extension']
    subst hsame
    refine ⟨rfl, ?_⟩
    have hrest := List.append_cancel_left h
    split_ifs at hrest with hnil hnil'
    · rw [hnil, hnil']
    · exact List.tail_eq_of_cons_eq hrest
  · rintro ⟨rfl, rfl⟩
    rfl

/-- The name bytes of a record can be told apart from the terminator and the dot. -/
def PlainName (raw : Buffer) : Prop := ∀ i < 11, raw i ≠ 0 ∧ raw i ≠ 0x2E

theorem cName_joinName {raw : Buffer} (h : PlainName raw) :
    cName (joinName (field raw 0 8) (field raw 8 11)) =
      joinName (field raw 0 8) (field raw 8 11) := by
  have hfield (low e : Nat) (he : e ≤ 11) : ∀ c ∈ field raw low e, c ≠ 0 := by
    intro c hc
    obtain ⟨i, -, hi, rfl⟩ := mem_field hc
    exact (h i (by omega)).1
  apply List.takeWhile_eq_self_iff.mpr
  intro c hc
  rw [joinName, List.mem_append] at hc
  apply bne_iff_ne.mpr
  rcases hc with hbase | hext
  · exact hfield 0 8 (by decide) c hbase
  · split_ifs at hext with hnil
    · cases hext
    · rcases List.mem_cons.mp hext with rfl | hmem
      · decide
      · exact hfield 8 11 (by decide) c hmem

theorem dot_notMem_uppercase_field {raw : Buffer} (h : PlainName raw) :
    0x2E ∉ uppercase (field raw 0 8) := by
  intro hmem
  obtain ⟨c, hc, hdot⟩ := List.mem_map.mp hmem
  obtain ⟨i, -, hi, rfl⟩ := mem_field hc
  exact (h i (by omega)).2 (eq_dot_of_upperChar hdot)

/-- Decoded names compare equal exactly if the name bytes of the records agree up to case. -/
theorem namesEqual_shortName_iff {raw raw' : Buffer} {entry entry' : Dirent}
    (h : entryFromRaw raw = some entry) (h' : entryFromRaw raw' = some entry')
    (hplain : PlainName raw) (hplain' : PlainName raw') :
    namesEqual entry.name entry'.name = true ↔
      ∀ i < 11, upperChar (raw i) = upperChar (raw' i) := by
  rw [namesEqual_iff, entryFromRaw_name h, entryFromRaw_name h', cName_joinName hplain,
    cName_joinName hplain', uppercase_joinName, uppercase_joinName,
    joinName_inj (dot_notMem_uppercase_field hplain) (dot_notMem_uppercase_field hplain'),
    uppercase_field_eq_iff (Nat.zero_le 8), uppercase_field_eq_iff (show 8 ≤ 11 by decide)]
  constructor
  · rintro ⟨hbase, hext⟩ i hi
    by_cases hlow : i < 8
    · exact hbase i (Nat.zero_le i) hlow
    · exact hext i (Nat.not_lt.mp hlow) hi
  · intro hall
    exact ⟨fun i _ hi => hall i (by omega), fun i _ hi => hall i hi⟩

/-! ## Names as paths -/

theorem cName_length_le (name : List UInt8) : (cName name).length ≤ name.length :=
  (List.takeWhile_prefix (· != 0)).length_le

/-- The name of an entry as a string, up to its terminator. -/
def Dirent.text (entry : Dirent) : CString where
  chars := cName entry.name
  noNul := fun hmem => by simpa using List.mem_takeWhile_imp hmem

/-- A short string without separators is a component of its own. -/
theorem component_short {text : CString} (hlength : text.chars.length ≤ 12)
    (hseparator : ∀ c ∈ text.chars, isSeparator c = false) :
    component text 0 =
      if text.chars = [] then .absent 0
      else .present (uppercase text.chars) text.chars.length := by
  have hat (p : Nat) : isSeparator (text.at p) = false := by
    by_contra hne
    have hlt := CString.lt_of_isSeparator (Bool.not_eq_false _ ▸ hne)
    rw [CString.at, List.getD_eq_getElem _ _ hlt] at hne
    exact hne (hseparator _ (List.getElem_mem hlt))
  have hskip : skipSeparators text 0 = 0 := by
    rw [skipSeparators, dif_neg (by rw [hat]; decide)]
  have hrun : run text 0 = text.chars := by
    rw [run, List.drop_zero]
    apply List.takeWhile_eq_self_iff.mpr
    intro c hc
    rw [hseparator c hc]
    rfl
  have hend : text.at 0 = 0 ↔ text.chars = [] := by
    rw [text.at_eq_zero_iff, Nat.le_zero, List.length_eq_zero_iff]
  rw [component, hskip, if_congr hend rfl rfl, copyComponent_eq _ _ (by simp), hrun,
    List.length_nil, Nat.zero_add, if_pos hlength]
  rfl

/-- Decoding keeps records with different names apart, up to letter case, and what it
gives fits the entry and the path functions. An empty name is the end of a path. -/
theorem shortName_faithful {raw : Buffer} {entry : Dirent} (h : entryFromRaw raw = some entry) :
    (∀ raw' entry', entryFromRaw raw' = some entry' → PlainName raw → PlainName raw' →
      (namesEqual entry.name entry'.name = true ↔
        ∀ i < 11, upperChar (raw i) = upperChar (raw' i))) ∧
      entry.name.length < nameSize ∧ entry.text.chars.length ≤ 12 ∧
      ((∀ c ∈ entry.text.chars, isSeparator c = false) →
        component entry.text 0 =
          if entry.text.chars = [] then .absent 0
          else .present (uppercase entry.text.chars) entry.text.chars.length) := by
  have hlength := entryFromRaw_name_length h
  have htext : entry.text.chars.length ≤ 12 := (cName_length_le entry.name).trans hlength
  refine ⟨fun raw' entry' h' hplain hplain' => ?_, Nat.lt_succ_of_le hlength, htext, ?_⟩
  · exact namesEqual_shortName_iff h h' hplain hplain'
  · exact component_short htext

/-- A record with the given name bytes and nothing else. -/
def nameRecord (name : List UInt8) : Buffer := fun i => name.getD i 0

/-- The names `a.t` and `A.T`. -/
theorem shortName_faithful_sample :
    namesEqual [0x61, 0x2E, 0x74] [0x41, 0x2E, 0x54] = true ∧
      component (Dirent.text ⟨[0x61, 0x2E, 0x74], 0, 0, 0⟩) 0 = .present [0x41, 0x2E, 0x54] 3 := by
  have h : entryFromRaw (nameRecord
      [0x61, 0x20, 0x20, 0x20, 0x20, 0x20, 0x20, 0x20, 0x74, 0x20, 0x20]) =
        some ⟨[0x61, 0x2E, 0x74], 0, 0, 0⟩ := by decide
  have h' : entryFromRaw (nameRecord
      [0x41, 0x20, 0x20, 0x20, 0x20, 0x20, 0x20, 0x20, 0x54, 0x20, 0x20]) =
        some ⟨[0x41, 0x2E, 0x54], 0, 0, 0⟩ := by decide
  obtain ⟨hnames, -, -, hcomponent⟩ := shortName_faithful h
  refine ⟨(hnames _ _ h' ?_ ?_).mpr (by decide), hcomponent (by decide +kernel)⟩
  · unfold PlainName
    decide
  · unfold PlainName
    decide

end LevOS.Filesystem
