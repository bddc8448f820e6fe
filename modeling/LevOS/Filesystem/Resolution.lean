import LevOS.Filesystem.Confinement
import LevOS.Filesystem.Scan
import LevOS.Foundation.Pieces

/-!
# Path resolution

`lookup` reads a path character by character and skips separators in two
places. It only depends on the list of components, and on a readable disk it
resolves that list entry by entry in the listed directories.

## Main definitions

* `components`, the upper-cased pieces of a path
* `walk`, the loop of `lookup` on a list of components
* `resolve`, resolution in the directories of a readable disk

## Main results

* `lookup_eq_walk`: the components decide the result, whatever the disk
* `lookup_resolves`: on a readable disk `lookup` is `resolve`
-/

namespace LevOS.Filesystem

open LevOS.Drivers LevOS.Foundation

variable {ω : Type}

/-! ## Components -/

/-- The components of a path from a position on. -/
def componentsFrom (path : CString) (position : Nat) : List (List UInt8) :=
  (pieces isSeparator (path.chars.drop position)).map uppercase

/-- The components of a path: split at the separators, empty pieces dropped,
letters upper-cased. -/
def components (path : CString) : List (List UInt8) :=
  (pieces isSeparator path.chars).map uppercase

theorem CString.drop_eq_nil_iff (text : CString) (p : Nat) :
    text.chars.drop p = [] ↔ text.at p = 0 := by
  rw [List.drop_eq_nil_iff, text.at_eq_zero_iff]

theorem CString.drop_eq_cons {text : CString} {p : Nat} (h : text.at p ≠ 0) :
    text.chars.drop p = text.at p :: text.chars.drop (p + 1) := by
  have hlt := CString.lt_of_at_ne_zero h
  rw [List.drop_eq_getElem_cons hlt, CString.at, List.getD_eq_getElem _ _ hlt]

theorem drop_skipSeparators (path : CString) (p : Nat) :
    path.chars.drop (skipSeparators path p) = (path.chars.drop p).dropWhile isSeparator := by
  fun_induction skipSeparators path p with
  | case1 p h ih =>
    have hne : path.at p ≠ 0 := fun hzero => by
      rw [hzero] at h
      exact absurd h (by decide)
    rw [ih, CString.drop_eq_cons hne, List.dropWhile_cons_of_pos h]
  | case2 p h =>
    by_cases hend : path.at p = 0
    · rw [(path.drop_eq_nil_iff p).mpr hend]
      rfl
    · rw [CString.drop_eq_cons hend, List.dropWhile_cons_of_neg h]

theorem componentsFrom_skipSeparators (path : CString) (p : Nat) :
    componentsFrom path (skipSeparators path p) = componentsFrom path p := by
  unfold componentsFrom
  rw [drop_skipSeparators, pieces_dropWhile]

/-- The characters from a position up to the next separator. -/
def run (path : CString) (p : Nat) : List UInt8 := (path.chars.drop p).takeWhile (!isSeparator ·)

theorem run_eq_cons {path : CString} {p : Nat}
    (h : ¬ (path.at p = 0 ∨ isSeparator (path.at p) = true)) :
    run path p = path.at p :: run path (p + 1) := by
  obtain ⟨hend, hseparator⟩ := not_or.mp h
  rw [run, CString.drop_eq_cons hend, List.takeWhile_cons_of_pos (by simpa using hseparator), run]

/-- The copy loop copies up to the next separator, or gives up after twelve
characters. -/
theorem copyComponent_eq (path : CString) (p : Nat) {out : List UInt8} (hout : out.length ≤ 12) :
    copyComponent path p out =
      if out.length + (run path p).length ≤ 12 then
        some (out ++ run path p, p + (run path p).length)
      else none := by
  fun_induction copyComponent path p out with
  | case1 p out hstop =>
    have hnil : run path p = [] := by
      unfold run
      by_cases hend : path.at p = 0
      · rw [(path.drop_eq_nil_iff p).mpr hend]
        rfl
      · rw [CString.drop_eq_cons hend, List.takeWhile_cons_of_neg]
        simpa [hend] using hstop
    simp [hnil, hout]
  | case2 p out hstop hlong =>
    have hlong : 12 ≤ out.length := hlong
    rw [run_eq_cons hstop, if_neg]
    simp
    omega
  | case3 p out hstop hlong ih =>
    have hshort : ¬ 12 ≤ out.length := hlong
    rw [ih (by simp; omega), run_eq_cons hstop]
    simp [Nat.add_assoc, Nat.add_comm 1]

/-- A position that is not at a separator starts with the first component. -/
theorem componentsFrom_eq_cons {path : CString} {p : Nat}
    (h : ¬ (path.at p = 0 ∨ isSeparator (path.at p) = true)) :
    componentsFrom path p =
      uppercase (run path p) :: componentsFrom path (p + (run path p).length) := by
  obtain ⟨hend, hseparator⟩ := not_or.mp h
  have hrest : (path.chars.drop p).dropWhile (!isSeparator ·) =
      path.chars.drop (p + (run path p).length) := by
    have hsplit := List.takeWhile_append_dropWhile (p := (!isSeparator ·)) (l := path.chars.drop p)
    rw [← List.drop_drop, run]
    conv => rhs; rw [← hsplit]
    rw [List.drop_left']
    rw [hsplit]
  unfold componentsFrom
  rw [← hrest, run, CString.drop_eq_cons hend, pieces_cons_of_not (Bool.eq_false_iff.mpr hseparator),
    List.map_cons]

theorem component_absent {path : CString} {position : Nat} (h : componentsFrom path position = []) :
    component path position = .absent (skipSeparators path position) := by
  rw [component]
  by_contra hne
  rw [← componentsFrom_skipSeparators, componentsFrom_eq_cons] at h
  · cases h
  · rw [isSeparator_skipSeparators]
    rintro (hend | hseparator)
    · exact hne (if_pos hend)
    · cases hseparator

/-- The first component at a position, and where the path goes on after it. -/
theorem component_cons {path : CString} {position : Nat} {part : List UInt8}
    {parts : List (List UInt8)} (h : componentsFrom path position = part :: parts) :
    if 13 ≤ part.length then component path position = .overlong
    else ∃ position', component path position = .present part position' ∧
      componentsFrom path position' = parts := by
  rw [← componentsFrom_skipSeparators] at h
  have hend : path.at (skipSeparators path position) ≠ 0 := by
    intro hzero
    rw [componentsFrom, (path.drop_eq_nil_iff _).mpr hzero] at h
    cases h
  have hstop : ¬ (path.at (skipSeparators path position) = 0 ∨
      isSeparator (path.at (skipSeparators path position)) = true) := by
    simp [hend, isSeparator_skipSeparators]
  rw [componentsFrom_eq_cons hstop] at h
  obtain ⟨rfl, hparts⟩ := List.cons.inj h
  have hlength : (uppercase (run path (skipSeparators path position))).length =
      (run path (skipSeparators path position)).length := List.length_map _
  rw [component, if_neg hend, copyComponent_eq _ _ (by simp), hlength, List.length_nil,
    Nat.zero_add]
  by_cases hlong : 13 ≤ (run path (skipSeparators path position)).length
  · rw [if_pos hlong, if_neg (by omega)]
  · rw [if_neg hlong, if_pos (by omega)]
    exact ⟨_, rfl, hparts⟩

/-! ## The walk over the components -/

/-- The loop of `lookup` on the list of components that are left. -/
def walk : List (List UInt8) → UInt32 → FsState ω → Except Fat32Result Dirent × FsState ω
  | [], directory, s =>
    if directory = s.fs.rootCluster then (.ok (directoryEntry directory), s)
    else (.error .enotfound, s)
  | part :: parts, directory, s =>
    if 13 ≤ part.length then (.error .einval, s)
    else if namesEqual part dot then walk parts directory s
    else
      match scanDirectory findCallback directory s ⟨part, none⟩ with
      | (.ok, s', find) =>
        match find.found with
        | none => (.error .enotfound, s')
        | some entry =>
          if parts ≠ [] then
            if entry.attributes &&& 0x10 = 0 then (.error .enotdir, s')
            else if validCluster s'.fs entry.firstCluster = false then (.error .ebadfs, s')
            else walk parts entry.firstCluster s'
          else (.ok entry, s')
      | (result, s', _) => (.error result, s')

/-- After a component the path ends exactly when no component follows. -/
theorem at_skipSeparators_eq_zero_iff (path : CString) (position : Nat) :
    path.at (skipSeparators path position) = 0 ↔ componentsFrom path position = [] := by
  rw [← componentsFrom_skipSeparators]
  constructor
  · intro hend
    rw [componentsFrom, (path.drop_eq_nil_iff _).mpr hend]
    rfl
  · intro hnil
    by_contra hend
    rw [componentsFrom_eq_cons (by simp [hend, isSeparator_skipSeparators])] at hnil
    cases hnil

/-- From any position the loop of `lookup` only sees the components that are
left. At the start of the path the directory is the root. -/
theorem lookupFrom_eq_walk (path : CString) {parts : List (List UInt8)} {position : Nat}
    (hparts : componentsFrom path position = parts) (directory : UInt32) (s : FsState ω)
    (hstart : position = 0 → directory = s.fs.rootCluster) :
    lookupFrom path position directory s = walk parts directory s := by
  induction parts generalizing position directory s with
  | nil =>
    have hpiece := component_absent hparts
    rw [lookupFrom, walk]
    split <;> rename_i hcase <;> rw [hpiece] at hcase
    · cases hcase
    · obtain rfl := Component.absent.inj hcase
      have hzero : skipSeparators path position = 0 → directory = s.fs.rootCluster := by
        intro hskip
        have := le_skipSeparators path position
        exact hstart (by omega)
      by_cases hroot : directory = s.fs.rootCluster
      · rw [if_pos (Or.inr hroot), if_pos hroot]
      · rw [if_neg (fun h => hroot (h.elim hzero id)), if_neg hroot]
    · cases hcase
  | cons part parts ih =>
    have hpiece := component_cons hparts
    rw [lookupFrom, walk]
    split <;> rename_i hcase
    · rw [hcase] at hpiece
      split_ifs at hpiece with hlong
      · rw [if_pos hlong]
      · obtain ⟨_, hpresent, -⟩ := hpiece
        cases hpresent
    · rw [hcase] at hpiece
      split_ifs at hpiece
      obtain ⟨_, hpresent, -⟩ := hpiece
      cases hpresent
    · rename_i part' position'
      have hafter := (lt_of_component_present hcase).1
      rw [hcase] at hpiece
      split_ifs at hpiece with hlong
      obtain ⟨_, hpresent, hrest⟩ := hpiece
      obtain ⟨rfl, rfl⟩ := Component.present.inj hpresent
      rw [if_neg hlong]
      by_cases hdot : namesEqual part' dot = true
      · rw [if_pos hdot, if_pos hdot]
        exact ih hrest directory s (by omega)
      · rw [if_neg hdot, if_neg hdot]
        -- both loops scan the same directory for the same name
        obtain ⟨result, s', find⟩ := scanDirectory findCallback directory s ⟨part', none⟩
        cases result <;> try rfl
        cases hfound : find.found with
        | none => simp only [hfound]
        | some entry =>
          have hend := at_skipSeparators_eq_zero_iff path position'
          have hskip := le_skipSeparators path position'
          have hnext := ih ((componentsFrom_skipSeparators path position').trans hrest)
            entry.firstCluster s' (by omega)
          simp only [hfound, ne_eq, hend, hrest, hnext]

/-- The components of a path decide what `lookup` does, whatever the disk. -/
theorem lookup_eq_walk (path : CString) (s : FsState ω) :
    lookup path s = walk (components path) s.fs.rootCluster s :=
  lookupFrom_eq_walk path rfl _ s fun _ => rfl

theorem walk_ne_error_ok (parts : List (List UInt8)) (directory : UInt32) (s : FsState ω) :
    (walk parts directory s).1 ≠ .error .ok := by
  induction parts generalizing directory s with
  | nil =>
    rw [walk]
    split_ifs <;> simp
  | cons part parts ih =>
    rw [walk]
    by_cases hlong : 13 ≤ part.length
    · simp [if_pos hlong]
    rw [if_neg hlong]
    by_cases hdot : namesEqual part dot = true
    · rw [if_pos hdot]
      exact ih directory s
    rw [if_neg hdot]
    obtain ⟨result, s', find⟩ := scanDirectory findCallback directory s ⟨part, none⟩
    cases result with
    | ok =>
      cases hfound : find.found with
      | none => simp [hfound]
      | some entry =>
        simp only [hfound]
        split_ifs
        · simp
        · simp
        · exact ih entry.firstCluster s'
        · simp
    | _ => simp

/-- A failure of `lookup` is reported as one. -/
theorem lookup_ne_error_ok (path : CString) (s : FsState ω) : (lookup path s).1 ≠ .error .ok := by
  rw [lookup_eq_walk]
  exact walk_ne_error_ok _ _ s

/-- Listing a path that leads to a directory is a scan of that directory. -/
theorem fat32ListDirectory_scan {γ : Type} {path : CString} {s s' : FsState ω} {dir : Dirent}
    (hmounted : s.fs.mounted = true) (hlookup : lookup path s = (.ok dir, s'))
    (hdirectory : dir.attributes &&& 0x10 ≠ 0) (callback : DirCallback ω γ) (context : γ) :
    fat32ListDirectory (some path) (some callback) s context =
      scanDirectory callback dir.firstCluster s' context := by
  unfold fat32ListDirectory
  simp only [hmounted, Bool.true_eq_false, if_false, Option.getD_some, hlookup, hdirectory]

/-! ## Names -/

/-- The characters of a name up to its terminator. -/
def cName (name : List UInt8) : List UInt8 := name.takeWhile (· != 0)

/-- `names_equal` compares the upper-cased names. -/
theorem namesEqual_iff (a b : List UInt8) :
    namesEqual a b = true ↔ uppercase (cName a) = uppercase (cName b) := by
  fun_induction namesEqual a b with
  | case1 => simp
  | case2 c cs => by_cases hc : c = 0 <;> simp [cName, uppercase, hc]
  | case3 c cs => by_cases hc : c = 0 <;> simp [cName, uppercase, hc]
  | case4 a as b bs hzero =>
    rcases hzero with rfl | rfl
    · by_cases hb : b = 0
      · simp [cName, uppercase, hb]
      · simp [cName, uppercase, hb, Ne.symm hb]
    · by_cases ha : a = 0 <;> simp [cName, uppercase, ha]
  | case5 a as b bs hzero hne =>
    obtain ⟨ha, hb⟩ := not_or.mp hzero
    simp [cName, uppercase, ha, hb, hne]
  | case6 a as b bs hzero heq ih =>
    obtain ⟨ha, hb⟩ := not_or.mp hzero
    rw [ih]
    simp [cName, uppercase, ha, hb, not_not.mp heq]

theorem upperChar_upperChar (c : UInt8) : upperChar (upperChar c) = upperChar c := by
  have hall : ∀ b : BitVec 8, upperChar (upperChar ⟨b⟩) = upperChar ⟨b⟩ := by decide +kernel
  exact hall c.toBitVec

theorem eq_zero_of_upperChar {c : UInt8} : upperChar c = 0 → c = 0 := by
  have hall : ∀ b : BitVec 8, upperChar ⟨b⟩ = 0 → (⟨b⟩ : UInt8) = 0 := by decide +kernel
  exact hall c.toBitVec

/-- A component is in the form in which names are compared. -/
theorem uppercase_cName_component {path : CString} {part : List UInt8}
    (h : part ∈ components path) : uppercase (cName part) = part := by
  obtain ⟨piece, hpiece, rfl⟩ := List.mem_map.mp h
  have hchars : cName (uppercase piece) = uppercase piece := by
    apply List.takeWhile_eq_self_iff.mpr
    intro c hc
    obtain ⟨original, horiginal, rfl⟩ := List.mem_map.mp hc
    have hne : original ≠ 0 := fun hzero =>
      path.noNul (hzero ▸ mem_of_mem_pieces hpiece horiginal)
    simpa using fun hzero => hne (eq_zero_of_upperChar hzero)
  rw [hchars]
  simp [uppercase, upperChar_upperChar]

/-! ## Resolution on a readable disk -/

/-- The status of a scan of a directory that finds nothing: the end record hides
how the chain goes on behind it. -/
def scanStatus (fs : Fat32Fs ω) (contents : Contents) (directory : UInt32) : Fat32Result :=
  if (directoryRecords fs contents directory).any (· 0 == 0) then .ok
  else directoryStatus fs contents directory

/-- The first entry of a directory with a given upper-cased name. -/
def findNamed (fs : Fat32Fs ω) (contents : Contents) (directory : UInt32) (part : List UInt8) :
    Option Dirent :=
  (entries (directoryRecords fs contents directory)).find? fun entry =>
    uppercase (cName entry.name) == part

/-- Resolve a list of components, one directory after the other. -/
def resolve (fs : Fat32Fs ω) (contents : Contents) :
    List (List UInt8) → UInt32 → Except Fat32Result Dirent
  | [], directory => .ok (directoryEntry directory)
  | part :: parts, directory =>
    if 13 ≤ part.length then .error .einval
    else if part = dot then resolve fs contents parts directory
    else
      match findNamed fs contents directory part with
      | none =>
        if scanStatus fs contents directory = .ok then .error .enotfound
        else .error (scanStatus fs contents directory)
      | some entry =>
        if parts = [] then .ok entry
        else if entry.attributes &&& 0x10 = 0 then .error .enotdir
        else if validCluster fs entry.firstCluster = false then .error .ebadfs
        else resolve fs contents parts entry.firstCluster

theorem findNamed_of_sameVolume {fs fs' : Fat32Fs ω} (h : SameVolume fs fs') (contents : Contents)
    (directory : UInt32) (part : List UInt8) :
    findNamed fs' contents directory part = findNamed fs contents directory part := by
  rw [findNamed, directoryRecords_of_sameVolume h, findNamed]

theorem scanStatus_of_sameVolume {fs fs' : Fat32Fs ω} (h : SameVolume fs fs') (contents : Contents)
    (directory : UInt32) : scanStatus fs' contents directory = scanStatus fs contents directory := by
  rw [scanStatus, directoryRecords_of_sameVolume h, directoryStatus_of_sameVolume h, scanStatus]

theorem resolve_of_sameVolume {fs fs' : Fat32Fs ω} (h : SameVolume fs fs') (contents : Contents)
    (parts : List (List UInt8)) (directory : UInt32) :
    resolve fs' contents parts directory = resolve fs contents parts directory := by
  induction parts generalizing directory with
  | nil => rfl
  | cons part parts ih =>
    rw [resolve, resolve]
    simp only [ih, findNamed_of_sameVolume h, scanStatus_of_sameVolume h, h.validCluster_eq]

section Readable

variable {device : BlockDevice ω} {total : Nat} {contents : Contents}

/-- The scan for a component finds the first entry of that name, or ends with
the status of the scan. -/
theorem scanDirectory_find (hreadable : Readable device contents) (s : FsState ω)
    (g : Geometry s.fs device total) {directory : UInt32}
    (hvalid : validCluster s.fs directory = true) {part : List UInt8}
    (hpart : uppercase (cName part) = part) :
    ∃ s', SameVolume s.fs s'.fs ∧
      scanDirectory findCallback directory s ⟨part, none⟩ =
        match findNamed s.fs contents directory part with
        | some entry => (.ok, s', ⟨part, some entry⟩)
        | none => (scanStatus s.fs contents directory, s', ⟨part, none⟩) := by
  obtain ⟨s', hsame, hscan⟩ := scanDirectory_eq findEntry hreadable s g hvalid ⟨part, none⟩
  have hname : (fun entry : Dirent => namesEqual entry.name part) =
      fun entry => uppercase (cName entry.name) == part := by
    funext entry
    rw [Bool.eq_iff_iff, namesEqual_iff, hpart, beq_iff_eq]
  refine ⟨s', hsame, ?_⟩
  rw [findCallback_eq, hscan, visitRecords_find, hname, ← findNamed]
  cases findNamed s.fs contents directory part with
  | none => rfl
  | some entry => rfl

/-- Walking the components of a path resolves them. -/
theorem walk_eq_resolve (hreadable : Readable device contents) {parts : List (List UInt8)}
    (hparts : ∀ part ∈ parts, uppercase (cName part) = part) (hlast : parts.getLast? ≠ some dot)
    (directory : UInt32) (s : FsState ω) (g : Geometry s.fs device total)
    (hvalid : validCluster s.fs directory = true)
    (hroot : parts = [] → directory = s.fs.rootCluster) :
    (walk parts directory s).1 = resolve s.fs contents parts directory := by
  induction parts generalizing directory s with
  | nil =>
    rw [walk, if_pos (hroot rfl)]
    rfl
  | cons part parts ih =>
    have hpart := hparts part List.mem_cons_self
    have hrest := ih fun p hp => hparts p (List.mem_cons_of_mem _ hp)
    have hlast' (hne : parts ≠ []) : parts.getLast? ≠ some dot := by
      rwa [List.getLast?_cons_of_ne_nil hne] at hlast
    have hdot : namesEqual part dot = true ↔ part = dot := by
      rw [namesEqual_iff, hpart]
      rfl
    rw [walk, resolve]
    by_cases hlong : 13 ≤ part.length
    · rw [if_pos hlong, if_pos hlong]
    rw [if_neg hlong, if_neg hlong]
    by_cases hcurrent : part = dot
    · -- a path does not end here, so another component follows
      have hne : parts ≠ [] := by
        rintro rfl
        exact hlast (by simp [hcurrent])
      rw [if_pos (hdot.mpr hcurrent), if_pos hcurrent]
      exact hrest (hlast' hne) directory s g hvalid fun h => absurd h hne
    rw [if_neg (mt hdot.mp hcurrent), if_neg hcurrent]
    obtain ⟨s', hsame, hscan⟩ := scanDirectory_find hreadable s g hvalid hpart
    rw [hscan]
    cases findNamed s.fs contents directory part with
    | none => cases scanStatus s.fs contents directory <;> rfl
    | some entry =>
      simp only
      by_cases hend : parts = []
      · simp [hend]
      · rw [if_pos hend, if_neg hend, ← hsame.validCluster_eq]
        split_ifs with hdirectory hcluster
        · rfl
        · rfl
        · rw [hrest (hlast' hend) entry.firstCluster s' (g.of_sameVolume hsame)
            (by rw [← hsame.validCluster_eq]; simpa using hcluster) fun h => absurd h hend,
            resolve_of_sameVolume hsame]

end Readable

/-- Path resolution: on a mounted volume whose sectors can all be read, a path
that does not end in `.` is resolved component by component; and two paths with
the same components are resolved alike on any object. -/
theorem lookup_resolves {device : BlockDevice ω} {contents : Contents} {s₀ s₁ s : FsState ω}
    (hmount : fat32Mount (some device) s₀ = (.ok, s₁)) (hsame : SameVolume s₁.fs s.fs)
    (hreadable : Readable device contents) :
    (∀ path : CString, (components path).getLast? ≠ some dot →
      (lookup path s).1 = resolve s.fs contents (components path) s.fs.rootCluster) ∧
    ∀ (path path' : CString) (t : FsState ω),
      components path = components path' → lookup path t = lookup path' t := by
  have g := (fat32Mount_ok hmount).1.of_sameVolume hsame
  constructor
  · intro path hlast
    rw [lookup_eq_walk]
    exact walk_eq_resolve hreadable (fun _ => uppercase_cName_component) hlast _ s g g.root_valid
      fun _ => rfl
  · intro path path' t hcomponents
    rw [lookup_eq_walk, lookup_eq_walk, hcomponents]

/-- The paths `A` and `/a\\` lead to the same entry of the sample disk. -/
theorem lookup_resolves_sample :
    let s := (fat32Mount (some sampleDevice) unmounted).2
    let path : CString := ⟨[0x41], by decide⟩
    let path' : CString := ⟨[0x2F, 0x61, 0x5C], by decide⟩
    lookup path s = lookup path' s ∧
      (lookup path s).1 = resolve s.fs sampleDisk [[0x41]] s.fs.rootCluster := by
  intro s path path'
  have hmount : (fat32Mount (some sampleDevice) unmounted).1 = .ok := by decide +kernel
  have hpath : components path = [[0x41]] := by decide +kernel
  have hpath' : components path' = [[0x41]] := by decide +kernel
  obtain ⟨hresolve, hsame⟩ := lookup_resolves (Prod.ext hmount rfl) (SameVolume.refl s.fs)
    sampleDevice_readable
  refine ⟨hsame path path' s (hpath.trans hpath'.symm), ?_⟩
  have hlookup := hresolve path (by rw [hpath]; decide)
  rwa [hpath] at hlookup

end LevOS.Filesystem
