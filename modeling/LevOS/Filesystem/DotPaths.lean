import LevOS.Filesystem.Resolution

/-!
# Paths with `.` components

`lookup` passes over a `.` component, so that one in front of a name makes no
difference. Behind the last name it does: the loop then finds the end of the path
without an entry in hand, and only the root directory is made up an entry for.

## Main definitions

* `Dotted`, a list of components with `.` components put in

## Main results

* `lookup_dotted_iff`
-/

namespace LevOS.Filesystem

open LevOS.Drivers LevOS.Foundation

variable {ω : Type}

/-- The second list is the first with `.` components put in, anywhere. -/
inductive Dotted : List (List UInt8) → List (List UInt8) → Prop
  | nil : Dotted [] []
  | insert {parts parts'} : Dotted parts parts' → Dotted parts (dot :: parts')
  | keep {parts parts'} (part : List UInt8) :
      Dotted parts parts' → Dotted (part :: parts) (part :: parts')

/-- Without any other component the `.` components come last. -/
theorem Dotted.getLast?_nil {parts' : List (List UInt8)} (h : Dotted [] parts')
    (hne : parts' ≠ []) : parts'.getLast? = some dot := by
  induction parts' with
  | nil => exact absurd rfl hne
  | cons part parts' ih =>
    cases h with
    | insert h =>
      by_cases hend : parts' = []
      · rw [hend]
        rfl
      · rw [List.getLast?_cons_of_ne_nil hend]
        exact ih h hend

theorem Dotted.ne_nil {parts parts' : List (List UInt8)} (h : Dotted parts parts')
    (hne : parts ≠ []) : parts' ≠ [] := by
  cases h with
  | nil => exact absurd rfl hne
  | insert => exact List.cons_ne_nil _ _
  | keep => exact List.cons_ne_nil _ _

theorem walk_dot (parts : List (List UInt8)) (directory : UInt32) (s : FsState ω) :
    walk (dot :: parts) directory s = walk parts directory s := by
  rw [walk, if_neg (by decide), if_pos (by decide)]

/-- Walking over `.` components alone leads to the end of the path. -/
theorem Dotted.walk_nil {parts' : List (List UInt8)} (h : Dotted [] parts') (directory : UInt32)
    (s : FsState ω) : walk parts' directory s = walk [] directory s := by
  induction parts' with
  | nil => rfl
  | cons part parts' ih =>
    cases h with
    | insert h =>
      rw [walk_dot]
      exact ih h

theorem directoryEntry_attributes (directory : UInt32) :
    (directoryEntry directory).attributes &&& 0x10 ≠ 0 := by
  rw [directoryEntry]
  simp

/-- What becomes of a directory that a path led to when `.` components are put in: the
same directory is reached, in the same state, or the walk ends with an error. -/
structure SameDirectory (entry : Dirent) (s' : FsState ω)
    (result : Except Fat32Result Dirent × FsState ω) (reached : Prop) : Prop where
  state : result.2 = s'
  found : reached → ∃ entry', result.1 = .ok entry' ∧ entry'.attributes &&& 0x10 ≠ 0 ∧
    entry'.firstCluster = entry.firstCluster
  lost : ¬ reached → ∃ code, result.1 = .error code

section

variable {device : BlockDevice ω} {total : Nat}

theorem SameDirectory.refl {entry : Dirent} (hdirectory : entry.attributes &&& 0x10 ≠ 0)
    (s' : FsState ω) {reached : Prop} (hreached : reached) :
    SameDirectory entry s' (.ok entry, s') reached :=
  ⟨rfl, fun _ => ⟨entry, rfl, hdirectory, rfl⟩, fun hnot => absurd hreached hnot⟩

/-- The end of a path is found at the root directory only. -/
theorem walk_nil_sameDirectory {directory : UInt32} {s s' : FsState ω} {entry : Dirent}
    (hwalk : walk [] directory s = (.ok entry, s')) :
    entry.firstCluster = s.fs.rootCluster ∧ entry.attributes &&& 0x10 ≠ 0 ∧ s = s' := by
  rw [walk] at hwalk
  split_ifs at hwalk with hroot
  · obtain ⟨hentry, rfl⟩ := Prod.mk.inj hwalk
    obtain rfl := Except.ok.inj hentry
    exact ⟨hroot, directoryEntry_attributes directory, rfl⟩
  · cases (Prod.mk.inj hwalk).1

/-- Behind the entry of a directory `.` components lead to its first cluster, where the
walk ends well at the root only. -/
theorem Dotted.behind_entry {parts' : List (List UInt8)} (h : Dotted [] parts')
    (hne : parts' ≠ []) {entry : Dirent} (hdirectory : entry.attributes &&& 0x10 ≠ 0)
    (s : FsState ω) (g : Geometry s.fs device total) :
    SameDirectory entry s
      (if parts' ≠ [] then
        if entry.attributes &&& 0x10 = 0 then (.error .enotdir, s)
        else if validCluster s.fs entry.firstCluster = false then (.error .ebadfs, s)
        else walk parts' entry.firstCluster s
      else (.ok entry, s)) (entry.firstCluster = s.fs.rootCluster) := by
  rw [if_pos hne, if_neg hdirectory, h.walk_nil, walk]
  -- the root cluster is valid, so only the end of the path can refuse the entry
  by_cases hroot : entry.firstCluster = s.fs.rootCluster
  · have hvalid : ¬ validCluster s.fs entry.firstCluster = false := by
      rw [hroot, g.root_valid]
      simp
    rw [if_neg hvalid, if_pos hroot]
    exact ⟨rfl, fun _ => ⟨_, rfl, directoryEntry_attributes _, rfl⟩, fun hnot => absurd hroot hnot⟩
  · rw [if_neg hroot]
    split_ifs
    · exact ⟨rfl, fun hreached => absurd hreached hroot, fun _ => ⟨_, rfl⟩⟩
    · exact ⟨rfl, fun hreached => absurd hreached hroot, fun _ => ⟨_, rfl⟩⟩

theorem SameDirectory.congr {entry : Dirent} {s' : FsState ω}
    {result : Except Fat32Result Dirent × FsState ω} {reached reached' : Prop}
    (h : SameDirectory entry s' result reached) (hiff : reached' ↔ reached) :
    SameDirectory entry s' result reached' :=
  ⟨h.state, fun hreached => h.found (hiff.mp hreached), fun hnot => h.lost (mt hiff.mpr hnot)⟩

/-- A directory is found again behind inserted `.` components unless they come last and
it is not the root. -/
theorem Dotted.walk {parts parts' : List (List UInt8)} (h : Dotted parts parts') {entry : Dirent}
    {s' : FsState ω} (hdirectory : entry.attributes &&& 0x10 ≠ 0) (directory : UInt32)
    (s : FsState ω) (g : Geometry s.fs device total)
    (hwalk : walk parts directory s = (.ok entry, s')) :
    SameDirectory entry s' (walk parts' directory s)
      (parts'.getLast? ≠ some dot ∨ entry.firstCluster = s.fs.rootCluster) := by
  -- on the components put in; a name that is kept is searched in the same directory
  induction h generalizing directory s with
  | nil =>
    rw [hwalk]
    exact .refl hdirectory s' (Or.inl (by simp))
  | @insert parts parts' h ih =>
    rw [walk_dot]
    by_cases hend : parts' = []
    · -- nothing but the one component: the path leads to the root
      obtain rfl : parts = [] := by_contra fun hne => h.ne_nil hne hend
      rw [hend, hwalk]
      exact .refl hdirectory s' (Or.inr (walk_nil_sameDirectory hwalk).1)
    · rw [List.getLast?_cons_of_ne_nil hend]
      exact ih directory s g hwalk
  | @keep parts parts' part h ih =>
    rw [LevOS.Filesystem.walk] at hwalk ⊢
    by_cases hlong : 13 ≤ part.length
    · rw [if_pos hlong] at hwalk
      cases (Prod.mk.inj hwalk).1
    rw [if_neg hlong] at hwalk ⊢
    by_cases hdot : namesEqual part dot = true
    · rw [if_pos hdot] at hwalk ⊢
      by_cases hend : parts' = []
      · obtain rfl : parts = [] := by_contra fun hne => h.ne_nil hne hend
        rw [hend, hwalk]
        exact .refl hdirectory s' (Or.inr (walk_nil_sameDirectory hwalk).1)
      · rw [List.getLast?_cons_of_ne_nil hend]
        exact ih directory s g hwalk
    rw [if_neg hdot] at hwalk ⊢
    -- both walks search the same directory, from the same state
    have hsame := (scanDirectory_confined findCallback directory s ⟨part, none⟩ g).same
    generalize scanDirectory findCallback directory s ⟨part, none⟩ = out at hwalk hsame ⊢
    obtain ⟨result, s₁, find⟩ := out
    cases result <;> try cases (Prod.mk.inj hwalk).1
    have g₁ := g.of_sameVolume hsame
    cases hfound : find.found with
    | none =>
      simp only [hfound] at hwalk
      cases (Prod.mk.inj hwalk).1
    | some found =>
      simp only [hfound] at hwalk ⊢
      -- the name comes last on the one path; on the other only `.` can follow
      by_cases hend : parts = []
      · subst hend
        rw [if_neg (not_not.mpr rfl)] at hwalk
        obtain ⟨hentry, rfl⟩ := Prod.mk.inj hwalk
        obtain rfl := Except.ok.inj hentry
        by_cases hend' : parts' = []
        · rw [if_neg (not_not.mpr hend'), hend']
          refine .refl hdirectory s₁ (Or.inl ?_)
          rw [List.getLast?_singleton]
          intro hlast
          exact hdot (by rw [Option.some.inj hlast]; decide)
        · refine (h.behind_entry hend' hdirectory s₁ g₁).congr ?_
          rw [List.getLast?_cons_of_ne_nil hend', h.getLast?_nil hend', hsame.rootCluster_eq]
          simp
      · have hend' := h.ne_nil hend
        rw [if_pos hend] at hwalk
        rw [if_pos hend', List.getLast?_cons_of_ne_nil hend']
        split_ifs at hwalk ⊢ with hfile hcluster
        · cases (Prod.mk.inj hwalk).1
        · cases (Prod.mk.inj hwalk).1
        · rw [hsame.rootCluster_eq]
          exact ih found.firstCluster s₁ g₁ hwalk

end

/-- `.` is neutral exactly in front of a name and at the root: for a path that leads to
a directory, putting in `.` components leads to the same directory and the same
listing just in case they do not come last or the directory is the root. -/
theorem lookup_dotted_iff {device : BlockDevice ω} {s₀ s₁ s s' : FsState ω}
    (hmount : fat32Mount (some device) s₀ = (.ok, s₁)) (hsame : SameVolume s₁.fs s.fs)
    {path dotted : CString} (hdotted : Dotted (components path) (components dotted)) {entry : Dirent}
    (hlookup : lookup path s = (.ok entry, s')) (hdirectory : entry.attributes &&& 0x10 ≠ 0) :
    (∃ entry', lookup dotted s = (.ok entry', s') ∧ entry'.attributes &&& 0x10 ≠ 0 ∧
        entry'.firstCluster = entry.firstCluster ∧
        ∀ {γ : Type} (callback : DirCallback ω γ) (context : γ),
          fat32ListDirectory (some dotted) (some callback) s context =
            fat32ListDirectory (some path) (some callback) s context) ↔
      (components dotted).getLast? ≠ some dot ∨ entry.firstCluster = s.fs.rootCluster := by
  have g := (fat32Mount_ok hmount).1.of_sameVolume hsame
  have hwalk := hlookup
  rw [lookup_eq_walk] at hwalk
  obtain ⟨hstate, hfound, hlost⟩ := hdotted.walk hdirectory _ s g hwalk
  rw [← lookup_eq_walk] at hstate hfound hlost
  constructor
  · rintro ⟨entry', hlookup', -⟩
    by_contra hnot
    obtain ⟨code, hcode⟩ := hlost hnot
    rw [hlookup'] at hcode
    cases hcode
  · intro hreached
    obtain ⟨entry', hentry', hdirectory', hcluster⟩ := hfound hreached
    have hlookup' : lookup dotted s = (.ok entry', s') := Prod.ext hentry' hstate
    refine ⟨entry', hlookup', hdirectory', hcluster, fun callback context => ?_⟩
    rw [fat32ListDirectory_scan g.mounted hlookup hdirectory,
      fat32ListDirectory_scan g.mounted hlookup' hdirectory', hcluster]

/-! ### A small tree

A volume of twelve sectors that starts the device: one reserved sector, one table
sector and ten clusters of one sector. The root directory holds the directory `D`, and
that one the directory `E`. -/

/-- The record of a directory. -/
def directoryRecord (name : List UInt8) (cluster : UInt8) (i : Nat) : UInt8 :=
  if i < 11 then name.getD i 0x20 else if i = 11 then 0x10 else if i = 26 then cluster else 0

/-- The contents of the disk, zero where nothing is listed. -/
def treeDisk (sector : UInt32) : Buffer := fun i =>
  match sector.toNat, i with
  | 0, 12 => 2
  | 0, 13 => 1
  | 0, 14 => 1
  | 0, 16 => 1
  | 0, 32 => 12
  | 0, 36 => 1
  | 0, 44 => 2
  | 0, 66 => 0x29
  | 0, 510 => 0x55
  | 0, 511 => 0xAA
  | 1, i => if 8 ≤ i ∧ i < 20 then (if i % 4 = 3 then 0x0F else 0xFF) else 0
  | 2, i => if i < 32 then directoryRecord [0x44] 3 i else 0
  | 3, i => if i < 32 then directoryRecord [0x2E] 3 i
      else if i < 64 then directoryRecord [0x2E, 0x2E] 0 (i - 32)
      else if i < 96 then directoryRecord [0x45] 4 (i - 64) else 0
  | 4, i => if i < 32 then directoryRecord [0x2E] 4 i
      else if i < 64 then directoryRecord [0x2E, 0x2E] 3 (i - 32) else 0
  | _, _ => 0

/-- A device of twelve sectors that always answers with the disk's contents. -/
def treeDevice : BlockDevice Unit where
  sectorSize := 512
  sectorCount := 12
  readSector := some fun sector _ outside => (0, treeDisk sector, outside)

theorem treeDevice_readable : Readable treeDevice treeDisk :=
  faultyDevice_readable (by decide) 12 treeDisk

/-- `./D` leads where `D` does. -/
theorem lookup_dotted_iff_tree :
    let s := (fat32Mount (some treeDevice) unmounted).2
    ∃ entry', lookup ⟨[0x2E, 0x2F, 0x44], by decide⟩ s =
        (.ok entry', (lookup ⟨[0x44], by decide⟩ s).2) ∧ entry'.firstCluster = 3 := by
  intro s
  have hmount : (fat32Mount (some treeDevice) unmounted).1 = .ok := by decide +kernel
  have hlookup : (lookup ⟨[0x44], by decide⟩ s).1 = .ok ⟨[0x44], 0x10, 0, 3⟩ := by decide +kernel
  have hpath : components ⟨[0x44], by decide⟩ = [[0x44]] := by decide +kernel
  have hdotted : components ⟨[0x2E, 0x2F, 0x44], by decide⟩ = [dot, [0x44]] := by decide +kernel
  have hiff := lookup_dotted_iff (Prod.ext hmount rfl) (SameVolume.refl s.fs)
    (show Dotted (components ⟨[0x44], by decide⟩) (components ⟨[0x2E, 0x2F, 0x44], by decide⟩) by
      rw [hpath, hdotted]
      exact .insert (.keep _ .nil))
    (Prod.ext hlookup rfl) (by decide)
  obtain ⟨entry', hlookup', -, hcluster, -⟩ := hiff.mpr (Or.inl (by rw [hdotted]; decide))
  exact ⟨entry', hlookup', hcluster⟩

/-- `D` is a directory of the sample tree, and `D/.` is not found. -/
theorem lookup_dot_lost :
    let s := (fat32Mount (some treeDevice) unmounted).2
    (fat32Mount (some treeDevice) unmounted).1 = .ok ∧
      Dotted (components ⟨[0x44], by decide⟩) (components ⟨[0x44, 0x2F, 0x2E], by decide⟩) ∧
      (lookup ⟨[0x44], by decide⟩ s).1 = .ok ⟨[0x44], 0x10, 0, 3⟩ ∧
      (lookup ⟨[0x44, 0x2F, 0x2E], by decide⟩ s).1 = .error .enotfound := by
  intro s
  have hpath : components ⟨[0x44], by decide⟩ = [[0x44]] := by decide +kernel
  have hdotted : components ⟨[0x44, 0x2F, 0x2E], by decide⟩ = [[0x44], dot] := by decide +kernel
  refine ⟨by decide +kernel, ?_, by decide +kernel, by decide +kernel⟩
  rw [hpath, hdotted]
  exact .keep _ (.insert .nil)

end LevOS.Filesystem
