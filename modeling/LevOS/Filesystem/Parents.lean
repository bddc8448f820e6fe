import LevOS.Filesystem.DotPaths
import LevOS.Filesystem.Listing

/-!
# Paths through `..`

A `..` component is looked up like any other name: every subdirectory has a record of
that name, which leads to its parent. The record of a directory below the root has the
first cluster zero there, which is not a cluster, so that a path through it ends.

## Main definitions

* `Reaches`, the directories of a volume
* `ParentRecord`, the two records that a subdirectory begins with
* `directoryNamed`, the directory that a first cluster stands for

## Main results

* `walk_congr`, on a readable disk the walk depends on the contents only
* `parent_agrees_iff`
-/

namespace LevOS.Filesystem

open LevOS.Drivers LevOS.Foundation

variable {ω γ : Type}

/-- The string `".."`. -/
def dotdot : List UInt8 := [0x2E, 0x2E]

/-! ## The format -/

/-- The directories of a volume: the root, and wherever the record of a directory in one
of them leads. -/
inductive Reaches (fs : Fat32Fs ω) (contents : Contents) : UInt32 → Prop
  | root : Reaches fs contents fs.rootCluster
  | entry {directory : UInt32} {entry : Dirent} : Reaches fs contents directory →
      entry ∈ entries (directoryRecords fs contents directory) →
      entry.attributes &&& 0x10 ≠ 0 → validCluster fs entry.firstCluster = true →
      Reaches fs contents entry.firstCluster

theorem Reaches.of_sameVolume {fs fs' : Fat32Fs ω} {contents : Contents} {directory : UInt32}
    (hreaches : Reaches fs contents directory) (h : SameVolume fs fs') :
    Reaches fs' contents directory := by
  induction hreaches with
  | root => exact h.rootCluster_eq ▸ .root
  | entry _ hmem hdirectory hvalid ih =>
    exact .entry ih (directoryRecords_of_sameVolume h .. ▸ hmem) hdirectory
      (h.validCluster_eq _ ▸ hvalid)

/-- The directory that the first cluster of a record stands for: zero is the root. -/
def directoryNamed (fs : Fat32Fs ω) (cluster : UInt32) : UInt32 :=
  if cluster = 0 then fs.rootCluster else cluster

theorem directoryNamed_of_valid {fs : Fat32Fs ω} {cluster : UInt32}
    (h : validCluster fs cluster = true) : directoryNamed fs cluster = cluster := by
  have hzero : cluster ≠ 0 := by
    rintro rfl
    exact absurd h (by simp [validCluster])
  rw [directoryNamed, if_neg hzero]

/-- A record names a directory. -/
def NamesDirectory (raw : Buffer) (name : List UInt8) (cluster : UInt32) : Prop :=
  ∃ entry, entryFromRaw raw = some entry ∧ entry.name = name ∧ entry.attributes &&& 0x10 ≠ 0 ∧
    entry.firstCluster = cluster

/-- A subdirectory as the format prescribes: its first record names the directory itself
and the second its parent, with the first cluster zero for the root. -/
structure ParentRecord (fs : Fat32Fs ω) (contents : Contents) (parent child : UInt32) : Prop where
  valid : validCluster fs child = true
  records : ∃ self up rest, directoryRecords fs contents child = self :: up :: rest ∧
    NamesDirectory self dot child ∧
    NamesDirectory up dotdot (if parent = fs.rootCluster then 0 else parent)

/-- The records `.` and `..` are the only ones of a directory that do not lead to a
subdirectory of it. -/
def Dirent.isSubdirectory (entry : Dirent) : Prop :=
  entry.attributes &&& 0x10 ≠ 0 ∧ uppercase (cName entry.name) ≠ dot ∧
    uppercase (cName entry.name) ≠ dotdot

/-- Every subdirectory of the volume is as the format prescribes. -/
def ParentRecords (fs : Fat32Fs ω) (contents : Contents) : Prop :=
  ∀ directory, Reaches fs contents directory →
    ∀ entry ∈ entries (directoryRecords fs contents directory), entry.isSubdirectory →
      ParentRecord fs contents directory entry.firstCluster

theorem entries_cons_of_some {raw : Buffer} {entry : Dirent} (h : entryFromRaw raw = some entry)
    (records : List Buffer) : entries (raw :: records) = entry :: entries records := by
  have hfirst : raw 0 ≠ 0 := by
    intro hzero
    rw [entryFromRaw, if_pos (Or.inl hzero)] at h
    cases h
  rw [entries_cons hfirst, h]
  rfl

theorem ParentRecord.of_sameVolume {fs fs' : Fat32Fs ω} {contents : Contents} {parent child : UInt32}
    (h : ParentRecord fs contents parent child) (hsame : SameVolume fs fs') :
    ParentRecord fs' contents parent child where
  valid := hsame.validCluster_eq _ ▸ h.valid
  records := by
    rw [directoryRecords_of_sameVolume hsame, ← hsame.rootCluster_eq]
    exact h.records

/-- The search for `..` finds the record of the parent. -/
theorem ParentRecord.findNamed {fs : Fat32Fs ω} {contents : Contents} {parent child : UInt32}
    (h : ParentRecord fs contents parent child) :
    ∃ entry, findNamed fs contents child dotdot = some entry ∧ entry.attributes &&& 0x10 ≠ 0 ∧
      entry.firstCluster = if parent = fs.rootCluster then 0 else parent := by
  obtain ⟨self, up, rest, hrecords, ⟨first, hfirst, hname, -⟩, second, hsecond, hname', hrest⟩ :=
    h.records
  refine ⟨second, ?_, hrest⟩
  rw [LevOS.Filesystem.findNamed, hrecords, entries_cons_of_some hfirst,
    entries_cons_of_some hsecond, List.find?_cons_of_neg, List.find?_cons_of_pos]
  · rw [hname']
    decide
  · rw [hname]
    decide

/-! ## The walk on a readable disk -/

section Readable

variable {device : BlockDevice ω} {total : Nat} {contents : Contents}

/-- The walk depends on the contents only, not on the state it starts from. -/
theorem walk_congr (hreadable : Readable device contents) {parts : List (List UInt8)}
    (hparts : ∀ part ∈ parts, uppercase (cName part) = part) (directory : UInt32)
    (s t : FsState ω) (g : Geometry s.fs device total) (hst : SameVolume s.fs t.fs)
    (hvalid : validCluster s.fs directory = true) :
    (walk parts directory t).1 = (walk parts directory s).1 := by
  induction parts generalizing directory s t with
  | nil =>
    rw [walk, walk, hst.rootCluster_eq]
    split_ifs <;> rfl
  | cons part parts ih =>
    have hrest := ih fun p hp => hparts p (List.mem_cons_of_mem _ hp)
    rw [walk, walk]
    by_cases hlong : 13 ≤ part.length
    · rw [if_pos hlong, if_pos hlong]
    rw [if_neg hlong, if_neg hlong]
    by_cases hdot : namesEqual part dot = true
    · rw [if_pos hdot, if_pos hdot]
      exact hrest directory s t g hst hvalid
    rw [if_neg hdot, if_neg hdot]
    -- what a search finds follows from the contents, from either state
    obtain ⟨s', hs, hscan⟩ :=
      scanDirectory_find hreadable s g hvalid (hparts part List.mem_cons_self)
    obtain ⟨t', ht, hscan'⟩ := scanDirectory_find hreadable t (g.of_sameVolume hst)
      (hst.validCluster_eq directory ▸ hvalid) (hparts part List.mem_cons_self)
    rw [hscan, hscan', findNamed_of_sameVolume hst, scanStatus_of_sameVolume hst]
    cases findNamed s.fs contents directory part with
    | none => cases scanStatus s.fs contents directory <;> rfl
    | some entry =>
      have hst' : SameVolume s'.fs t'.fs := hs.symm.trans (hst.trans ht)
      simp only [← hst'.validCluster_eq]
      split_ifs with hne hfile hcluster
      · rfl
      · rfl
      · exact hrest entry.firstCluster s' t' (g.of_sameVolume hs) hst' (by simpa using hcluster)
      · rfl

/-- From a directory into a subdirectory and back: the walk goes on in the directory, or
ends there; below the root it cannot go on. -/
theorem ParentRecord.walk_up (hreadable : Readable device contents) {name : List UInt8}
    (rest : List (List UInt8)) {directory : UInt32} {child : Dirent}
    (hname : uppercase (cName name) = name) (hshort : name.length < 13) (hdot : name ≠ dot)
    (s : FsState ω) (g : Geometry s.fs device total)
    (hvalid : validCluster s.fs directory = true)
    (hfound : LevOS.Filesystem.findNamed s.fs contents directory name = some child)
    (hchild : child.attributes &&& 0x10 ≠ 0)
    (h : ParentRecord s.fs contents directory child.firstCluster) :
    ∃ s' up, SameVolume s.fs s'.fs ∧ up.attributes &&& 0x10 ≠ 0 ∧
      up.firstCluster = (if directory = s.fs.rootCluster then 0 else directory) ∧
      walk (name :: dotdot :: rest) directory s =
        if rest ≠ [] then
          if directory = s.fs.rootCluster then (.error .ebadfs, s') else walk rest directory s'
        else (.ok up, s') := by
  obtain ⟨up, hfound', hup, hcluster⟩ := h.findNamed
  obtain ⟨s₁, hs₁, hdown⟩ := walk_found hreadable (dotdot :: rest) hname hshort hdot directory s g
    hvalid hfound
  obtain ⟨s₂, hs₂, hback⟩ := walk_found hreadable rest (by decide) (by decide) (by decide)
    child.firstCluster s₁ (g.of_sameVolume hs₁) (hs₁.validCluster_eq _ ▸ h.valid)
    ((findNamed_of_sameVolume hs₁ ..).trans hfound')
  refine ⟨s₂, up, hs₁.trans hs₂, hup, hcluster, ?_⟩
  rw [hdown, if_pos (List.cons_ne_nil _ _), if_neg hchild, if_neg (by simp [h.valid]), hback,
    if_neg hup, ← hs₁.validCluster_eq]
  -- the zero that stands for the root is not a valid cluster
  by_cases hroot : directory = s.fs.rootCluster
  · have hzero : validCluster s.fs up.firstCluster = false := by
      rw [hcluster, if_pos hroot]
      rfl
    rw [if_pos hzero, if_pos hroot]
  · have hparent : up.firstCluster = directory := by rw [hcluster, if_neg hroot]
    have hcluster' : ¬ validCluster s.fs directory = false := by simp [hvalid]
    rw [hparent, if_neg hcluster', if_neg hroot]

/-- A path from a directory of the volume leads to directories of the volume. -/
theorem walk_reaches (hreadable : Readable device contents) {parts : List (List UInt8)} {dir : Dirent}
    (hparts : ∀ part ∈ parts, uppercase (cName part) = part) (directory : UInt32) (s : FsState ω)
    (g : Geometry s.fs device total) (hvalid : validCluster s.fs directory = true)
    (hreaches : Reaches s.fs contents directory) (hwalk : (walk parts directory s).1 = .ok dir)
    (hattributes : dir.attributes &&& 0x10 ≠ 0)
    (hdir : validCluster s.fs dir.firstCluster = true) :
    Reaches s.fs contents dir.firstCluster := by
  induction parts generalizing directory s with
  | nil =>
    rw [walk] at hwalk
    split_ifs at hwalk
    obtain rfl := Except.ok.inj hwalk
    exact hreaches
  | cons part parts ih =>
    have hrest := ih fun p hp => hparts p (List.mem_cons_of_mem _ hp)
    rw [walk] at hwalk
    by_cases hlong : 13 ≤ part.length
    · rw [if_pos hlong] at hwalk
      cases hwalk
    rw [if_neg hlong] at hwalk
    by_cases hdot : namesEqual part dot = true
    · rw [if_pos hdot] at hwalk
      exact hrest directory s g hvalid hreaches hwalk hdir
    rw [if_neg hdot] at hwalk
    obtain ⟨s', hs, hscan⟩ :=
      scanDirectory_find hreadable s g hvalid (hparts part List.mem_cons_self)
    rw [hscan] at hwalk
    -- a directory that the walk goes on in is an entry of the one before
    cases hfound : findNamed s.fs contents directory part with
    | none =>
      rw [hfound] at hwalk
      cases hstatus : scanStatus s.fs contents directory <;> rw [hstatus] at hwalk <;> cases hwalk
    | some entry =>
      rw [hfound] at hwalk
      have hmem := List.mem_of_find?_eq_some hfound
      simp only at hwalk
      split_ifs at hwalk with hne hfile hcluster
      · have hnext : validCluster s.fs entry.firstCluster = true := by
          rw [hs.validCluster_eq]
          simpa using hcluster
        have hdeeper := hrest entry.firstCluster s' (g.of_sameVolume hs)
          (hs.validCluster_eq _ ▸ hnext) ((hreaches.entry hmem hfile hnext).of_sameVolume hs) hwalk
          (hs.validCluster_eq _ ▸ hdir)
        exact hdeeper.of_sameVolume hs.symm
      · obtain rfl := Except.ok.inj hwalk
        exact hreaches.entry hmem hattributes hdir

end Readable

/-! ## Paths -/

/-- A path, a separator and another path. -/
theorem components_join {path rest full : CString}
    (hfull : full.chars = path.chars ++ 0x2F :: rest.chars) :
    components full = components path ++ components rest := by
  rw [components, hfull, pieces_append_cons rfl, List.map_append, components, components]

/-- A path with a name and `..` added to it. -/
theorem components_up {path up : CString} {name : List UInt8}
    (hup : up.chars = path.chars ++ 0x2F :: (name ++ 0x2F :: dotdot)) (hne : name ≠ [])
    (hname : ∀ c ∈ name, isSeparator c = false) :
    components up = components path ++ [uppercase name, dotdot] := by
  rw [components, hup, pieces_append_cons rfl, pieces_append_cons rfl, List.map_append,
    pieces_of_not_mem hne hname, components]
  rfl

/-- A name that is found has at most twelve characters. -/
theorem length_of_findNamed {fs : Fat32Fs ω} {contents : Contents} {directory : UInt32}
    {part : List UInt8} {entry : Dirent} (h : findNamed fs contents directory part = some entry) :
    part.length < 13 := by
  obtain ⟨raw, -, hraw⟩ := List.mem_filterMap.mp (List.mem_of_find?_eq_some h)
  have hlength := entryFromRaw_name_length hraw
  have htake := (List.takeWhile_sublist (· != 0) (l := entry.name)).length_le
  have hpart : uppercase (cName entry.name) = part := by simpa using List.find?_some h
  -- the comparison looks at no more characters than a record has
  rw [← hpart, uppercase, List.length_map]
  unfold cName
  omega

/-- The walk along a path, down into a subdirectory and up again, and on from there. -/
theorem walk_up_append {device : BlockDevice ω} {contents : Contents} {total : Nat}
    {s : FsState ω} (g : Geometry s.fs device total) (hreadable : Readable device contents)
    (hparents : ParentRecords s.fs contents) {parts : List (List UInt8)}
    (hparts : ∀ part ∈ parts, uppercase (cName part) = part) {dir child : Dirent}
    (hwalk : (walk parts s.fs.rootCluster s).1 = .ok dir) (hdirectory : dir.attributes &&& 0x10 ≠ 0)
    (hvalid : validCluster s.fs dir.firstCluster = true) {part : List UInt8}
    (hpart : uppercase (cName part) = part)
    (hfound : findNamed s.fs contents dir.firstCluster part = some child)
    (hchild : child.isSubdirectory) (rest : List (List UInt8)) :
    ∃ s' entry, SameVolume s.fs s'.fs ∧ entry.attributes &&& 0x10 ≠ 0 ∧
      entry.firstCluster =
        (if dir.firstCluster = s.fs.rootCluster then 0 else dir.firstCluster) ∧
      walk (parts ++ part :: dotdot :: rest) s.fs.rootCluster s =
        if rest ≠ [] then
          if dir.firstCluster = s.fs.rootCluster then (.error .ebadfs, s')
          else walk rest dir.firstCluster s'
        else (.ok entry, s') := by
  have hnamed : uppercase (cName child.name) = part := by simpa using List.find?_some hfound
  have hrecord := hparents _ (walk_reaches hreadable hparts _ s g g.root_valid .root hwalk
    hdirectory hvalid) child (List.mem_of_find?_eq_some hfound) hchild
  obtain ⟨t, ht, hgoes⟩ := walk_append hreadable hparts (List.cons_ne_nil part (dotdot :: rest))
    _ s s g (.refl _) g.root_valid hwalk hdirectory hvalid
  obtain ⟨t', entry, ht', hentry, hcluster, hback⟩ := ParentRecord.walk_up hreadable rest hpart
    (length_of_findNamed hfound) (hnamed ▸ hchild.2.1) t (g.of_sameVolume ht)
    (ht.validCluster_eq _ ▸ hvalid) ((findNamed_of_sameVolume ht ..).trans hfound) hchild.1
    (hrecord.of_sameVolume ht)
  rw [← ht.rootCluster_eq] at hcluster hback
  exact ⟨t', entry, ht.trans ht', hentry, hcluster, hgoes.trans hback⟩

/-- Under a directory whose record names no cluster nothing is found. -/
theorem lookup_under_invalid {device : BlockDevice ω} {contents : Contents} {total : Nat}
    {s : FsState ω} (g : Geometry s.fs device total) (hreadable : Readable device contents)
    {path full : CString} {dir : Dirent} (hlookup : (lookup path s).1 = .ok dir)
    (hdirectory : dir.attributes &&& 0x10 ≠ 0)
    (hinvalid : validCluster s.fs dir.firstCluster = false) {rest : List (List UInt8)}
    (hne : rest ≠ []) (hfull : components full = components path ++ rest) :
    (lookup full s).1 = .error .ebadfs := by
  rw [lookup_eq_walk] at hlookup
  obtain ⟨s', -, hgoes⟩ := walk_append_eq hreadable (fun _ => uppercase_cName_component) hne _ s s g
    (.refl _) g.root_valid hlookup hdirectory
  rw [lookup_eq_walk, hfull, hgoes, if_pos hinvalid]

/-- `..` leads to the parent exactly below the first level. On a volume whose
subdirectories are as the format prescribes, going from a directory into a
subdirectory and back gives the same listing, and the same result for every remaining
path, just in case the directory is not the root, and was not itself reached through
a `..` record with the first cluster zero. -/
theorem parent_agrees_iff {device : BlockDevice ω} {contents : Contents} {s₀ s₁ s : FsState ω}
    (hmount : fat32Mount (some device) s₀ = (.ok, s₁)) (hsame : SameVolume s₁.fs s.fs)
    (hreadable : Readable device contents) (hparents : ParentRecords s.fs contents)
    {path up : CString} {dir child : Dirent} (hlookup : (lookup path s).1 = .ok dir)
    (hdirectory : dir.attributes &&& 0x10 ≠ 0) {name : List UInt8} (hne : name ≠ [])
    (hseparator : ∀ c ∈ name, isSeparator c = false)
    (hfound : findNamed s.fs contents (directoryNamed s.fs dir.firstCluster) (uppercase name) =
      some child)
    (hchild : child.isSubdirectory)
    (hup : up.chars = path.chars ++ 0x2F :: (name ++ 0x2F :: dotdot)) :
    ((∀ {γ : Type} (f : Dirent → γ → Int × γ) (context : γ),
          let below := fat32ListDirectory (some up) (some (quiet f)) s context
          let listing := fat32ListDirectory (some path) (some (quiet f)) s context
          below.1 = listing.1 ∧ below.2.2 = listing.2.2) ∧
        ∀ rest below beside : CString, below.chars = up.chars ++ 0x2F :: rest.chars →
          beside.chars = path.chars ++ 0x2F :: rest.chars →
            if components rest = [] then
              ∃ entry entry', (lookup below s).1 = .ok entry ∧ (lookup beside s).1 = .ok entry' ∧
                entry.attributes &&& 0x10 ≠ 0 ∧ entry'.attributes &&& 0x10 ≠ 0 ∧
                entry.firstCluster = entry'.firstCluster
            else (lookup below s).1 = (lookup beside s).1) ↔
      validCluster s.fs dir.firstCluster = true ∧ dir.firstCluster ≠ s.fs.rootCluster := by
  have g := (fat32Mount_ok hmount).1.of_sameVolume hsame
  have hcomponents := components_up hup hne hseparator
  have hpart : uppercase (cName (uppercase name)) = uppercase name := by
    apply uppercase_cName_component
    rw [hcomponents]
    simp
  have hparts : ∀ part ∈ components path, uppercase (cName part) = part :=
    fun _ => uppercase_cName_component
  by_cases hinvalid : validCluster s.fs dir.firstCluster = false
  · -- with nothing behind `..` the directory itself is still found
    refine iff_of_false (fun ⟨_, hpaths⟩ => ?_) fun h => by simp [hinvalid] at h
    let nothing : CString := ⟨[], List.not_mem_nil⟩
    have hslash (text : CString) : (0 : UInt8) ∉ text.chars ++ [0x2F] := by
      simpa using text.noNul
    let below : CString := ⟨up.chars ++ [0x2F], hslash up⟩
    have hbelow : components below = components path ++ [uppercase name, dotdot] := by
      have hjoin : components below = components up ++ components nothing := components_join rfl
      rw [hjoin, hcomponents]
      exact List.append_nil _
    have hends := hpaths nothing below ⟨path.chars ++ [0x2F], hslash path⟩ rfl rfl
    rw [if_pos (by rfl)] at hends
    obtain ⟨_, _, hreached, -⟩ := hends
    rw [lookup_under_invalid g hreadable hlookup hdirectory hinvalid (List.cons_ne_nil _ _)
      hbelow] at hreached
    cases hreached
  have hvalid : validCluster s.fs dir.firstCluster = true := by simpa using hinvalid
  rw [directoryNamed_of_valid hvalid] at hfound
  rw [lookup_eq_walk] at hlookup
  have hwalk := walk_up_append g hreadable hparents hparts hlookup hdirectory hvalid hpart hfound
    hchild
  obtain ⟨s', entry, hs, hentry, hcluster, hends⟩ := hwalk []
  rw [if_neg (not_not.mpr rfl), ← hcomponents, ← lookup_eq_walk] at hends
  rw [← lookup_eq_walk] at hlookup
  constructor
  · -- below the root nothing is listed, while the root lists at least the subdirectory
    rintro ⟨hlisting, -⟩
    refine ⟨hvalid, fun hroot => ?_⟩
    have hlogs := (hlisting (logged fun _ (_ : Unit) => (0, ())) ((), [])).2
    rw [(listing_visits hreadable _ _ g hlookup hdirectory hvalid).2,
      fat32ListDirectory_scan g.mounted hends hentry, scanDirectory, hcluster, if_pos hroot] at hlogs
    have hzero : validCluster s'.fs 0 = false := rfl
    rw [if_pos hzero] at hlogs
    have hall := visitRecords_logged (f := fun _ (_ : Unit) => (0, ())) (fun _ _ => rfl)
      (directoryRecords s.fs contents dir.firstCluster) () []
    rw [← hlogs, List.nil_append] at hall
    have hmem := List.mem_of_find?_eq_some hfound
    rw [← hall] at hmem
    exact absurd hmem List.not_mem_nil
  · rintro ⟨-, hroot⟩
    rw [if_neg hroot] at hcluster
    refine ⟨fun f context => ?_, fun rest below beside hbelow hbeside => ?_⟩
    · obtain ⟨hresult, hcontext⟩ := listing_visits hreadable f context g hlookup hdirectory hvalid
      obtain ⟨hresult', hcontext'⟩ := listing_visits hreadable f context g
        (congrArg Prod.fst hends) hentry (hcluster ▸ hvalid)
      rw [hcluster] at hresult' hcontext'
      exact ⟨hresult'.trans hresult.symm, hcontext'.trans hcontext.symm⟩
    · have hbelow := components_join hbelow
      have hbeside := components_join hbeside
      -- with nothing left both paths end at the directory, under two names
      by_cases hnone : components rest = []
      · rw [if_pos hnone]
        rw [hnone, List.append_nil] at hbelow hbeside
        rw [lookup_eq_walk, hbelow, ← lookup_eq_walk, lookup_eq_walk beside, hbeside,
          ← lookup_eq_walk, hends]
        exact ⟨entry, dir, rfl, hlookup, hentry, hdirectory, hcluster⟩
      · rw [if_neg hnone]
        obtain ⟨s₂, _, hs₂, -, -, hdown⟩ := hwalk (components rest)
        rw [if_pos hnone, if_neg hroot] at hdown
        rw [lookup_eq_walk] at hlookup
        obtain ⟨s₃, hs₃, hgoes⟩ := walk_append hreadable hparts hnone _ s s g (.refl _) g.root_valid
          hlookup hdirectory hvalid
        rw [hcomponents, List.append_assoc] at hbelow
        rw [lookup_eq_walk, hbelow, lookup_eq_walk, hbeside, hgoes]
        refine (congrArg Prod.fst hdown).trans ?_
        exact walk_congr hreadable (fun _ => uppercase_cName_component) _ s₃ s₂
          (g.of_sameVolume hs₃) (hs₃.symm.trans hs₂) (hs₃.validCluster_eq _ ▸ hvalid)

/-! ### The sample tree -/

/-- A directory whose first two records decode as the format prescribes. -/
theorem ParentRecord.of_decoded {fs : Fat32Fs ω} {contents : Contents} {parent child : UInt32}
    (hvalid : validCluster fs child = true) (self up : Dirent)
    (hdecoded : ((directoryRecords fs contents child).take 2).map entryFromRaw = [some self, some up])
    (hself : self.name = dot ∧ self.attributes &&& 0x10 ≠ 0 ∧ self.firstCluster = child)
    (hup : up.name = dotdot ∧ up.attributes &&& 0x10 ≠ 0 ∧
      up.firstCluster = if parent = fs.rootCluster then 0 else parent) :
    ParentRecord fs contents parent child := by
  refine ⟨hvalid, ?_⟩
  match hrecords : directoryRecords fs contents child, hdecoded with
  | [_], hdecoded => simp at hdecoded
  | first :: second :: rest, hdecoded =>
    simp only [List.take_succ_cons, List.map_cons, List.cons.injEq] at hdecoded
    exact ⟨first, second, rest, rfl, ⟨self, hdecoded.1, hself⟩, ⟨up, hdecoded.2.1, hup⟩⟩

/-- The subdirectories of the sample tree are as the format prescribes. -/
theorem treeDisk_parentRecords :
    ParentRecords (fat32Mount (some treeDevice) unmounted).2.fs treeDisk := by
  generalize hfs : (fat32Mount (some treeDevice) unmounted).2.fs = fs
  have hroot : entries (directoryRecords fs treeDisk 2) = [⟨[0x44], 0x10, 0, 3⟩] := by
    subst hfs
    decide +kernel
  have hfirst : entries (directoryRecords fs treeDisk 3) =
      [⟨dot, 0x10, 0, 3⟩, ⟨dotdot, 0x10, 0, 0⟩, ⟨[0x45], 0x10, 0, 4⟩] := by
    subst hfs
    decide +kernel
  have hsecond : entries (directoryRecords fs treeDisk 4) =
      [⟨dot, 0x10, 0, 4⟩, ⟨dotdot, 0x10, 0, 3⟩] := by
    subst hfs
    decide +kernel
  have hcluster : fs.rootCluster = 2 := by
    subst hfs
    decide +kernel
  have hzero : ¬ validCluster fs 0 = true := by simp [validCluster]
  -- three directories, of which the records lead to no others
  have hreaches {directory : UInt32} (h : Reaches fs treeDisk directory) :
      directory = 2 ∨ directory = 3 ∨ directory = 4 := by
    induction h with
    | root => exact Or.inl hcluster
    | entry _ hmem _ hvalid ih =>
      rcases ih with rfl | rfl | rfl
      · rw [hroot] at hmem
        simp only [List.mem_cons, List.not_mem_nil, or_false] at hmem
        simp [hmem]
      · rw [hfirst] at hmem
        simp only [List.mem_cons, List.not_mem_nil, or_false] at hmem
        rcases hmem with rfl | rfl | rfl
        · simp
        · exact absurd hvalid hzero
        · simp
      · rw [hsecond] at hmem
        simp only [List.mem_cons, List.not_mem_nil, or_false] at hmem
        rcases hmem with rfl | rfl <;> simp
  intro directory hdirectory entry hmem hsub
  rcases hreaches hdirectory with rfl | rfl | rfl
  · rw [hroot] at hmem
    obtain rfl := List.mem_singleton.mp hmem
    subst hfs
    exact .of_decoded (by decide +kernel) ⟨dot, 0x10, 0, 3⟩ ⟨dotdot, 0x10, 0, 0⟩
      (by decide +kernel) (by decide) (by decide +kernel)
  · rw [hfirst] at hmem
    simp only [List.mem_cons, List.not_mem_nil, or_false] at hmem
    rcases hmem with rfl | rfl | rfl
    · exact absurd (by decide) hsub.2.1
    · exact absurd (by decide) hsub.2.2
    · subst hfs
      exact .of_decoded (by decide +kernel) ⟨dot, 0x10, 0, 4⟩ ⟨dotdot, 0x10, 0, 3⟩
        (by decide +kernel) (by decide) (by decide +kernel)
  · rw [hsecond] at hmem
    simp only [List.mem_cons, List.not_mem_nil, or_false] at hmem
    rcases hmem with rfl | rfl
    · exact absurd (by decide) hsub.2.1
    · exact absurd (by decide) hsub.2.2

/-- `D/E/../E` leads where `D/E` does. -/
theorem parent_agrees_iff_tree :
    let s := (fat32Mount (some treeDevice) unmounted).2
    (lookup ⟨[0x44, 0x2F, 0x45, 0x2F, 0x2E, 0x2E, 0x2F, 0x45], by decide⟩ s).1 =
      (lookup ⟨[0x44, 0x2F, 0x45], by decide⟩ s).1 := by
  intro s
  let path : CString := ⟨[0x44], by decide⟩
  let up : CString := ⟨[0x44, 0x2F, 0x45, 0x2F, 0x2E, 0x2E], by decide⟩
  have hmount : (fat32Mount (some treeDevice) unmounted).1 = .ok := by decide +kernel
  have hlookup : (lookup path s).1 = .ok ⟨[0x44], 0x10, 0, 3⟩ := by decide +kernel
  have hfound : findNamed s.fs treeDisk (directoryNamed s.fs 3) (uppercase [0x45]) =
      some ⟨[0x45], 0x10, 0, 4⟩ := by
    decide +kernel
  have hup : up.chars = path.chars ++ 0x2F :: ([0x45] ++ 0x2F :: dotdot) := rfl
  have hiff := parent_agrees_iff (Prod.ext hmount rfl) (SameVolume.refl s.fs) treeDevice_readable
    treeDisk_parentRecords hlookup (by decide) (by decide) (by simp [isSeparator]) hfound
    ⟨by decide, by decide, by decide⟩ hup
  have hrest := (hiff.mpr ⟨by decide +kernel, by decide +kernel⟩).2 ⟨[0x45], by decide⟩
    ⟨[0x44, 0x2F, 0x45, 0x2F, 0x2E, 0x2E, 0x2F, 0x45], by decide⟩
    ⟨[0x44, 0x2F, 0x45], by decide⟩ rfl rfl
  rwa [if_neg (by decide +kernel)] at hrest

/-- `D` is a subdirectory of the root of the sample tree whose `..` record has the first
cluster zero, as the format prescribes. `D/..` is found, but not listed, and no path
goes on behind it. -/
theorem parent_of_first_level_lost :
    let s := (fat32Mount (some treeDevice) unmounted).2
    (fat32Mount (some treeDevice) unmounted).1 = .ok ∧ ParentRecords s.fs treeDisk ∧
      (fat32ListDirectory (some rootPath) (some (quiet fun _ (_ : Unit) => (0, ()))) s ()).1 = .ok ∧
      (fat32ListDirectory (some ⟨[0x44, 0x2F, 0x2E, 0x2E], by decide⟩)
        (some (quiet fun _ (_ : Unit) => (0, ()))) s ()).1 = .ebadfs ∧
      (lookup ⟨[0x44], by decide⟩ s).1 = .ok ⟨[0x44], 0x10, 0, 3⟩ ∧
      (lookup ⟨[0x44, 0x2F, 0x2E, 0x2E, 0x2F, 0x44], by decide⟩ s).1 = .error .ebadfs := by
  exact ⟨by decide +kernel, treeDisk_parentRecords, by decide +kernel, by decide +kernel,
    by decide +kernel, by decide +kernel⟩

end LevOS.Filesystem
