import LevOS.Filesystem.Resolution

/-!
# Listings and lookups

`fat32_list_directory` shows the entries of a directory under names rebuilt from
its records; `lookup` takes a name from a path. The two agree: what a listing
shows can be looked up under the name it is shown with.

## Main definitions

* `logged`, a callback that also keeps the entries it is given

## Main results

* `walk_append`, a path followed by one more component
* `listing_lookup`
-/

namespace LevOS.Filesystem

open LevOS.Drivers LevOS.Foundation

variable {ω γ : Type}

/-! ## What a listing delivers -/

/-- A callback that also keeps the entries it is given, in order. -/
def logged (f : Dirent → γ → Int × γ) (entry : Dirent) (context : γ × List Dirent) :
    Int × γ × List Dirent :=
  ((f entry context.1).1, (f entry context.1).2, context.2 ++ [entry])

/-- A callback that never stops the scan is given every entry. -/
theorem visitRecords_logged {f : Dirent → γ → Int × γ} (hgo : ∀ entry context, (f entry context).1 = 0)
    (records : List Buffer) (context : γ) (log : List Dirent) :
    (visitRecords (logged f) records (context, log)).2.2 = log ++ entries records := by
  induction records generalizing context log with
  | nil => exact (List.append_nil log).symm
  | cons raw records ih =>
    rw [visitRecords]
    -- a zero byte ends the directory, for the entries as for the scan
    by_cases hend : raw 0 = 0
    · rw [if_pos hend]
      simp [entries, hend]
    · rw [if_neg hend, entries_cons hend]
      cases entryFromRaw raw with
      | none => exact ih context log
      | some entry =>
        simp only [logged, hgo, ne_eq, not_true_eq_false, if_false]
        rw [ih, List.append_assoc]
        rfl

section Readable

variable {device : BlockDevice ω} {total : Nat} {contents : Contents}

/-- A listing of a directory visits its records. -/
theorem listing_visits (hreadable : Readable device contents) (f : Dirent → γ → Int × γ)
    (context : γ) {path : CString} {s : FsState ω} {dir : Dirent} (g : Geometry s.fs device total)
    (hlookup : (lookup path s).1 = .ok dir) (hdirectory : dir.attributes &&& 0x10 ≠ 0)
    (hvalid : validCluster s.fs dir.firstCluster = true) :
    let listing := fat32ListDirectory (some path) (some (quiet f)) s context
    let visit := visitRecords f (directoryRecords s.fs contents dir.firstCluster) context
    listing.1 = (if visit.1 then .ok else directoryStatus s.fs contents dir.firstCluster) ∧
      listing.2.2 = visit.2 := by
  intro listing visit
  have hsame := (lookup_confined path s g).same
  obtain ⟨s', -, hscan⟩ := scanDirectory_eq f hreadable (lookup path s).2 (g.of_sameVolume hsame)
    (hsame.validCluster_eq _ ▸ hvalid) context
  rw [directoryRecords_of_sameVolume hsame, directoryStatus_of_sameVolume hsame] at hscan
  have hlisting : listing = _ :=
    (fat32ListDirectory_scan g.mounted (Prod.ext hlookup rfl) hdirectory _ _).trans hscan
  rw [hlisting]
  exact ⟨rfl, rfl⟩

/-- If a listing delivers anything, it delivers the entries of the directory that its
path resolves to. -/
theorem listing_delivers (hreadable : Readable device contents) {f : Dirent → γ → Int × γ}
    (hgo : ∀ entry context, (f entry context).1 = 0) (path : CString) (context : γ) (s : FsState ω)
    (g : Geometry s.fs device total)
    (hany : (fat32ListDirectory (some path) (some (quiet (logged f))) s (context, [])).2.2.2 ≠ []) :
    ∃ dir, (lookup path s).1 = .ok dir ∧ dir.attributes &&& 0x10 ≠ 0 ∧
      validCluster s.fs dir.firstCluster = true ∧
      (fat32ListDirectory (some path) (some (quiet (logged f))) s (context, [])).2.2.2 =
        entries (directoryRecords s.fs contents dir.firstCluster) := by
  have hsame := (lookup_confined path s g).same
  obtain ⟨found, s', hlookup⟩ : ∃ found s', lookup path s = (found, s') := ⟨_, _, rfl⟩
  rw [hlookup] at hsame
  -- every way out but a scan of the directory leaves the log empty
  cases found with
  | error result =>
    simp only [fat32ListDirectory, g.mounted, Bool.true_eq_false, if_false, Option.getD_some,
      hlookup] at hany
    exact absurd rfl hany
  | ok dir =>
    by_cases hdirectory : dir.attributes &&& 0x10 = 0
    · simp only [fat32ListDirectory, g.mounted, Bool.true_eq_false, if_false, Option.getD_some,
        hlookup, if_pos hdirectory] at hany
      exact absurd rfl hany
    · by_cases hvalid : validCluster s.fs dir.firstCluster = true
      · have hpath : (lookup path s).1 = .ok dir := congrArg Prod.fst hlookup
        refine ⟨dir, hpath, hdirectory, hvalid, ?_⟩
        rw [(listing_visits hreadable _ _ g hpath hdirectory hvalid).2]
        exact visitRecords_logged hgo _ context []
      · rw [fat32ListDirectory_scan g.mounted hlookup hdirectory, scanDirectory,
          if_pos (by rw [← hsame.validCluster_eq]; simpa using hvalid)] at hany
        exact absurd rfl hany

/-! ## One more component -/

/-- A component that is found in the directory reached so far. -/
theorem walk_found (hreadable : Readable device contents) {name : List UInt8}
    (rest : List (List UInt8)) {entry : Dirent} (hname : uppercase (cName name) = name)
    (hshort : name.length < 13) (hdot : name ≠ dot) (directory : UInt32) (s : FsState ω)
    (g : Geometry s.fs device total) (hvalid : validCluster s.fs directory = true)
    (hfound : findNamed s.fs contents directory name = some entry) :
    ∃ s', SameVolume s.fs s'.fs ∧ walk (name :: rest) directory s =
      if rest ≠ [] then
        if entry.attributes &&& 0x10 = 0 then (.error .enotdir, s')
        else if validCluster s.fs entry.firstCluster = false then (.error .ebadfs, s')
        else walk rest entry.firstCluster s'
      else (.ok entry, s') := by
  have hnotdot : ¬ namesEqual name dot = true := by
    rw [namesEqual_iff, hname]
    exact hdot
  obtain ⟨s', hs, hscan⟩ := scanDirectory_find hreadable s g hvalid hname
  refine ⟨s', hs, ?_⟩
  rw [walk, if_neg (Nat.not_le.mpr hshort), if_neg hnotdot, hscan, hfound, hs.validCluster_eq]

/-- A path that leads to a directory, followed by more components: the walk goes on in
that directory, from some state of the volume, unless its record names no cluster. -/
theorem walk_append_eq (hreadable : Readable device contents) {parts rest : List (List UInt8)}
    {dir : Dirent} (hparts : ∀ part ∈ parts, uppercase (cName part) = part) (hne : rest ≠ [])
    (directory : UInt32) (s t : FsState ω) (g : Geometry s.fs device total)
    (hst : SameVolume s.fs t.fs) (hvalid : validCluster s.fs directory = true)
    (hwalk : (walk parts directory s).1 = .ok dir) (hattributes : dir.attributes &&& 0x10 ≠ 0) :
    ∃ t', SameVolume s.fs t'.fs ∧
      walk (parts ++ rest) directory t =
        if validCluster s.fs dir.firstCluster = false then (.error .ebadfs, t')
        else walk rest dir.firstCluster t' := by
  have gt := g.of_sameVolume hst
  -- on the components: the two walks go through the same directories
  induction parts generalizing directory s t with
  | nil =>
    -- without a component only the root directory is found
    rw [walk] at hwalk
    split_ifs at hwalk with hroot
    obtain rfl := Except.ok.inj hwalk
    have hcluster : ¬ validCluster s.fs (directoryEntry directory).firstCluster = false := by
      rw [directoryEntry, hvalid]
      decide
    exact ⟨t, hst, (if_neg hcluster).symm⟩
  | cons part parts ih =>
    have hpart := hparts part List.mem_cons_self
    have hrest := ih fun p hp => hparts p (List.mem_cons_of_mem _ hp)
    rw [walk] at hwalk
    rw [List.cons_append, walk]
    by_cases hlong : 13 ≤ part.length
    · rw [if_pos hlong] at hwalk
      cases hwalk
    rw [if_neg hlong] at hwalk ⊢
    by_cases hcurrent : namesEqual part dot = true
    · rw [if_pos hcurrent] at hwalk ⊢
      exact hrest directory s t g hst hvalid hwalk gt
    · rw [if_neg hcurrent] at hwalk ⊢
      -- both walks find the same entry in this directory
      obtain ⟨s', hs, hscan⟩ := scanDirectory_find hreadable s g hvalid hpart
      obtain ⟨t', ht, hscan'⟩ := scanDirectory_find hreadable t gt
        (hst.validCluster_eq directory ▸ hvalid) hpart
      rw [findNamed_of_sameVolume hst] at hscan'
      rw [hscan] at hwalk
      rw [hscan']
      cases hnext : findNamed s.fs contents directory part with
      | none =>
        rw [hnext] at hwalk
        cases hstatus : scanStatus s.fs contents directory <;> rw [hstatus] at hwalk <;> cases hwalk
      | some next =>
        rw [hnext] at hwalk
        have hst' : SameVolume s'.fs t'.fs := hs.symm.trans (hst.trans ht)
        have hcontinue : parts ++ rest ≠ [] := List.append_ne_nil_of_right_ne_nil _ hne
        simp only [if_pos hcontinue] at hwalk ⊢
        -- the last component of the path is the directory that the walk goes on in
        by_cases hend : parts = []
        · subst hend
          obtain rfl : next = dir := Except.ok.inj hwalk
          rw [if_neg hattributes, ← (hst.trans ht).validCluster_eq]
          exact ⟨t', hst.trans ht, rfl⟩
        · rw [if_pos hend] at hwalk
          split_ifs at hwalk with hfile hcluster
          rw [if_neg hfile, if_neg (by rw [← hst'.validCluster_eq]; exact hcluster)]
          obtain ⟨t'', ht'', hgoes⟩ := hrest next.firstCluster s' t' (g.of_sameVolume hs) hst'
            (by simpa using hcluster) hwalk (gt.of_sameVolume ht)
          rw [← hs.validCluster_eq] at hgoes
          exact ⟨t'', hs.trans ht'', hgoes⟩

/-- A path that leads to a directory with a cluster, followed by more components. -/
theorem walk_append (hreadable : Readable device contents) {parts rest : List (List UInt8)}
    {dir : Dirent} (hparts : ∀ part ∈ parts, uppercase (cName part) = part) (hne : rest ≠ [])
    (directory : UInt32) (s t : FsState ω) (g : Geometry s.fs device total)
    (hst : SameVolume s.fs t.fs) (hvalid : validCluster s.fs directory = true)
    (hwalk : (walk parts directory s).1 = .ok dir) (hattributes : dir.attributes &&& 0x10 ≠ 0)
    (hdir : validCluster s.fs dir.firstCluster = true) :
    ∃ t', SameVolume s.fs t'.fs ∧
      walk (parts ++ rest) directory t = walk rest dir.firstCluster t' := by
  obtain ⟨t', ht', hgoes⟩ :=
    walk_append_eq hreadable hparts hne directory s t g hst hvalid hwalk hattributes
  rw [if_neg (by simp [hdir])] at hgoes
  exact ⟨t', ht', hgoes⟩

end Readable

/-! ## Names -/

/-- A name has at most twelve characters: eight, a dot and three. -/
theorem entryFromRaw_name_length {raw : Buffer} {entry : Dirent} (h : entryFromRaw raw = some entry) :
    entry.name.length ≤ 12 := by
  have hbase := trimEnd_le raw 0 8
  have hext := trimEnd_le raw 8 11
  unfold entryFromRaw at h
  split_ifs at h
  obtain rfl := Option.some.inj h
  simp only [List.length_append, List.length_map, List.length_range]
  split_ifs
  · simp only [List.length_cons, List.length_map, List.length_range']
    omega
  · simp only [List.length_nil]
    omega

theorem isSeparator_upperChar (c : UInt8) : isSeparator (upperChar c) = isSeparator c := by
  -- checked for all 256 characters
  have hall : ∀ b : BitVec 8, isSeparator (upperChar ⟨b⟩) = isSeparator ⟨b⟩ := by decide +kernel
  exact hall c.toBitVec

theorem eq_dot_of_upperChar {c : UInt8} : upperChar c = 0x2E → c = 0x2E := by
  have hall : ∀ b : BitVec 8, upperChar ⟨b⟩ = 0x2E → (⟨b⟩ : UInt8) = 0x2E := by decide +kernel
  exact hall c.toBitVec

theorem eq_dot_of_uppercase {name : List UInt8} (h : uppercase name = dot) : name = dot := by
  obtain ⟨c, rfl, hc⟩ := List.map_eq_singleton_iff.mp h
  rw [eq_dot_of_upperChar hc]
  rfl

/-- Letter case does not decide whether a name has a separator. -/
theorem not_isSeparator_of_uppercase {name name' : List UInt8} (h : uppercase name' = uppercase name)
    (hname : ∀ c ∈ name, isSeparator c = false) : ∀ c ∈ name', isSeparator c = false := by
  intro c hc
  have hmem : upperChar c ∈ uppercase name := h ▸ List.mem_map_of_mem hc
  obtain ⟨d, hd, hdc⟩ := List.mem_map.mp hmem
  rw [← isSeparator_upperChar, ← hdc, isSeparator_upperChar]
  exact hname d hd

/-- A path with a name added to it has the name as its last component. -/
theorem components_append {path full : CString} {name : List UInt8}
    (hfull : full.chars = path.chars ++ 0x2F :: name) (hne : name ≠ [])
    (hname : ∀ c ∈ name, isSeparator c = false) :
    components full = components path ++ [uppercase name] := by
  rw [components, hfull, pieces_append_cons rfl, List.map_append, pieces_of_not_mem hne hname,
    components]
  rfl

/-- Listing and lookup agree: an entry that a listing delivers under a usable name, as
the first of that name, is what the path followed by the name is looked up to, in any
letter case. -/
theorem listing_lookup {device : BlockDevice ω} {contents : Contents} {s₀ s₁ s t : FsState ω}
    (hmount : fat32Mount (some device) s₀ = (.ok, s₁)) (hs : SameVolume s₁.fs s.fs)
    (ht : SameVolume s₁.fs t.fs) (hreadable : Readable device contents)
    {f : Dirent → γ → Int × γ} (hgo : ∀ entry context, (f entry context).1 = 0) (context : γ)
    (path : CString) {before after : List Dirent} {entry : Dirent}
    (hdelivered : (fat32ListDirectory (some path) (some (quiet (logged f))) s (context, [])).2.2.2 =
      before ++ entry :: after)
    (hne : cName entry.name ≠ []) (hdot : cName entry.name ≠ dot)
    (hseparator : ∀ c ∈ cName entry.name, isSeparator c = false)
    (hfirst : ∀ earlier ∈ before, namesEqual earlier.name entry.name = false)
    {full : CString} {name : List UInt8} (hfull : full.chars = path.chars ++ 0x2F :: name)
    (hname : uppercase name = uppercase (cName entry.name)) :
    (lookup full t).1 = .ok entry := by
  have g := (fat32Mount_ok hmount).1.of_sameVolume hs
  obtain ⟨dir, hlookup, hattributes, hdir, hentries⟩ := listing_delivers hreadable hgo path context s g
    (by rw [hdelivered]; simp)
  rw [hdelivered] at hentries
  have hnonempty : name ≠ [] := by
    rintro rfl
    exact hne (List.map_eq_nil_iff.mp hname.symm)
  have hcomponents := components_append hfull hnonempty (not_isSeparator_of_uppercase hname hseparator)
  -- the name is that of a record, so no component is too long
  have hshort : (uppercase name).length < 13 := by
    have hmem : entry ∈ entries (directoryRecords s.fs contents dir.firstCluster) :=
      hentries ▸ List.mem_append_right _ List.mem_cons_self
    obtain ⟨raw, -, hraw⟩ := List.mem_filterMap.mp hmem
    have hlength := entryFromRaw_name_length hraw
    have htake := (List.takeWhile_sublist (· != 0) (l := entry.name)).length_le
    rw [hname, uppercase, List.length_map]
    unfold cName
    omega
  -- the entry is the first of its name in the directory
  have hfound : findNamed s.fs contents dir.firstCluster (uppercase name) = some entry := by
    rw [findNamed, ← hentries, hname, List.find?_append, List.find?_eq_none.mpr, Option.none_or,
      List.find?_cons_of_pos (by simp)]
    intro earlier hearlier
    have hdiffers := hfirst earlier hearlier
    rw [Bool.eq_false_iff, ne_eq, namesEqual_iff] at hdiffers
    simpa using hdiffers
  rw [lookup_eq_walk] at hlookup ⊢
  rw [hcomponents, ← (hs.symm.trans ht).rootCluster_eq]
  have hlast : uppercase name ∈ components full := by
    rw [hcomponents]
    simp
  obtain ⟨t', ht', hgoes⟩ := walk_append hreadable (fun _ => uppercase_cName_component)
    (List.cons_ne_nil (uppercase name) []) _ s t g (hs.symm.trans ht) g.root_valid hlookup hattributes
    hdir
  obtain ⟨t'', -, hends⟩ := walk_found hreadable [] (uppercase_cName_component hlast) hshort
    (fun h => hdot (eq_dot_of_uppercase (hname.symm.trans h))) _ t' (g.of_sameVolume ht')
    (ht'.validCluster_eq _ ▸ hdir) ((findNamed_of_sameVolume ht' ..).trans hfound)
  rw [hgoes, hends]
  rfl

/-- The file `A` of the sample disk is listed in the root directory, and `//a` leads to
it. -/
theorem listing_lookup_sample :
    let s := (fat32Mount (some sampleDevice) unmounted).2
    let entry : Dirent := ⟨[0x41], 0, 600, 3⟩
    (fat32ListDirectory (some rootPath)
        (some (quiet (logged fun _ (_ : Unit) => (0, ())))) s ((), [])).2.2.2 = [] ++ entry :: [] ∧
      (lookup ⟨[0x2F, 0x2F, 0x61], by decide⟩ s).1 = .ok entry := by
  intro s entry
  have hmount : (fat32Mount (some sampleDevice) unmounted).1 = .ok := by decide +kernel
  have hlisted : (fat32ListDirectory (some rootPath)
      (some (quiet (logged fun _ (_ : Unit) => (0, ())))) s ((), [])).2.2.2 = [] ++ entry :: [] := by
    decide +kernel
  refine ⟨hlisted, ?_⟩
  exact listing_lookup (Prod.ext hmount rfl) (SameVolume.refl s.fs) (SameVolume.refl s.fs)
    sampleDevice_readable (fun _ _ => rfl) () rootPath hlisted (by decide) (by decide)
    (by decide +kernel) (fun _ h => absurd h List.not_mem_nil)
    (show [0x2F, 0x2F, 0x61] = rootPath.chars ++ 0x2F :: [0x61] from rfl) (by decide)

end LevOS.Filesystem
