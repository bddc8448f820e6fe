import LevOS.Filesystem.DotPaths
import LevOS.Filesystem.FileContents
import LevOS.Filesystem.Listing
import LevOS.Filesystem.Simulation

/-!
# The volume as a catalogue

On a disk whose sectors can be read, a mounted volume is a catalogue: what a path lists and
which bytes it holds follow from the bytes of the disk. The sector buffer, which every call
leaves in another state, and the order of the calls do not appear in it.

## Main definitions

* `Catalogue.locate`, where a path leads
* `Catalogue.bytesFrom`, the bytes along a chain, with what ends it
* `Catalogue.reply`, what a call returns

## Main results

* `DiskCall.exec_reply`, one call
* `catalogue_replies`
-/

namespace LevOS.Filesystem

open LevOS.Drivers LevOS.Foundation

variable {ω : Type}

namespace Catalogue

section

variable (fs : Fat32Fs ω) (contents : Contents)

/-- Where a list of components leads, from a directory on. Nothing is found where `.` ends the
list, except in the root. -/
def find : List (List UInt8) → UInt32 → Except Fat32Result Dirent
  | [], directory =>
    if directory = fs.rootCluster then .ok (directoryEntry directory) else .error .enotfound
  | part :: parts, directory =>
    if 13 ≤ part.length then .error .einval
    else if part = dot then find parts directory
    else
      match findNamed fs contents directory part with
      | none =>
        if scanStatus fs contents directory = .ok then .error .enotfound
        else .error (scanStatus fs contents directory)
      | some entry =>
        if parts = [] then .ok entry
        else if entry.attributes &&& 0x10 = 0 then .error .enotdir
        else if validCluster fs entry.firstCluster = false then .error .ebadfs
        else find parts entry.firstCluster

/-- Where a path leads. -/
def locate (path : CString) : Except Fat32Result Dirent :=
  find fs contents (components path) fs.rootCluster

/-- The bytes of a chain, of which `n` are wanted, and what ends it. -/
def bytesFrom : Nat → UInt32 → Nat → Fat32Result × List UInt8
  | 0, _, n => (if n = 0 then .ok else .eloop, [])
  | budget + 1, cluster, n =>
    if n ≤ clusterBytes fs then (.ok, (clusterData fs contents cluster).take n)
    else
      match link fs contents cluster with
      | none => (.ebadfs, clusterData fs contents cluster)
      | some next =>
        let (result, rest) := bytesFrom budget next (n - clusterBytes fs)
        (result, clusterData fs contents cluster ++ rest)

/-- A listing of the records of a directory. -/
def list (path : CString) (visit : List Dirent → Dirent → Int) : Fat32Result × List Dirent :=
  match locate fs contents path with
  | .error result => (result, [])
  | .ok dir =>
    if dir.attributes &&& 0x10 = 0 then (.enotdir, [])
    else if validCluster fs dir.firstCluster = false then (.ebadfs, [])
    else
      let (stopped, seen) := visitRecords (fun entry seen => (visit seen entry, seen ++ [entry]))
        (directoryRecords fs contents dir.firstCluster) []
      (if stopped then .ok else directoryStatus fs contents dir.firstCluster, seen)

/-- The entries that a path lists. -/
def listing (path : CString) : Fat32Result × List Dirent :=
  match locate fs contents path with
  | .error result => (result, [])
  | .ok dir =>
    if dir.attributes &&& 0x10 = 0 then (.enotdir, [])
    else if validCluster fs dir.firstCluster = false then (.ebadfs, [])
    else (scanStatus fs contents dir.firstCluster,
      entries (directoryRecords fs contents dir.firstCluster))

/-- The bytes that are put into a buffer of some capacity, and the result. -/
def read (path : CString) (present : Bool) (capacity : UInt32) : Fat32Result × List UInt8 :=
  match locate fs contents path with
  | .error result => (result, [])
  | .ok entry =>
    if entry.attributes &&& 0x10 ≠ 0 then (.eisdir, [])
    else if entry.size ≠ 0 ∧ present = false then (.einval, [])
    else if capacity < entry.size then (.enospc, [])
    else if entry.size = 0 then (.ok, [])
    else if validCluster fs entry.firstCluster = false then (.ebadfs, [])
    else bytesFrom fs contents fs.clusterCount.toNat entry.firstCluster entry.size.toNat

end

/-- The calls that leave the volume mounted. -/
inductive Query
  | list (path : Option CString) (visit : Option (List Dirent → Dirent → Int))
  | read (path : Option CString) (buffer : Option Buffer) (capacity : UInt32)
      (bytesRead : Option UInt32)

/-- A query is one of the calls. -/
def Query.call : Query → DiskCall
  | .list path visit => .list path visit
  | .read path buffer capacity bytesRead => .read path buffer capacity bytesRead

/-- What the catalogue replies. A failed read leaves in the buffer what it has copied. -/
def reply (fs : Fat32Fs ω) (contents : Contents) : Query → DiskReply
  | .list _ none => ⟨.einval, [], none, none⟩
  | .list path (some visit) =>
    let (result, seen) := list fs contents (path.getD rootPath) visit
    ⟨result, seen, none, none⟩
  | .read _ buffer _ none => ⟨.einval, [], buffer, none⟩
  | .read none buffer _ (some count) => ⟨.einval, [], buffer, some count⟩
  | .read (some path) buffer capacity (some _) =>
    let (result, bytes) := read fs contents path buffer.isSome capacity
    ⟨result, [], buffer.map (overlay · 0 bytes),
      some (if result = .ok then UInt32.ofNat bytes.length else 0)⟩

/-- A client that never stops is given all records of a directory up to its end. -/
theorem visitRecords_all (records : List Buffer) (seen : List Dirent) :
    visitRecords (fun entry seen => (0, seen ++ [entry])) records seen =
      (records.any (· 0 == 0), seen ++ entries records) := by
  induction records generalizing seen with
  | nil => simp [visitRecords, entries]
  | cons raw records ih =>
    rw [visitRecords]
    by_cases hend : raw 0 = 0
    · simp [hend, entries]
    · rw [if_neg hend, entries_cons hend, List.any_cons, beq_false_of_ne hend, Bool.false_or]
      cases entryFromRaw raw with
      | none => exact ih seen
      | some entry =>
        simp only [ne_eq, not_true_eq_false, if_false, ih, Option.toList_some, List.append_assoc]

theorem list_eq_listing (fs : Fat32Fs ω) (contents : Contents) (path : CString) :
    list fs contents path (fun _ _ => 0) = listing fs contents path := by
  rw [list, listing]
  cases locate fs contents path with
  | error result => rfl
  | ok dir =>
    simp only [visitRecords_all, List.nil_append]
    rfl

/-! ## Results -/

section Results

variable (fs : Fat32Fs ω) (contents : Contents)

theorem directoryChain_ne_eio (budget : Nat) (cluster : UInt32) :
    (directoryChain fs contents budget cluster).2 ≠ .eio := by
  induction budget generalizing cluster with
  | zero => simp [directoryChain]
  | succ budget ih =>
    rw [directoryChain]
    split_ifs with hend
    · simp
    · cases link fs contents cluster with
      | none => simp
      | some next => exact ih next

theorem find_ne_eio (parts : List (List UInt8)) (directory : UInt32) :
    find fs contents parts directory ≠ .error .eio := by
  induction parts generalizing directory with
  | nil =>
    rw [find]
    split_ifs <;> simp
  | cons part parts ih =>
    have hscan : scanStatus fs contents directory ≠ .eio := by
      rw [scanStatus]
      split_ifs
      · simp
      · exact directoryChain_ne_eio fs contents _ _
    rw [find]
    by_cases hlong : 13 ≤ part.length
    · simp [hlong]
    by_cases hcurrent : part = dot
    · rw [if_neg hlong, if_pos hcurrent]
      exact ih directory
    rw [if_neg hlong, if_neg hcurrent]
    cases findNamed fs contents directory part with
    | none =>
      simp only
      split_ifs <;> simp [hscan]
    | some entry =>
      simp only
      split_ifs
      · simp
      · simp
      · simp
      · exact ih _

theorem bytesFrom_ne_eio (budget : Nat) (cluster : UInt32) (n : Nat) :
    (bytesFrom fs contents budget cluster n).1 ≠ .eio := by
  induction budget generalizing cluster n with
  | zero =>
    rw [bytesFrom]
    split_ifs <;> simp
  | succ budget ih =>
    rw [bytesFrom]
    split_ifs with hlast
    · simp
    · cases link fs contents cluster with
      | none => simp
      | some next => exact ih next _

theorem list_ne_eio (path : CString) (visit : List Dirent → Dirent → Int) :
    (list fs contents path visit).1 ≠ .eio := by
  have hfind := find_ne_eio fs contents (components path) fs.rootCluster
  rw [list, locate]
  cases hfound : find fs contents (components path) fs.rootCluster with
  | error result =>
    rintro rfl
    exact hfind hfound
  | ok dir =>
    simp only
    split_ifs
    · simp
    · simp
    · simp
    · exact directoryChain_ne_eio fs contents _ _

theorem read_ne_eio (path : CString) (present : Bool) (capacity : UInt32) :
    (read fs contents path present capacity).1 ≠ .eio := by
  have hfind := find_ne_eio fs contents (components path) fs.rootCluster
  rw [read, locate]
  cases hfound : find fs contents (components path) fs.rootCluster with
  | error result =>
    rintro rfl
    exact hfind hfound
  | ok entry =>
    simp only
    split_ifs
    · simp
    · simp
    · simp
    · simp
    · simp
    · exact bytesFrom_ne_eio fs contents _ _ _

/-- A chain ends with success only if all that is wanted has been found. -/
theorem length_bytesFrom (budget : Nat) (cluster : UInt32) (n : Nat)
    (hok : (bytesFrom fs contents budget cluster n).1 = .ok) :
    (bytesFrom fs contents budget cluster n).2.length = n := by
  induction budget generalizing cluster n with
  | zero =>
    rw [bytesFrom] at hok ⊢
    by_contra hne
    rw [if_neg fun hzero => hne hzero.symm] at hok
    cases hok
  | succ budget ih =>
    rw [bytesFrom] at hok ⊢
    split_ifs at hok ⊢ with hlast
    · rw [List.length_take, clusterData_length, Nat.min_eq_left hlast]
    · cases hlink : link fs contents cluster with
      | none =>
        rw [hlink] at hok
        cases hok
      | some next =>
        rw [hlink] at hok
        simp only at hok ⊢
        rw [List.length_append, clusterData_length, ih _ _ hok]
        omega

/-- A file that is read whole fits into the buffer. -/
theorem length_read (path : CString) (present : Bool) (capacity : UInt32)
    (hok : (read fs contents path present capacity).1 = .ok) :
    (read fs contents path present capacity).2.length ≤ capacity.toNat := by
  rw [read] at hok ⊢
  cases hfound : locate fs contents path with
  | error result => exact Nat.zero_le _
  | ok entry =>
    rw [hfound] at hok
    simp only at hok ⊢
    by_cases hcapacity : capacity < entry.size
    · split_ifs <;> exact Nat.zero_le _
    · split_ifs at hok ⊢ with hdirectory hnull hempty hvalid
      · exact Nat.zero_le _
      · rw [length_bytesFrom fs contents _ _ _ hok]
        exact UInt32.le_iff_toNat_le.mp (UInt32.not_lt.mp hcapacity)

end Results

/-! ## The volume decides -/

section SameVolume

variable {fs fs' : Fat32Fs ω}

theorem find_of_sameVolume (h : SameVolume fs fs') (contents : Contents)
    (parts : List (List UInt8)) (directory : UInt32) :
    find fs' contents parts directory = find fs contents parts directory := by
  induction parts generalizing directory with
  | nil => rw [find, find, h.rootCluster_eq]
  | cons part parts ih =>
    rw [find, find]
    simp only [ih, findNamed_of_sameVolume h, scanStatus_of_sameVolume h, h.validCluster_eq]

theorem locate_of_sameVolume (h : SameVolume fs fs') (contents : Contents) (path : CString) :
    locate fs' contents path = locate fs contents path := by
  rw [locate, locate, find_of_sameVolume h, h.rootCluster_eq]

theorem clusterData_of_sameVolume (h : SameVolume fs fs') (contents : Contents) :
    clusterData fs' contents = clusterData fs contents := by
  unfold SameVolume at h
  rw [← h]
  rfl

theorem bytesFrom_of_sameVolume (h : SameVolume fs fs') (contents : Contents) (budget : Nat)
    (cluster : UInt32) (n : Nat) :
    bytesFrom fs' contents budget cluster n = bytesFrom fs contents budget cluster n := by
  induction budget generalizing cluster n with
  | zero => rfl
  | succ budget ih =>
    rw [bytesFrom, bytesFrom]
    simp only [ih, clusterBytes_of_sameVolume h, clusterData_of_sameVolume h, link_of_sameVolume h]

theorem list_of_sameVolume (h : SameVolume fs fs') (contents : Contents) (path : CString) :
    list fs' contents path = list fs contents path := by
  funext visit
  rw [list, list]
  simp only [locate_of_sameVolume h, ← h.validCluster_eq, directoryRecords_of_sameVolume h,
    directoryStatus_of_sameVolume h]

theorem listing_of_sameVolume (h : SameVolume fs fs') (contents : Contents) (path : CString) :
    listing fs' contents path = listing fs contents path := by
  rw [← list_eq_listing, ← list_eq_listing, list_of_sameVolume h]

theorem read_of_sameVolume (h : SameVolume fs fs') (contents : Contents) (path : CString) :
    read fs' contents path = read fs contents path := by
  funext present capacity
  rw [read, read]
  simp only [locate_of_sameVolume h, ← h.validCluster_eq, ← h.clusterCount_eq,
    bytesFrom_of_sameVolume h]

theorem reply_of_sameVolume (h : SameVolume fs fs') (contents : Contents) (query : Query) :
    reply fs' contents query = reply fs contents query := by
  rcases query with ⟨path, _ | visit⟩ | ⟨_ | path, buffer, capacity, _ | count⟩
  · rfl
  · rw [reply, reply, list_of_sameVolume h]
  · rfl
  · rfl
  · rfl
  · rw [reply, reply, read_of_sameVolume h]

end SameVolume

/-! ## Paths -/

section Readable

variable {device : BlockDevice ω} {total : Nat} {contents : Contents}

/-- Walking the components of a path leads where the catalogue says. -/
theorem walk_eq_find (hreadable : Readable device contents) {parts : List (List UInt8)}
    (hparts : ∀ part ∈ parts, uppercase (cName part) = part) (directory : UInt32) (s : FsState ω)
    (g : Geometry s.fs device total) (hvalid : validCluster s.fs directory = true) :
    (walk parts directory s).1 = find s.fs contents parts directory := by
  induction parts generalizing directory s with
  | nil =>
    rw [walk, find]
    split_ifs <;> rfl
  | cons part parts ih =>
    have hpart := hparts part List.mem_cons_self
    have hrest := ih fun p hp => hparts p (List.mem_cons_of_mem _ hp)
    have hdot : namesEqual part dot = true ↔ part = dot := by
      rw [namesEqual_iff, hpart]
      rfl
    rw [walk, find]
    -- as the loop does: too long, the directory itself, or a name to look for
    by_cases hlong : 13 ≤ part.length
    · rw [if_pos hlong, if_pos hlong]
    rw [if_neg hlong, if_neg hlong]
    by_cases hcurrent : part = dot
    · rw [if_pos (hdot.mpr hcurrent), if_pos hcurrent]
      exact hrest directory s g hvalid
    rw [if_neg (mt hdot.mp hcurrent), if_neg hcurrent]
    obtain ⟨s', hsame, hscan⟩ := scanDirectory_find hreadable s g hvalid hpart
    rw [hscan]
    cases findNamed s.fs contents directory part with
    | none => cases scanStatus s.fs contents directory <;> rfl
    | some entry =>
      by_cases hend : parts = []
      · simp [hend]
      · simp only
        rw [if_pos hend, if_neg hend, ← hsame.validCluster_eq]
        split_ifs with hdirectory hcluster
        · rfl
        · rfl
        · rw [hrest entry.firstCluster s' (g.of_sameVolume hsame)
            (by rw [← hsame.validCluster_eq]; simpa using hcluster), find_of_sameVolume hsame]

theorem lookup_eq_locate (hreadable : Readable device contents) (path : CString) (s : FsState ω)
    (g : Geometry s.fs device total) : (lookup path s).1 = locate s.fs contents path := by
  rw [lookup_eq_walk]
  exact walk_eq_find hreadable (fun _ => uppercase_cName_component) _ s g g.root_valid

/-! ## Chains -/

/-- The sectors of a cluster are read one after the other. -/
theorem sectorPlan_succeeds (hreadable : Readable device contents) (indices : List Nat) (n : Nat)
    (s : FsState ω) (g : Geometry s.fs device total) {cluster : UInt32}
    (hvalid : validCluster s.fs cluster = true)
    (hindices : ∀ index ∈ indices, index < s.fs.sectorsPerCluster.toNat) :
    ∃ s', readAll device (sectorPlan s.fs cluster indices n) s = some s' := by
  apply Option.ne_none_iff_exists'.mp
  rw [ne_eq, (hreadable.faulty s.bus).readAll_eq_none_iff _ s g
    (g.sectorPlan_inside hvalid indices n hindices)]
  simp

/-- Where there is no link the chain ends, or is broken. -/
theorem nextCluster_link (hreadable : Readable device contents) {s : FsState ω}
    (g : Geometry s.fs device total) {cluster : UInt32} (hvalid : validCluster s.fs cluster = true) :
    ∃ s', SameVolume s.fs s'.fs ∧
      match link s.fs contents cluster with
      | some next => next ≠ endMarker ∧ validCluster s.fs next = true ∧
          nextCluster s cluster = (.ok next, s')
      | none => nextCluster s cluster = (.ok endMarker, s') ∨
          nextCluster s cluster = (.error .ebadfs, s') := by
  obtain ⟨s', hsame, hnext⟩ := (hreadable.faulty s.bus).nextCluster_eq g hvalid
  rw [if_neg Bool.false_ne_true] at hnext
  refine ⟨s', hsame, ?_⟩
  cases hlink : link s.fs contents cluster with
  | some next =>
    rw [if_neg (not_end_of_link hlink), hlink] at hnext
    exact ⟨ne_endMarker_of_link hlink, (link_eq_some hlink).2.2, hnext⟩
  | none =>
    rw [hlink] at hnext
    split_ifs at hnext
    · exact Or.inl hnext
    · exact Or.inr hnext

/-- The read loop copies the bytes of the chain, and ends as the chain does. -/
theorem readClusters_bytesFrom (hreadable : Readable device contents) (budget : Nat)
    (cluster : UInt32) (p : Progress ω) (g : Geometry p.state.fs device total)
    (hvalid : validCluster p.state.fs cluster = true)
    (hfit : p.copied.toNat + p.remaining.toNat < 2 ^ 32) :
    let wanted := bytesFrom p.state.fs contents budget cluster p.remaining.toNat
    ∃ p' s' data, readClusters budget cluster p = (wanted.1, p') ∧ Delivered p s' data p' ∧
      data.take p.remaining.toNat = wanted.2 := by
  induction budget generalizing cluster p with
  | zero =>
    refine ⟨p, p.state, [], ?_, ⟨rfl, by simp, by simp, by simp⟩, by simp [bytesFrom]⟩
    have hzero : p.remaining = 0 ↔ p.remaining.toNat = 0 := UInt32.toNat_inj.symm
    simp only [readClusters, bytesFrom, hzero]
  | succ budget ih =>
    intro wanted
    by_cases hzero : p.remaining = 0
    · have hnat : p.remaining.toNat = 0 := by rw [hzero]; rfl
      have hwanted : wanted = (.ok, []) := by
        simp only [wanted, bytesFrom, hnat, Nat.zero_le, if_true, List.take_zero]
      refine ⟨p, p.state, [], ?_, ⟨rfl, by simp, by simp, by simp⟩, by simp [hwanted]⟩
      rw [readClusters, if_pos hzero, hwanted]
    obtain ⟨s₁, hreads⟩ := sectorPlan_succeeds hreadable
      (List.range p.state.fs.sectorsPerCluster.toNat) p.remaining.toNat p.state g hvalid
      fun _ => List.mem_range.mp
    by_cases hlast : p.remaining.toNat ≤ clusterBytes p.state.fs
    · obtain ⟨p', hrun, hdone⟩ :=
        readClusters_last hreadable.answers g hvalid hfit hzero hreads hlast budget
      have hwanted : wanted =
          (.ok, (clusterData p.state.fs contents cluster).take p.remaining.toNat) := if_pos hlast
      exact ⟨p', s₁, _, by rw [hrun, hwanted], hdone, by rw [hwanted]⟩
    have hmore := Nat.not_le.mp hlast
    obtain ⟨p₁, hdone, hstep⟩ :=
      readClusters_follow hreadable.answers g hvalid hfit hreads hmore budget
    have hsame₁ := readAll_sameVolume hreads
    have g₁ : Geometry s₁.fs device total := g.of_sameVolume hsame₁
    obtain ⟨s₂, hsame₂, hnext⟩ := nextCluster_link hreadable g₁ (hsame₁.validCluster_eq cluster ▸ hvalid)
    rw [link_of_sameVolume hsame₁] at hnext
    have hwhole : (clusterData p.state.fs contents cluster).take p.remaining.toNat =
        clusterData p.state.fs contents cluster :=
      List.take_of_length_le (by rw [clusterData_length]; omega)
    have hwanted : wanted =
        match link p.state.fs contents cluster with
        | none => (.ebadfs, clusterData p.state.fs contents cluster)
        | some next =>
          let (result, rest) := bytesFrom p.state.fs contents budget next
            (p.remaining.toNat - clusterBytes p.state.fs)
          (result, clusterData p.state.fs contents cluster ++ rest) := if_neg hlast
    cases hlink : link p.state.fs contents cluster with
    | none =>
      rw [hlink] at hnext hwanted
      refine ⟨{ p₁ with state := s₂ }, s₂, _, ?_, hdone.withState s₂, by rw [hwanted, hwhole]⟩
      rw [hstep, hwanted]
      rcases hnext with hend | hbroken
      · rw [hend]
        exact if_pos rfl
      · rw [hbroken]
    | some next =>
      rw [hlink] at hnext hwanted
      obtain ⟨hmarker, hvalid', hnext⟩ := hnext
      have hsame := hsame₁.trans hsame₂
      have hdone₂ := hdone.withState s₂
      have hleft := hdone₂.remaining
      rw [clusterData_length] at hleft
      -- the rest of the chain, on the same volume
      obtain ⟨p', s', data, hrun, hrest, hdata⟩ := ih next { p₁ with state := s₂ }
        (g.of_sameVolume hsame) (hsame₂.validCluster_eq next ▸ hvalid')
        (by rw [hdone₂.copied, hdone₂.remaining]; omega)
      rw [hleft, bytesFrom_of_sameVolume hsame] at hrun hdata
      refine ⟨p', s', _, ?_, hdone₂.append hrest, ?_⟩
      · rw [hstep, hnext, hwanted]
        simp only [if_neg hmarker]
        exact hrun
      · rw [hwanted, List.take_append, hwhole, clusterData_length, hdata]

/-! ## Calls -/

theorem list_reply (hreadable : Readable device contents) (path : Option CString)
    (visit : List Dirent → Dirent → Int) (s : FsState ω) (g : Geometry s.fs device total) :
    ∃ s', fat32ListDirectory path (some (keeping visit)) s [] =
      ((list s.fs contents (path.getD rootPath) visit).1, s',
        (list s.fs contents (path.getD rootPath) visit).2) := by
  have hlocate := lookup_eq_locate hreadable (path.getD rootPath) s g
  have hsame := (lookup_confined (path.getD rootPath) s g).same
  unfold fat32ListDirectory
  simp only [g.mounted, Bool.true_eq_false, if_false]
  generalize lookup (path.getD rootPath) s = found at hlocate hsame
  obtain ⟨found, s₁⟩ := found
  simp only at hlocate hsame
  rw [list, ← hlocate]
  cases found with
  | error result => exact ⟨s₁, rfl⟩
  | ok dir =>
    by_cases hdirectory : dir.attributes &&& 0x10 = 0
    · simp only [if_pos hdirectory]
      exact ⟨s₁, rfl⟩
    -- an empty directory is refused by the scan, not by the call
    by_cases hvalid : validCluster s.fs dir.firstCluster = false
    · refine ⟨s₁, ?_⟩
      simp only [if_neg hdirectory, if_pos hvalid]
      rw [scanDirectory, ← hsame.validCluster_eq, if_pos hvalid]
    · simp only [if_neg hdirectory, if_neg hvalid]
      have hvalid₁ : validCluster s₁.fs dir.firstCluster = true := by
        rw [← hsame.validCluster_eq]
        simpa using hvalid
      obtain ⟨s₂, -, hscan⟩ := scanDirectory_eq
        (fun entry (seen : List Dirent) => (visit seen entry, seen ++ [entry])) hreadable s₁
        (g.of_sameVolume hsame) hvalid₁ []
      rw [directoryRecords_of_sameVolume hsame, directoryStatus_of_sameVolume hsame] at hscan
      exact ⟨s₂, hscan⟩

theorem read_reply (hreadable : Readable device contents) (path : CString)
    (buffer : Option Buffer) (capacity count : UInt32) (s : FsState ω)
    (g : Geometry s.fs device total) :
    let wanted := read s.fs contents path buffer.isSome capacity
    ∃ s', fat32ReadFile (some path) buffer capacity (some count) s =
      ⟨wanted.1, s', buffer.map (overlay · 0 wanted.2),
        some (if wanted.1 = .ok then UInt32.ofNat wanted.2.length else 0)⟩ := by
  have hlocate := lookup_eq_locate hreadable path s g
  have hsame := (lookup_confined path s g).same
  have hnothing : buffer.map (overlay · 0 []) = buffer := by simp
  unfold fat32ReadFile
  simp only [g.mounted, Bool.true_eq_false, if_false]
  generalize lookup path s = found at hlocate hsame
  obtain ⟨found, s₁⟩ := found
  simp only at hlocate hsame
  rw [read, ← hlocate]
  cases found with
  | error result => exact ⟨s₁, by simp⟩
  | ok entry =>
    by_cases hdirectory : entry.attributes &&& 0x10 = 0
    swap
    · exact ⟨s₁, by simp [hdirectory]⟩
    by_cases hempty : entry.size = 0
    · have hcapacity : ¬ capacity < 0 := UInt32.not_lt.mpr UInt32.zero_le
      exact ⟨s₁, by simp [hdirectory, hempty, hcapacity]⟩
    cases buffer with
    | none => exact ⟨s₁, by simp [hdirectory, hempty]⟩
    | some bytes =>
      by_cases hcapacity : capacity < entry.size
      · exact ⟨s₁, by simp [hdirectory, hempty, hcapacity]⟩
      by_cases hvalid : validCluster s.fs entry.firstCluster = false
      · exact ⟨s₁, by simp [hdirectory, hempty, hcapacity, hvalid, ← hsame.validCluster_eq]⟩
      have hvalid₁ : validCluster s₁.fs entry.firstCluster = true := by
        rw [← hsame.validCluster_eq]
        simpa using hvalid
      -- the loops start with an empty count
      obtain ⟨p, s₂, data, hrun, hdone, hdata⟩ := readClusters_bytesFrom hreadable
        s₁.fs.clusterCount.toNat entry.firstCluster ⟨s₁, bytes, 0, entry.size⟩
        (g.of_sameVolume hsame) hvalid₁ (by simpa using entry.size.toNat_lt)
      simp only [bytesFrom_of_sameVolume hsame, ← hsame.clusterCount_eq] at hrun hdata
      have hlength := length_bytesFrom s.fs contents s.fs.clusterCount.toNat
        entry.firstCluster entry.size.toNat
      rcases hwanted : bytesFrom s.fs contents s.fs.clusterCount.toNat entry.firstCluster
        entry.size.toNat with ⟨result, copied⟩
      rw [hwanted] at hrun hdata hlength
      have hbuffer := hdone.buffer
      have hcount := hdone.copied
      simp only [UInt32.toNat_zero, Nat.zero_add] at hrun hdata hlength hbuffer hcount
      rw [hdata] at hbuffer
      refine ⟨p.state, ?_⟩
      simp only [hdirectory, hempty, hcapacity, hvalid, ← hsame.validCluster_eq, hrun,
        ← hsame.clusterCount_eq, hwanted, Option.isSome_some, Option.isNone_some,
        Option.map_some, ne_eq, not_true_eq_false, if_false, not_false_eq_true, true_and,
        Bool.true_eq_false, Bool.false_eq_true]
      by_cases hok : result = .ok
      · have hall : p.copied = UInt32.ofNat copied.length := by
          have htaken := hlength hok
          rw [← hdata, List.length_take] at htaken
          rw [hlength hok, UInt32.ofNat_toNat]
          exact UInt32.toNat_inj.mp (hcount.trans htaken)
        simp only [hok, hall, hbuffer, if_true]
      · cases result with
        | ok => exact absurd rfl hok
        | _ =>
          simp only [hbuffer, if_neg hok]

theorem Query.exec_reply (hreadable : Readable device contents) (query : Query) (s : FsState ω)
    (g : Geometry s.fs device total) :
    ∃ s', query.call.exec device s = (reply s.fs contents query, s') ∧ SameVolume s.fs s'.fs := by
  rcases query with ⟨path, _ | visit⟩ | ⟨path, buffer, capacity, bytesRead⟩
  · exact ⟨s, rfl, .refl _⟩
  · obtain ⟨s', hlist⟩ := list_reply hreadable path visit s g
    have hsame := (fat32ListDirectory_confined path (some (keeping visit)) s [] g).same
    rw [hlist] at hsame
    refine ⟨s', ?_, hsame⟩
    simp only [Query.call, DiskCall.exec, Option.map_some, hlist]
    rfl
  · have hsame := (fat32ReadFile_confined path buffer capacity bytesRead s g).same
    refine ⟨(fat32ReadFile path buffer capacity bytesRead s).state, ?_, hsame⟩
    simp only [Query.call, DiskCall.exec]
    rcases path with _ | path <;> rcases bytesRead with _ | count
    · rfl
    · rfl
    · rfl
    · obtain ⟨s', hread⟩ := read_reply hreadable path buffer capacity count s g
      rw [hread]
      rfl

end Readable

end Catalogue

open Catalogue

/-- On a mounted volume whose sectors can be read, every call is answered from the bytes of
the disk: whatever has been listed and read before, with whatever callbacks and buffers, it
returns what the catalogue replies. -/
theorem catalogue_replies {device : BlockDevice ω} {contents : Contents} {s₀ s : FsState ω}
    (hmount : fat32Mount (some device) s₀ = (.ok, s)) (hreadable : Readable device contents)
    (queries : List Query) :
    (runAll (DiskCall.exec device) (queries.map Query.call) s).1 =
      queries.map (reply s.fs contents) := by
  have hall (t : FsState ω) (hsame : SameVolume s.fs t.fs) :
      (runAll (DiskCall.exec device) (queries.map Query.call) t).1 =
        queries.map (reply s.fs contents) := by
    induction queries generalizing t with
    | nil => rfl
    | cons query queries ih =>
      obtain ⟨t', hexec, hsame'⟩ :=
        query.exec_reply hreadable t ((fat32Mount_ok hmount).1.of_sameVolume hsame)
      rw [reply_of_sameVolume hsame] at hexec
      rw [List.map_cons, List.map_cons, runAll, hexec, ← ih t' (hsame.trans hsame')]
  exact hall s (SameVolume.refl _)

/-- The root of the sample tree is listed after the directory in it has been read in vain, and
a listing without a callback has been refused. -/
theorem catalogue_replies_tree :
    let s := (fat32Mount (some treeDevice) unmounted).2
    let queries :=
      [.read (some ⟨[0x44], by decide⟩) none 0 (some 7), .list none none,
        .list (some rootPath) (some fun _ _ => 0)]
    (runAll (DiskCall.exec treeDevice) (queries.map Query.call) s).1.map
        (fun reply => (reply.result, reply.entries.map Dirent.name)) =
      [(.eisdir, []), (.einval, []), (.ok, [[0x44]])] := by
  intro s queries
  have hmount : (fat32Mount (some treeDevice) unmounted).1 = .ok := by decide +kernel
  have hvolume : fat32Mount (some treeDevice) unmounted = (.ok, s) := Prod.ext hmount rfl
  rw [catalogue_replies hvolume treeDevice_readable queries]
  decide +kernel

end LevOS.Filesystem
