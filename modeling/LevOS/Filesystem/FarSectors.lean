import LevOS.Filesystem.Catalogue
import LevOS.Filesystem.Disk
import LevOS.Filesystem.Faults

/-!
# Sectors that 28 bits do not name

What a call returns on a disk with unreadable sectors follows from a survey of the disk, for
file reads as for listings. A drive without a fault has unreadable sectors too, where its
capacity is not known: those that the driver has no number for. The driver refuses them
without a record, so the I/O error of a call that comes to one has no cause.

## Main definitions

* `surveyFile`, `surveyRead`, `surveyQuery`, what a call returns on a disk with unreadable
  sectors

## Main results

* `readClusters_survey`, `fat32ReadFile_survey`, `surveyQuery_replies`
* `far_sectors_without_cause`
-/

namespace LevOS.Filesystem

open LevOS.Drivers LevOS.Foundation Catalogue

variable {ω : Type}

/-! ## What a call returns -/

section Survey

variable (unreadable : UInt32 → Bool) (fs : Fat32Fs ω) (contents : Contents)

/-- How the read of `n` bytes of a chain ends. -/
def surveyFile : Nat → UInt32 → Nat → Fat32Result
  | 0, _, n => if n = 0 then .ok else .eloop
  | budget + 1, cluster, n =>
    if (sectorPlan fs cluster (List.range fs.sectorsPerCluster.toNat) n).any unreadable then .eio
    else if n ≤ clusterBytes fs then .ok
    else if unreadable (fatSector fs cluster) then .eio
    else
      match link fs contents cluster with
      | none => .ebadfs
      | some next => surveyFile budget next (n - clusterBytes fs)

/-- How the read of a file ends. -/
def surveyRead (path : CString) (present : Bool) (capacity : UInt32) : Fat32Result :=
  match surveyPath unreadable fs contents (components path) fs.rootCluster with
  | .error ending => ending.result
  | .ok entry =>
    if entry.attributes &&& 0x10 ≠ 0 then .eisdir
    else if entry.size ≠ 0 ∧ present = false then .einval
    else if capacity < entry.size then .enospc
    else if entry.size = 0 then .ok
    else if validCluster fs entry.firstCluster = false then .ebadfs
    else surveyFile unreadable fs contents fs.clusterCount.toNat entry.firstCluster entry.size.toNat

/-- What a call returns. -/
def surveyQuery : Query → Fat32Result
  | .list _ none => .einval
  | .list path (some visit) =>
    (surveyListing unreadable fs contents (fun entry seen => (visit seen entry, seen ++ [entry]))
      (path.getD rootPath) []).result
  | .read _ _ _ none => .einval
  | .read none _ _ (some _) => .einval
  | .read (some path) buffer capacity (some _) =>
    surveyRead unreadable fs contents path buffer.isSome capacity

variable {unreadable fs contents} {fs' : Fat32Fs ω}

theorem surveyFile_of_sameVolume (h : SameVolume fs fs') (budget : Nat) (cluster : UInt32) (n : Nat) :
    surveyFile unreadable fs' contents budget cluster n =
      surveyFile unreadable fs contents budget cluster n := by
  induction budget generalizing cluster n with
  | zero => rfl
  | succ budget ih =>
    rw [surveyFile, surveyFile, sectorPlan_of_sameVolume h, clusterBytes_of_sameVolume h,
      fatSector_of_sameVolume h, link_of_sameVolume h, h.sectorsPerCluster_eq]
    simp only [ih]

theorem surveyListing_of_sameVolume {γ : Type} (h : SameVolume fs fs') (f : Dirent → γ → Int × γ)
    (path : CString) (context : γ) :
    surveyListing unreadable fs' contents f path context =
      surveyListing unreadable fs contents f path context := by
  unfold surveyListing
  rw [surveyPath_of_sameVolume h, h.rootCluster_eq]
  simp only [surveyDirectory_of_sameVolume h]

theorem surveyRead_of_sameVolume (h : SameVolume fs fs') (path : CString) (present : Bool)
    (capacity : UInt32) :
    surveyRead unreadable fs' contents path present capacity =
      surveyRead unreadable fs contents path present capacity := by
  unfold surveyRead
  rw [surveyPath_of_sameVolume h, h.rootCluster_eq]
  simp only [surveyFile_of_sameVolume h, h.validCluster_eq, h.clusterCount_eq]

theorem surveyQuery_of_sameVolume (h : SameVolume fs fs') (query : Query) :
    surveyQuery unreadable fs' contents query = surveyQuery unreadable fs contents query := by
  rcases query with ⟨path, _ | visit⟩ | ⟨_ | path, buffer, capacity, _ | count⟩
  · rfl
  · exact congrArg Ending.result (surveyListing_of_sameVolume h _ _ _)
  · rfl
  · rfl
  · rfl
  · exact surveyRead_of_sameVolume h path _ capacity

end Survey

/-! ## File reads -/

section Reads

variable {device : BlockDevice ω} {total : Nat} {contents : Contents} {unreadable : UInt32 → Bool}

/-- The read loop ends as the survey of the chain does. -/
theorem readClusters_survey (hfaulty : Faulty device contents unreadable) (budget : Nat)
    (cluster : UInt32) (p : Progress ω) (g : Geometry p.state.fs device total)
    (hvalid : validCluster p.state.fs cluster = true)
    (hfit : p.copied.toNat + p.remaining.toNat < 2 ^ 32) :
    (readClusters budget cluster p).1 =
      surveyFile unreadable p.state.fs contents budget cluster p.remaining.toNat := by
  induction budget generalizing cluster p with
  | zero =>
    have hzero : p.remaining = 0 ↔ p.remaining.toNat = 0 := UInt32.toNat_inj.symm
    simp only [readClusters, surveyFile, hzero]
  | succ budget ih =>
    by_cases hdone : p.remaining = 0
    · have hzero : p.remaining.toNat = 0 := by rw [hdone]; rfl
      rw [readClusters, if_pos hdone, hzero, surveyFile, sectorPlan_zero]
      rfl
    have hplan := hfaulty.readAll_eq_none_iff _ p.state g
      (g.sectorPlan_inside hvalid _ p.remaining.toNat fun _ => List.mem_range.mp)
    rw [surveyFile]
    cases hreads : readAll device (clusterPlan p cluster) p.state with
    | none =>
      rw [if_pos (hplan.mp hreads)]
      exact readClusters_failed hfaulty.answers g hvalid hfit hdone hreads budget
    | some s₁ =>
      have hsectors := mt hplan.mpr (Option.ne_none_iff_exists'.mpr ⟨s₁, hreads⟩)
      rw [if_neg hsectors]
      by_cases hlast : p.remaining.toNat ≤ clusterBytes p.state.fs
      · obtain ⟨p', hrun, -⟩ :=
          readClusters_last hfaulty.answers g hvalid hfit hdone hreads hlast budget
        rw [hrun, if_pos hlast]
      rw [if_neg hlast]
      obtain ⟨p₁, hdone₁, hstep⟩ :=
        readClusters_follow hfaulty.answers g hvalid hfit hreads (Nat.not_le.mp hlast) budget
      have hsame₁ := readAll_sameVolume hreads
      have g₁ : Geometry s₁.fs device total := g.of_sameVolume hsame₁
      have hvalid₁ : validCluster s₁.fs cluster = true := hsame₁.validCluster_eq cluster ▸ hvalid
      obtain ⟨s₂, hsame₂, hnext⟩ := hfaulty.nextCluster_eq g₁ hvalid₁
      rw [fatSector_of_sameVolume hsame₁, link_of_sameVolume hsame₁] at hnext
      rw [hstep, hnext]
      by_cases hbad : unreadable (fatSector p.state.fs cluster) = true
      · rw [if_pos hbad, if_pos hbad]
      rw [if_neg hbad, if_neg hbad]
      cases hlink : link p.state.fs contents cluster with
      | none =>
        -- the chain ends or is broken
        split_ifs <;> simp
      | some next =>
        have hmarker : ¬ 0x0FFFFFF8 ≤ fatValue s₁.fs contents cluster :=
          not_end_of_link ((link_of_sameVolume hsame₁ contents cluster).trans hlink)
        rw [if_neg hmarker]
        simp only [if_neg (ne_endMarker_of_link hlink)]
        have hsame := hsame₁.trans hsame₂
        have hleft := hdone₁.remaining
        have hcopied := hdone₁.copied
        rw [clusterData_length] at hleft hcopied
        -- the rest of the chain, on the same volume
        have hrest := ih next { p₁ with state := s₂ } (g.of_sameVolume hsame)
          (hsame.validCluster_eq next ▸ (link_eq_some hlink).2.2) (by simp only; omega)
        rw [hrest, surveyFile_of_sameVolume hsame, hleft]

/-! ## Calls -/

/-- A file read returns what the survey of the path and of the file says. -/
theorem fat32ReadFile_survey (hfaulty : Faulty device contents unreadable) (path : CString)
    (buffer : Option Buffer) (capacity count : UInt32) (s : FsState ω)
    (g : Geometry s.fs device total) :
    (fat32ReadFile (some path) buffer capacity (some count) s).result =
      surveyRead unreadable s.fs contents path buffer.isSome capacity := by
  obtain ⟨s', hsame, -, -, hwalk⟩ :=
    walk_surveys hfaulty (components path) s.fs.rootCluster s g
  rw [← lookup_eq_walk] at hwalk
  simp only [fat32ReadFile, g.mounted, hwalk, Bool.true_eq_false, if_false, surveyRead]
  cases surveyPath unreadable s.fs contents (components path) s.fs.rootCluster with
  | error ending => rfl
  | ok entry =>
    simp only [Except.mapError, ← hsame.validCluster_eq]
    cases buffer with
    | none =>
      -- without a buffer only an empty file is read
      by_cases hempty : entry.size = 0
      · simp [hempty, apply_ite ReadOutcome.result]
      · simp [hempty, apply_ite ReadOutcome.result]
    | some bytes =>
      by_cases hvalid : validCluster s.fs entry.firstCluster = false
      · simp [hvalid, apply_ite ReadOutcome.result]
      have hfile := readClusters_survey hfaulty s'.fs.clusterCount.toNat entry.firstCluster
        ⟨s', bytes, 0, entry.size⟩ (g.of_sameVolume hsame)
        (by rw [← hsame.validCluster_eq]; simpa using hvalid) (by simpa using entry.size.toNat_lt)
      rw [surveyFile_of_sameVolume hsame, ← hsame.clusterCount_eq] at hfile
      obtain ⟨result, p, hrun⟩ : ∃ result p, readClusters s.fs.clusterCount.toNat
        entry.firstCluster ⟨s', bytes, 0, entry.size⟩ = (result, p) := ⟨_, _, rfl⟩
      rw [hrun] at hfile
      simp only [← hsame.clusterCount_eq, hrun, ← hfile]
      cases result <;> simp [hvalid, apply_ite ReadOutcome.result]

/-- A call returns what its survey says, and leaves the volume mounted. -/
theorem Query.exec_survey (hfaulty : Faulty device contents unreadable) (query : Query)
    (s : FsState ω) (g : Geometry s.fs device total) :
    (query.call.exec device s).1.result = surveyQuery unreadable s.fs contents query ∧
      SameVolume s.fs (query.call.exec device s).2.fs := by
  rcases query with ⟨path, _ | visit⟩ | ⟨path, buffer, capacity, bytesRead⟩
  · exact ⟨rfl, .refl _⟩
  · have hkeeping : Obeys (keeping visit : DirCallback ω (List Dirent))
        fun entry seen status seen' => (visit seen entry, seen ++ [entry]) = (status, seen') :=
      fun _ _ _ => rfl
    obtain ⟨ending, -, -, hresult, hsurvey, -⟩ :=
      fat32ListDirectory_surveys hfaulty path (keeping visit) s g []
    refine ⟨?_, (fat32ListDirectory_confined path (some (keeping visit)) s [] g).same⟩
    rw [surveyQuery, hsurvey _ hkeeping]
    exact hresult
  · refine ⟨?_, (fat32ReadFile_confined path buffer capacity bytesRead s g).same⟩
    rcases path with _ | path <;> rcases bytesRead with _ | count
    · rfl
    · rfl
    · rfl
    · exact fat32ReadFile_survey hfaulty path buffer capacity count s g

end Reads

/-- On a volume some of whose sectors cannot be read, every call returns what its survey says,
whatever has been listed and read before. -/
theorem surveyQuery_replies {device : BlockDevice ω} {contents : Contents}
    {unreadable : UInt32 → Bool} {total : Nat} (hfaulty : Faulty device contents unreadable)
    (queries : List Query) (s : FsState ω) (g : Geometry s.fs device total) :
    let run := runAll (DiskCall.exec device) (queries.map Query.call) s
    run.1.map DiskReply.result = queries.map (surveyQuery unreadable s.fs contents) ∧
      SameVolume s.fs run.2.fs := by
  induction queries generalizing s with
  | nil => exact ⟨rfl, .refl _⟩
  | cons query queries ih =>
    obtain ⟨hresult, hsame⟩ := Query.exec_survey hfaulty query s g
    obtain ⟨hresults, hsame'⟩ := ih (query.call.exec device s).2 (g.of_sameVolume hsame)
    rw [funext (surveyQuery_of_sameVolume hsame)] at hresults
    exact ⟨congrArg₂ List.cons hresult hresults, hsame.trans hsame'⟩

/-! ## The driver's limit -/

/-- I/O errors without a cause: on a drive without a fault, of whatever capacity, whose volume
has been mounted, a call returns what its survey says, where just those sectors cannot be read
that 28 bits do not name. The error on record is the cause of an I/O error just in case the
survey does not end with one; if it does, none is on record, and the shell prints the text of
no error. -/
theorem far_sectors_without_cause {σ : Type} (drive : IdentifyingDrive σ) {h : σ}
    (hbusy : drive.busy h = 0) (hphase : drive.phase h = .idle)
    (hflawless : ∀ sector, drive.readable sector = true) {v : FsState Unit}
    (hmount : fat32Mount (some (image drive.capacity drive.bytes)) pristine = (.ok, v))
    (earlier : List Query) (query : Query) :
    let device := (ataPioInit drive.toPorts h).1.block drive.toPorts
    let s := (runAll (DiskCall.exec device) (.mount :: earlier.map Query.call)
      (detected drive.toPorts h)).2
    let answer := query.call.exec device s
    let ata := answer.2.bus.outside.1
    let survey := surveyQuery beyondDriver v.fs drive.bytes query
    answer.1.result = survey ∧
      ((answer.1.result = .eio → ata.lastError ≠ 0) ↔ survey ≠ .eio) ∧
      (survey = .eio → "ok" ∈ filesystemError answer.1.result ata) := by
  intro device s answer ata survey
  let perfect := image drive.capacity drive.bytes
  have hdevice : Simulates (OnImage drive) device perfect :=
    (drive.simulates hbusy hphase).trans
      (disk_simulates_image drive.capacity drive.bytes hflawless)
  -- the same calls on the image, of which the survey is
  have g : Geometry v.fs perfect _ := (fat32Mount_ok hmount).1
  have hstart : (runAll (DiskCall.exec perfect) (.mount :: earlier.map Query.call) pristine).2 =
      (runAll (DiskCall.exec perfect) (earlier.map Query.call) v).2 := by
    simp only [runAll, DiskCall.exec, hmount, perfect]
  have hfaulty := image_faulty drive.capacity drive.bytes
  have hsame := (surveyQuery_replies hfaulty earlier v g).2
  have hsurvey := (Query.exec_survey hfaulty query _ (g.of_sameVolume hsame)).1
  rw [surveyQuery_of_sameVolume hsame] at hsurvey
  obtain ⟨-, hmatches⟩ := Alike.runAll hdevice.exec (.mount :: earlier.map Query.call)
    (detected_matches_pristine drive hbusy hphase)
  rw [hstart] at hmatches
  obtain ⟨hreply, hend⟩ := hdevice.exec query.call _ _ hmatches
  have hresult : answer.1.result = survey := (congrArg DiskReply.result hreply).trans hsurvey
  -- nothing fails on the drive, so no error is ever recorded
  have hrecord : ata.lastError = 0 := OnImage.lastError drive hend.bus
  refine ⟨hresult, ?_, fun hfar => ?_⟩
  · simp [hresult, hrecord]
  · rw [hresult, hfar]
    exact (ok_mem_filesystemError_iff ata).mpr hrecord

/-- A drive that does not say how many sectors it has, with a volume that starts at the last
one that can be named. -/
def farDrive : IdentifyingDrive (Latches × Phase) :=
  promptIdentifyingDrive (diskWords farDisk) fun _ => true

/-- A file is asked for without a count, and then the root directory is listed in vain. -/
theorem far_sectors_without_cause_listing :
    let device := (ataPioInit farDrive.toPorts (⟨0, 0, 0, 0, 0⟩, .idle)).1.block farDrive.toPorts
    let earlier := [Query.read (some rootPath) none 0 none]
    let listing := Query.list (some rootPath) (some fun _ _ => 0)
    let s := (runAll (DiskCall.exec device) (.mount :: earlier.map Query.call)
      (detected farDrive.toPorts (⟨0, 0, 0, 0, 0⟩, .idle))).2
    let answer := listing.call.exec device s
    answer.1.result = .eio ∧ "ok" ∈ filesystemError answer.1.result answer.2.bus.outside.1 := by
  intro device earlier listing s answer
  let volume := (fat32Mount (some (image farDrive.capacity farDrive.bytes)) pristine).2
  have hmount : fat32Mount (some (image farDrive.capacity farDrive.bytes)) pristine =
      (.ok, volume) := Prod.ext (by decide +kernel) rfl
  have hfar : surveyQuery beyondDriver volume.fs farDrive.bytes listing = .eio := by decide +kernel
  obtain ⟨hresult, -, hcause⟩ := far_sectors_without_cause farDrive
    (h := (⟨0, 0, 0, 0, 0⟩, .idle)) rfl rfl (fun _ => rfl) hmount earlier listing
  simp only [answer, s, device, earlier, listing] at hresult hcause hfar ⊢
  exact ⟨hresult.trans hfar, hcause hfar⟩

end LevOS.Filesystem
