import LevOS.Filesystem.Propagation

/-!
# Reads that fail

Every layer of `fat32.c` passes on that a read has failed, but for one place:
`scan_directory` returns `FAT32_EBADFS` when `next_cluster` does not succeed, whatever its
result is. What a call returns on a disk with unreadable sectors follows from a survey of
the disk: where the first unreadable sector lies that the call comes to, if it comes to
one.

## Main definitions

* `surveyDirectory`, `surveyPath`, `surveyListing`, how the parts of a call end on a disk
  with unreadable sectors

## Main results

* `scanDirectory_surveys`, `walk_surveys`, `Faulty.respects`
* `eio_iff_failed_iff`
-/

namespace LevOS.Filesystem

open LevOS.Drivers

variable {ω γ : Type}

/-! ## Requests that failed -/

/-- Whether a request failed between two states is one question. -/
theorem Reads.iff {s s' : FsState ω} {failed failed' : Prop} (h : Reads s s' failed) :
    Reads s s' failed' ↔ (failed' ↔ failed) := by
  constructor
  · intro h'
    obtain ⟨new, hnew, hfailed⟩ := h
    obtain ⟨new', hnew', hfailed'⟩ := h'
    -- both logs continue the same one
    have hsame : new' = new := List.append_cancel_left (hnew'.symm.trans hnew)
    rw [hfailed', hfailed, hsame]
  · exact h.congr

/-- A scan that ends at the table sector of a link reports something else than the fault;
every other ending is reported as what it is. -/
theorem Ending.eio_iff {ending : Ending} (hne : ending ≠ .status .eio) :
    (ending.result = .eio ↔ ending.isFault = true) ↔ ending ≠ .linkFault := by
  cases ending with
  | status result =>
    have hresult : result ≠ .eio := fun h => hne (congrArg Ending.status h)
    simp [Ending.result, Ending.isFault, hresult]
  | dataFault => simp [Ending.result, Ending.isFault]
  | linkFault => simp [Ending.result, Ending.isFault]

/-! ## How a call ends -/

section Survey

variable (unreadable : UInt32 → Bool) (fs : Fat32Fs ω) (contents : Contents)

/-- How a scan ends with a callback that answers by a function of the entry and the
context, and the context it leaves. -/
def surveyDirectory (f : Dirent → γ → Int × γ) (first : UInt32) (context : γ) : Ending × γ :=
  if validCluster fs first = false then (.status .ebadfs, context)
  else
    match surveyClusters unreadable fs contents fs.clusterCount.toNat first with
    | (records, ending) =>
      match visitRecords f records context with
      | (stop, context') => (if stop then .status .ok else ending, context')

/-- The walk along the components of a path: the entry it comes to, or how it ends before. -/
def surveyPath : List (List UInt8) → UInt32 → Except Ending Dirent
  | [], directory =>
    if directory = fs.rootCluster then .ok (directoryEntry directory)
    else .error (.status .enotfound)
  | part :: parts, directory =>
    if 13 ≤ part.length then .error (.status .einval)
    else if namesEqual part dot then surveyPath parts directory
    else
      match surveyDirectory unreadable fs contents findEntry directory ⟨part, none⟩ with
      | (.status .ok, find) =>
        match find.found with
        | none => .error (.status .enotfound)
        | some entry =>
          if parts ≠ [] then
            if entry.attributes &&& 0x10 = 0 then .error (.status .enotdir)
            else if validCluster fs entry.firstCluster = false then .error (.status .ebadfs)
            else surveyPath parts entry.firstCluster
          else .ok entry
      | (ending, _) => .error ending

/-- How the listing of a path ends. -/
def surveyListing (f : Dirent → γ → Int × γ) (path : CString) (context : γ) : Ending :=
  match surveyPath unreadable fs contents (components path) fs.rootCluster with
  | .error ending => ending
  | .ok entry =>
    if entry.attributes &&& 0x10 = 0 then .status .enotdir
    else (surveyDirectory unreadable fs contents f entry.firstCluster context).1

/-- A status that the survey of a chain ends with is not that of a failed read. -/
theorem surveyClusters_ne_eio (budget : Nat) (cluster : UInt32) :
    (surveyClusters unreadable fs contents budget cluster).2 ≠ .status .eio := by
  induction budget generalizing cluster with
  | zero => simp [surveyClusters]
  | succ budget ih =>
    rw [surveyClusters]
    -- statuses come from the end of the chain only
    obtain ⟨records, fault⟩ := surveySectors unreadable fs contents cluster
      (List.range fs.sectorsPerCluster.toNat)
    cases fault with
    | true => simp
    | false =>
      simp only
      split_ifs
      · simp
      · simp
      · cases link fs contents cluster with
        | none => simp
        | some next => exact ih next

variable {unreadable fs contents}

theorem surveyDirectory_valid {f : Dirent → γ → Int × γ} {first : UInt32} {context context' : γ}
    {stop : Bool} (hvalid : validCluster fs first = true)
    (hvisit : visitRecords f (surveyClusters unreadable fs contents fs.clusterCount.toNat first).1
      context = (stop, context')) :
    surveyDirectory unreadable fs contents f first context =
      (if stop then .status .ok
        else (surveyClusters unreadable fs contents fs.clusterCount.toNat first).2, context') := by
  unfold surveyDirectory
  rw [if_neg (by simp [hvalid])]
  simp only [hvisit]

theorem surveyDirectory_of_sameVolume {fs' : Fat32Fs ω} (h : SameVolume fs fs')
    (f : Dirent → γ → Int × γ) (first : UInt32) (context : γ) :
    surveyDirectory unreadable fs' contents f first context =
      surveyDirectory unreadable fs contents f first context := by
  unfold surveyDirectory
  rw [surveyClusters_of_sameVolume h, h.validCluster_eq, h.clusterCount_eq]

theorem surveyPath_of_sameVolume {fs' : Fat32Fs ω} (h : SameVolume fs fs')
    (parts : List (List UInt8)) (directory : UInt32) :
    surveyPath unreadable fs' contents parts directory =
      surveyPath unreadable fs contents parts directory := by
  induction parts generalizing directory with
  | nil => rw [surveyPath, surveyPath, h.rootCluster_eq]
  | cons part parts ih =>
    rw [surveyPath, surveyPath, surveyDirectory_of_sameVolume h]
    simp only [ih, h.validCluster_eq]

end Survey

/-! ## Scans -/

/-- Less may be asked of the callback's answers. -/
theorem Visits.mono {R R' : Dirent → γ → Int → γ → Prop} {records : List Buffer}
    {context context' : γ} {stop : Bool} (h : Visits R records context stop context')
    (hle : ∀ entry context status context', R entry context status context' →
      R' entry context status context') : Visits R' records context stop context' := by
  induction h with
  | nil context => exact .nil context
  | terminator records context hend => exact .terminator records context hend
  | skip hend hnone _ ih => exact .skip hend hnone ih
  | stop records hend hentry hR hstatus => exact .stop records hend hentry (hle _ _ _ _ hR) hstatus
  | deliver hend hentry hR _ ih => exact .deliver hend hentry (hle _ _ _ _ hR) ih

/-- If some callback is not stopped by the records, then one that never stops is not. -/
theorem Visits.never_stops {R : Dirent → γ → Int → γ → Prop} {records : List Buffer}
    {context context' : γ} {stop : Bool} (h : Visits R records context stop context')
    (hstop : stop = false) : visitRecords (fun _ (_ : Unit) => (0, ())) records () = (false, ()) := by
  induction h with
  | nil => rfl
  | terminator => cases hstop
  | skip hend hnone _ ih =>
    rw [visitRecords, if_neg hend, hnone]
    exact ih hstop
  | stop => cases hstop
  | deliver hend hentry _ _ ih =>
    simp only [visitRecords, if_neg hend, hentry, ne_eq, not_true_eq_false, if_false]
    exact ih hstop

section Calls

variable {device : BlockDevice ω} {total : Nat} {contents : Contents} {unreadable : UInt32 → Bool}

/-- A scan ends somewhere on the disk, and a request has failed just in case that is an
unreadable sector. It is where the survey for the callback ends if the callback has one;
and only where a listing to the end would come to a link, it is a link. -/
theorem scanDirectory_surveys (hfaulty : Faulty device contents unreadable)
    (callback : DirCallback ω γ) (first : UInt32) (s : FsState ω) (g : Geometry s.fs device total)
    (context : γ) :
    ∃ ending s' context', SameVolume s.fs s'.fs ∧ Reads s s' (ending.isFault = true) ∧
      ending ≠ .status .eio ∧ scanDirectory callback first s context = (ending.result, s', context') ∧
      (∀ f : Dirent → γ → Int × γ,
        (Obeys callback fun entry context status context' => f entry context = (status, context')) →
          surveyDirectory unreadable s.fs contents f first context = (ending, context')) ∧
      (ending = .linkFault →
        (surveyDirectory unreadable s.fs contents (fun _ (_ : Unit) => (0, ())) first ()).1 =
          .linkFault) := by
  unfold scanDirectory
  by_cases hinvalid : validCluster s.fs first = false
  · rw [if_pos hinvalid]
    refine ⟨.status .ebadfs, s, context, .refl _, (Reads.refl s).congr (by simp [Ending.isFault]),
      by simp, rfl, fun f _ => ?_, by simp⟩
    rw [surveyDirectory, if_pos hinvalid]
  have hvalid : validCluster s.fs first = true := by simpa using hinvalid
  -- the answers of the callback in any outside world
  let R : Dirent → γ → Int → γ → Prop := fun entry context status context' =>
    ∃ outside, (callback entry context outside).1 = status ∧
      (callback entry context outside).2.1 = context'
  have hobeys : Obeys callback R := fun _ _ outside => ⟨outside, rfl, rfl⟩
  obtain ⟨stop, s', context', hsame, hvisits, hreads, hscan⟩ :=
    scanClusters_surveys hfaulty hobeys s.fs.clusterCount.toNat first s g hvalid context
  have hne := surveyClusters_ne_eio unreadable s.fs contents s.fs.clusterCount.toNat first
  rw [if_neg hinvalid, hscan]
  refine ⟨if stop then .status .ok
    else (surveyClusters unreadable s.fs contents s.fs.clusterCount.toNat first).2, s', context',
    hsame, hreads.congr ?_, ?_, ?_, fun f hf => ?_, fun hlink => ?_⟩
  · cases stop <;> simp [Ending.isFault]
  · cases stop <;> simp [hne]
  · cases stop <;> rfl
  · apply surveyDirectory_valid hvalid
    apply Visits.eq_visitRecords
    apply hvisits.mono
    rintro entry context status context' ⟨outside, rfl, rfl⟩
    exact hf entry context outside
  · cases stop with
    | true => cases hlink
    | false =>
      rw [surveyDirectory_valid hvalid (hvisits.never_stops rfl)]
      exact hlink

/-- The walk along a path ends as the survey says. -/
theorem walk_surveys (hfaulty : Faulty device contents unreadable) (parts : List (List UInt8))
    (directory : UInt32) (s : FsState ω) (g : Geometry s.fs device total) :
    let survey := surveyPath unreadable s.fs contents parts directory
    ∃ s', SameVolume s.fs s'.fs ∧ survey ≠ .error (.status .eio) ∧
      Reads s s' (∃ ending, survey = .error ending ∧ ending.isFault = true) ∧
      walk parts directory s = (survey.mapError Ending.result, s') := by
  induction parts generalizing directory s with
  | nil =>
    rw [surveyPath, walk]
    split_ifs
    · exact ⟨s, .refl _, by simp, (Reads.refl s).congr (by simp), rfl⟩
    · exact ⟨s, .refl _, by simp, (Reads.refl s).congr (by simp [Ending.isFault]), rfl⟩
  | cons part parts ih =>
    rw [surveyPath, walk]
    by_cases hlong : 13 ≤ part.length
    · rw [if_pos hlong, if_pos hlong]
      exact ⟨s, .refl _, by simp, (Reads.refl s).congr (by simp [Ending.isFault]), rfl⟩
    rw [if_neg hlong, if_neg hlong]
    by_cases hdot : namesEqual part dot = true
    · rw [if_pos hdot, if_pos hdot]
      exact ih directory s g
    rw [if_neg hdot, if_neg hdot]
    have hfind : Obeys (findCallback : DirCallback ω FindContext) fun entry find status find' =>
        findEntry entry find = (status, find') := by
      rw [findCallback_eq]
      exact fun _ _ _ => rfl
    obtain ⟨ending, s', find, hsame, hreads, hne, hscan, hsurvey, -⟩ :=
      scanDirectory_surveys hfaulty findCallback directory s g ⟨part, none⟩
    rw [hscan, hsurvey findEntry hfind]
    -- only a search that ends well lets the walk go on
    by_cases hfound : ending = .status .ok
    · subst hfound
      simp only [Ending.result]
      have hreads : Reads s s' False := hreads.congr (by simp [Ending.isFault])
      cases find.found with
      | none => exact ⟨s', hsame, by simp, hreads.congr (by simp [Ending.isFault]), rfl⟩
      | some entry =>
        simp only [hsame.validCluster_eq]
        split_ifs
        · exact ⟨s', hsame, by simp, hreads.congr (by simp [Ending.isFault]), rfl⟩
        · exact ⟨s', hsame, by simp, hreads.congr (by simp [Ending.isFault]), rfl⟩
        · -- the walk goes on in the directory found, with the requests so far in order
          obtain ⟨s'', hsame', hne', hreads', hwalk⟩ := ih entry.firstCluster s' (g.of_sameVolume hsame)
          rw [surveyPath_of_sameVolume hsame] at hne' hreads' hwalk
          exact ⟨s'', hsame.trans hsame', hne', (hreads.trans hreads').congr (by simp), hwalk⟩
        · exact ⟨s', hsame, by simp, hreads.congr (by simp), rfl⟩
    · -- whatever else ends the scan ends the walk
      refine ⟨s', hsame, ?_⟩
      cases ending with
      | status result =>
        cases result
        case ok => exact absurd rfl hfound
        case eio => exact absurd rfl hne
        all_goals exact ⟨by simp, hreads.congr (by simp), rfl⟩
      | dataFault => exact ⟨by simp, hreads.congr (by simp), rfl⟩
      | linkFault => exact ⟨by simp, hreads.congr (by simp), rfl⟩

/-- A listing ends where the survey of the path does, or where the scan of the directory
does that it leads to. -/
theorem fat32ListDirectory_surveys (hfaulty : Faulty device contents unreadable)
    (path : Option CString) (callback : DirCallback ω γ) (s : FsState ω)
    (g : Geometry s.fs device total) (context : γ) :
    let call := fat32ListDirectory path (some callback) s context
    ∃ ending, ending ≠ .status .eio ∧ Reads s call.2.1 (ending.isFault = true) ∧
      call.1 = ending.result ∧
      (∀ f : Dirent → γ → Int × γ,
        (Obeys callback fun entry context status context' => f entry context = (status, context')) →
          surveyListing unreadable s.fs contents f (path.getD rootPath) context = ending) ∧
      (ending = .linkFault →
        surveyListing unreadable s.fs contents (fun _ (_ : Unit) => (0, ())) (path.getD rootPath) () =
          .linkFault) := by
  intro call
  obtain ⟨s', hsame, hne, hreads, hwalk⟩ :=
    walk_surveys hfaulty (components (path.getD rootPath)) s.fs.rootCluster s g
  rw [← lookup_eq_walk] at hwalk
  have hcall : call = fat32ListDirectory path (some callback) s context := rfl
  simp only [fat32ListDirectory, g.mounted, hwalk, Bool.true_eq_false, if_false] at hcall
  unfold surveyListing
  generalize surveyPath unreadable s.fs contents (components (path.getD rootPath))
    s.fs.rootCluster = survey at hne hreads hcall
  cases survey with
  | error ending =>
    rw [hcall]
    exact ⟨ending, by simpa using hne, hreads.congr (by simp), rfl, fun _ _ => rfl, id⟩
  | ok entry =>
    simp only [Except.mapError] at hcall
    have hreads : Reads s s' False := hreads.congr (by simp)
    -- what the path leads to must be a directory to be scanned
    by_cases hfile : entry.attributes &&& 0x10 = 0
    · rw [if_pos hfile] at hcall
      rw [hcall]
      simp only [if_pos hfile]
      exact ⟨.status .enotdir, by simp, hreads.congr (by simp [Ending.isFault]), rfl,
        fun _ _ => rfl, by simp⟩
    · rw [if_neg hfile] at hcall
      simp only [if_neg hfile]
      obtain ⟨ending, s'', context', -, hreads', hne, hscan, hsurvey, hlink⟩ :=
        scanDirectory_surveys hfaulty callback entry.firstCluster s' (g.of_sameVolume hsame) context
      simp only [surveyDirectory_of_sameVolume hsame] at hsurvey hlink
      rw [hcall, hscan]
      exact ⟨ending, hne, (hreads.trans hreads').congr (by simp), rfl,
        fun f hf => congrArg Prod.fst (hsurvey f hf), hlink⟩

/-! ## File reads -/

/-- On a disk with unreadable sectors a read says just in case its request has failed that
it has. -/
theorem Faulty.respects (hfaulty : Faulty device contents unreadable) :
    Respects device total Reads where
  refl := Reads.refl
  trans h h' := (h.trans h').congr (by simp)
  read {s sector} g hsector := by
    obtain ⟨hstatus, hreads⟩ := hfaulty.readInto g hsector
    rw [g.readSector_eq hsector]
    refine hreads.congr ?_
    rw [← Bool.not_eq_false, ← hstatus]
    split_ifs with hread <;> simp [hread]

/-- A file read passes on that a read has failed, unless the walk to the file ends at the
table sector of a link. -/
theorem fat32ReadFile_reads (hfaulty : Faulty device contents unreadable) (path : CString)
    (buffer : Option Buffer) (capacity count : UInt32) (s : FsState ω)
    (g : Geometry s.fs device total) :
    let call := fat32ReadFile (some path) buffer capacity (some count) s
    let linkFault := surveyPath unreadable s.fs contents (components path) s.fs.rootCluster =
      .error .linkFault
    Reads s call.state (call.result = .eio ∨ linkFault) ∧ (linkFault → call.result ≠ .eio) := by
  intro call linkFault
  obtain ⟨s', hsame, hne, hreads, hwalk⟩ :=
    walk_surveys hfaulty (components path) s.fs.rootCluster s g
  rw [← lookup_eq_walk] at hwalk
  have hcall : call = fat32ReadFile (some path) buffer capacity (some count) s := rfl
  simp only [fat32ReadFile, g.mounted, hwalk, Bool.true_eq_false, if_false] at hcall
  unfold linkFault
  generalize surveyPath unreadable s.fs contents (components path) s.fs.rootCluster = survey
    at hne hreads hcall
  -- either the way to the file fails, or the file itself is read
  cases survey with
  | error ending =>
    simp only [Except.mapError] at hcall
    rw [hcall]
    have hne : ending ≠ .status .eio := by simpa using hne
    cases ending with
    | status result =>
      have hresult : result ≠ .eio := fun h => hne (congrArg Ending.status h)
      exact ⟨hreads.congr (by simp [Ending.result, Ending.isFault, hresult]), by simp⟩
    | dataFault => exact ⟨hreads.congr (by simp [Ending.result, Ending.isFault]), by simp⟩
    | linkFault =>
      exact ⟨hreads.congr (by simp [Ending.isFault]), fun _ => by simp [Ending.result]⟩
  | ok entry =>
    have hreads : Reads s s' False := hreads.congr (by simp)
    refine ⟨?_, by simp⟩
    simp only [Except.mapError] at hcall
    -- the checks before the loop make no request
    split_ifs at hcall with hdirectory hnull hcapacity hempty hinvalid
    · rw [hcall]
      exact hreads.congr (by simp)
    · rw [hcall]
      exact hreads.congr (by simp)
    · rw [hcall]
      exact hreads.congr (by simp)
    · rw [hcall]
      exact hreads.congr (by simp)
    · rw [hcall]
      exact hreads.congr (by simp)
    · cases buffer with
      | none => exact absurd ⟨hempty, rfl⟩ hnull
      | some bytes =>
        have hfile := hfaulty.respects.readClusters s'.fs.clusterCount.toNat entry.firstCluster
          ⟨s', bytes, 0, entry.size⟩ (g.of_sameVolume hsame) (by simpa using hinvalid)
        obtain ⟨result, p, hrun⟩ : ∃ result p, readClusters s'.fs.clusterCount.toNat
          entry.firstCluster ⟨s', bytes, 0, entry.size⟩ = (result, p) := ⟨_, _, rfl⟩
        rw [hrun] at hfile
        simp only [hrun] at hcall
        cases result <;> rw [hcall] <;> exact (hreads.trans hfile).congr (by simp)

end Calls

/-! ## What is reported -/

/-- I/O errors: on a mounted volume of which any sectors cannot be read, a call returns
`FAT32_EIO` just in case a request it made has failed, if and only if it does not end at
an unreadable table sector of a directory's link. For a listing that depends on the
callback; a directory can be listed with any callback if and only if it can be with one
that never stops. For a file read it depends on the way to the file only. -/
theorem eio_iff_failed_iff {device : BlockDevice ω} {contents : Contents}
    {unreadable : UInt32 → Bool} {s₀ s₁ s : FsState ω}
    (hmount : fat32Mount (some device) s₀ = (.ok, s₁)) (hsame : SameVolume s₁.fs s.fs)
    (hfaulty : Faulty device contents unreadable) :
    (∀ {γ : Type} (path : Option CString) (f : Dirent → γ → Int × γ) (callback : DirCallback ω γ)
      (context : γ),
      (Obeys callback fun entry context status context' => f entry context = (status, context')) →
        let call := fat32ListDirectory path (some callback) s context
        Reads s call.2.1 (call.1 = .eio) ↔
          surveyListing unreadable s.fs contents f (path.getD rootPath) context ≠ .linkFault) ∧
    (∀ path : Option CString,
      (∀ {γ : Type} (callback : Option (DirCallback ω γ)) (context : γ),
        let call := fat32ListDirectory path callback s context
        Reads s call.2.1 (call.1 = .eio)) ↔
          surveyListing unreadable s.fs contents (fun _ (_ : Unit) => (0, ())) (path.getD rootPath) () ≠
            .linkFault) ∧
    ∀ (path : Option CString) (buffer : Option Buffer) (capacity : UInt32)
      (bytesRead : Option UInt32),
      let call := fat32ReadFile path buffer capacity bytesRead s
      Reads s call.state (call.result = .eio) ↔
        (bytesRead.isSome → ∀ named ∈ path,
          surveyPath unreadable s.fs contents (components named) s.fs.rootCluster ≠
            .error .linkFault) := by
  have g := (fat32Mount_ok hmount).1.of_sameVolume hsame
  -- a listing ends as its survey does, and reports `eio` at any fault but that of a link
  have hlist {γ : Type} (path : Option CString) (f : Dirent → γ → Int × γ)
      (callback : DirCallback ω γ) (context : γ)
      (hf : Obeys callback fun entry context status context' => f entry context = (status, context')) :
      let call := fat32ListDirectory path (some callback) s context
      Reads s call.2.1 (call.1 = .eio) ↔
        surveyListing unreadable s.fs contents f (path.getD rootPath) context ≠ .linkFault := by
    intro call
    obtain ⟨ending, hne, hreads, hresult, hsurvey, -⟩ :=
      fat32ListDirectory_surveys hfaulty path callback s g context
    rw [hsurvey f hf, ← Ending.eio_iff hne, ← hresult]
    exact hreads.iff
  refine ⟨hlist, fun path => ⟨fun hall => ?_, fun hending => ?_⟩, ?_⟩
  · -- a callback that never stops is one of them
    exact (hlist path _ (quiet fun _ _ => (0, ())) () fun _ _ _ => rfl).mp
      (hall (some (quiet fun _ _ => (0, ()))) ())
  · intro γ callback context
    cases callback with
    | none => exact (Reads.refl s).congr (by simp [fat32ListDirectory])
    | some callback =>
      intro call
      -- it comes to every fault that another one can come to
      obtain ⟨ending, hne, hreads, hresult, -, hlink⟩ :=
        fat32ListDirectory_surveys hfaulty path callback s g context
      rw [show call.1 = ending.result from hresult]
      exact hreads.congr ((Ending.eio_iff hne).mpr (mt hlink hending))
  · intro path buffer capacity bytesRead call
    cases bytesRead with
    | none => exact iff_of_true ((Reads.refl s).congr (by simp [call, fat32ReadFile])) (by simp)
    | some count =>
    cases path with
    | none => exact iff_of_true ((Reads.refl s).congr (by simp [call, fat32ReadFile])) (by simp)
    | some path =>
      obtain ⟨hreads, hlink⟩ := fat32ReadFile_reads hfaulty path buffer capacity count s g
      change Reads s call.state (call.result = .eio ∨ _) at hreads
      change _ → call.result ≠ .eio at hlink
      rw [hreads.iff]
      simp only [Option.isSome_some, true_imp_iff, Option.mem_def, Option.some.injEq, forall_eq']
      constructor
      · intro hiff hfault
        exact hlink hfault (hiff.mpr (Or.inr hfault))
      · intro hnone
        simp [hnone]

/-- On the volume with a ring, with cluster three unreadable, listing `D` and reading `F`
report the failed read. -/
theorem eio_iff_failed_iff_ring :
    let s := (fat32Mount (some (faultyDevice 512 12 ringDisk (· == 3))) unmounted).2
    let listing := fat32ListDirectory (some ⟨[0x44], by decide⟩)
      (some (quiet fun _ (_ : Unit) => (0, ()))) s ()
    let read := fat32ReadFile (some ⟨[0x46], by decide⟩) (some fun _ => 0) 1536 (some 0) s
    listing.1 = .eio ∧ Reads s listing.2.1 (listing.1 = .eio) ∧
      read.result = .eio ∧ Reads s read.state (read.result = .eio) := by
  intro s listing read
  have hmount : (fat32Mount (some (faultyDevice 512 12 ringDisk (· == 3))) unmounted).1 = .ok := by
    decide +kernel
  obtain ⟨hlist, -, hread⟩ := eio_iff_failed_iff (Prod.ext hmount rfl) (SameVolume.refl s.fs)
    (faultyDevice_faulty (by decide) 12 ringDisk (· == 3))
  refine ⟨by decide +kernel, ?_, by decide +kernel, ?_⟩
  · exact (hlist (some ⟨[0x44], by decide⟩) (fun _ _ => (0, ())) (quiet fun _ _ => (0, ())) ()
      fun _ _ _ => rfl).mpr (by decide +kernel)
  · refine (hread (some ⟨[0x46], by decide⟩) (some fun _ => 0) 1536 (some 0)).mpr fun _ named hnamed => ?_
    obtain rfl := Option.some.inj hnamed
    decide +kernel

/-- With the table sector unreadable instead, listing `D` and reading `D/X` come to a link
of `D` that cannot be read, and call the volume invalid. -/
theorem failed_read_as_ebadfs :
    let s := (fat32Mount (some (faultyDevice 512 12 ringDisk (· == 1))) unmounted).2
    let listing := fat32ListDirectory (some ⟨[0x44], by decide⟩)
      (some (quiet fun _ (_ : Unit) => (0, ()))) s ()
    let read := fat32ReadFile (some ⟨[0x44, 0x2F, 0x58], by decide⟩) (some fun _ => 0) 1536 (some 0) s
    (fat32Mount (some (faultyDevice 512 12 ringDisk (· == 1))) unmounted).1 = .ok ∧
      Faulty (faultyDevice 512 12 ringDisk (· == 1)) ringDisk (· == 1) ∧
      listing.1 = .ebadfs ∧ ¬ Reads s listing.2.1 (listing.1 = .eio) ∧
      read.result = .ebadfs ∧ ¬ Reads s read.state (read.result = .eio) := by
  intro s listing read
  have hlisting : listing.1 = .ebadfs := by decide +kernel
  have hresult : read.result = .ebadfs := by decide +kernel
  -- the root directory, the cluster of `D` and its table sector
  have hlist : Reads s listing.2.1 True :=
    ⟨[⟨2, 0⟩, ⟨3, 0⟩, ⟨1, 1⟩], by decide +kernel, by decide⟩
  have hread : Reads s read.state True :=
    ⟨[⟨2, 0⟩, ⟨3, 0⟩, ⟨1, 1⟩], by decide +kernel, by decide⟩
  refine ⟨by decide +kernel, faultyDevice_faulty (by decide) 12 ringDisk (· == 1), hlisting, ?_,
    hresult, ?_⟩
  · rw [hlist.iff, hlisting]
    decide
  · rw [hread.iff, hresult]
    decide

end LevOS.Filesystem
