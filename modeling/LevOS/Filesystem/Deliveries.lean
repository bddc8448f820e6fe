import LevOS.Filesystem.DotPaths

/-!
# What a directory scan delivers

The entries that `scan_directory` hands to its callback are compared with a list that
says what they should be: the records of the directory's clusters up to the first
record that marks the end, without deleted records, labels and pieces of long names.
The callback may have any state and act on the outside world; a log kept next to its
context shows the entries it was given and what it returned for them.

## Main definitions

* `recorded`, a callback that also keeps such a log
* `listed`, the records of a directory that name an entry
* `Deliveries`, what the log shows
* `ChainEnd`, the three ways in which a chain ends

## Main results

* `scanDirectory_recorded`, the log makes no difference to the scan
* `scanDirectory_delivers`
-/

namespace LevOS.Filesystem

open LevOS.Drivers

variable {ω γ : Type}

/-! ## The log -/

/-- A callback that also keeps the entries it is given, in order, and what it returns
for them. -/
def recorded (callback : DirCallback ω γ) : DirCallback ω (γ × List (Dirent × Int)) :=
  fun entry context outside =>
    match callback entry context.1 outside with
    | (status, context', outside') => (status, (context', context.2 ++ [(entry, status)]), outside')

theorem recorded_obeys (callback : DirCallback ω γ) :
    Obeys (recorded callback) fun entry context status context' =>
      context'.2 = context.2 ++ [(entry, status)] :=
  fun _ _ _ => rfl

/-- The outcome of a loop without the log. -/
def forget {α : Type} (outcome : α × FsState ω × γ × List (Dirent × Int)) : α × FsState ω × γ :=
  (outcome.1, outcome.2.1, outcome.2.2.1)

theorem scanRecords_recorded (callback : DirCallback ω γ) (offsets : List Nat) (s : FsState ω)
    (context : γ × List (Dirent × Int)) :
    forget (scanRecords (recorded callback) offsets s context) =
      scanRecords callback offsets s context.1 := by
  induction offsets generalizing s context with
  | nil => rfl
  | cons offset offsets ih =>
    simp only [scanRecords]
    split_ifs with hend
    · rfl
    cases entryFromRaw fun i => s.fs.sectorBuffer (offset + i) with
    | none => exact ih s context
    | some entry =>
      obtain ⟨status, context₁, outside₁, hcall⟩ : ∃ status context₁ outside₁,
        callback entry context.1 s.bus.outside = (status, context₁, outside₁) := ⟨_, _, _, rfl⟩
      -- both callbacks answer alike and do the same to the outside world
      have hrecorded : recorded callback entry context s.bus.outside =
          (status, (context₁, context.2 ++ [(entry, status)]), outside₁) := by
        rw [recorded, hcall]
      simp only [hrecorded, hcall]
      split_ifs with hstop
      · rfl
      · exact ih _ _

theorem scanSectors_recorded (callback : DirCallback ω γ) (cluster : UInt32) (indices : List Nat)
    (s : FsState ω) (context : γ × List (Dirent × Int)) :
    forget (scanSectors (recorded callback) cluster indices s context) =
      scanSectors callback cluster indices s context.1 := by
  induction indices generalizing s context with
  | nil => rfl
  | cons index indices ih =>
    simp only [scanSectors]
    obtain ⟨result, s₁⟩ := readSector s (clusterSector s.fs cluster index)
    cases result with
    | ok =>
      -- the records of the sector first, which leave a log behind
      have hrecords := scanRecords_recorded callback (recordOffsets s₁.fs.bytesPerSector) s₁ context
      simp only
      rw [← hrecords]
      obtain ⟨stop, s₂, context₂⟩ := scanRecords (recorded callback) (recordOffsets s₁.fs.bytesPerSector)
        s₁ context
      cases stop with
      | some result => rfl
      | none => exact ih s₂ context₂
    | _ => rfl

theorem scanClusters_recorded (callback : DirCallback ω γ) (budget : Nat) (cluster : UInt32)
    (s : FsState ω) (context : γ × List (Dirent × Int)) :
    forget (scanClusters (recorded callback) budget cluster s context) =
      scanClusters callback budget cluster s context.1 := by
  induction budget generalizing cluster s context with
  | zero => rfl
  | succ budget ih =>
    simp only [scanClusters]
    split_ifs with hvalid
    · rfl
    -- neither the link nor the marker depends on the context
    have hsectors := scanSectors_recorded callback cluster (List.range s.fs.sectorsPerCluster.toNat) s
      context
    rw [← hsectors]
    obtain ⟨stop, s₁, context₁⟩ := scanSectors (recorded callback) cluster
      (List.range s.fs.sectorsPerCluster.toNat) s context
    cases stop with
    | some result => rfl
    | none =>
      simp only [forget]
      obtain ⟨next, s₂⟩ := nextCluster s₁ cluster
      cases next with
      | error => rfl
      | ok next =>
        simp only
        split_ifs with hmarker
        · rfl
        · exact ih next s₂ context₁

/-- Keeping the log makes no difference to a scan. -/
theorem scanDirectory_recorded (callback : DirCallback ω γ) (first : UInt32) (s : FsState ω)
    (context : γ × List (Dirent × Int)) :
    forget (scanDirectory (recorded callback) first s context) =
      scanDirectory callback first s context.1 := by
  simp only [scanDirectory]
  split_ifs
  · rfl
  · exact scanClusters_recorded callback _ first s context

/-! ## The reference list -/

/-- A record is neither deleted nor a volume label or a piece of a long name. -/
def namesEntry (raw : Buffer) : Bool := raw 0 != 0xE5 && raw 11 &&& 0x08 == 0

/-- The records that name an entry, of those before the end record. -/
def listed (records : List Buffer) : List Buffer :=
  (records.takeWhile fun raw => raw 0 != 0x00).filter namesEntry

/-- A record is passed over just in case it does not name an entry. -/
theorem entryFromRaw_eq_none_iff {raw : Buffer} (hend : raw 0 ≠ 0) :
    entryFromRaw raw = none ↔ ¬ namesEntry raw = true := by
  -- a piece of a long name has the bit of a label among others
  have hpiece : raw 11 = 0x0F → raw 11 &&& 0x08 ≠ 0 := by
    intro hpiece
    rw [hpiece]
    decide
  unfold entryFromRaw namesEntry
  split_ifs with hrejected
  · refine iff_of_true rfl ?_
    rcases hrejected with hzero | hdeleted | hlong | hlabel
    · exact absurd hzero hend
    · simp [hdeleted]
    · simp [hpiece hlong]
    · simp [hlabel]
  · push Not at hrejected
    refine iff_of_false id (not_not.mpr ?_)
    simp [hrejected.2.1, hrejected.2.2.2]

theorem listed_skip {raw : Buffer} (hend : raw 0 ≠ 0) (hnone : entryFromRaw raw = none)
    (records : List Buffer) : listed (raw :: records) = listed records := by
  rw [listed, List.takeWhile_cons_of_pos (by simpa using hend),
    List.filter_cons_of_neg ((entryFromRaw_eq_none_iff hend).mp hnone), listed]

theorem listed_cons {raw : Buffer} {entry : Dirent} (hend : raw 0 ≠ 0)
    (hentry : entryFromRaw raw = some entry) (records : List Buffer) :
    listed (raw :: records) = raw :: listed records := by
  have hnamed : ¬ entryFromRaw raw = none := by simp [hentry]
  rw [entryFromRaw_eq_none_iff hend, not_not] at hnamed
  rw [listed, List.takeWhile_cons_of_pos (by simpa using hend), List.filter_cons_of_pos hnamed, listed]

/-- The callback returned something other than zero. -/
def Stopped (log : List (Dirent × Int)) : Prop := ∃ delivery ∈ log, delivery.2 ≠ 0

/-- What the log of a scan shows: the decoded records in order, up to the first for
which the callback did not return zero. -/
structure Deliveries (records : List Buffer) (log : List (Dirent × Int)) : Prop where
  in_order : log.map (fun delivery => some delivery.1) <+: (listed records).map entryFromRaw
  goes_on : ∀ delivery ∈ log.dropLast, delivery.2 = 0
  complete : ¬ Stopped log →
    log.map (fun delivery => some delivery.1) = (listed records).map entryFromRaw

/-- A visit delivers the records, and stops because of the callback or at an end record. -/
theorem Visits.deliveries {records : List Buffer} {context context' : γ × List (Dirent × Int)}
    {stop : Bool}
    (h : Visits (fun entry context status context' => context'.2 = context.2 ++ [(entry, status)])
      records context stop context') :
    ∃ log, context'.2 = context.2 ++ log ∧ Deliveries records log ∧
      (stop = true ↔ Stopped log ∨ ∃ raw ∈ records, raw 0 = 0) := by
  induction h with
  | nil context =>
    exact ⟨[], by simp, ⟨by simp, by simp, fun _ => rfl⟩, by simp [Stopped]⟩
  | terminator records context hend =>
    refine ⟨[], by simp, ⟨by simp, by simp, fun _ => ?_⟩, by simp [hend]⟩
    simp [listed, hend]
  | skip hend hnone _ ih =>
    obtain ⟨log, hlog, ⟨hbegins, hgoes, hcomplete⟩, hstop⟩ := ih
    refine ⟨log, hlog, ⟨?_, hgoes, ?_⟩, by simp [hstop, hend]⟩
    · rwa [listed_skip hend hnone]
    · rwa [listed_skip hend hnone]
  -- the entry that stops the callback is the last in the log
  | @stop _ records entry _ _ status hend hentry hR hstatus =>
    refine ⟨[(entry, status)], hR, ⟨?_, by simp, ?_⟩, by simp [Stopped, hstatus]⟩
    · rw [listed_cons hend hentry]
      exact ⟨(listed records).map entryFromRaw, by simp [hentry]⟩
    · intro hgoes
      exact absurd ⟨_, List.mem_singleton_self _, hstatus⟩ hgoes
  | @deliver _ records entry _ _ _ _ hend hentry hR _ ih =>
    obtain ⟨log, hlog, ⟨hbegins, hgoes, hcomplete⟩, hstop⟩ := ih
    -- an entry for which it returned zero does not make it stop
    have hstopped : Stopped ((entry, 0) :: log) ↔ Stopped log := by simp [Stopped]
    refine ⟨(entry, 0) :: log, by rw [hlog, hR]; simp, ⟨?_, ?_, ?_⟩, by simp [hstop, hstopped, hend]⟩
    · rw [listed_cons hend hentry, List.map_cons, List.map_cons, hentry]
      exact (List.prefix_cons_inj _).mpr hbegins
    · intro delivery hdelivery
      cases log with
      | nil => simp at hdelivery
      | cons next log =>
        rw [List.dropLast_cons_cons] at hdelivery
        rcases List.mem_cons.mp hdelivery with rfl | hlater
        · rfl
        · exact hgoes _ hlater
    · intro hnot
      rw [listed_cons hend hentry, List.map_cons, List.map_cons, hentry,
        hcomplete fun h => hnot (hstopped.mpr h)]

/-! ## The chain -/

/-- How a chain ends behind the clusters visited, of which there may be at most `limit`,
and the status for it: at an end marker, at an entry that leads nowhere, or because one
cluster more would be too many. -/
inductive ChainEnd (fs : Fat32Fs ω) (contents : Contents) (limit : Nat) (clusters : List UInt32) :
    Fat32Result → Prop
  | marker {last : UInt32} : last ∈ clusters.getLast? → 0x0FFFFFF8 ≤ fatValue fs contents last →
      ChainEnd fs contents limit clusters .ok
  | badLink {last : UInt32} : last ∈ clusters.getLast? → ¬ 0x0FFFFFF8 ≤ fatValue fs contents last →
      link fs contents last = none → ChainEnd fs contents limit clusters .ebadfs
  | tooLong {last next : UInt32} : last ∈ clusters.getLast? → link fs contents last = some next →
      clusters.length = limit → ChainEnd fs contents limit clusters .eloop

/-- A chain ends in one way only. -/
theorem ChainEnd.unique {fs : Fat32Fs ω} {contents : Contents} {limit : Nat}
    {clusters : List UInt32} {result result' : Fat32Result}
    (h : ChainEnd fs contents limit clusters result)
    (h' : ChainEnd fs contents limit clusters result') : result = result' := by
  have hsame {last last' : UInt32} (hl : last ∈ clusters.getLast?)
      (hl' : last' ∈ clusters.getLast?) : last = last' := Option.mem_unique hl hl'
  -- the last cluster and its table entry decide
  cases h with
  | marker hl hend =>
    cases h' with
    | marker => rfl
    | badLink hl' hend' => exact absurd (hsame hl hl' ▸ hend) hend'
    | tooLong hl' hlink => exact absurd (hsame hl hl' ▸ hend) (not_end_of_link hlink)
  | badLink hl hend hnone =>
    cases h' with
    | marker hl' hend' => exact absurd (hsame hl' hl ▸ hend') hend
    | badLink => rfl
    | tooLong hl' hlink => rw [hsame hl hl', hlink] at hnone; cases hnone
  | tooLong hl hlink =>
    cases h' with
    | marker hl' hend' => exact absurd (hsame hl' hl ▸ hend') (not_end_of_link hlink)
    | badLink hl' _ hnone => rw [hsame hl' hl, hlink] at hnone; cases hnone
    | tooLong => rfl

theorem chain_cons {fs : Fat32Fs ω} {contents : Contents} {cluster next : UInt32} {rest : List UInt32}
    (hlink : link fs contents cluster = some next)
    (hrest : chain fs contents rest.length next = some rest) :
    chain fs contents (cluster :: rest).length cluster = some (cluster :: rest) := by
  cases rest with
  | nil => rfl
  | cons head tail =>
    rw [List.length_cons] at hrest
    rw [List.length_cons, List.length_cons, chain, hlink, Option.bind_some, hrest]
    rfl

/-- The clusters that a scan visits are the chain, and its status says how that ends. -/
theorem directoryChain_ends (fs : Fat32Fs ω) (contents : Contents) (limit : Nat) (cluster : UInt32) :
    let visited := directoryChain fs contents (limit + 1) cluster
    chain fs contents visited.1.length cluster = some visited.1 ∧ visited.1.length ≤ limit + 1 ∧
      visited.1 ≠ [] ∧ ChainEnd fs contents (limit + 1) visited.1 visited.2 := by
  induction limit generalizing cluster with
  | zero =>
    rw [directoryChain]
    by_cases hend : 0x0FFFFFF8 ≤ fatValue fs contents cluster
    · rw [if_pos hend]
      exact ⟨rfl, le_rfl, List.cons_ne_nil _ _, .marker rfl hend⟩
    · rw [if_neg hend]
      cases hlink : link fs contents cluster with
      | none => exact ⟨rfl, le_rfl, List.cons_ne_nil _ _, .badLink rfl hend hlink⟩
      | some next => exact ⟨rfl, le_rfl, List.cons_ne_nil _ _, .tooLong rfl hlink rfl⟩
  | succ limit ih =>
    rw [directoryChain]
    by_cases hend : 0x0FFFFFF8 ≤ fatValue fs contents cluster
    · rw [if_pos hend]
      exact ⟨rfl, by simp, List.cons_ne_nil _ _, .marker rfl hend⟩
    · rw [if_neg hend]
      cases hlink : link fs contents cluster with
      | none => exact ⟨rfl, by simp, List.cons_ne_nil _ _, .badLink rfl hend hlink⟩
      | some next =>
        -- the chain of the next cluster ends the same way
        obtain ⟨hchain, hlength, hne, hends⟩ := ih next
        have hlast (last : UInt32) (h : last ∈ (directoryChain fs contents (limit + 1) next).1.getLast?) :
            last ∈ (cluster :: (directoryChain fs contents (limit + 1) next).1).getLast? := by
          rwa [List.getLast?_cons_of_ne_nil hne]
        refine ⟨chain_cons hlink hchain, by simpa using hlength, List.cons_ne_nil _ _, ?_⟩
        generalize (directoryChain fs contents (limit + 1) next).2 = status at hends
        cases hends with
        | marker hl hmarker => exact .marker (hlast _ hl) hmarker
        | badLink hl hmarker hnone => exact .badLink (hlast _ hl) hmarker hnone
        | tooLong hl hsome hlimit => exact .tooLong (hlast _ hl) hsome (by simp [hlimit])

/-! ## The scan -/

/-- Directory scan: on a mounted volume whose sectors can all be read, a scan delivers
the decoded records of the clusters of the directory's chain, in order, up to the end
record and up to the first entry for which the callback does not return zero. It returns
`FAT32_OK` just in case it ends so or at the end marker of the chain, `FAT32_EBADFS` just
in case the first cluster or a link that is needed is invalid, and `FAT32_ELOOP` just in
case it would visit more clusters than the volume has. -/
theorem scanDirectory_delivers {device : BlockDevice ω} {contents : Contents} {s₀ s₁ s : FsState ω}
    (hmount : fat32Mount (some device) s₀ = (.ok, s₁)) (hsame : SameVolume s₁.fs s.fs)
    (hreadable : Readable device contents) (first : UInt32) (callback : DirCallback ω γ)
    (context : γ) :
    let scan := scanDirectory (recorded callback) first s (context, [])
    let log := scan.2.2.2
    scanDirectory callback first s context = (scan.1, scan.2.1, scan.2.2.1) ∧
      (validCluster s.fs first = false → scan.1 = .ebadfs ∧ log = []) ∧
      (validCluster s.fs first = true → ∃ clusters,
        chain s.fs contents clusters.length first = some clusters ∧
        clusters.length ≤ s.fs.clusterCount.toNat ∧
        (∃ status, ChainEnd s.fs contents s.fs.clusterCount.toNat clusters status) ∧
        Deliveries (clusters.flatMap (clusterRecords s.fs contents)) log ∧
        let ended := Stopped log ∨ ∃ raw ∈ clusters.flatMap (clusterRecords s.fs contents), raw 0 = 0
        let ends := ChainEnd s.fs contents s.fs.clusterCount.toNat clusters
        (scan.1 = .ok ↔ ended ∨ ends .ok) ∧ (scan.1 = .ebadfs ↔ ¬ ended ∧ ends .ebadfs) ∧
          (scan.1 = .eloop ↔ ¬ ended ∧ ends .eloop)) := by
  intro scan log
  have g := (fat32Mount_ok hmount).1.of_sameVolume hsame
  refine ⟨(scanDirectory_recorded callback first s (context, [])).symm, ?_, ?_⟩
  · intro hinvalid
    have hscan : scan = (.ebadfs, s, context, []) := by
      change scanDirectory (recorded callback) first s (context, []) = _
      rw [scanDirectory, if_pos hinvalid]
    change scan.1 = _ ∧ scan.2.2.2 = _
    rw [hscan]
    exact ⟨rfl, rfl⟩
  · intro hvalid
    obtain ⟨stop, s', context', -, hvisits, hscan⟩ :=
      scanDirectory_visits hreadable (recorded_obeys callback) s g hvalid (context, [])
    obtain ⟨log', hlog, hdeliveries, hstop⟩ := hvisits.deliveries
    obtain ⟨limit, hlimit⟩ := exists_clusterCount_eq hvalid
    obtain ⟨hchain, hlength, -, hends⟩ := directoryChain_ends s.fs contents limit first
    rw [← hlimit] at hchain hlength hends
    -- the visit decides if it stops, and the chain otherwise
    have hresult : scan.1 = if stop then .ok else directoryStatus s.fs contents first :=
      congrArg Prod.fst hscan
    have hdelivered : log = log' := by
      have hcontext : scan.2.2 = context' := congrArg (fun outcome => outcome.2.2) hscan
      change scan.2.2.2 = _
      rw [hcontext, hlog, List.nil_append]
    rw [← hdelivered] at hdeliveries hstop
    refine ⟨_, hchain, hlength, ⟨_, hends⟩, hdeliveries, ?_⟩
    intro ended ends
    have hstop : stop = true ↔ ended := hstop
    have hends : ends (directoryStatus s.fs contents first) := hends
    have hiff {result : Fat32Result} : directoryStatus s.fs contents first = result ↔ ends result :=
      ⟨fun h => h ▸ hends, fun h => hends.unique h⟩
    rw [hresult]
    by_cases hended : ended
    · rw [if_pos (hstop.mpr hended)]
      simp [hended]
    · rw [if_neg (mt hstop.mp hended)]
      simp [hended, hiff]

/-- A scan of the directory `D` of the sample tree with a callback that stops at the
second entry. -/
theorem scanDirectory_delivers_tree :
    let s := (fat32Mount (some treeDevice) unmounted).2
    let scan := scanDirectory (recorded fun _ n outside => (if n = 1 then 1 else 0, n + 1, outside)) 3
      s (0, [])
    scan.2.2.2 = [(⟨dot, 0x10, 0, 3⟩, 0), (⟨[0x2E, 0x2E], 0x10, 0, 0⟩, 1)] ∧ ∃ clusters,
      chain s.fs treeDisk clusters.length 3 = some clusters ∧
        Deliveries (clusters.flatMap (clusterRecords s.fs treeDisk)) scan.2.2.2 := by
  intro s scan
  have hmount : (fat32Mount (some treeDevice) unmounted).1 = .ok := by decide +kernel
  have hscan := scanDirectory_delivers (Prod.ext hmount rfl) (SameVolume.refl s.fs)
    treeDevice_readable 3 (fun _ n outside => (if n = 1 then 1 else 0, n + 1, outside)) 0
  obtain ⟨clusters, hchain, -, -, hdeliveries, -⟩ := hscan.2.2 (by decide +kernel)
  exact ⟨by decide +kernel, clusters, hchain, hdeliveries⟩

end LevOS.Filesystem
