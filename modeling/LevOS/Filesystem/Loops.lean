import LevOS.Filesystem.Deliveries
import LevOS.Foundation.Orbits
import Mathlib.Order.Interval.Finset.Nat

/-!
# Cluster chains that come back

Neither `scan_directory` nor `fat32_read_file` remembers the clusters it has visited.
Both count them, and give up with `FAT32_ELOOP` when the count exceeds the number of
clusters of the volume: a chain that is as long as that has come back to a cluster. The
other way round, the scan of a directory that is a loop runs into the limit, unless a
record or the callback ends it before.

## Main definitions

* `Loops`, a chain that comes back to a cluster
* `Searches`, the directories that a path lookup scans

## Main results

* `scanDirectory_loops`, `fat32ReadFile_loops`, `scanDirectory_of_loops`
* `eloop_sound_and_complete`
-/

namespace LevOS.Filesystem

open LevOS.Drivers LevOS.Foundation

variable {ω γ : Type}

/-! ## Chains as trails -/

theorem chain_eq_trail (fs : Fat32Fs ω) (contents : Contents) (count : Nat) (cluster : UInt32) :
    chain fs contents count cluster = trail (link fs contents) count cluster := by
  fun_induction chain fs contents count cluster with
  | case1 => rfl
  | case2 => rfl
  | case3 count cluster ih =>
    rw [trail]
    congr 1
    funext next
    rw [ih]

theorem chain_valid {fs : Fat32Fs ω} {contents : Contents} {count : Nat} {cluster : UInt32}
    {clusters : List UInt32} (h : chain fs contents count cluster = some clusters)
    (hvalid : validCluster fs cluster = true) : ∀ c ∈ clusters, validCluster fs c = true := by
  rw [chain_eq_trail] at h
  exact trail_forall (fun _ _ _ hlink => (link_eq_some hlink).2.2) h hvalid

/-- A chain that comes back to a cluster it has been to. -/
def Loops (fs : Fat32Fs ω) (contents : Contents) (first : UInt32) : Prop :=
  validCluster fs first = true ∧
    ∃ count clusters, chain fs contents count first = some clusters ∧ ¬ clusters.Nodup

theorem Loops.of_sameVolume {fs fs' : Fat32Fs ω} {contents : Contents} {first : UInt32}
    (h : Loops fs contents first) (hsame : SameVolume fs fs') : Loops fs' contents first := by
  obtain ⟨hvalid, count, clusters, hchain, hback⟩ := h
  exact ⟨hsame.validCluster_eq first ▸ hvalid, count, clusters,
    (chain_of_sameVolume hsame ..).trans hchain, hback⟩

/-- A chain of more clusters than the volume has comes back. -/
theorem loops_of_chain {fs : Fat32Fs ω} {contents : Contents} {first : UInt32}
    (hvalid : validCluster fs first = true)
    (h : (chain fs contents (fs.clusterCount.toNat + 1) first).isSome) :
    Loops fs contents first := by
  obtain ⟨clusters, hchain⟩ := Option.isSome_iff_exists.mp h
  refine ⟨hvalid, _, clusters, hchain, fun hnodup => ?_⟩
  -- the numbers of valid clusters are as many as the volume has clusters
  have hrange : ∀ n ∈ clusters.map UInt32.toNat, n ∈ Finset.Ico 2 (fs.clusterCount.toNat + 2) := by
    intro n hn
    obtain ⟨c, hc, rfl⟩ := List.mem_map.mp hn
    obtain ⟨hlow, hhigh⟩ := (validCluster_iff fs c).mp (chain_valid hchain hvalid c hc)
    exact Finset.mem_Ico.mpr ⟨hlow, by omega⟩
  refine not_nodup_of_card_lt hrange ?_ (hnodup.map fun _ _ => UInt32.toNat_inj.mp)
  rw [chain_eq_trail] at hchain
  rw [Nat.card_Ico, List.length_map, trail_length hchain]
  omega

/-- A chain that comes back goes on forever. -/
theorem Loops.chain_isSome {fs : Fat32Fs ω} {contents : Contents} {first : UInt32}
    (h : Loops fs contents first) (count : Nat) : (chain fs contents count first).isSome := by
  obtain ⟨-, n, clusters, hchain, hback⟩ := h
  rw [chain_eq_trail] at hchain ⊢
  exact trail_isSome_of_not_nodup hchain hback count

/-! ## The verdict of the loops -/

theorem readSector_result (s : FsState ω) (sector : UInt32) :
    (readSector s sector).1 = .ok ∨ (readSector s sector).1 = .eio := by
  unfold readSector
  split
  · exact Or.inr rfl
  · split_ifs
    · exact Or.inr rfl
    · simp only
      split_ifs
      · exact Or.inl rfl
      · exact Or.inr rfl

theorem scanRecords_result (callback : DirCallback ω γ) (offsets : List Nat) (s : FsState ω)
    (context : γ) {result : Fat32Result}
    (h : (scanRecords callback offsets s context).1 = some result) : result = .ok := by
  induction offsets generalizing s context with
  | nil => cases h
  | cons offset offsets ih =>
    rw [scanRecords] at h
    simp only at h
    split_ifs at h with hend
    · exact (Option.some.inj h).symm
    · cases hentry : entryFromRaw fun i => s.fs.sectorBuffer (offset + i) with
      | none =>
        rw [hentry] at h
        exact ih s context h
      | some entry =>
        simp only [hentry] at h
        split_ifs at h
        · exact (Option.some.inj h).symm
        · exact ih _ _ h

theorem scanSectors_result (callback : DirCallback ω γ) (cluster : UInt32) (indices : List Nat)
    (s : FsState ω) (context : γ) {result : Fat32Result}
    (h : (scanSectors callback cluster indices s context).1 = some result) :
    result = .ok ∨ result = .eio := by
  induction indices generalizing s context with
  | nil => cases h
  | cons index indices ih =>
    rw [scanSectors] at h
    obtain ⟨read, s₁, hread⟩ : ∃ read s₁, readSector s (clusterSector s.fs cluster index) =
      (read, s₁) := ⟨_, _, rfl⟩
    rw [hread] at h
    cases read with
    | ok =>
      obtain ⟨stop, s₂, context₂, hrecords⟩ : ∃ stop s₂ context₂,
        scanRecords callback (recordOffsets s₁.fs.bytesPerSector) s₁ context =
          (stop, s₂, context₂) := ⟨_, _, _, rfl⟩
      simp only [hrecords] at h
      cases stop with
      | some code =>
        obtain rfl := Option.some.inj h
        exact Or.inl (scanRecords_result callback _ s₁ context (congrArg Prod.fst hrecords))
      | none => exact ih s₂ context₂ h
    | _ => exact Or.inr (Option.some.inj h).symm

theorem nextCluster_error {s s' : FsState ω} {cluster : UInt32} {result : Fat32Result}
    (h : nextCluster s cluster = (.error result, s')) : result = .ebadfs ∨ result = .eio := by
  have hresult := congrArg Prod.fst h
  unfold nextCluster decodeLink at hresult
  simp only at hresult
  split_ifs at hresult
  · exact Or.inl (Except.error.inj hresult).symm
  · exact Or.inl (Except.error.inj hresult).symm
  · exact Or.inl (Except.error.inj hresult).symm
  · split at hresult
    · split_ifs at hresult
      · exact Or.inl (Except.error.inj hresult).symm
      · exact Or.inl (Except.error.inj hresult).symm
    · exact Or.inr (Except.error.inj hresult).symm

section Answers

variable {device : BlockDevice ω} {total : Nat} {contents : Contents}

theorem chain_isSome_cons {fs : Fat32Fs ω} {cluster next : UInt32} {count : Nat}
    (hlink : link fs contents cluster = some next)
    (h : (chain fs contents (count + 1) next).isSome) :
    (chain fs contents (count + 2) cluster).isSome := by
  rw [chain, hlink, Option.bind_some, Option.isSome_map]
  exact h

/-- The cluster loop of a scan gives up only on a chain that is longer than its budget. -/
theorem scanClusters_eloop (hanswers : Answers device contents) (callback : DirCallback ω γ)
    {budget : Nat} {cluster : UInt32} {s : FsState ω} {context : γ}
    (g : Geometry s.fs device total) (hvalid : validCluster s.fs cluster = true)
    (h : (scanClusters callback budget cluster s context).1 = .eloop) :
    (chain s.fs contents (budget + 1) cluster).isSome := by
  induction budget generalizing cluster s context with
  -- the budget is used up: any chain has a first cluster
  | zero => rfl
  | succ budget ih =>
    rw [scanClusters, if_neg (by simp [hvalid])] at h
    have hsame := (scanSectors_confined callback (List.range s.fs.sectorsPerCluster.toNat) s context g
      hvalid fun _ => List.mem_range.mp).same
    obtain ⟨stop, s₁, context₁, hsectors⟩ : ∃ stop s₁ context₁, scanSectors callback cluster
      (List.range s.fs.sectorsPerCluster.toNat) s context = (stop, s₁, context₁) := ⟨_, _, _, rfl⟩
    rw [hsectors] at h hsame
    cases stop with
    | some result =>
      -- a scan that stops inside the cluster does not give up
      obtain rfl : result = .eloop := h
      rcases scanSectors_result callback cluster _ s context (congrArg Prod.fst hsectors) with
        hcode | hcode <;> cases hcode
    | none =>
      simp only at h hsame
      have g₁ := g.of_sameVolume hsame
      have hnext := nextCluster_confined g₁ cluster
      obtain ⟨next, s₂, hrun⟩ : ∃ next s₂, nextCluster s₁ cluster = (next, s₂) := ⟨_, _, rfl⟩
      rw [hrun] at h hnext
      cases next with
      | error result => cases h
      | ok next =>
        simp only at h
        split_ifs at h with hmarker
        -- the rest of the chain starts with the link just followed
        obtain ⟨-, hlink, -⟩ := (g₁.nextCluster_ok_iff hanswers
          (hsame.validCluster_eq cluster ▸ hvalid)).mp ⟨hrun, hmarker⟩
        rw [link_of_sameVolume hsame] at hlink
        have hsame₂ := hsame.trans hnext.same
        have hrest := ih (g.of_sameVolume hsame₂)
          (hsame₂.validCluster_eq next ▸ (link_eq_some hlink).2.2) h
        rw [chain_of_sameVolume hsame₂] at hrest
        exact chain_isSome_cons hlink hrest

/-- A scan gives up only on a chain that comes back to a cluster. -/
theorem scanDirectory_loops (hanswers : Answers device contents) (callback : DirCallback ω γ)
    {first : UInt32} {s : FsState ω} {context : γ} (g : Geometry s.fs device total)
    (h : (scanDirectory callback first s context).1 = .eloop) : Loops s.fs contents first := by
  rw [scanDirectory] at h
  split_ifs at h with hinvalid
  have hvalid : validCluster s.fs first = true := by simpa using hinvalid
  exact loops_of_chain hvalid (scanClusters_eloop hanswers callback g hvalid h)

theorem readSectors_result {cluster : UInt32} {indices : List Nat} {p p' : Progress ω}
    {result : Fat32Result} (h : readSectors cluster indices p = (some result, p')) :
    result = .eio := by
  induction indices generalizing p with
  | nil => cases h
  | cons index indices ih =>
    rw [readSectors] at h
    by_cases hdone : p.remaining = 0
    · rw [if_pos hdone] at h
      cases h
    rw [if_neg hdone] at h
    have hresult := readSector_result p.state (clusterSector p.state.fs cluster index)
    obtain ⟨read, s₁, hread⟩ : ∃ read s₁,
      readSector p.state (clusterSector p.state.fs cluster index) = (read, s₁) := ⟨_, _, rfl⟩
    rw [hread] at h hresult
    rcases hresult with rfl | rfl
    · exact ih h
    · exact (Option.some.inj (Prod.mk.inj h).1).symm

/-- The cluster loop of a file read gives up only on a chain longer than its budget. -/
theorem readClusters_eloop (hanswers : Answers device contents) {budget : Nat} {cluster : UInt32}
    {p : Progress ω} (g : Geometry p.state.fs device total)
    (hvalid : validCluster p.state.fs cluster = true)
    (h : (readClusters budget cluster p).1 = .eloop) :
    (chain p.state.fs contents (budget + 1) cluster).isSome := by
  induction budget generalizing cluster p with
  | zero => rfl
  | succ budget ih =>
    rw [readClusters] at h
    split_ifs at h
    have hsame := (readSectors_confined (List.range p.state.fs.sectorsPerCluster.toNat) p g hvalid
      fun _ => List.mem_range.mp).same
    obtain ⟨stop, p₁, hsectors⟩ : ∃ stop p₁, readSectors cluster
      (List.range p.state.fs.sectorsPerCluster.toNat) p = (stop, p₁) := ⟨_, _, rfl⟩
    rw [hsectors] at h hsame
    cases stop with
    | some result =>
      rw [readSectors_result hsectors] at h
      cases h
    | none =>
      simp only at h hsame
      split_ifs at h
      have g₁ := g.of_sameVolume hsame
      have hnext := nextCluster_confined g₁ cluster
      obtain ⟨next, s₂, hrun⟩ : ∃ next s₂, nextCluster p₁.state cluster = (next, s₂) := ⟨_, _, rfl⟩
      rw [hrun] at h hnext
      cases next with
      -- `next_cluster` has no verdict on loops of its own
      | error result =>
        obtain rfl : result = .eloop := h
        rcases nextCluster_error hrun with hcode | hcode <;> cases hcode
      | ok next =>
        simp only at h
        split_ifs at h with hmarker
        obtain ⟨-, hlink, -⟩ := (g₁.nextCluster_ok_iff hanswers
          (hsame.validCluster_eq cluster ▸ hvalid)).mp ⟨hrun, hmarker⟩
        rw [link_of_sameVolume hsame] at hlink
        have hsame₂ := hsame.trans hnext.same
        have hrest := ih (p := { p₁ with state := s₂ }) (g.of_sameVolume hsame₂)
          (hsame₂.validCluster_eq next ▸ (link_eq_some hlink).2.2) h
        rw [chain_of_sameVolume hsame₂] at hrest
        exact chain_isSome_cons hlink hrest

/-! ## Path lookup -/

/-- The walk over components from a directory, in a state, scans a certain directory. -/
inductive Searches : List (List UInt8) → UInt32 → FsState ω → UInt32 → Prop
  | here {part : List UInt8} (parts : List (List UInt8)) (directory : UInt32) (s : FsState ω) :
      namesEqual part dot = false → Searches (part :: parts) directory s directory
  | dot {part : List UInt8} {parts : List (List UInt8)} {directory searched : UInt32}
      {s : FsState ω} : namesEqual part dot = true → Searches parts directory s searched →
      Searches (part :: parts) directory s searched
  | deeper {part : List UInt8} {parts : List (List UInt8)} {directory searched : UInt32}
      {s s' : FsState ω} {find : FindContext} {entry : Dirent} : namesEqual part dot = false →
      scanDirectory findCallback directory s ⟨part, none⟩ = (.ok, s', find) →
      find.found = some entry → Searches parts entry.firstCluster s' searched →
      Searches (part :: parts) directory s searched

/-- A lookup gives up only on a directory it searches whose chain comes back. -/
theorem walk_loops (hanswers : Answers device contents) {parts : List (List UInt8)}
    {directory : UInt32} {s : FsState ω} (g : Geometry s.fs device total)
    (h : (walk parts directory s).1 = .error .eloop) :
    ∃ searched, Searches parts directory s searched ∧ Loops s.fs contents searched := by
  induction parts generalizing directory s with
  | nil =>
    rw [walk] at h
    split_ifs at h
    cases h
  | cons part parts ih =>
    rw [walk] at h
    by_cases hlong : 13 ≤ part.length
    · rw [if_pos hlong] at h
      cases h
    rw [if_neg hlong] at h
    by_cases hdot : namesEqual part dot = true
    · rw [if_pos hdot] at h
      obtain ⟨searched, hsearches, hloops⟩ := ih g h
      exact ⟨searched, .dot hdot hsearches, hloops⟩
    rw [if_neg hdot] at h
    have hsearch := Bool.eq_false_iff.mpr hdot
    have hsame := (scanDirectory_confined findCallback directory s ⟨part, none⟩ g).same
    obtain ⟨result, s', find, hscan⟩ : ∃ result s' find,
      scanDirectory findCallback directory s ⟨part, none⟩ = (result, s', find) := ⟨_, _, _, rfl⟩
    rw [hscan] at h hsame
    by_cases hok : result = .ok
    · subst hok
      cases hfound : find.found with
      | none =>
        simp only [hfound] at h
        cases h
      -- the search is done, so the loop is further down the path
      | some entry =>
        simp only [hfound] at h
        split_ifs at h
        · cases h
        · cases h
        · obtain ⟨searched, hsearches, hloops⟩ := ih (g.of_sameVolume hsame) h
          exact ⟨searched, .deeper hsearch hscan hfound hsearches, hloops.of_sameVolume hsame.symm⟩
    · -- any other failure of the search is passed on
      have hresult : result = .eloop := by
        cases result <;> simp_all
      subst hresult
      exact ⟨directory, .here parts directory s hsearch,
        scanDirectory_loops hanswers findCallback g (congrArg Prod.fst hscan)⟩

/-- A file read gives up only on a chain that comes back: that of a directory on its
path, or that of the file. -/
theorem fat32ReadFile_loops (hanswers : Answers device contents) {path : Option CString}
    {buffer : Option Buffer} {capacity : UInt32} {bytesRead : Option UInt32} {s : FsState ω}
    (g : Geometry s.fs device total)
    (h : (fat32ReadFile path buffer capacity bytesRead s).result = .eloop) :
    ∃ p ∈ path,
      (∃ directory, Searches (components p) s.fs.rootCluster s directory ∧
        Loops s.fs contents directory) ∨
      ∃ entry, (lookup p s).1 = .ok entry ∧ Loops s.fs contents entry.firstCluster := by
  cases bytesRead with
  | none => cases h
  | some count =>
  cases path with
  | none => cases h
  | some p =>
    refine ⟨p, rfl, ?_⟩
    have hsame := (lookup_confined p s g).same
    obtain ⟨found, s', hlookup⟩ : ∃ found s', lookup p s = (found, s') := ⟨_, _, rfl⟩
    rw [hlookup] at hsame
    simp only [fat32ReadFile, g.mounted, hlookup, Bool.true_eq_false, if_false] at h
    cases found with
    | error result =>
      simp only at h
      subst h
      -- the path is at fault
      rw [lookup_eq_walk] at hlookup
      exact Or.inl (walk_loops hanswers g (congrArg Prod.fst hlookup))
    | ok entry =>
      refine Or.inr ⟨entry, congrArg Prod.fst hlookup, ?_⟩
      simp only at h
      split_ifs at h with hdirectory hnull hcapacity hempty hinvalid
      cases buffer with
      | none => cases h
      | some bytes =>
        have hvalid : validCluster s'.fs entry.firstCluster = true := by simpa using hinvalid
        -- the file has the whole number of clusters as its budget
        have hloop {p' : Progress ω} (hrun : readClusters s'.fs.clusterCount.toNat entry.firstCluster
            ⟨s', bytes, 0, entry.size⟩ = (.eloop, p')) :
            Loops s'.fs contents entry.firstCluster :=
          loops_of_chain hvalid (readClusters_eloop hanswers (g.of_sameVolume hsame) hvalid
            (congrArg Prod.fst hrun))
        simp only at h
        split at h
        · cases h
        · rename_i result p' hfailed hrun
          obtain rfl : result = .eloop := h
          exact (hloop hrun).of_sameVolume hsame.symm

end Answers

/-! ## Directories that are loops -/

theorem link_isSome_of_chain {fs : Fat32Fs ω} {contents : Contents} {cluster : UInt32}
    (h : ∀ count, (chain fs contents count cluster).isSome) :
    ∃ next, link fs contents cluster = some next ∧
      ∀ count, (chain fs contents count next).isSome := by
  have htwo := h 2
  rw [chain] at htwo
  cases hlink : link fs contents cluster with
  | none => simp [hlink] at htwo
  | some next =>
    refine ⟨next, rfl, fun count => ?_⟩
    cases count with
    | zero => rfl
    | succ count =>
      -- two more clusters, since a chain of one cluster asks for no link
      have hmore := h (count + 2)
      rwa [chain, hlink, Option.bind_some, Option.isSome_map] at hmore

/-- The walk along a chain that goes on forever runs into its limit. -/
theorem directoryChain_eloop {fs : Fat32Fs ω} {contents : Contents} (budget : Nat) {cluster : UInt32}
    (h : ∀ count, (chain fs contents count cluster).isSome) :
    (directoryChain fs contents budget cluster).2 = .eloop := by
  induction budget generalizing cluster with
  | zero => rfl
  | succ budget ih =>
    obtain ⟨next, hlink, hrest⟩ := link_isSome_of_chain h
    rw [directoryChain, if_neg (not_end_of_link hlink), hlink]
    exact ih hrest

/-- Nothing stops a visit of records without an end record if the callback does not. -/
theorem Visits.goes_on {records : List Buffer} {context context' : γ} {stop : Bool}
    (h : Visits (fun _ _ status _ => status = 0) records context stop context')
    (hrecords : ∀ raw ∈ records, raw 0 ≠ 0) : stop = false := by
  induction h with
  | nil => rfl
  | terminator records context hend => exact absurd hend (hrecords _ List.mem_cons_self)
  | skip _ _ _ ih => exact ih fun raw hraw => hrecords raw (List.mem_cons_of_mem _ hraw)
  | stop _ _ _ hgoes hstatus => exact absurd hgoes hstatus
  | deliver _ _ _ _ ih => exact ih fun raw hraw => hrecords raw (List.mem_cons_of_mem _ hraw)

/-- A directory whose chain comes back, without an end record, makes a scan give up. -/
theorem scanDirectory_of_loops {device : BlockDevice ω} {total : Nat} {contents : Contents}
    (hreadable : Readable device contents) {callback : DirCallback ω γ}
    (hgoes : ∀ entry context outside, (callback entry context outside).1 = 0) {first : UInt32}
    {s : FsState ω} (g : Geometry s.fs device total) (hloops : Loops s.fs contents first)
    (hrecords : ∀ count clusters, chain s.fs contents count first = some clusters →
      ∀ raw ∈ clusters.flatMap (clusterRecords s.fs contents), raw 0 ≠ 0) (context : γ) :
    (scanDirectory callback first s context).1 = .eloop := by
  have hobeys : Obeys callback fun _ _ status _ => status = 0 := hgoes
  obtain ⟨stop, s', context', -, hvisits, hscan⟩ :=
    scanDirectory_visits hreadable hobeys s g hloops.1 context
  have hnone : ∀ raw ∈ directoryRecords s.fs contents first, raw 0 ≠ 0 := by
    obtain ⟨limit, hlimit⟩ := exists_clusterCount_eq hloops.1
    rw [directoryRecords, hlimit]
    exact hrecords _ _ (directoryChain_ends s.fs contents limit first).1
  -- no record ends the scan, so the chain decides
  rw [hscan, hvisits.goes_on hnone]
  exact directoryChain_eloop _ hloops.chain_isSome

/-- Loop verdicts: on a mounted volume with fixed contents, `FAT32_ELOOP` means that the
chain that was followed comes back to a cluster, whatever the callback does and whichever
reads fail. And a scan of a directory whose chain comes back, without an end record, gives
`FAT32_ELOOP` if all reads succeed and the callback never stops. -/
theorem eloop_sound_and_complete {device : BlockDevice ω} {contents : Contents}
    {s₀ s₁ s : FsState ω} (hmount : fat32Mount (some device) s₀ = (.ok, s₁))
    (hsame : SameVolume s₁.fs s.fs) (hanswers : Answers device contents) :
    (∀ (callback : DirCallback ω γ) (first : UInt32) (context : γ),
      (scanDirectory callback first s context).1 = .eloop → Loops s.fs contents first) ∧
    (∀ (path : Option CString) (buffer : Option Buffer) (capacity : UInt32)
      (bytesRead : Option UInt32),
      (fat32ReadFile path buffer capacity bytesRead s).result = .eloop → ∃ p ∈ path,
        (∃ directory, Searches (components p) s.fs.rootCluster s directory ∧
          Loops s.fs contents directory) ∨
        ∃ entry, (lookup p s).1 = .ok entry ∧ Loops s.fs contents entry.firstCluster) ∧
    (∀ (callback : DirCallback ω γ) (first : UInt32) (context : γ), Readable device contents →
      Loops s.fs contents first →
      (∀ count clusters, chain s.fs contents count first = some clusters →
        ∀ raw ∈ clusters.flatMap (clusterRecords s.fs contents), raw 0 ≠ 0) →
      (∀ entry context outside, (callback entry context outside).1 = 0) →
      (scanDirectory callback first s context).1 = .eloop) := by
  have g := (fat32Mount_ok hmount).1.of_sameVolume hsame
  refine ⟨fun callback first context => scanDirectory_loops hanswers callback g,
    fun path buffer capacity bytesRead => fat32ReadFile_loops hanswers g, ?_⟩
  intro callback first context hreadable hloops hrecords hgoes
  exact scanDirectory_of_loops hreadable hgoes g hloops hrecords context

/-! ### A volume with a ring

A volume of twelve sectors that starts the device: one reserved sector, one table sector
and ten clusters of one sector. Clusters three and four lead to each other; they hold
deleted records only. The root directory holds the directory `D` and the file `F`, which
both start in cluster three. -/

/-- The record of a file of three clusters. -/
def ringFileRecord (i : Nat) : UInt8 :=
  if i < 11 then [0x46].getD i 0x20 else if i = 26 then 3 else if i = 29 then 6 else 0

/-- The contents of the disk, zero where nothing is listed. -/
def ringDisk (sector : UInt32) : Buffer := fun i =>
  match sector.toNat, i with
  | 0, i => treeDisk 0 i
  | 1, 8 => 0xFF
  | 1, 9 => 0xFF
  | 1, 10 => 0xFF
  | 1, 11 => 0x0F
  | 1, 12 => 4
  | 1, 16 => 3
  | 2, i => if i < 32 then directoryRecord [0x44] 3 i
      else if i < 64 then ringFileRecord (i - 32) else 0
  | 3, _ => 0xE5
  | 4, _ => 0xE5
  | _, _ => 0

/-- A device of twelve sectors that always answers with the disk's contents. -/
def ringDevice : BlockDevice Unit := faultyDevice 512 12 ringDisk fun _ => false

/-- The clusters of the ring hold no end record. -/
theorem ringDisk_records {fs : Fat32Fs ω} {count : Nat} {clusters : List UInt32}
    (hlinks : link fs ringDisk 3 = some 4 ∧ link fs ringDisk 4 = some 3)
    (hsectors : ∀ index < fs.sectorsPerCluster.toNat,
      dataSector fs 3 index = 3 ∧ dataSector fs 4 index = 4)
    (hchain : chain fs ringDisk count 3 = some clusters) :
    ∀ raw ∈ clusters.flatMap (clusterRecords fs ringDisk), raw 0 ≠ 0 := by
  rw [chain_eq_trail] at hchain
  have hring : ∀ a b, a = 3 ∨ a = 4 → link fs ringDisk a = some b → b = 3 ∨ b = 4 := by
    rintro a b (rfl | rfl) hlink
    · exact Or.inr (Option.some.inj (hlink.symm.trans hlinks.1))
    · exact Or.inl (Option.some.inj (hlink.symm.trans hlinks.2))
  have hclusters := trail_forall hring hchain (Or.inl rfl)
  intro raw hraw
  obtain ⟨cluster, hcluster, hraw⟩ := List.mem_flatMap.mp hraw
  obtain ⟨index, hindex, hraw⟩ := List.mem_flatMap.mp hraw
  obtain ⟨offset, -, rfl⟩ := List.mem_map.mp hraw
  obtain ⟨hthree, hfour⟩ := hsectors index (List.mem_range.mp hindex)
  rcases hclusters cluster hcluster with rfl | rfl
  · rw [hthree]
    exact (by decide : (0xE5 : UInt8) ≠ 0)
  · rw [hfour]
    exact (by decide : (0xE5 : UInt8) ≠ 0)

/-- The directory `D` of the volume with a ring is recognised as a loop. -/
theorem eloop_sound_and_complete_ring :
    let s := (fat32Mount (some ringDevice) unmounted).2
    (scanDirectory (fun _ n outside => (0, n + 1, outside)) 3 s 0).1 = .eloop ∧
      Loops s.fs ringDisk 3 := by
  intro s
  have hmount : (fat32Mount (some ringDevice) unmounted).1 = .ok := by decide +kernel
  have hreadable : Readable ringDevice ringDisk := faultyDevice_readable (by decide) 12 ringDisk
  obtain ⟨hsound, -, hcomplete⟩ := eloop_sound_and_complete (Prod.ext hmount rfl)
    (SameVolume.refl s.fs) hreadable.answers
  have hloops : Loops s.fs ringDisk 3 :=
    ⟨by decide +kernel, 3, [3, 4, 3], by decide +kernel, by decide⟩
  have hscan := hcomplete (fun _ n outside => (0, n + 1, outside)) 3 0 hreadable hloops
    (fun _ _ => ringDisk_records (by decide +kernel) (by decide +kernel)) fun _ _ _ => rfl
  exact ⟨hscan, hsound _ 3 0 hscan⟩

end LevOS.Filesystem
