import LevOS.Filesystem.Volume

/-!
# FAT32 directories: names, records and path lookup

The name handling, directory scan and path resolution of `fat32.c`. A path is a
NUL-terminated string; a name rebuilt from a directory record may contain
further NUL bytes, at which the comparison of names stops.

## Main definitions

* `CString`, a NUL-terminated string
* `component`, `namesEqual`, `entryFromRaw`, the pieces of a path and of a record
* `scanDirectory`, the walk over a directory's records with a callback
* `lookup`, `fat32ListDirectory`
-/

namespace LevOS.Filesystem

open LevOS.Drivers

variable {ω γ : Type}

/-! ## Strings -/

/-- A NUL-terminated string: its characters before the terminator. -/
structure CString where
  chars : List UInt8
  noNul : 0 ∉ chars

/-- The byte at an index of a string; the terminator is the first zero. -/
def CString.at (text : CString) (i : Nat) : UInt8 := text.chars.getD i 0

theorem CString.at_eq_zero_iff (text : CString) (i : Nat) :
    text.at i = 0 ↔ text.chars.length ≤ i := by
  unfold CString.at
  constructor
  · intro h
    by_contra hlt
    rw [not_le] at hlt
    rw [List.getD_eq_getElem _ _ hlt] at h
    exact text.noNul (h ▸ List.getElem_mem hlt)
  · intro h
    rw [List.getD_eq_default _ _ h]

/-- The path separators `/` and `\`. -/
def isSeparator (c : UInt8) : Bool := c == 0x2F || c == 0x5C

theorem CString.lt_of_isSeparator {text : CString} {i : Nat}
    (h : isSeparator (text.at i) = true) : i < text.chars.length := by
  by_contra hge
  rw [(text.at_eq_zero_iff i).mpr (not_lt.mp hge)] at h
  exact absurd h (by decide)

theorem CString.lt_of_at_ne_zero {text : CString} {i : Nat} (h : text.at i ≠ 0) :
    i < text.chars.length :=
  not_le.mp fun hge => h ((text.at_eq_zero_iff i).mpr hge)

/-- The case folding shared by `uppercase` and `names_equal`. -/
def upperChar (c : UInt8) : UInt8 :=
  if 0x61 ≤ c ∧ c ≤ 0x7A then c - 0x61 + 0x41 else c

/-- `uppercase`. -/
def uppercase (text : List UInt8) : List UInt8 := text.map upperChar

/-- `names_equal`, on the bytes before each terminator. -/
def namesEqual : List UInt8 → List UInt8 → Bool
  | [], [] => true
  | a :: _, [] => a == 0
  | [], b :: _ => b == 0
  | a :: as, b :: bs =>
    if a = 0 ∨ b = 0 then a == b
    else if upperChar a ≠ upperChar b then false
    else namesEqual as bs

/-! ## Path components -/

/-- The loops `while (path[p] == '/' || path[p] == '\\') ++p`. -/
def skipSeparators (path : CString) (p : Nat) : Nat :=
  if h : isSeparator (path.at p) = true then skipSeparators path (p + 1) else p
termination_by path.chars.length - p
decreasing_by
  have := CString.lt_of_isSeparator h
  omega

/-- The copy loop of `component`; `none` is the return on an overlong piece. -/
def copyComponent (path : CString) (p : Nat) (out : List UInt8) :
    Option (List UInt8 × Nat) :=
  if _stop : path.at p = 0 ∨ isSeparator (path.at p) = true then some (out, p)
  else if nameSize - 1 ≤ out.length then none
  else copyComponent path (p + 1) (out ++ [path.at p])
termination_by path.chars.length - p
decreasing_by
  have := CString.lt_of_at_ne_zero (not_or.mp _stop).1
  omega

/-- The three returns of `component`: `-1`, `0` with the new position, and `1`
with the piece and the new position. -/
inductive Component
  | overlong
  | absent (position : Nat)
  | present (part : List UInt8) (position : Nat)
  deriving DecidableEq, Repr

/-- `component`: the next piece of the path at or after `position`. -/
def component (path : CString) (position : Nat) : Component :=
  let p := skipSeparators path position
  if path.at p = 0 then .absent p
  else
    match copyComponent path p [] with
    | none => .overlong
    | some (out, p') => .present (uppercase out) p'

theorem le_skipSeparators (path : CString) (p : Nat) : p ≤ skipSeparators path p := by
  fun_induction skipSeparators path p with
  | case1 p h ih => omega
  | case2 p h => exact le_rfl

theorem isSeparator_skipSeparators (path : CString) (p : Nat) :
    isSeparator (path.at (skipSeparators path p)) = false := by
  fun_induction skipSeparators path p with
  | case1 p h ih => exact ih
  | case2 p h => exact Bool.eq_false_iff.mpr h

theorem le_of_copyComponent (path : CString) (p : Nat) (out : List UInt8)
    {out' : List UInt8} {p' : Nat} (h : copyComponent path p out = some (out', p')) :
    p ≤ p' := by
  fun_induction copyComponent path p out with
  | case1 p out hstop =>
    obtain ⟨-, rfl⟩ := Prod.mk.inj (Option.some.inj h)
    exact le_rfl
  | case2 p out hstop hlong => cases h
  | case3 p out hstop hlong ih => exact (Nat.le_succ p).trans (ih h)

/-- A piece that is present moves the position strictly forward. -/
theorem lt_of_component_present {path : CString} {position position' : Nat}
    {part : List UInt8} (h : component path position = .present part position') :
    position < position' ∧ position < path.chars.length := by
  have hskip := le_skipSeparators path position
  unfold component at h
  simp only at h
  split_ifs at h with hend
  have hlt := CString.lt_of_at_ne_zero hend
  split at h
  · cases h
  · rename_i out p' hcopy
    obtain ⟨-, rfl⟩ := Component.present.inj h
    -- the first byte of the piece is neither the terminator nor a separator
    have hstop : ¬ (path.at (skipSeparators path position) = 0 ∨
        isSeparator (path.at (skipSeparators path position)) = true) := by
      rw [isSeparator_skipSeparators]
      simp [hend]
    rw [copyComponent, dif_neg hstop, if_neg (by decide)] at hcopy
    have hle := le_of_copyComponent _ _ _ hcopy
    omega

/-! ## Directory records -/

/-- `fat32_dirent_t`, with the name as the bytes written before its terminator. -/
structure Dirent where
  name : List UInt8
  attributes : UInt8
  size : UInt32
  firstCluster : UInt32
  deriving DecidableEq, Repr

/-- The loops `while (end > low && raw[end - 1] == ' ') --end`. -/
def trimEnd (raw : Buffer) (low : Nat) : Nat → Nat
  | 0 => 0
  | e + 1 => if low < e + 1 ∧ raw e = 0x20 then trimEnd raw low e else e + 1

/-- `entry_from_raw`: decode one 32-byte record, or reject it. -/
def entryFromRaw (raw : Buffer) : Option Dirent :=
  if raw 0 = 0x00 ∨ raw 0 = 0xE5 ∨ raw 11 = 0x0F ∨ raw 11 &&& 0x08 ≠ 0 then none
  else
    let baseEnd := trimEnd raw 0 8
    let extEnd := trimEnd raw 8 11
    let base := (List.range baseEnd).map raw
    let ext := if 8 < extEnd then 0x2E :: (List.range' 8 (extEnd - 8)).map raw else []
    some
      { name := base ++ ext
        attributes := raw 11
        size := fat32 raw 28
        firstCluster := (fat16 raw 20).toUInt32 <<< 16 ||| (fat16 raw 26).toUInt32 }

/-- A directory callback: it sees the entry and its own context, and may act on
the outside world, but not on the file system object. -/
abbrev DirCallback (ω γ : Type) := Dirent → γ → ω → Int × γ × ω

/-! ## Scanning a directory -/

/-- The record loop of `scan_directory` over the sector in the buffer. It gives
the value returned from the function, or nothing when the loop runs out. -/
def scanRecords (callback : DirCallback ω γ) :
    List Nat → FsState ω → γ → Option Fat32Result × FsState ω × γ
  | [], s, context => (none, s, context)
  | offset :: offsets, s, context =>
    let raw : Buffer := fun i => s.fs.sectorBuffer (offset + i)
    if raw 0 = 0x00 then (some .ok, s, context)
    else
      match entryFromRaw raw with
      | none => scanRecords callback offsets s context
      | some entry =>
        match callback entry context s.bus.outside with
        | (stop, context', outside') =>
          let s' : FsState ω := ⟨s.fs, { s.bus with outside := outside' }⟩
          if stop ≠ 0 then (some .ok, s', context')
          else scanRecords callback offsets s' context'

/-- The offsets `0, 32, ..` with `entry_offset + 32 <= bytes_per_sector`. -/
def recordOffsets (bytesPerSector : UInt32) : List Nat :=
  (List.range (bytesPerSector.toNat / 32)).map (32 * ·)

/-- The sector loop of `scan_directory` over one cluster. -/
def scanSectors (callback : DirCallback ω γ) (cluster : UInt32) :
    List Nat → FsState ω → γ → Option Fat32Result × FsState ω × γ
  | [], s, context => (none, s, context)
  | index :: indices, s, context =>
    match readSector s (clusterSector s.fs cluster index) with
    | (.ok, s') =>
      match scanRecords callback (recordOffsets s'.fs.bytesPerSector) s' context with
      | (some result, s'', context') => (some result, s'', context')
      | (none, s'', context') => scanSectors callback cluster indices s'' context'
    | (_, s') => (some .eio, s', context)

/-- The cluster loop of `scan_directory`. The budget is `cluster_count - visited`:
the loop gives up once the visits would exceed the number of clusters. -/
def scanClusters (callback : DirCallback ω γ) :
    Nat → UInt32 → FsState ω → γ → Fat32Result × FsState ω × γ
  | 0, cluster, s, context =>
    (if validCluster s.fs cluster then .eloop else .ebadfs, s, context)
  | budget + 1, cluster, s, context =>
    if validCluster s.fs cluster = false then (.ebadfs, s, context)
    else
      match scanSectors callback cluster (List.range s.fs.sectorsPerCluster.toNat) s context with
      | (some result, s', context') => (result, s', context')
      | (none, s', context') =>
        match nextCluster s' cluster with
        | (.error _, s'') => (.ebadfs, s'', context')
        | (.ok next, s'') =>
          if next = endMarker then (.ok, s'', context')
          else scanClusters callback budget next s'' context'

/-- `scan_directory`. -/
def scanDirectory (callback : DirCallback ω γ) (firstCluster : UInt32) (s : FsState ω)
    (context : γ) : Fat32Result × FsState ω × γ :=
  if validCluster s.fs firstCluster = false then (.ebadfs, s, context)
  else scanClusters callback s.fs.clusterCount.toNat firstCluster s context

/-! ## Path lookup -/

/-- `find_context_t`: the wanted name and the entry found so far. -/
structure FindContext where
  target : List UInt8
  found : Option Dirent
  deriving DecidableEq, Repr

/-- `find_callback`. -/
def findCallback : DirCallback ω FindContext := fun entry find outside =>
  if namesEqual entry.name find.target then (1, { find with found := some entry }, outside)
  else (0, find, outside)

/-- The entry `lookup` makes up for a path without components. -/
def directoryEntry (directory : UInt32) : Dirent where
  name := []
  attributes := 0x10
  size := 0
  firstCluster := directory

/-- The string `"."`. -/
def dot : List UInt8 := [0x2E]

/-- The loop of `lookup` from a position of the path inside a directory. -/
def lookupFrom (path : CString) (position : Nat) (directory : UInt32) (s : FsState ω) :
    Except Fat32Result Dirent × FsState ω :=
  match _piece : component path position with
  | .overlong => (.error .einval, s)
  | .absent position' =>
    if position' = 0 ∨ directory = s.fs.rootCluster then (.ok (directoryEntry directory), s)
    else (.error .enotfound, s)
  | .present part position' =>
    if namesEqual part dot then lookupFrom path position' directory s
    else
      match scanDirectory findCallback directory s ⟨part, none⟩ with
      | (.ok, s', find) =>
        match find.found with
        | none => (.error .enotfound, s')
        | some entry =>
          let position'' := skipSeparators path position'
          if path.at position'' ≠ 0 then
            if entry.attributes &&& 0x10 = 0 then (.error .enotdir, s')
            else if validCluster s'.fs entry.firstCluster = false then (.error .ebadfs, s')
            else lookupFrom path position'' entry.firstCluster s'
          else (.ok entry, s')
      | (result, s', _) => (.error result, s')
termination_by path.chars.length - position
decreasing_by
  · have := lt_of_component_present _piece
    omega
  · have := lt_of_component_present _piece
    have := le_skipSeparators path position'
    omega

/-- `lookup`: resolve a path from the root directory. -/
def lookup (path : CString) (s : FsState ω) : Except Fat32Result Dirent × FsState ω :=
  lookupFrom path 0 s.fs.rootCluster s

/-- The path `"/"`. -/
def rootPath : CString := ⟨[0x2F], by decide⟩

/-- `fat32_list_directory`. A missing callback or path is a null pointer. -/
def fat32ListDirectory (path : Option CString) (callback : Option (DirCallback ω γ))
    (s : FsState ω) (context : γ) : Fat32Result × FsState ω × γ :=
  match callback with
  | none => (.einval, s, context)
  | some callback =>
    if s.fs.mounted = false then (.ebadfs, s, context)
    else
      match lookup (path.getD rootPath) s with
      | (.error result, s') => (result, s', context)
      | (.ok entry, s') =>
        if entry.attributes &&& 0x10 = 0 then (.enotdir, s', context)
        else scanDirectory callback entry.firstCluster s' context

end LevOS.Filesystem
