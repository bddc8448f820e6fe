import LevOS.Filesystem.Catalogue
import LevOS.Shell.Dialogue

/-!
# What the shell shows of a disk

On a drive without faults `ls` and `cat` show what is on the disk. The volume is mounted once,
and the dialogue about it goes on as if the disk were a catalogue: which entries a line lists
and which bytes it shows does not depend on the lines before it.

## Main definitions

* `imageBoard`, the shell on an image
* `listingText`, `fileRows`, what is shown of a directory and of a file

## Main results

* `Dialogue.run_volume`, no line changes the volume
* `shell_contents`
-/

namespace LevOS

open LevOS.Drivers LevOS.Filesystem LevOS.Foundation

variable {leap : Nat → Nat → Bool} {ω : Type}

/-! ## The volume -/

namespace Dialogue

section

variable {b : Board ω} {device : BlockDevice ω} {total : Nat}

theorem say_volume (d : Dialogue leap ω) (text : List UInt8) :
    SameVolume d.files.fs (d.say text).files.fs :=
  SameVolume.refl _

theorem obey_volume (d : Dialogue leap ω) (g : Geometry d.files.fs device total) (order : Order) :
    SameVolume d.files.fs (d.obey b order).files.fs := by
  cases order with
  | ls path =>
    exact (fat32ListDirectory_confined (some path) (some (keeping fun _ _ => 0)) d.files [] g).same
  | cat path =>
    have hsame := (fat32ReadFile_confined (some path) (some fun _ => 0) 32768 (some 0) d.files g).same
    simp only [obey]
    split_ifs <;> exact hsame
  | clear => exact say_volume { d with rows := ⟨[], []⟩ } titleText
  | clock => exact say_volume { d with cmos := (LevOS.clock b.ticks d.cmos).2 } _
  | _ => exact d.say_volume _

theorem receive_volume (d : Dialogue leap ω) (g : Geometry d.files.fs device total) (c : UInt8) :
    SameVolume d.files.fs (d.receive b c).files.fs := by
  rw [receive]
  split_ifs
  · exact SameVolume.refl _
  · exact (d.say [10]).obey_volume g (orderOf d.line)
  · exact SameVolume.refl _
  · exact SameVolume.refl _
  · exact SameVolume.refl _
  · exact SameVolume.refl _

/-- Whatever is typed, the volume stays as it was mounted. -/
theorem run_volume (d : Dialogue leap ω) (g : Geometry d.files.fs device total)
    (keys : List UInt8) : SameVolume d.files.fs (d.run b keys).files.fs := by
  induction keys generalizing d with
  | nil => exact SameVolume.refl _
  | cons c keys ih =>
    have hsame := d.receive_volume (b := b) g c
    exact hsame.trans (ih (d.receive b c) (g.of_sameVolume hsame))

end

end Dialogue

/-! ## The image of a drive -/

/-- The shell on a disk whose sectors can all be read. -/
def imageBoard (setup : Setup) (sectorCount : UInt32) (bytes : UInt32 → Buffer) : Board Unit where
  toSetup := setup
  device := image sectorCount bytes
  present _ := true
  lastError _ := 0

section

variable {σ : Type} (drive : IdentifyingDrive σ) {h : σ}

theorem driveBoard_alike_image (hbusy : drive.busy h = 0) (hphase : drive.phase h = .idle)
    (hflawless : ∀ sector, drive.readable sector = true) (setup : Setup) :
    (ataBoard setup drive.toPorts h).Alike (OnImage drive)
      (imageBoard setup drive.capacity drive.bytes) where
  device := (driveBoard_alike drive hbusy hphase setup).device.trans
    (disk_simulates_image drive.capacity drive.bytes hflawless)
  present := by
    rintro bus bus' ⟨middle, hbus, -⟩
    exact (driveBoard_alike drive hbusy hphase setup).present bus middle hbus
  lastError bus bus' hbus := OnImage.lastError drive hbus
  setup := rfl

end

/-! ## Directories and files -/

/-- What is shown of a listing. -/
def listingText (fs : Fat32Fs ω) (contents : Contents) (path : CString) : List UInt8 :=
  let (result, entries) := Catalogue.listing fs contents path
  entries.flatMap Dialogue.entryText ++
    if result = .ok then [] else charactersOf ("filesystem: " ++ fat32ResultString result)

/-- What is shown of a file, which may take characters back. -/
def fileRows (fs : Fat32Fs ω) (contents : Contents) (path : CString) (r : Rows) : Rows :=
  let (result, bytes) := Catalogue.read fs contents path true 32768
  if result = .ok then bytes.foldl Rows.type r
  else (charactersOf ("filesystem: " ++ fat32ResultString result)).foldl Rows.place r

namespace Dialogue

section

variable {b : Board ω} {contents : Contents} {total : Nat} {d : Dialogue leap ω} {fs : Fat32Fs ω}

theorem obey_ls (hreadable : Readable b.device contents)
    (g : Geometry d.files.fs b.device total) (hsame : SameVolume fs d.files.fs) (path : CString) :
    (d.obey b (.ls path)).rows = (listingText fs contents path).foldl Rows.place d.rows := by
  obtain ⟨s', hexec, -⟩ :=
    (Catalogue.Query.list (some path) (some fun _ _ => 0)).exec_reply hreadable d.files g
  have hresult := Catalogue.list_ne_eio d.files.fs contents path fun _ _ => 0
  have hlisting := Catalogue.list_eq_listing d.files.fs contents path
  rw [Catalogue.listing_of_sameVolume hsame] at hlisting
  simp only [Catalogue.Query.call, Catalogue.reply, Option.getD_some, hlisting] at hexec hresult
  simp only [obey, hexec, say, listingText, errorText, if_neg hresult, List.append_nil]

theorem obey_cat (hreadable : Readable b.device contents)
    (g : Geometry d.files.fs b.device total) (hsame : SameVolume fs d.files.fs) (path : CString) :
    (d.obey b (.cat path)).rows = fileRows fs contents path d.rows := by
  obtain ⟨s', hexec, -⟩ :=
    (Catalogue.Query.read (some path) (some fun _ => 0) 32768 (some 0)).exec_reply hreadable d.files g
  have hresult := Catalogue.read_ne_eio d.files.fs contents path true 32768
  have hlength := Catalogue.length_read d.files.fs contents path true 32768
  simp only [Catalogue.Query.call, Catalogue.reply, Option.isSome_some,
    Catalogue.read_of_sameVolume hsame, Option.map_some] at hexec hresult hlength
  simp only [obey, hexec, say, fileRows]
  split_ifs with hok
  · have hcount : (UInt32.ofNat (Catalogue.read fs contents path true 32768).2.length).toNat =
        (Catalogue.read fs contents path true 32768).2.length := by
      have hfits := hlength hok
      simp at hfits
      rw [UInt32.toNat_ofNat', Nat.mod_eq_of_lt (by omega)]
    simp only [Option.getD_some, hcount]
    rw [map_overlay_range]
  · simp only [errorText, if_neg hresult, List.append_nil]

end

end Dialogue

/-! ## The shell -/

/-- On a drive without faults and of known capacity whose volume has been mounted, a line shows
what is on the disk, whatever lines have been given before it: `ls` shows the entries of the directory that its path
leads to, in their order and up to the end record, and `cat` the bytes of the file; where the
path leads nowhere both show why. Behind it stands the prompt. -/
theorem shell_contents {σ : Type} (drive : IdentifyingDrive σ) {h : σ} (hbusy : drive.busy h = 0)
    (hphase : drive.phase h = .idle) (hflawless : ∀ sector, drive.readable sector = true)
    (hknown : drive.capacity ≠ 0) {v : FsState Unit}
    (hmount : fat32Mount (some (image drive.capacity drive.bytes)) pristine = (.ok, v))
    (setup : Setup) (cmos : Cmos leap) (t : Terminal) (keys : List UInt8) :
    let b := ataBoard setup drive.toPorts h
    let s := (Session.boot b (detected drive.toPorts h) cmos t).run b keys
    ∃ rows, s.terminal.ShowsText rows ∧
      (∀ path, orderOf s.line = .ls path →
        (s.receive b 10).terminal.ShowsText
          ((10 :: listingText v.fs drive.bytes path ++ charactersOf "\n> ").foldl Rows.place rows)) ∧
      ∀ path, orderOf s.line = .cat path →
        (s.receive b 10).terminal.ShowsText
          ((charactersOf "\n> ").foldl Rows.place
            (fileRows v.fs drive.bytes path (rows.place 10))) := by
  intro b s
  let b' := imageBoard setup drive.capacity drive.bytes
  have hb := driveBoard_alike_image drive hbusy hphase hflawless setup
  have hreadable := image_readable hknown drive.capacity_le drive.bytes
  have hshows := (Session.boot_shows hb (detected_matches_pristine drive hbusy hphase) cmos t).run
    hb keys
  have hstart : (Dialogue.boot b' pristine cmos).files = v := congrArg Prod.snd hmount
  generalize Dialogue.boot b' pristine cmos = d₀ at hshows hstart
  -- the volume that was mounted is the one the line finds
  have g : Geometry d₀.files.fs b'.device _ := hstart ▸ (fat32Mount_ok hmount).1
  have hsame := d₀.run_volume (b := b') g keys
  have g' := g.of_sameVolume hsame
  rw [hstart] at hsame
  have hanswer := hshows.receive hb 10
  generalize d₀.run b' keys = d at hshows hsame g' hanswer
  have hrows : (d.receive b' 10).rows =
      (charactersOf "\n> ").foldl Rows.place ((d.say [10]).obey b' (orderOf d.line)).rows := rfl
  have hscreen := hanswer.screen
  rw [hrows, ← hshows.line] at hscreen
  refine ⟨d.rows, hshows.screen, fun path horder => ?_, fun path horder => ?_⟩
  · rw [horder, Dialogue.obey_ls (d := d.say [10]) hreadable g' hsame path] at hscreen
    rw [List.cons_append, List.foldl_cons, List.foldl_append]
    exact hscreen
  · rw [horder, Dialogue.obey_cat (d := d.say [10]) hreadable g' hsame path] at hscreen
    exact hscreen

/-- A drive of twelve sectors with the sample tree. -/
def smallDrive : IdentifyingDrive (Latches × Phase) :=
  promptIdentifyingDrive
    (fun page i =>
      if page = identifyPage then if i = 60 then 12 else 0 else diskWords treeDisk page i)
    fun _ => true

/-- Some keys, the second of which is taken back, ask for the sample tree, which is listed. -/
theorem shell_contents_tree :
    let b := ataBoard ⟨fun _ => false, 0x1234, fun _ => 0, 0⟩ smallDrive.toPorts
      (⟨0, 0, 0, 0, 0⟩, .idle)
    let s := (Session.boot b (detected smallDrive.toPorts (⟨0, 0, 0, 0, 0⟩, .idle)) newYear
      ⟨0, 0, ⟨fun _ => 0, []⟩, 0⟩).run b [108, 108, 8, 115]
    ∃ rows, s.terminal.ShowsText rows ∧ (s.receive b 10).terminal.ShowsText
      ((charactersOf "\nD/\n\n> ").foldl Rows.place rows) := by
  intro b s
  let volume := (fat32Mount (some (image smallDrive.capacity smallDrive.bytes)) pristine).2
  have hmount : fat32Mount (some (image smallDrive.capacity smallDrive.bytes)) pristine =
      (.ok, volume) := Prod.ext (by decide +kernel) rfl
  obtain ⟨rows, hscreen, hls, -⟩ := shell_contents smallDrive (h := (⟨0, 0, 0, 0, 0⟩, .idle)) rfl rfl
    (fun _ => rfl) (by decide +kernel) hmount ⟨fun _ => false, 0x1234, fun _ => 0, 0⟩ newYear
    ⟨0, 0, ⟨fun _ => 0, []⟩, 0⟩ [108, 108, 8, 115]
  have hb := driveBoard_alike_image smallDrive (h := (⟨0, 0, 0, 0, 0⟩, .idle)) rfl rfl
    (fun _ => rfl) ⟨fun _ => false, 0x1234, fun _ => 0, 0⟩
  have hstart := detected_matches_pristine smallDrive (h := (⟨0, 0, 0, 0, 0⟩, .idle)) rfl rfl
  have hshows := (Session.boot_shows hb hstart newYear ⟨0, 0, ⟨fun _ => 0, []⟩, 0⟩).run hb
    [108, 108, 8, 115]
  have hline : s.line = [108, 115] := hshows.line.trans (by decide +kernel)
  have horder : orderOf [108, 115] = .ls rootPath := by
    unfold orderOf
    simp only
    rw [if_neg (by decide +kernel), if_neg (by decide +kernel), if_neg (by decide +kernel),
      if_neg (by decide +kernel), if_neg (by decide +kernel), if_neg (by decide +kernel),
      if_pos (by decide +kernel), if_pos (by decide +kernel)]
  have htree : listingText volume.fs smallDrive.bytes rootPath = charactersOf "D/\n" := by
    decide +kernel
  have hanswer := hls rootPath (hline ▸ horder)
  have htext : 10 :: charactersOf "D/\n" ++ charactersOf "\n> " = charactersOf "\nD/\n\n> " := by
    decide +kernel
  rw [htree, htext] at hanswer
  simp only [s, b]
  exact ⟨rows, hscreen, hanswer⟩

end LevOS
