import StagedBuild.Proofs.Action.Directories
import StagedBuild.Proofs.Archive.Local
import StagedBuild.Proofs.NativeLibrary.ManifestFile
import StagedBuild.Text.Encoded

/-!
Filling the directory of a copy: its members, its manifest and last its marker. All that is written
goes below the directory, and the directory is new, so what it holds in the end is settled by the
bytes of the archive.
-/

namespace StagedBuild.NativeLibrary

open Action FileTree Disk Manifest

variable {around : Surroundings} {w w' : World} {lib : Path} {t t' : FileTree}
  {archive : List UInt8}

/-- The name of the marker in a copy. -/
def markerName : String := "jarhash"

theorem isEntryName_markerName : isEntryName markerName = true := by
  decide

theorem not_isSourceWay_fileName : ¬ IsSourceWay [fileName] := fun h =>
  absurd h.2.2 (by decide)

theorem not_isSourceWay_markerName : ¬ IsSourceWay [markerName] := fun h =>
  absurd h.2.2 (by decide)

theorem decode16_hexText (bytes : List UInt8) : Text.decode16 (Digest.hexText bytes) = bytes := by
  have hbyte : ∀ b : UInt8, (Text.hexDigits 2 b.toNat).filterMap Text.digit16? =
      [b.toNat / 16, b.toNat % 16] := by
    intro b
    have hall : ∀ n < 256, (Text.hexDigits 2 n).filterMap Text.digit16? = [n / 16, n % 16] := by
      decide +kernel
    exact hall b.toNat b.toNat_lt
  unfold Text.decode16 Digest.hexText
  rw [String.toList_ofList]
  induction bytes with
  | nil => rfl
  | cons b bytes ih =>
      rw [List.flatMap_cons, List.filterMap_append, hbyte, List.cons_append, List.cons_append,
        List.nil_append, Text.bytes16, ih, Nat.mul_comm, Nat.div_add_mod, UInt8.ofNat_toNat]

/-- What the marker holds. -/
def markingOf (archive : List UInt8) : List UInt8 :=
  Text.encode (Digest.hexText (Digest.sha256 archive))

/-- A marker tells archives apart as far as their digests do. -/
theorem sha256_eq_of_markingOf_eq {other : List UInt8} (h : markingOf archive = markingOf other) :
    Digest.sha256 archive = Digest.sha256 other := by
  have hdecoded := congrArg Text.decode? h
  rw [markingOf, markingOf, Text.decode?_encode, Text.decode?_encode, Option.some.injEq] at hdecoded
  rw [← decode16_hexText (Digest.sha256 archive), hdecoded, decode16_hexText]

/-- Extracts all members of an archive. -/
def pour (lib : Path) (archive : List UInt8) : Action Unit := do
  let all ← Action.ofExcept id (Archive.members archive)
  Archive.extractMembers archive lib all

/-- Fills the directory of a copy. -/
def fill (lib : Path) (archive : List UInt8) : Action Unit := do
  pour lib archive
  writeManifest lib
  Disk.writeBytes (lib / markerName) (markingOf archive)

/-- Where a copy goes there is nothing, or only directories that the path to it passes. -/
def Bare (lib : Path) (t : FileTree) : Prop :=
  ∀ way, t.isOccupied (goalOf [] lib ++ way) = true →
    t.isDirectory (goalOf [] lib ++ way) = true ∧ OnTheWay [] lib (goalOf [] lib ++ way)

/-- The directory of a copy is there, and nothing is in it. -/
structure Prepared (lib : Path) (t : FileTree) : Prop where
  wellFormed : t.WellFormed
  leads : LeadsToDirectory lib t []
  bare : Bare lib t

theorem bare_of_absent (h : ∀ way, t.node? (goalOf [] lib ++ way) = none) : Bare lib t :=
  fun way hocc => absurd hocc (not_isOccupied_iff.2 (h way))

section MakeDirectories

variable (hlib : lib.isAbsolute = true)

include hlib

theorem bare_of_added (hbare : Bare lib w.tree)
    (h : DirectoriesAdded (OnTheWay around.directory lib) w w') : Bare lib w'.tree := by
  intro way hocc
  rcases h (goalOf [] lib ++ way) with heq | ⟨hway, -, hdir⟩
  · rw [isOccupied_congr heq] at hocc
    rw [isDirectory_congr heq]
    exact hbare way hocc
  · exact ⟨isDirectory_iff.2 hdir, hway.of_absolute hlib []⟩

theorem bare_of_makeDirectories {outcome : Except Fault Unit} (hwf : w.tree.WellFormed)
    (hbare : Bare lib w.tree) (h : perform (makeDirectories lib) around w = (outcome, w')) :
    w'.tree.WellFormed ∧ Bare lib w'.tree := by
  have hadded := (adds_makeDirectories around lib).of_perform h
  obtain ⟨hwf', -⟩ := (sound_makeDirectories (StartsFrom.of_absolute hlib)).of_perform h hwf
    (isDirectory_iff.2 (node?_nil _))
  exact ⟨hwf', bare_of_added hlib hbare hadded⟩

theorem prepared_of_makeDirectories (hwf : w.tree.WellFormed) (hbare : Bare lib w.tree)
    (h : perform (makeDirectories lib) around w = (.ok (), w')) : Prepared lib w'.tree := by
  obtain ⟨hwf', hbare'⟩ := bare_of_makeDirectories hlib hwf hbare h
  exact ⟨hwf', (leads_of_makeDirectories h).of_absolute hlib [], hbare'⟩

end MakeDirectories

/-- A new copy of an archive, as filling its directory leaves it where certain libraries unpack. -/
def Filled (unpackers : Archive.Unpackers) (lib : Path) (archive : List UInt8) (t : FileTree) :
    Prop :=
  ∃ (around : Surroundings) (w w' : World), around.unpacker = unpackers ∧ Prepared lib w.tree ∧
    perform (fill lib archive) around w = (.ok (), w') ∧ w'.tree = t

section Local

variable {around₁ around₂ : Surroundings} {ways : List Location} (hlib : lib.isAbsolute = true)

include hlib

theorem visible_self (hways : ∀ v ∈ passedBy [] lib, v ∈ ways) :
    Visible (goalOf [] lib) ways lib :=
  ⟨hlib, .inl (List.prefix_refl _), fun v hv => .inr (.inr (hways v hv))⟩

theorem visible_child (hways : ∀ v ∈ passedBy [] lib, v ∈ ways) {name : String}
    (hname : isEntryName name = true) : Visible (goalOf [] lib) ways (lib / name) := by
  have hnames : ∀ s ∈ [name], isEntryName s = true := by simpa using hname
  rw [Path.div_eq_descend]
  refine ⟨?_, ?_, fun v hv => ?_⟩
  · rw [isAbsolute_descend _ fun s hs => isStep_of_isEntryName (hnames s hs), hlib]
  · rw [goalOf_descend _ _ hnames]
    exact .inl (List.prefix_append _ _)
  · rcases (mem_passedBy_descend hnames).1 hv with hv | ⟨front, back, -, -, rfl⟩
    · exact .inr (.inr (hways v hv))
    · exact .inl (List.prefix_append _ _)

theorem local_writeManifest (hways : ∀ v ∈ passedBy [] lib, v ∈ ways) :
    Local around₁ around₂ (goalOf [] lib) ways (writeManifest lib) := by
  unfold writeManifest Manifest.scan Manifest.write
  simp only [bind_assoc, pure_bind]
  refine (local_entriesBelow (visible_self hlib hways) rfl).bind fun entries => ?_
  exact (local_writeBytes (visible_child hlib hways isEntryName_fileName) _).bind
    fun _ => Local.pure ()

variable (hunpacker : around₁.unpacker = around₂.unpacker)

include hunpacker

theorem local_pour (archive : List UInt8) :
    Local around₁ around₂ (goalOf [] lib) ways (pour lib archive) :=
  (Local.ofExcept _ _).bind fun all => Archive.local_extractMembers hunpacker archive hlib all

theorem local_fill (hways : ∀ v ∈ passedBy [] lib, v ∈ ways) (archive : List UInt8) :
    Local around₁ around₂ (goalOf [] lib) ways (fill lib archive) :=
  (local_pour hlib hunpacker archive).bind fun _ => (local_writeManifest hlib hways).bind fun _ =>
    local_writeBytes (visible_child hlib hways isEntryName_markerName) _

end Local

namespace Prepared

theorem node?_eq (h : Prepared lib t) (h' : Prepared lib t') (way : Location) :
    t.node? (goalOf [] lib ++ way) = t'.node? (goalOf [] lib ++ way) := by
  by_cases hway : OnTheWay [] lib (goalOf [] lib ++ way)
  · rw [isDirectory_iff.1 (h.leads.isDirectory_of_onTheWay hway),
      isDirectory_iff.1 (h'.leads.isDirectory_of_onTheWay hway)]
  · rw [not_isOccupied_iff.1 fun hocc => hway (h.bare way hocc).2,
      not_isOccupied_iff.1 fun hocc => hway (h'.bare way hocc).2]

theorem agree {w₁ w₂ : World} (h₁ : Prepared lib w₁.tree) (h₂ : Prepared lib w₂.tree) :
    Agree (goalOf [] lib) (passedBy [] lib) w₁ w₂ where
  wellFormed := ⟨h₁.wellFormed, h₂.wellFormed⟩
  directory := h₁.leads.isDirectory
  open' _ hv := ⟨h₁.leads.isDirectory_of_onTheWay (.inl hv),
    h₂.leads.isDirectory_of_onTheWay (.inl hv)⟩
  same := h₁.node?_eq h₂

end Prepared

theorem leads_of_agree {w₁ w₂ : World} (h : Agree (goalOf [] lib) (passedBy [] lib) w₁ w₂)
    (hleads : LeadsToDirectory lib t []) : LeadsToDirectory lib w₁.tree [] := by
  obtain ⟨-, htext, -, hsteps⟩ := locate_eq_ok_iff.1 hleads.locate
  exact answerAt_eq_some_iff.2 ⟨hleads.isAskable,
    locate_eq_ok_iff.2 ⟨rfl, htext, fun v hv => (h.open' v hv).1, hsteps⟩,
    isDirectory_iff.1 h.directory⟩

/-- A copy: its directory, the file with its manifest, and its marker. -/
structure Copied (lib : Path) (archive : List UInt8) (ways : List Location) (t : FileTree) :
    Prop where
  wellFormed : t.WellFormed
  leads : LeadsToDirectory lib t []
  sources : ∀ way, way ∈ ways ↔ IsSourceWay way ∧ t.isFile (goalOf [] lib ++ way) = true
  nodup : ways.Nodup
  manifest : Holds lib (t.node? (fileAt (goalOf [] lib))) ways
  marker : ∃ f, t.node? (goalOf [] lib ++ [markerName]) = some (.file f) ∧
    f.bytes = markingOf archive
  fits : (lib / fileName).text.utf8ByteSize ≤ pathLimit ∧
    (lib / markerName).text.utf8ByteSize ≤ pathLimit

namespace Filled

variable {unpackers : Archive.Unpackers} (hlib : lib.isAbsolute = true)

include hlib

/-- What a new copy holds is settled by the bytes of the archive. -/
theorem node?_eq (h : Filled unpackers lib archive t) (h' : Filled unpackers lib archive t')
    (way : Location) : t.node? (goalOf [] lib ++ way) = t'.node? (goalOf [] lib ++ way) := by
  obtain ⟨around₁, v₁, w₁, hunpacker, hprepared₁, hfill₁, rfl⟩ := h
  obtain ⟨around₂, v₂, w₂, rfl, hprepared₂, hfill₂, rfl⟩ := h'
  exact ((local_fill hlib hunpacker (fun _ hv => hv) archive).compare
    (hprepared₁.agree hprepared₂) hfill₁
    hfill₂).2.same way

theorem exists_perform_fill (h : Filled around.unpacker lib archive t)
    (hw : Prepared lib w.tree) :
    ∃ w', perform (fill lib archive) around w = (.ok (), w') ∧
      Filled around.unpacker lib archive w'.tree ∧ ChangedBelow (goalOf [] lib) w w' := by
  obtain ⟨around₁, v₁, w₁, hunpacker, hprepared, hfill, -⟩ := h
  rcases hperform : perform (fill lib archive) around w with ⟨outcome, w'⟩
  obtain ⟨rfl, -⟩ :=
    (local_fill hlib hunpacker (fun _ hv => hv) archive).compare (hprepared.agree hw) hfill
      hperform
  obtain ⟨-, hchanged⟩ :=
    (local_fill hlib rfl (fun _ hv => hv) archive).alone (hw.agree hw) hperform
  exact ⟨w', rfl, ⟨around, w, w', rfl, hw, hperform, rfl⟩, hchanged⟩

theorem copied (h : Filled unpackers lib archive t) : ∃ ways, Copied lib archive ways t := by
  obtain ⟨around, w, w₃, -, hprepared, hfill, rfl⟩ := h
  obtain ⟨_, w₁, hpour, h₁⟩ := perform_bind_eq_ok.1 hfill
  obtain ⟨_, w₂, hmanifest, hmarker⟩ := perform_bind_eq_ok.1 h₁
  obtain ⟨hagree₁, -⟩ := (local_pour hlib rfl archive).alone (hprepared.agree hprepared) hpour
  obtain ⟨hagree₂, -⟩ := (local_writeManifest hlib fun _ hv => hv).alone hagree₁ hmanifest
  obtain ⟨hagree₃, -⟩ := (local_writeBytes (visible_child hlib (fun _ hv => hv)
    isEntryName_markerName) (markingOf archive)).alone hagree₂ hmarker
  have hleads : ∀ {v : World}, Agree (goalOf [] lib) (passedBy [] lib) v v →
      LeadsToDirectory lib v.tree around.directory := fun h =>
    (leads_of_agree h hprepared.leads).of_absolute hlib around.directory
  obtain ⟨hfits, hholds, hkept⟩ :=
    of_perform_writeManifest hagree₁.wellFormed.1 (hleads hagree₁) hmanifest
  obtain ⟨hfits', f, hf, hnodes⟩ :=
    of_perform_writeBytes_child (hleads hagree₂) isEntryName_markerName hmarker
  rw [goalOf_of_absolute hlib] at hholds hkept hnodes
  have hsame : ∀ way, way ≠ [fileName] → way ≠ [markerName] →
      w₃.tree.node? (goalOf [] lib ++ way) = w₁.tree.node? (goalOf [] lib ++ way) := by
    intro way hfile hmark
    rw [hnodes, if_neg fun heq => hmark (List.append_cancel_left heq),
      hkept _ fun heq => hfile (List.append_cancel_left heq)]
  refine ⟨sourceWays w₁.tree (goalOf [] lib), hagree₃.wellFormed.1,
    leads_of_agree hagree₃ hprepared.leads, fun way => ?_, sourceWays_nodup _ _, ?_,
    ⟨f, by rw [hnodes, if_pos rfl], hf⟩, hfits, hfits'⟩
  · rw [mem_sourceWays hagree₁.wellFormed.1]
    refine and_congr_right fun hway => ?_
    rw [isFile_congr (hsame way ?_ ?_)]
    · rintro rfl
      exact not_isSourceWay_fileName hway
    · rintro rfl
      exact not_isSourceWay_markerName hway
  · rw [hnodes, if_neg]
    · exact hholds
    · intro heq
      exact absurd (List.append_cancel_left heq) (by decide)

end Filled

end StagedBuild.NativeLibrary
