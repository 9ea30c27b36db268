import Folio.Diagram.Mermaid
import Folio.Proofs.FileAccess
import Folio.Proofs.FreshNames

/-!
# Drawn diagrams

Whatever the command does, and whichever step fails before it, a drawing ends with a picture: with
the one that the command left if it succeeded, and with the fixed one otherwise. The directory made
for the drawing is gone in the end.
-/

namespace Folio

open Program

/-- All that can be asked for, but making and taking away a directory and reading what is there. -/
def SparesDirectories (e : Effect) : Prop :=
  (∀ directory stem, e ≠ .createTemporaryDirectory directory stem) ∧
    (∀ path, e ≠ .removeTree path) ∧ ∀ path, e ≠ .readFile path

/-- Nothing is right below a place. -/
def Disk.IsBare (d : Disk) (place : List String) : Prop :=
  ∀ name, d.entry? (place ++ [name]) = none

lemma Disk.IsBare.put {d : Disk} {place : List String} (h : d.IsBare place) (e : Disk.Entry) :
    (d.put place e).IsBare place := by
  intro name
  rw [Disk.entry?_put_of_ne _ _ (by simp), h]

namespace Host

/-- Nothing but the disk was changed, and no directory on it is lost. -/
def Prepares (h h' : Host) : Prop :=
  ∃ d, h.disk.KeepsDirectories d ∧ h' = { h with disk := d }

/-- What writing a file at a place leaves behind with an answer. Where nothing was, only a fault can
prevent it. -/
def Written {ε : Type} (mayFail : Effect → Prop) (place : List String) (text : String) (h : Host) :
    Except ε Unit → Host → Prop
  | .ok (), h' => h.Prepares h' ∧ (h.disk.entry? place = none →
      h' = { h with disk := h.disk.put place (.file text.toUTF8 false) })
  | .error _, h' => h.Prepares h' ∧ (h.disk.entry? place = none → ∃ e, mayFail e)

/-- A directory is at a place, and paths to what is in it are not too long. -/
structure HasDirectory (h : Host) (directory : String) (place : List String) : Prop where
  located : h.disk.locate h.workingDirectory directory = .ok place
  entry : h.disk.entry? place = some .directory
  short : directory.utf8ByteSize + 1 + Disk.nameLimit < Disk.pathLimit

end Host

namespace Mermaid

def arguments (directory : String) : List String :=
  ["-i", Path.join directory "diagram.mmd", "-o", Path.join directory "diagram.svg",
    "-c", Path.join directory "config.json", "-q"]

/-- On a host with this disk the command is found and comes to an end, and leaves another disk. -/
def RunsOn (m : Mermaid) (directory : String) (h : Host) (disk : Disk) (finished : Finished)
    (left : Disk) : Prop :=
  ∃ place, { h with disk }.command? m.command = .ok place ∧
    h.execute place (arguments directory) disk = .ok (finished, left)

/-- Between two hosts the command was run. -/
def Ran (m : Mermaid) (directory : String) (h h' : Host) (finished : Finished) (left : Disk) :
    Prop :=
  ∃ disk, h'.launches = ⟨m.command, arguments directory, disk⟩ :: h.launches ∧
    m.RunsOn directory h disk finished left

/-- A command that ended like this was successful, and the file for its picture holds this text,
which is not blank. -/
def IsPicture (directory : String) (start : List String) (finished : Finished) (left : Disk)
    (text : String) : Prop :=
  finished.status = .code 0 ∧
    left.read start (Path.join directory "diagram.svg") = .ok text.toUTF8 ∧
    ∃ c ∈ text.toList, Text.isBlank c = false

/-- Between two hosts the command was run and has drawn a picture. -/
def Draws (m : Mermaid) (directory : String) (h h' : Host) (picture : String) : Prop :=
  ∃ finished left, m.Ran directory h h' finished left ∧
    IsPicture directory h.workingDirectory finished left picture

/-- A fixed beginning, at most 32 letters, digits, hyphens and underscores, and a number. -/
def IsDirectoryName (name : String) : Prop :=
  ∃ part number : String, name = "mdseo-diagram-" ++ part ++ "-" ++ number ∧ part.length ≤ 32 ∧
    (∀ c ∈ part.toList, c.isAlphanum = true ∨ c = '-' ∨ c = '_') ∧
    ∀ c ∈ number.toList, c.isDigit = true

/-- The files that the command reads are in the directory, and nothing else is new but that. -/
structure Equips (m : Mermaid) (source directory : String) (place : List String) (h : Host)
    (ready : Disk) : Prop where
  source : ready.read h.workingDirectory (Path.join directory "diagram.mmd") = .ok source.toUTF8
  settings : ready.read h.workingDirectory (Path.join directory "config.json") =
    .ok m.settings.compact.toUTF8
  rest : ∀ p, ¬place <+: p → ready.entry? p = h.disk.entry? p

section Names

lemma nameChar_cases (c : Char) :
    (nameChar c).isAlphanum = true ∨ nameChar c = '-' ∨ nameChar c = '_' := by
  unfold nameChar
  split
  · next hc =>
    have hkept : c.isAlphanum = true ∨ c = '-' := by simpa using hc
    exact hkept.imp_right .inl
  · exact .inr (.inr rfl)

lemma isDirectoryName_freshName (d : Disk) (place : List String) (id : String) :
    IsDirectoryName (d.freshName place (directoryStem id)) := by
  obtain ⟨n, hn⟩ := Disk.exists_freshName_eq d place (directoryStem id)
  let number := List.replicate (6 - (toString n).length) '0' ++ Nat.toDigits 10 n
  refine ⟨String.ofList ((id.toList.map nameChar).take nameLimit), String.ofList number, ?_, ?_, ?_,
    ?_⟩
  · rw [hn, ← String.toList_inj, Disk.toList_candidate]
    simp [directoryStem, number]
  · rw [String.length_ofList]
    exact List.length_take_le _ _
  · intro c hc
    rw [String.toList_ofList] at hc
    obtain ⟨c, -, rfl⟩ := List.mem_map.mp (List.mem_of_mem_take hc)
    exact nameChar_cases c
  · intro c hc
    rw [String.toList_ofList] at hc
    exact Disk.isDigit_of_mem_number hc

lemma mem_directoryStem {c : Char} {id : String} (h : c ∈ (directoryStem id).toList) :
    c.isAlphanum = true ∨ c = '-' ∨ c = '_' := by
  have hfixed : "mdseo-diagram-".toList.all (fun c => c.isAlphanum || c == '-') = true := by
    decide
  simp only [directoryStem, String.toList_append, String.toList_ofList, List.mem_append] at h
  rcases h with (h | h) | h
  · have hc : c.isAlphanum = true ∨ c = '-' := by simpa using List.all_eq_true.mp hfixed c h
    exact hc.imp_right .inl
  · obtain ⟨c, -, rfl⟩ := List.mem_map.mp (List.mem_of_mem_take h)
    exact nameChar_cases c
  · obtain rfl : c = '-' := by simpa using h
    exact .inr (.inl rfl)

/-- The place of the new directory is right below the one for temporary files. -/
lemma exists_name_of_createFresh {d d' : Disk} {start : List String} {id directory : String}
    (hcreated : d.createFresh start temporaryDirectory (directoryStem id) .directory =
      .ok (directory, d')) :
    ∃ outer name, IsDirectoryName name ∧ d.directory? start temporaryDirectory = .ok outer ∧
      directory = Path.join temporaryDirectory name ∧ name.utf8ByteSize ≤ Disk.nameLimit ∧
      d.locate start directory = .ok (outer ++ [name]) ∧
      d' = d.put (outer ++ [name]) .directory ∧ d.entry? (outer ++ [name]) = none := by
  have hsep (c : Char) (hc : ¬(c.isAlphanum = true ∨ c = '-' ∨ c = '_')) :
      c ∉ (directoryStem id).toList := fun hmem => hc (mem_directoryStem hmem)
  obtain ⟨outer, houter, rfl, hshort, hplace, rfl⟩ := Disk.exists_place_of_createFresh
    (hsep '/' (by decide)) (hsep '\x00' (by decide)) hcreated
  exact ⟨outer, _, isDirectoryName_freshName d outer id, houter, rfl, hshort, hplace, rfl,
    Disk.entry?_freshName d outer _⟩

end Names

end Mermaid

namespace Host

variable {mayFail : Effect → Prop} {h h' h'' : Host} {d : Disk} {path directory : String}
  {place : List String}

lemma Prepares.refl (h : Host) : h.Prepares h := ⟨h.disk, fun _ hp => hp, rfl⟩

lemma Prepares.trans (hh : h.Prepares h') (hh' : h'.Prepares h'') : h.Prepares h'' := by
  obtain ⟨d, hkeeps, rfl⟩ := hh
  obtain ⟨d', hkeeps', rfl⟩ := hh'
  exact ⟨d', fun p hp => hkeeps' p (hkeeps p hp), rfl⟩

lemma prepares_of_append {bytes : ByteArray}
    (happend : h.disk.append h.workingDirectory path bytes = .ok d) :
    h.Prepares { h with disk := d } := by
  obtain ⟨place, content, executable, hfile, rfl⟩ := Disk.append_eq_ok.mp happend
  obtain ⟨-, hentry, -⟩ := Disk.file?_eq_ok.mp hfile
  exact ⟨_, Disk.keepsDirectories_put _ (by simp [hentry]), rfl⟩

lemma prepares_of_truncate (htruncate : h.disk.truncate h.workingDirectory path = .ok d) :
    h.Prepares { h with disk := d } := by
  obtain ⟨place, executable, hw⟩ := rewriting_of_truncate htruncate
  exact ⟨d, hw.keepsDirectories, rfl⟩

/-- Emptying a file where nothing was makes an empty one, and what is added makes it whole. -/
lemma eq_put_of_append {text : String} {d' : Disk}
    (hplace : h.disk.locate h.workingDirectory path = .ok place)
    (hmeans : Path.meansDirectory path = false) (hnone : h.disk.entry? place = none)
    (htruncate : h.disk.truncate h.workingDirectory path = .ok d)
    (happend : d.append h.workingDirectory path text.toUTF8 = .ok d') :
    d' = h.disk.put place (.file text.toUTF8 false) := by
  obtain ⟨goal, executable, hgoal, hentry, -, rfl⟩ := Disk.truncate_eq_ok.mp htruncate
  obtain rfl := Disk.eq_of_locate hplace hgoal
  have hnotDirectory : h.disk.entry? goal ≠ some .directory := by simp [hnone]
  have hfile := Disk.file?_put ByteArray.empty executable hplace hnotDirectory hmeans
  obtain ⟨rfl, -⟩ := Disk.append_of_file? hfile happend
  obtain rfl : executable = false := by simpa [hnone] using hentry
  rw [Disk.put_put, ByteArray.empty_append]

lemma always_writeText_written (mayFail : Effect → Prop) (text : String)
    (hplace : h.disk.locate h.workingDirectory path = .ok place)
    (hmeans : Path.meansDirectory path = false) :
    (writeText path text).Always mayFail (fun _ => True) (h.Written mayFail place text) h := by
  refine always_act_bind trivial ?_
  intro r h₁ ho
  rcases ho.truncate with ⟨rfl, cause, rfl, hfault⟩ | ⟨d, htruncate, rfl, rfl⟩
  · refine always_pure trivial ⟨.refl h₁, fun hnone => ?_⟩
    rcases hfault with hfault | herror
    · exact ⟨_, hfault⟩
    · have hcan := Disk.truncate_eq_ok.mpr ⟨place, false, hplace, .inl ⟨hnone, rfl⟩, hmeans, rfl⟩
      exact absurd (hcan.symm.trans herror) nofun
  have hemptied := prepares_of_truncate htruncate
  obtain ⟨goal, executable, hw⟩ := rewriting_of_truncate htruncate
  refine ⟨trivial, fun r h₂ ho => ⟨trivial, ?_⟩⟩
  rcases ho.append with (⟨rfl, cause, rfl, hfault⟩ | ⟨d', happend, rfl, rfl⟩) |
    ⟨hfault, ⟨cause, rfl⟩, part, d', happend, rfl⟩
  · refine ⟨hemptied, fun _ => ⟨_, hfault.resolve_right ?_⟩⟩
    exact hw.append_ne_error text.toUTF8 cause
  · refine ⟨hemptied.trans (prepares_of_append happend), fun hnone => ?_⟩
    rw [eq_put_of_append hplace hmeans hnone htruncate happend]
  · exact ⟨hemptied.trans (prepares_of_append happend), fun _ => ⟨_, hfault⟩⟩

lemma Prepares.hasDirectory (hh : h.Prepares h') (hd : h.HasDirectory directory place) :
    h'.HasDirectory directory place := by
  obtain ⟨d, hkeeps, rfl⟩ := hh
  exact ⟨hkeeps.locate hd.located, hkeeps place hd.entry, hd.short⟩

lemma HasDirectory.isDirectory (hd : h.HasDirectory directory place) :
    h.disk.isDirectory h.workingDirectory directory = true :=
  Disk.isDirectory_iff.mpr ⟨place, hd.located, hd.entry⟩

lemma HasDirectory.locate_join {name : String} (hd : h.HasDirectory directory place)
    (hname : Path.IsPlain name) (hshort : name.utf8ByteSize ≤ Disk.nameLimit) :
    h.disk.locate h.workingDirectory (Path.join directory name) = .ok (place ++ [name]) := by
  have hempty : directory.isEmpty = false := by
    simpa using (Disk.locate_eq_ok.mp hd.located).2.1
  refine Disk.locate_join_of_short hname ?_ hd.short hshort
  rw [hempty, if_neg Bool.false_ne_true]
  exact Disk.directory?_eq_ok.mpr ⟨hd.located, hd.entry⟩

end Host

namespace Mermaid

variable {mayFail : Effect → Prop} {m : Mermaid} {source directory : String} {place : List String}
  {h h' k : Host} {disk : Disk} {finished finished' : Finished} {left left' : Disk}

/-- What is on a disk with a new directory when the command is run. -/
def ready (m : Mermaid) (source : String) (place : List String) (d : Disk) : Disk :=
  (d.put (place ++ ["diagram.mmd"]) (.file source.toUTF8 false)).put (place ++ ["config.json"])
    (.file m.settings.compact.toUTF8 false)

/-- How far a drawing got: either nothing was launched and the directory is there, or the disk is as
the command left it. -/
def Attempted (m : Mermaid) (directory : String) (h h' : Host) : Prop :=
  h'.workingDirectory = h.workingDirectory ∧
    (h'.launches = h.launches ∧ h'.disk.isDirectory h.workingDirectory directory = true ∨
      ∃ finished, m.Ran directory h h' finished h'.disk)

/-- The answer of a drawing is what the command drew. Without a fault the command was run, if it can
be. -/
structure Answers (mayFail : Effect → Prop) (m : Mermaid) (source directory : String)
    (place : List String) (h : Host) (r : Except DiagramError String) (h' : Host) : Prop where
  picture : ∀ text, r = .ok text ↔ m.Draws directory h h' text
  started : (∀ e, ¬mayFail e) → h.disk.IsBare place → ∀ finished left,
    m.RunsOn directory h (m.ready source place h.disk) finished left →
      m.Ran directory h h' finished left

section Runs

lemma isPlain_input : Path.IsPlain "diagram.mmd" := by decide

lemma isPlain_config : Path.IsPlain "config.json" := by decide

lemma RunsOn.unique (hruns : m.RunsOn directory h disk finished left)
    (hruns' : m.RunsOn directory h disk finished' left') :
    finished' = finished ∧ left' = left := by
  obtain ⟨place, hplace, hexecute⟩ := hruns
  obtain ⟨place', hplace', hexecute'⟩ := hruns'
  rw [hplace] at hplace'
  cases hplace'
  rw [hexecute] at hexecute'
  cases hexecute'
  exact ⟨rfl, rfl⟩

/-- It is known what the command did. -/
lemma Ran.unique (hran : m.Ran directory h h' finished left)
    (hran' : m.Ran directory h h' finished' left') : finished' = finished ∧ left' = left := by
  obtain ⟨disk, hlaunch, hruns⟩ := hran
  obtain ⟨disk', hlaunch', hruns'⟩ := hran'
  rw [hlaunch] at hlaunch'
  cases hlaunch'
  exact hruns.unique hruns'

lemma not_ran (hlaunches : h'.launches = h.launches) : ¬m.Ran directory h h' finished left := by
  rintro ⟨disk, hlaunch, -⟩
  rw [hlaunches] at hlaunch
  exact List.cons_ne_self _ _ hlaunch.symm

/-- The files are in a new directory, and all around it is as it was. -/
lemma equips_ready
    (hd : { h with disk := h.disk.put place .directory }.HasDirectory directory place)
    (hbare : h.disk.IsBare place) :
    m.Equips source directory place h (m.ready source place (h.disk.put place .directory)) := by
  let d := h.disk.put place .directory
  let d' := d.put (place ++ ["diagram.mmd"]) (.file source.toUTF8 false)
  have hinput : d.entry? (place ++ ["diagram.mmd"]) = none := hbare.put _ _
  have hconfig : d'.entry? (place ++ ["config.json"]) = none := by
    rw [Disk.entry?_put_of_ne _ _ (by simp), hbare.put]
  have hkeeps : d.KeepsDirectories (m.ready source place d) := by
    intro p hp
    have hp' := (Disk.keepsEntries_put hinput (.file source.toUTF8 false)).keepsDirectories p hp
    exact (Disk.keepsEntries_put hconfig (.file m.settings.compact.toUTF8 false)).keepsDirectories
      p hp'
  have hprepares : Host.Prepares { h with disk := d } { h with disk := m.ready source place d } :=
    ⟨_, hkeeps, rfl⟩
  have hd' := hprepares.hasDirectory hd
  refine ⟨?_, ?_, fun p hp => ?_⟩
  · have hentry : Disk.entry? (m.ready source place d) (place ++ ["diagram.mmd"]) =
        some (.file source.toUTF8 false) := by
      rw [ready, Disk.entry?_put_of_ne _ _ (by simp), Disk.entry?_put _ _ (by simp)]
    exact Disk.read_eq_of_file? (Disk.file?_eq_ok.mpr
      ⟨hd'.locate_join isPlain_input (by decide), hentry, isPlain_input.meansDirectory_join _⟩)
  · have hentry : Disk.entry? (m.ready source place d) (place ++ ["config.json"]) =
        some (.file m.settings.compact.toUTF8 false) := by
      rw [ready, Disk.entry?_put _ _ (by simp)]
    exact Disk.read_eq_of_file? (Disk.file?_eq_ok.mpr
      ⟨hd'.locate_join isPlain_config (by decide), hentry, isPlain_config.meansDirectory_join _⟩)
  · have hne : p ≠ place := fun heq => hp (heq ▸ List.prefix_rfl)
    have hnew (name : String) : p ≠ place ++ [name] := by
      rintro rfl
      exact hp (List.prefix_append place [name])
    rw [ready, Disk.entry?_put_of_ne _ _ (hnew _), Disk.entry?_put_of_ne _ _ (hnew _),
      Disk.entry?_put_of_ne _ _ hne]

end Runs

section Drawing

/-- What a drawing in its directory leaves behind with an answer. -/
def DrawYields (mayFail : Effect → Prop) (m : Mermaid) (source directory : String)
    (place : List String) (h : Host) (r : Except DiagramError String) (h' : Host) : Prop :=
  m.Attempted directory h h' ∧ Answers mayFail m source directory place h r h'

/-- What running the command leaves behind with an answer. -/
def RunYields {ε : Type} (mayFail : Effect → Prop) (m : Mermaid) (directory : String) (h : Host)
    (disk : Disk) : Except ε Finished → Host → Prop
  | .ok finished, h' => h'.workingDirectory = h.workingDirectory ∧
      h'.launches = ⟨m.command, arguments directory, disk⟩ :: h.launches ∧
      m.RunsOn directory h disk finished h'.disk
  | .error _, h' => h.Prepares h' ∧ ((∀ e, ¬mayFail e) →
      ∀ finished left, ¬m.RunsOn directory h disk finished left)

/-- What reading a text without a fault yields. -/
def TextYields {ε : Type} (path : String) (h : Host) : Except ε String → Host → Prop
  | .ok text, h' => h' = h ∧ h.disk.read h.workingDirectory path = .ok text.toUTF8
  | .error _, h' => h' = h ∧ ∀ text : String,
      h.disk.read h.workingDirectory path ≠ .ok text.toUTF8

lemma drawYields_of_prepares (hh : h.Prepares h') (hd : h.HasDirectory directory place)
    (hidle : (∀ e, ¬mayFail e) → h.disk.IsBare place → ∀ finished left,
      ¬m.RunsOn directory h (m.ready source place h.disk) finished left) (e : DiagramError) :
    DrawYields mayFail m source directory place h (.error e) h' := by
  have hthere := (hh.hasDirectory hd).isDirectory
  obtain ⟨d, hkeeps, rfl⟩ := hh
  refine ⟨⟨rfl, .inl ⟨rfl, hthere⟩⟩, fun text => ?_, fun hsound hbare finished left hruns => ?_⟩
  · refine iff_of_false nofun ?_
    rintro ⟨finished, left, hran, -⟩
    exact not_ran rfl hran
  · exact absurd hruns (hidle hsound hbare finished left)

lemma runYields_of_launch {r : Except IoError Finished} (hk : h.Prepares k)
    (ho : Outcome mayFail k (.launch m.command (arguments directory)) r h') :
    RunYields mayFail m directory h k.disk r h' := by
  obtain ⟨d, hkeeps, rfl⟩ := hk
  rcases ho.launch with ⟨rfl, ⟨cause, rfl⟩, hreason⟩ |
    ⟨place, finished, left, hplace, hexecute, rfl, rfl⟩
  · refine ⟨⟨d, hkeeps, rfl⟩, fun hsound finished left => ?_⟩
    rintro ⟨place, hplace, hexecute⟩
    obtain ⟨cause, herror⟩ := hreason.resolve_left (hsound _) place hplace
    exact absurd (herror.symm.trans hexecute) nofun
  · exact ⟨rfl, rfl, place, hplace, hexecute⟩

lemma always_readText_sound {path : String} (hsound : ¬mayFail (.readFile path)) (h : Host) :
    (readText path).Always mayFail (fun _ => True) (TextYields path h) h := by
  refine (always_readText_yields mayFail path h).mono (fun _ _ => trivial) ?_
  rintro r h' ⟨rfl, hr | ⟨hfault, -⟩⟩
  · cases r with
    | ok text => exact ⟨rfl, eq_toUTF8_of_textOf hr.symm⟩
    | error cause =>
      refine ⟨rfl, fun text hread => ?_⟩
      rw [hread, textOf_toUTF8] at hr
      cases hr
  · exact absurd hfault hsound

/-- After the command has run the answer is to be what it drew. -/
lemma drawYields_of_run {r : Except DiagramError String}
    (hworking : h'.workingDirectory = h.workingDirectory)
    (hlaunch : h'.launches = ⟨m.command, arguments directory, disk⟩ :: h.launches)
    (hruns : m.RunsOn directory h disk finished h'.disk)
    (hready : h.disk.IsBare place → disk = m.ready source place h.disk)
    (hpicture : ∀ text, r = .ok text ↔
      IsPicture directory h'.workingDirectory finished h'.disk text) :
    DrawYields mayFail m source directory place h r h' := by
  have hran : m.Ran directory h h' finished h'.disk := ⟨disk, hlaunch, hruns⟩
  refine ⟨⟨hworking, .inr ⟨finished, hran⟩⟩, fun text => ?_,
    fun _ hbare finished' left hruns' => ?_⟩
  · rw [hpicture, hworking]
    constructor
    · exact fun hdrawn => ⟨finished, h'.disk, hran, hdrawn⟩
    · rintro ⟨finished', left, hran', hdrawn⟩
      obtain ⟨rfl, rfl⟩ := hran.unique hran'
      exact hdrawn
  · rw [← hready hbare] at hruns'
    obtain ⟨rfl, rfl⟩ := hruns.unique hruns'
    exact hran

lemma isPicture_iff {start : List String} {picture text : String}
    (hstatus : finished.status = .code 0)
    (hread : left.read start (Path.join directory "diagram.svg") = .ok picture.toUTF8) :
    IsPicture directory start finished left text ↔
      picture = text ∧ ¬picture.toList.all Text.isBlank = true := by
  rw [IsPicture, hread]
  constructor
  · rintro ⟨-, htext, c, hc, hink⟩
    obtain rfl : picture = text := String.toByteArray_inj.mp (Except.ok.inj htext)
    refine ⟨rfl, fun hblank => ?_⟩
    rw [List.all_eq_true.mp hblank c hc] at hink
    cases hink
  · rintro ⟨rfl, hblank⟩
    exact ⟨hstatus, rfl, by simpa using hblank⟩

/-- Both files are written, or the drawing fails and nothing was launched. -/
lemma always_equip_bind {rest : ExceptT DiagramError Program String}
    (hd : h.HasDirectory directory place)
    (hrest : ∀ k, h.Prepares k → (h.disk.IsBare place → k.disk = m.ready source place h.disk) →
      rest.run.Always mayFail (fun _ => True) (DrawYields mayFail m source directory place h) k) :
    Program.Always mayFail (fun _ => True) (DrawYields mayFail m source directory place h)
      ((writeText (Path.join directory "diagram.mmd") source).elseFail
          (.io (Path.join directory "diagram.mmd")) >>= fun _ =>
        (writeText (Path.join directory "config.json") m.settings.compact).elseFail
          (.io (Path.join directory "config.json")) >>= fun _ => rest).run h := by
  have hinput := Host.always_writeText_written mayFail source
    (hd.locate_join isPlain_input (by decide)) (isPlain_input.meansDirectory_join directory)
  refine Always.except_bind (always_elseFail (R := h.Written mayFail _ source) hinput
    (fun _ _ hw => hw) fun _ _ hw => hw) ?_ ?_
  · rintro ⟨⟩ h₁ - ⟨hh₁, hput₁⟩
    have hconfig := Host.always_writeText_written mayFail m.settings.compact
      ((hh₁.hasDirectory hd).locate_join isPlain_config (by decide))
      (isPlain_config.meansDirectory_join directory)
    have hnone (hbare : h.disk.IsBare place) :
        h₁.disk.entry? (place ++ ["config.json"]) = none := by
      rw [hput₁ (hbare _), Disk.entry?_put_of_ne _ _ (by simp), hbare]
    refine Always.except_bind (always_elseFail (R := h₁.Written mayFail _ m.settings.compact)
      hconfig (fun _ _ hw => hw) fun _ _ hw => hw) ?_ ?_
    · rintro ⟨⟩ h₂ - ⟨hh₂, hput₂⟩
      refine hrest h₂ (hh₁.trans hh₂) fun hbare => ?_
      rw [hput₂ (hnone hbare), hput₁ (hbare _), ready]
    · rintro e h₂ ⟨hh₂, hfault⟩
      refine drawYields_of_prepares (hh₁.trans hh₂) hd (fun hsound hbare => ?_) e
      exact absurd (hfault (hnone hbare)) (not_exists.mpr hsound)
  · rintro e h₁ ⟨hh₁, hfault⟩
    refine drawYields_of_prepares hh₁ hd (fun hsound hbare => ?_) e
    exact absurd (hfault (hbare _)) (not_exists.mpr hsound)

lemma always_drawIn (hspares : ∀ e, mayFail e → SparesDirectories e) (m : Mermaid)
    (source : String) (hd : h.HasDirectory directory place) :
    (m.drawIn directory source).run.Always mayFail (fun _ => True)
      (DrawYields mayFail m source directory place h) h := by
  refine always_equip_bind hd fun k hk hready => ?_
  have hrun : (Effect.launch m.command (arguments directory)).act.Always mayFail (fun _ => True)
      (RunYields mayFail m directory h k.disk) k :=
    ⟨trivial, fun r h₁ ho => ⟨trivial, runYields_of_launch hk ho⟩⟩
  have hsound : ¬mayFail (.readFile (Path.join directory "diagram.svg")) :=
    fun hfault => (hspares _ hfault).2.2 _ rfl
  refine Always.except_bind (always_elseFail (R := RunYields mayFail m directory h k.disk) hrun
    (fun _ _ hran => hran) fun _ _ hran => hran) ?_ ?_
  · rintro finished h₁ - ⟨hworking, hlaunch, hruns⟩
    by_cases hstatus : finished.status = .code 0
    · simp only [hstatus, ne_eq, not_true_eq_false, if_false]
      refine Always.except_bind (always_elseFail (R := TextYields _ h₁)
        (always_readText_sound hsound h₁) (fun _ _ hread => hread) fun _ _ hread => hread) ?_ ?_
      · rintro picture h₂ - ⟨rfl, hread⟩
        by_cases hblank : picture.toList.all Text.isBlank = true
        · simp only [hblank, if_true]
          refine always_pure trivial
            (drawYields_of_run hworking hlaunch hruns hready fun text => ?_)
          rw [isPicture_iff hstatus hread]
          exact iff_of_false nofun fun hdrawn => hdrawn.2 hblank
        · simp only [hblank, Bool.false_eq_true, if_false]
          refine always_pure trivial
            (drawYields_of_run hworking hlaunch hruns hready fun text => ?_)
          rw [isPicture_iff hstatus hread, and_iff_left hblank]
          exact ⟨Except.ok.inj, congrArg Except.ok⟩
      · rintro e h₂ ⟨rfl, hread⟩
        exact drawYields_of_run hworking hlaunch hruns hready fun text =>
          iff_of_false nofun fun hdrawn => hread text hdrawn.2.1
    · simp only [ne_eq, hstatus, not_false_eq_true, if_true]
      exact always_pure trivial (drawYields_of_run hworking hlaunch hruns hready fun text =>
        iff_of_false nofun fun hdrawn => hstatus hdrawn.1)
  · rintro e h₁ ⟨hh₁, hfailed⟩
    refine drawYields_of_prepares hh₁ hd (fun hsound hbare => ?_) e
    rw [← hready hbare]
    exact hfailed hsound

end Drawing

section Clearing

/-- What is left when the directory was to be taken away after a drawing. -/
structure Cleared (m : Mermaid) (directory : String) (place : List String) (h h' : Host) :
    Prop where
  workingDirectory : h'.workingDirectory = h.workingDirectory
  gone : h'.disk.isDirectory h.workingDirectory directory = false
  nothing : (∀ finished left, m.Ran directory h h' finished left →
    ∃ d, left.removeTree h.workingDirectory directory = .ok d) →
      ∀ p, place <+: p → h'.disk.entry? p = none

/-- A drawing has an answer, and its directory was to be taken away. -/
def Ended (mayFail : Effect → Prop) (m : Mermaid) (source directory : String)
    (place : List String) (h : Host) (r : Except DiagramError String) (h' : Host) : Prop :=
  Answers mayFail m source directory place h r h' ∧ m.Cleared directory place h h'

lemma Attempted.cleared {r : Except IoError Unit} (hk : m.Attempted directory h k)
    (hplace : h.disk.locate h.workingDirectory directory = .ok place) (hne : place ≠ [])
    (hsound : ¬mayFail (.removeTree directory))
    (ho : Outcome mayFail k (.removeTree directory) r h') :
    h'.launches = k.launches ∧ m.Cleared directory place h h' := by
  obtain ⟨hworking, hcases⟩ := hk
  rcases ho.removeTree with ⟨hidle, cause, -, hreason⟩ | ⟨d, hremove, -, rfl⟩
  · have herror : k.disk.removeTree k.workingDirectory directory = .error cause :=
      hreason.resolve_left hsound
    rw [hworking] at herror
    have hnone : ¬∃ d, k.disk.removeTree h.workingDirectory directory = .ok d := by
      rintro ⟨d, hremove⟩
      exact absurd (herror.symm.trans hremove) nofun
    have hgone : k.disk.isDirectory h.workingDirectory directory = false := by
      rwa [Disk.exists_removeTree_iff, Bool.not_eq_true] at hnone
    subst hidle
    refine ⟨rfl, hworking, hgone, fun hremovable => ?_⟩
    rcases hcases with ⟨-, hdirectory⟩ | ⟨finished, hran⟩
    · rw [hgone] at hdirectory
      cases hdirectory
    · exact absurd (hremovable finished _ hran) hnone
  · change k.disk.removeTree k.workingDirectory directory = .ok d at hremove
    rw [hworking] at hremove
    refine ⟨rfl, hworking, Disk.not_isDirectory_of_removeTree hplace hne hremove, fun _ p hp => ?_⟩
    obtain ⟨goal, hgoal, -, rfl⟩ := Disk.removeTree_eq_ok.mp hremove
    obtain rfl := Disk.eq_of_locate hplace hgoal
    exact Disk.entry?_eraseTree _ hne hp

lemma Answers.of_launches {r : Except DiagramError String}
    (hk : Answers mayFail m source directory place h r k) (hlaunches : h'.launches = k.launches) :
    Answers mayFail m source directory place h r h' := by
  have hran (finished : Finished) (left : Disk) :
      m.Ran directory h h' finished left ↔ m.Ran directory h k finished left := by
    rw [Ran, Ran, hlaunches]
  refine ⟨fun text => ?_, fun hsound hbare finished left hruns => ?_⟩
  · simp only [Draws, hran]
    exact hk.picture text
  · rw [hran]
    exact hk.started hsound hbare finished left hruns

lemma Ended.log {level : LogLevel} {area text : String} {r : Except DiagramError String}
    {answer : Unit} (hk : Ended mayFail m source directory place h r k)
    (ho : Outcome mayFail k (.log level area text) answer h') :
    Ended mayFail m source directory place h r h' := by
  obtain ⟨hanswers, hworking, hgone, hnothing⟩ := hk
  obtain ⟨reports, rfl⟩ := ho.log
  exact ⟨hanswers.of_launches rfl, hworking, hgone, hnothing⟩

lemma always_renderer (hspares : ∀ e, mayFail e → SparesDirectories e) (m : Mermaid) {id : String}
    (source : String) (hcreated : h.disk.createFresh h.workingDirectory temporaryDirectory
      (directoryStem id) .directory = .ok (directory, disk))
    (hd : { h with disk }.HasDirectory directory place) (hne : place ≠ []) :
    (m.renderer id source).run.Always mayFail (fun _ => True)
      (Ended mayFail m source directory place { h with disk }) h := by
  refine always_act_bind trivial ?_
  intro r h₁ ho
  have hstep : h.step (.createTemporaryDirectory temporaryDirectory (directoryStem id)) =
      (.ok directory, { h with disk }) := by
    simp only [Host.step, Host.create, hcreated]
  obtain ⟨rfl, rfl⟩ := ho.eq_step fun hfault => (hspares _ hfault).1 _ _ rfl
  rw [hstep]
  refine (always_drawIn hspares m source hd).bind ?_
  rintro result h₂ - ⟨hattempted, hanswers⟩
  refine always_act_bind trivial ?_
  intro r h₃ ho
  obtain ⟨hlaunches, hcleared⟩ := hattempted.cleared hd.located hne
    (fun hfault => (hspares _ hfault).2.1 _ rfl) ho
  have hended : Ended mayFail m source directory place { h with disk } result h₃ :=
    ⟨hanswers.of_launches hlaunches, hcleared⟩
  rcases r with cause | ⟨⟩
  · refine always_act_bind trivial ?_
    intro _ h₄ ho
    exact always_pure trivial (hended.log ho)
  · exact always_pure trivial hended

end Clearing

/-- Whatever the command does, and if any effect may fail but making and taking away the directory
and reading what is there, the result of a drawing is what the command drew, or the fixed picture if
it drew none. Without faults the command is run on the source and the settings, if it can be. The
directory is right below the one for temporary files. In the end it is gone, with all that was in it
if it was still there to be taken away. -/
theorem draws_or_fallback (m : Mermaid) (id source : String) (h : Host) {mayFail : Effect → Prop}
    (hspares : ∀ e, mayFail e → SparesDirectories e) {directory : String} {disk : Disk}
    (hcreated : h.disk.createFresh h.workingDirectory temporaryDirectory (directoryStem id)
      .directory = .ok (directory, disk)) :
    ∃ outer name ready, IsDirectoryName name ∧
      directory = Path.join temporaryDirectory name ∧
      h.disk.directory? h.workingDirectory temporaryDirectory = .ok outer ∧
      h.disk.locate h.workingDirectory directory = .ok (outer ++ [name]) ∧
      (h.disk.IsBare (outer ++ [name]) → m.Equips source directory (outer ++ [name]) h ready) ∧
      (Diagram.draw m.renderer id source).Always mayFail (fun _ => True)
        (fun picture h' =>
          ((∀ text, m.Draws directory h h' text → picture = text) ∧
            ((∀ text, ¬m.Draws directory h h' text) → picture = Diagram.fallback)) ∧
          ((∀ e, ¬mayFail e) → h.disk.IsBare (outer ++ [name]) → ∀ finished left,
            m.RunsOn directory h ready finished left → m.Ran directory h h' finished left) ∧
          h'.disk.isDirectory h'.workingDirectory directory = false ∧
          ((∀ finished left, m.Ran directory h h' finished left →
            ∃ d, left.removeTree h.workingDirectory directory = .ok d) →
              ∀ p, outer ++ [name] <+: p → h'.disk.entry? p = none)) h := by
  obtain ⟨outer, name, hname, houter, hjoin, hsize, hplace, rfl, hnone⟩ :=
    exists_name_of_createFresh hcreated
  have hne : outer ++ [name] ≠ [] := by simp
  have hkeeps := (Disk.keepsEntries_put hnone .directory).keepsDirectories
  have hshort : directory.utf8ByteSize + 1 + Disk.nameLimit < Disk.pathLimit := by
    have hpath := Path.utf8ByteSize_join_le temporaryDirectory name
    have hfixed : temporaryDirectory.utf8ByteSize + 1 + Disk.nameLimit + 1 + Disk.nameLimit <
      Disk.pathLimit := by decide
    rw [hjoin]
    omega
  have hd : { h with disk := h.disk.put (outer ++ [name]) .directory }.HasDirectory directory
      (outer ++ [name]) := ⟨hkeeps.locate hplace, Disk.entry?_put _ _ hne, hshort⟩
  refine ⟨outer, name, _, hname, hjoin, houter, hplace, equips_ready hd, ?_⟩
  refine (always_renderer hspares m source hcreated hd hne).bind ?_
  rintro (e | picture) h₁ - hended
  · refine always_act_bind trivial ?_
    intro _ h₂ ho
    obtain ⟨hanswers, hworking, hgone, hnothing⟩ := hended.log ho
    rw [← hworking] at hgone
    refine always_pure trivial ⟨⟨fun text hdraws => ?_, fun _ => rfl⟩,
      fun hsound hbare => hanswers.started hsound (hbare.put _), hgone, hnothing⟩
    cases (hanswers.picture text).mpr hdraws
  · obtain ⟨hanswers, hworking, hgone, hnothing⟩ := hended
    rw [← hworking] at hgone
    refine always_pure trivial ⟨⟨fun text hdraws => ?_, fun hnone => ?_⟩,
      fun hsound hbare => hanswers.started hsound (hbare.put _), hgone, hnothing⟩
    · exact Except.ok.inj ((hanswers.picture text).mpr hdraws)
    · exact absurd ((hanswers.picture picture).mp rfl) (hnone picture)

/-- A host with a command that leaves a picture where it is told to. -/
def drawingHost : Host where
  disk := ⟨[(["bin", "mmdc"], .file ByteArray.empty true), (["bin"], .directory),
    (["tmp"], .directory)]⟩
  workingDirectory := []
  execute _ arguments disk := do
    let output := arguments.getD 3 ""
    let emptied ← disk.truncate [] output
    let left ← emptied.append [] output "<svg/>".toUTF8
    return (⟨.code 0, ByteArray.empty⟩, left)
  output := ""
  reports := []
  logLevel := none
  launches := []

/-- The same host with a command that draws nothing and reports a failure. -/
def refusingHost : Host :=
  { drawingHost with execute := fun _ _ disk => .ok (⟨.code 1, ByteArray.empty⟩, disk) }

lemma entry?_refusingHost (name : String) (rest : List String) :
    refusingHost.disk.entry? (["tmp", name] ++ rest) = none := by
  simp [refusingHost, drawingHost, Disk.entry?, List.lookup_eq_none_iff]

/-- The command is found where nothing but the directory of a drawing is new. -/
lemma command?_of_equips {name : String} {ready : Disk}
    (hready : default.Equips source directory ["tmp", name] refusingHost ready) :
    { refusingHost with disk := ready }.command? default.command = .ok ["bin", "mmdc"] := by
  have hkeeps : refusingHost.disk.KeepsDirectories ready := by
    intro p hp
    rw [hready.rest p ?_, hp]
    rintro ⟨rest, rfl⟩
    rw [entry?_refusingHost] at hp
    cases hp
  have hplace : ready.locate [] "/bin/mmdc" = .ok ["bin", "mmdc"] :=
    hkeeps.locate (by decide +kernel)
  have hentry : ready.entry? ["bin", "mmdc"] = some (.file ByteArray.empty true) := by
    rw [hready.rest _ (by simp)]
    rfl
  have hfile : ready.file? [] "/bin/mmdc" = .ok (["bin", "mmdc"], ByteArray.empty, true) :=
    Disk.file?_eq_ok.mpr ⟨hplace, hentry, by decide +kernel⟩
  have hexecutable : { refusingHost with disk := ready }.executable? "/bin/mmdc" =
      .ok ["bin", "mmdc"] := by
    unfold Host.executable?
    rw [show refusingHost.workingDirectory = [] from rfl, hfile]
    rfl
  have hjoin : Path.join "/bin" "mmdc" = "/bin/mmdc" := by decide +kernel
  have hslash : "mmdc".toList.contains '/' = false := by decide
  have hnul : "mmdc".toList.contains '\x00' = false := by decide
  simp only [default, Host.command?, hslash, hnul, Host.commandDirectories, Host.search, hjoin,
    hexecutable]
  rfl

lemma exists_createFresh_drawingHost :
    ∃ disk, drawingHost.disk.createFresh [] temporaryDirectory (directoryStem "../evil id")
      .directory = .ok ("/tmp/mdseo-diagram-___evil_id-000000", disk) := by
  have hpath : (drawingHost.disk.createFresh [] temporaryDirectory (directoryStem "../evil id")
      .directory).map (·.1) = .ok "/tmp/mdseo-diagram-___evil_id-000000" := by
    decide +kernel
  rcases hcreated : drawingHost.disk.createFresh [] temporaryDirectory
    (directoryStem "../evil id") .directory with cause | ⟨path, disk⟩
  · rw [hcreated] at hpath
    cases hpath
  · rw [hcreated] at hpath
    exact ⟨disk, by rw [← Except.ok.inj hpath]⟩

/-- A drawing whose name cannot be that of a directory. -/
def evilDrawing : Program String :=
  Diagram.draw default.renderer "../evil id" "graph TD; A-->B"

lemma run_evilDrawing : (drawingHost.run evilDrawing).1 = "<svg/>" := by
  decide +kernel

theorem draws_or_fallback_evilName :
    let directory := "/tmp/mdseo-diagram-___evil_id-000000"
    (∃ disk, drawingHost.disk.createFresh [] temporaryDirectory (directoryStem "../evil id")
      .directory = .ok (directory, disk)) ∧
    (drawingHost.run evilDrawing).1 = "<svg/>" ∧
    default.Draws directory drawingHost (drawingHost.run evilDrawing).2 "<svg/>" ∧
    (drawingHost.run evilDrawing).2.disk.isDirectory
      (drawingHost.run evilDrawing).2.workingDirectory directory = false ∧
    (refusingHost.run evilDrawing).1 = Diagram.fallback ∧
    ∃ left, default.Ran directory refusingHost (refusingHost.run evilDrawing).2
      ⟨.code 1, ByteArray.empty⟩ left := by
  intro directory
  obtain ⟨disk, hcreated⟩ := exists_createFresh_drawingHost
  obtain ⟨outer, name, ready, -, -, -, -, -, hdraw⟩ := draws_or_fallback default "../evil id"
    "graph TD; A-->B" drawingHost (fun e (hfault : SparesDirectories e) => hfault) hcreated
  obtain ⟨⟨hdrawn, hfallback⟩, -, hgone, -⟩ := hdraw.run
  have hother : (drawingHost.run evilDrawing).1 ≠ Diagram.fallback := by
    rw [run_evilDrawing]
    decide
  obtain ⟨text, hdraws⟩ : ∃ text,
      default.Draws directory drawingHost (drawingHost.run evilDrawing).2 text := by
    by_contra hnone
    exact hother (hfallback (not_exists.mp hnone))
  obtain rfl : text = "<svg/>" := (hdrawn text hdraws).symm.trans run_evilDrawing
  -- without a fault, the command is started even though it draws nothing
  obtain ⟨outer', name', ready', -, -, houter, -, hequips, hrefuse⟩ := draws_or_fallback default
    "../evil id" "graph TD; A-->B" refusingHost (fun e (hfault : False) => hfault.elim) hcreated
  obtain ⟨⟨-, hfallback'⟩, hstarted, -⟩ := hrefuse.run
  have htmp : refusingHost.disk.directory? [] temporaryDirectory = .ok ["tmp"] := by
    decide +kernel
  obtain rfl : outer' = ["tmp"] := Except.ok.inj (houter.symm.trans htmp)
  have hbare : refusingHost.disk.IsBare ["tmp", name'] :=
    fun n => entry?_refusingHost name' [n]
  have hran := hstarted (fun _ => not_false) hbare _ _
    ⟨["bin", "mmdc"], command?_of_equips (hequips hbare), rfl⟩
  refine ⟨⟨disk, hcreated⟩, run_evilDrawing, hdraws, hgone, hfallback' ?_, ready', hran⟩
  rintro text ⟨finished, left, hran', hstatus, -⟩
  rw [(hran.unique hran').1] at hstatus
  cases hstatus

end Mermaid

end Folio
