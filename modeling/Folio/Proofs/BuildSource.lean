import Folio.Build
import Folio.Proofs.FileAccess
import Mathlib.Control.Monad.Basic

/-!
# What a build does to its source

A build writes two files into the output directory, and the second one has the name of the source.
When the output directory is the one that the source is in, this is the source itself, and copying
it to its own place empties it. In all other cases the source stays as it was.
-/

namespace Folio.Build

open Program

/-- The output directory is the directory that the source is in. -/
def Beside (file out : String) (h : Host) : Prop :=
  ∃ dir name, h.disk.locate h.workingDirectory file = .ok (dir ++ [name]) ∧
    h.disk.directory? h.workingDirectory (if out.isEmpty then "." else out) = .ok dir

def Holds (file : String) (place : List String) (content : ByteArray) (h : Host) : Prop :=
  ∃ executable, h.disk.file? h.workingDirectory file = .ok (place, content, executable)

variable {file out : String} {place : List String} {content : ByteArray} {h h' : Host}

section Steps

lemma Beside.of_keepsDirectories (hb : Beside file out h)
    (hw : h'.workingDirectory = h.workingDirectory)
    (hkeeps : h.disk.KeepsDirectories h'.disk) : Beside file out h' := by
  obtain ⟨dir, name, hfile, hout⟩ := hb
  refine ⟨dir, name, ?_, ?_⟩
  · rw [hw]
    exact hkeeps.locate hfile
  · rw [hw]
    exact hkeeps.directory? hout

lemma Holds.of_extends (hh : Holds file place content h) (hk : h.Extends h') :
    Holds file place content h' := by
  obtain ⟨executable, hfile⟩ := hh
  obtain ⟨hlocate, hentry, hmeans⟩ := Disk.file?_eq_ok.mp hfile
  refine ⟨executable, ?_⟩
  rw [hk.workingDirectory]
  exact Disk.file?_eq_ok.mpr
    ⟨hk.keepsDirectories.locate hlocate, hk.entry? place _ hentry, hmeans⟩

lemma Holds.read_eq (hh : Holds file place content h) :
    h.disk.read h.workingDirectory file = .ok content := by
  obtain ⟨executable, hfile⟩ := hh
  exact Disk.read_eq_of_file? hfile

lemma Holds.of_rewriting_ne (hh : Holds file place content h) {path : String} {goal : List String}
    {bytes : ByteArray} {x : Bool} (hw : h.Rewriting path goal bytes x h') (hne : goal ≠ place) :
    Holds file place content h' := by
  obtain ⟨executable, hfile⟩ := hh
  obtain ⟨y, hfile'⟩ := hw.file?_of_file? hfile
  rw [if_neg hne] at hfile'
  exact ⟨y, hfile'⟩

/-- Writing the source anew through the output directory: that is its own directory. -/
lemma Holds.of_rewriting_self (hh : Holds file place content h) {name : String}
    (hname : Path.IsPlain name) {bytes : ByteArray} {x : Bool}
    (hw : h.Rewriting (Path.join out name) place bytes x h') :
    Holds file place bytes h' ∧ Beside file out h' := by
  obtain ⟨executable, hfile⟩ := hh
  obtain ⟨y, hfile'⟩ := hw.file?_of_file? hfile
  rw [if_pos rfl] at hfile'
  refine ⟨⟨y, hfile'⟩, ?_⟩
  obtain ⟨dir, hdir, rfl⟩ := Disk.exists_directory_of_locate_join hname hw.located
  obtain ⟨hlocate, -, -⟩ := Disk.file?_eq_ok.mp hfile
  have hbeside : Beside file out h := ⟨dir, name, hlocate, hdir⟩
  exact hbeside.of_keepsDirectories hw.same.workingDirectory hw.keepsDirectories

lemma Beside.of_sameFiles (hb : Beside file out h) (hsame : h.SameFiles h') :
    Beside file out h' :=
  hb.of_keepsDirectories hsame.workingDirectory hsame.keepsDirectories

lemma Beside.of_writeLeaves (hb : Beside file out h) {path : String}
    (hleaves : h.WriteLeaves path h') : Beside file out h' := by
  rcases hleaves with hsame | ⟨goal, bytes, x, hw⟩
  · exact hb.of_sameFiles hsame
  · exact hb.of_keepsDirectories hw.same.workingDirectory hw.keepsDirectories

lemma Holds.of_writeLeaves (hh : Holds file place content h) {name : String}
    (hname : Path.IsPlain name) (hleaves : h.WriteLeaves (Path.join out name) h') :
    Holds file place content h' ∨ Beside file out h' := by
  rcases hleaves with hsame | ⟨goal, bytes, x, hw⟩
  · exact .inl (hh.of_extends hsame.extends)
  · by_cases hgoal : goal = place
    · subst hgoal
      exact .inr (hh.of_rewriting_self hname hw).2
    · exact .inl (hh.of_rewriting_ne hw hgoal)

lemma Holds.copyPath_eq (hh : Holds file place content h) (out : String) :
    ∃ dir name, place = dir ++ [name] ∧ Path.IsPlain name ∧
      copyPath file out = Path.join out name := by
  obtain ⟨executable, hfile⟩ := hh
  obtain ⟨dir, name, hplace, hname, hfileName⟩ := Disk.exists_name_of_file? hfile
  exact ⟨dir, name, hplace, hname, by rw [copyPath, hfileName]; rfl⟩

/-- A copy beside the source is the source. -/
lemma Holds.eq_of_beside (hh : Holds file place content h) {goal : List String}
    {bytes : ByteArray} {x : Bool} (hw : h.Rewriting (copyPath file out) goal bytes x h')
    (hb : Beside file out h') : goal = place := by
  obtain ⟨dir, name, rfl, hname, hcopy⟩ := hh.copyPath_eq out
  obtain ⟨executable, hfile⟩ := hh
  obtain ⟨hlocate, -, -⟩ := Disk.file?_eq_ok.mp hfile
  have hlocated := hw.located
  rw [hcopy] at hlocated
  obtain ⟨outDir, hout, rfl⟩ := Disk.exists_directory_of_locate_join hname hlocated
  -- both directories are found again on the later host
  obtain ⟨dir', name', hlocate', hout'⟩ := hb
  rw [hw.same.workingDirectory, hw.keepsDirectories.locate hlocate] at hlocate'
  rw [hw.same.workingDirectory, hw.keepsDirectories.directory? hout] at hout'
  cases hout'
  rw [(List.append_inj' (Except.ok.inj hlocate') rfl).1]

end Steps

section Ends

variable {mayFail : Effect → Prop}

/-- After an error the source is as it was, unless it was being written over and there was a
fault. -/
def Failed (mayFail : Effect → Prop) (file out : String) (place : List String)
    (content : ByteArray) (h : Host) : Prop :=
  (Holds file place content h ∨ Beside file out h) ∧
    ((∀ e, ¬mayFail e) → Holds file place content h)

/-- The page is written: the source is as it was, or it was written over and the copy goes to its
own place. -/
def Paged (file out : String) (place : List String) (content : ByteArray) (h : Host) : Prop :=
  ∃ bytes, Holds file place bytes h ∧ (bytes = content ∨ Beside file out h ∧
    h.disk.locate h.workingDirectory (copyPath file out) = .ok place)

/-- How a build ends when the source is at a place and held some bytes: after a success it is as it
was, or the output directory is its own and it is empty. -/
def Ends (mayFail : Effect → Prop) (file out : String) (place : List String)
    (content : ByteArray) : Except BuildError Unit → Host → Prop
  | .ok (), h => (Holds file place content h ∧ ¬Beside file out h) ∨
      (Holds file place ByteArray.empty h ∧ Beside file out h)
  | .error _, h => Failed mayFail file out place content h

def PageYields (mayFail : Effect → Prop) (file out : String) (place : List String)
    (content : ByteArray) : Except BuildError Unit → Host → Prop
  | .ok (), h => Paged file out place content h
  | .error _, h => Failed mayFail file out place content h

lemma Failed.of_holds (hh : Holds file place content h) :
    Failed mayFail file out place content h :=
  ⟨.inl hh, fun _ => hh⟩

lemma Ends.of_sameFiles (hends : Ends mayFail file out place content (.ok ()) h)
    (hsame : h.SameFiles h') : Ends mayFail file out place content (.ok ()) h' := by
  rcases hends with ⟨hh, hnot⟩ | ⟨hh, hb⟩
  · exact .inl ⟨hh.of_extends hsame.extends, fun hb => hnot (hb.of_sameFiles hsame.symm)⟩
  · exact .inr ⟨hh.of_extends hsame.extends, hb.of_sameFiles hsame⟩

lemma isPlain_index : Path.IsPlain "index.html" :=
  ⟨by decide, by decide, by decide, by decide, by decide⟩

lemma Holds.paged (hh : Holds file place content h) {goal : List String} {bytes : ByteArray}
    {x : Bool} (hw : h.Rewriting (indexPath out) goal bytes x h') :
    Paged file out place content h' := by
  by_cases hgoal : goal = place
  · subst hgoal
    obtain ⟨hh', hb⟩ := hh.of_rewriting_self isPlain_index hw
    refine ⟨bytes, hh', .inr ⟨hb, ?_⟩⟩
    -- the source has the name of the page, and so has its copy
    obtain ⟨dir, name, rfl, -, hcopy⟩ := hh.copyPath_eq out
    obtain ⟨outDir, -, hplace⟩ := Disk.exists_directory_of_locate_join isPlain_index hw.located
    obtain rfl : name = "index.html" := List.singleton_inj.mp (List.append_inj' hplace rfl).2
    rw [hcopy, hw.same.workingDirectory]
    exact hw.keepsDirectories.locate hw.located
  · exact ⟨content, hh.of_rewriting_ne hw hgoal, .inl rfl⟩

lemma always_writeIndex (mayFail : Effect → Prop) (bytes : ByteArray)
    (hh : Holds file place content h) :
    ((writeFile (indexPath out) bytes).elseFail
      (BuildError.pageNotWritten (indexPath out))).run.Always mayFail (fun _ => True)
        (PageYields mayFail file out place content) h := by
  refine always_elseFail (always_writeFile mayFail (indexPath out) bytes h).atEnd ?_ ?_
  · rintro ⟨⟩ h' ⟨goal, x, hw⟩
    exact hh.paged hw
  · rintro cause h' ⟨hleaves, hsame⟩
    exact ⟨hh.of_writeLeaves isPlain_index hleaves,
      fun hnone => hh.of_extends (hsame hnone).extends⟩

/-- The source is copied to its own place exactly if the output directory is its own. -/
lemma Paged.ends (hp : Paged file out place content h) {bytes : ByteArray}
    (hh : Holds file place bytes h) {goal : List String} {x : Bool}
    (hw : h.Rewriting (copyPath file out) goal
      (if goal = place then ByteArray.empty else bytes) x h') :
    Ends mayFail file out place content (.ok ()) h' := by
  obtain ⟨dir, name, -, hname, hcopy⟩ := hh.copyPath_eq out
  by_cases hgoal : goal = place
  · subst hgoal
    rw [if_pos rfl, hcopy] at hw
    exact .inr (hh.of_rewriting_self hname hw)
  · obtain ⟨old, hh', hcase⟩ := hp
    rcases hcase with rfl | ⟨-, hlocate⟩
    · exact .inl ⟨hh'.of_rewriting_ne hw hgoal, fun hb => hgoal (hh.eq_of_beside hw hb)⟩
    · rw [hw.located] at hlocate
      exact absurd (Except.ok.inj hlocate) hgoal

lemma Paged.failed (hp : Paged file out place content h) {cause : IoError}
    (hyields : h.CopyYields mayFail (copyPath file out) place bytes (.error cause) h') :
    Failed mayFail file out place content h' := by
  obtain ⟨old, hh, hcase⟩ := hp
  obtain ⟨dir, name, -, hname, hcopy⟩ := hh.copyPath_eq out
  obtain ⟨hleaves, hkept⟩ := hyields
  rcases hcase with rfl | ⟨hb, hlocate⟩
  · rw [hcopy] at hleaves
    exact ⟨hh.of_writeLeaves hname hleaves, fun hnone => hh.of_extends (hkept hnone).1.extends⟩
  · refine ⟨.inr (hb.of_writeLeaves hleaves), fun hnone => ?_⟩
    -- nothing but a fault prevents emptying the source
    obtain ⟨executable, hfile⟩ := hh
    obtain ⟨-, hentry, -⟩ := Disk.file?_eq_ok.mp hfile
    obtain ⟨-, cause, htruncate⟩ := hkept hnone
    have hmeans : Path.meansDirectory (copyPath file out) = false := by
      rw [hcopy, hname.meansDirectory_join]
    have hempties := Disk.truncate_eq_ok.mpr
      ⟨place, executable, hlocate, .inr ⟨old, hentry⟩, hmeans, rfl⟩
    rw [hempties] at htruncate
    cases htruncate

lemma always_copySource (mayFail : Effect → Prop) (hp : Paged file out place content h) :
    ((copyFile file (copyPath file out)).elseFail
      (.sourceNotCopied (copyPath file out))).run.Always mayFail (fun _ => True)
        (Ends mayFail file out place content) h := by
  obtain ⟨bytes, hh, -⟩ := id hp
  obtain ⟨executable, hfile⟩ := id hh
  refine always_elseFail (always_copyFile mayFail (copyPath file out) hfile).atEnd ?_ ?_
  · rintro ⟨⟩ h' ⟨goal, x, hw⟩
    exact hp.ends hh hw
  · intro cause h' hyields
    exact hp.failed hyields

end Ends

section Runs

variable {mayFail : Effect → Prop} {options : ParseOptions} {page : PageSettings} {quiet : Bool}

/-- What reading a source yields: nothing changes, and a text is that of the source. -/
def SourceYields (file : String) (h : Host) : Except ε String → Host → Prop
  | .ok text, h' => h' = h ∧ h.disk.read h.workingDirectory file = .ok text.toUTF8
  | .error _, h' => h' = h

lemma always_readSource (mayFail : Effect → Prop) (file : String) (h : Host) :
    ((SourceFile.read file).adapt BuildError.source).run.Always mayFail (fun _ => True)
      (SourceYields file h) h := by
  have hread : (SourceFile.read file).run.Always mayFail (fun _ => True) (SourceYields file h) h :=
    always_elseFail (always_readText mayFail file h)
      (fun text _ hread => ⟨hread.1, hread.2 text rfl⟩) fun _ _ hread => hread.1
  exact always_adapt hread (fun _ _ hyields => hyields) fun _ _ hyields => hyields

/-- The document that a page is made of. -/
def documentOf (options : ParseOptions) (text : String) : Document :=
  match Document.parse options text with
  | .ok d => d
  | .error _ => ⟨[]⟩

lemma always_document (mayFail : Effect → Prop) (file : String) (options : ParseOptions)
    (text : String) (h : Host) :
    (document file options text).Always mayFail (fun _ => True)
      (fun d h' => d = documentOf options text ∧ h.SameFiles h') h := by
  unfold document SourceFile.parse documentOf
  rcases Document.parse options text with e | d
  · refine always_act_bind trivial ?_
    intro _ h' ho
    exact always_pure trivial ⟨rfl, ho.message fun _ => rfl⟩
  · refine always_act_bind trivial ?_
    intro _ h' ho
    exact always_pure trivial ⟨rfl, ho.message fun _ => rfl⟩

/-- What does not depend on more than the files still holds after the last messages. -/
lemma always_messages {Q : Except BuildError Unit → Host → Prop}
    (hstable : ∀ k k', Q (.ok ()) k → k.SameFiles k' → Q (.ok ()) k') (hQ : Q (.ok ()) h)
    (level : LogLevel) (area text first second : String) :
    ((do
      Effect.act (.log level area text)
      unless quiet do
        Effect.act (.print first)
        Effect.act (.print second)) : ExceptT BuildError Program Unit).run.Always mayFail
          (fun _ => True) Q h := by
  refine always_message_bind (fun _ => rfl) trivial ?_
  intro _ h₁ hsame
  have hQ₁ := hstable h h₁ hQ hsame
  cases quiet with
  | true => exact always_pure trivial hQ₁
  | false =>
    refine always_message_bind (fun _ => rfl) trivial ?_
    intro _ h₂ hsame
    have hQ₂ := hstable h₁ h₂ hQ₁ hsame
    refine ⟨trivial, ?_⟩
    intro _ h₃ ho
    exact ⟨trivial, hstable h₂ h₃ hQ₂ (ho.message fun _ => rfl)⟩

lemma always_run (mayFail : Effect → Prop) (hh : Holds file place content h) :
    (run file out options page quiet).run.Always mayFail (fun _ => True)
      (Ends mayFail file out place content) h := by
  unfold run
  refine (always_readSource mayFail file h).except_bind ?_ ?_
  · rintro text h₁ - ⟨rfl, -⟩
    refine ((always_document mayFail file options text h₁).lift
      (R := fun r h' => h₁.SameFiles h') fun _ _ hd => hd.2).except_bind ?_ ?_
    · intro d h₂ _ hsame
      have hh₂ := hh.of_extends hsame.extends
      have hmade := always_makeDirectories mayFail out h₂
      refine (always_elseFail_keeps hmade.atEnd).except_bind ?_ ?_
      · rintro ⟨⟩ h₃ - hk
        have hh₃ := hh₂.of_extends hk
        refine (always_writeIndex mayFail (d.page page).toUTF8 hh₃).except_bind ?_ ?_
        · rintro ⟨⟩ h₄ - hp
          refine (always_copySource mayFail hp).except_bind ?_ ?_
          · exact fun _ _ _ hends => always_messages (fun _ _ => Ends.of_sameFiles) hends _ _ _ _ _
          · exact fun _ _ hends => hends
        · exact fun _ _ hfailed => hfailed
      · exact fun _ _ hk => Failed.of_holds (hh₂.of_extends hk)
    · exact fun _ _ hsame => Failed.of_holds (hh.of_extends hsame.extends)
  · rintro e h₁ rfl
    exact Failed.of_holds hh

lemma always_run_of_unreadable (mayFail : Effect → Prop)
    (hnone : ∀ content, h.disk.read h.workingDirectory file ≠ .ok content) :
    (run file out options page quiet).run.Always mayFail (fun _ => True)
      (fun r h' => h' = h ∧ ∃ e, r = .error e) h := by
  unfold run
  refine (always_readSource mayFail file h).except_bind ?_ ?_
  · rintro text h₁ - ⟨-, hread⟩
    exact (hnone _ hread).elim
  · rintro e h₁ rfl
    exact ⟨rfl, e, rfl⟩

lemma always_read (mayFail : Effect → Prop) (h : Host) (file out : String) (options : ParseOptions)
    (page : PageSettings) (quiet : Bool) :
    (run file out options page quiet).run.Always mayFail (fun _ => True)
      (fun r h' =>
        (¬Beside file out h' →
          h'.disk.read h'.workingDirectory file = h.disk.read h.workingDirectory file) ∧
        (r = .ok () → Beside file out h' →
          h'.disk.read h'.workingDirectory file = .ok ByteArray.empty) ∧
        ((∀ e, ¬mayFail e) → r ≠ .ok () →
          h'.disk.read h'.workingDirectory file = h.disk.read h.workingDirectory file)) h := by
  rcases hread : h.disk.read h.workingDirectory file with cause | content
  · refine (always_run_of_unreadable mayFail (by simp [hread])).mono (fun _ _ => trivial) ?_
    rintro r h' ⟨rfl, e, rfl⟩
    exact ⟨fun _ => hread, nofun, fun _ _ => hread⟩
  · obtain ⟨place, executable, hfile⟩ := Disk.exists_file?_of_read hread
    have hh : Holds file place content h := ⟨executable, hfile⟩
    refine (always_run mayFail hh).mono (fun _ _ => trivial) ?_
    rintro (e | ⟨⟩) h' hends
    · obtain ⟨hleft, hkept⟩ := hends
      refine ⟨fun hnot => (hleft.resolve_right hnot).read_eq, nofun, ?_⟩
      exact fun hnone _ => (hkept hnone).read_eq
    · refine ⟨fun hnot => ?_, fun _ hb => ?_, fun _ hne => (hne rfl).elim⟩
      · rcases hends with ⟨hh', -⟩ | ⟨-, hb⟩
        · exact hh'.read_eq
        · exact (hnot hb).elim
      · rcases hends with ⟨-, hnot⟩ | ⟨hh', -⟩
        · exact (hnot hb).elim
        · exact hh'.read_eq

/-- A build that does not write into the directory of its source leaves the source as it was, however
it ends and whatever goes wrong. A build that does, and succeeds, leaves it empty. If nothing goes
wrong on the way, an error leaves the source as it was as well. The condition is exact for disks
without links, on which the copy of a source is the source itself in no other case. -/
theorem read_source_after_run (h : Host) (file out : String) (options : ParseOptions)
    (page : PageSettings) (quiet : Bool) :
    (∀ r h', Reaches (fun _ => True) (run file out options page quiet).run h (.done r) h' →
      (¬Beside file out h' →
        h'.disk.read h'.workingDirectory file = h.disk.read h.workingDirectory file) ∧
      (r = .ok () → Beside file out h' →
        h'.disk.read h'.workingDirectory file = .ok ByteArray.empty)) ∧
    ((h.run (run file out options page quiet).run).1 ≠ .ok () →
      (h.run (run file out options page quiet).run).2.disk.read
        (h.run (run file out options page quiet).run).2.workingDirectory file =
          h.disk.read h.workingDirectory file) := by
  refine ⟨?_, ?_⟩
  · intro r h' hreach
    have hend := hreach.always (always_read (fun _ => True) h file out options page quiet)
    obtain ⟨hkept, hempty, -⟩ := hend.2
    exact ⟨hkept, hempty⟩
  · have hend := (always_read (fun _ => False) h file out options page quiet).run
    exact hend.2.2 fun _ => not_false

/-- A source in the working directory is lost when it is built into that directory. -/
theorem read_source_after_run_beside :
    let h : Host := ⟨⟨[(["a.md"], .file "A".toUTF8 false)]⟩, [], fun _ _ _ => .error .notFound,
      "", [], none, []⟩
    let program := (run "a.md" "." .default default true).run
    h.disk.read h.workingDirectory "a.md" = .ok "A".toUTF8 ∧ (h.run program).1 = .ok () ∧
      (h.run program).2.disk.read (h.run program).2.workingDirectory "a.md" =
        .ok ByteArray.empty := by
  intro h program
  have hok : (h.run program).1 = .ok () := by decide +kernel
  have hbeside : Beside "a.md" "." (h.run program).2 :=
    ⟨[], "a.md", by decide +kernel, by decide +kernel⟩
  refine ⟨by decide +kernel, hok, ?_⟩
  exact ((read_source_after_run h "a.md" "." .default default true).1 _ _
    (.run _ program h)).2 hok hbeside

end Runs

end Folio.Build
