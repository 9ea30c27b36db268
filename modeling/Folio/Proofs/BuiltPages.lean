import Folio.Proofs.BuildSource

/-!
# What a build delivers

After a successful build the source's text is in its copy, and the page is in its place unless the
source has the name of the page: then both go to one place, and the copy is what is left there.
Besides these two files nothing changes, except that directories are made.
-/

namespace Folio

open Program

/-- Nothing but directories may be new. -/
structure Host.GainsDirectories (h h' : Host) : Prop where
  workingDirectory : h'.workingDirectory = h.workingDirectory
  entry? : ∀ p, h'.disk.entry? p = h.disk.entry? p ∨
    h.disk.entry? p = none ∧ h'.disk.entry? p = some .directory

section Directories

variable {h h' h'' : Host}

lemma Host.SameFiles.gainsDirectories (hh : h.SameFiles h') : h.GainsDirectories h' :=
  ⟨hh.workingDirectory, fun p => .inl (hh.entry? p)⟩

lemma Host.GainsDirectories.extends (hh : h.GainsDirectories h') : h.Extends h' := by
  refine ⟨hh.workingDirectory, fun p e he => ?_⟩
  rcases hh.entry? p with hsame | ⟨hnone, -⟩
  · rw [hsame, he]
  · rw [hnone] at he
    cases he

lemma stableUnder_gainsDirectories (mayFail : Effect → Prop) (h : Host) (path : String) :
    StableUnder mayFail h.GainsDirectories path := by
  refine stableUnder_of_makeDirectory fun k d hk hmake => ?_
  obtain ⟨place, -, hnone, rfl⟩ := Disk.makeDirectory_eq_ok.mp hmake
  refine ⟨hk.workingDirectory, fun p => ?_⟩
  by_cases hp : p = place
  · subst hp
    have hne : p ≠ [] := Disk.ne_nil_of_entry?_ne (d := k.disk) (by simp [hnone])
    refine .inr ⟨?_, Disk.entry?_put k.disk _ hne⟩
    rcases hk.entry? p with hsame | ⟨hnone', -⟩
    · rw [← hsame, hnone]
    · exact hnone'
  · simp only [Disk.entry?_put_of_ne k.disk _ hp]
    exact hk.entry? p

end Directories

namespace Build

/-- What has changed when a page was built and its source copied. The page is gone again if the
source has its name. -/
structure Delivered (file out text html : String) (h h' : Host) : Prop where
  source : h.disk.read h.workingDirectory file = .ok text.toUTF8
  sourceKept : h'.disk.read h'.workingDirectory file = .ok text.toUTF8
  copy : h'.disk.read h'.workingDirectory (copyPath file out) = .ok text.toUTF8
  index : h'.disk.read h'.workingDirectory (indexPath out) =
    .ok (if Path.fileName? file = some "index.html" then text else html).toUTF8
  others : ∀ p, h'.disk.locate h'.workingDirectory (indexPath out) ≠ .ok p →
    h'.disk.locate h'.workingDirectory (copyPath file out) ≠ .ok p →
    h'.disk.entry? p = h.disk.entry? p ∨
      h.disk.entry? p = none ∧ h'.disk.entry? p = some .directory

variable {file out text html : String} {place goal : List String} {x y : Bool}
  {h h₁ h₂ h₃ h₄ : Host}

lemma Delivered.of_sameFiles (hd : Delivered file out text html h h₁) (hsame : h₁.SameFiles h₂) :
    Delivered file out text html h h₂ where
  source := hd.source
  sourceKept := by rw [hsame.read_eq, hd.sourceKept]
  copy := by rw [hsame.read_eq, hd.copy]
  index := by rw [hsame.read_eq, hd.index]
  others p hindex hcopy := by
    rw [hsame.locate_eq] at hindex hcopy
    rw [hsame.entry?]
    exact hd.others p hindex hcopy

/-- The page and the copy of a source are in one place exactly if they have one name. -/
lemma eq_place_iff (hh : Holds file place text.toUTF8 h₂) {p₁ p₂ : List String}
    {bytes : ByteArray} (hindex : h₂.Rewriting (indexPath out) p₁ html.toUTF8 x h₃)
    (hcopy : h₃.Rewriting (copyPath file out) p₂ bytes y h₄) :
    p₂ = p₁ ↔ Path.fileName? file = some "index.html" := by
  obtain ⟨executable, hfile⟩ := hh
  obtain ⟨dir, name, -, hname, hfileName⟩ := Disk.exists_name_of_file? hfile
  have hpath : copyPath file out = Path.join out name := by rw [copyPath, hfileName]; rfl
  obtain ⟨dir₁, hdir₁, rfl⟩ := Disk.exists_directory_of_locate_join isPlain_index hindex.located
  have hlocated := hcopy.located
  rw [hpath] at hlocated
  obtain ⟨dir₂, hdir₂, rfl⟩ := Disk.exists_directory_of_locate_join hname hlocated
  have hdir := hindex.keepsDirectories.directory? hdir₁
  rw [hindex.same.workingDirectory, hdir] at hdir₂
  obtain rfl : dir₁ = dir₂ := Except.ok.inj hdir₂
  rw [hfileName, Option.some.injEq, List.append_cancel_left_eq, List.singleton_inj]

lemma delivered_of_rewriting (hgains : h.GainsDirectories h₂)
    (hh : Holds file place text.toUTF8 h) {p₁ p₂ : List String} {bytes : ByteArray}
    (hindex : h₂.Rewriting (indexPath out) p₁ html.toUTF8 x h₃)
    (hsource : Holds file place bytes h₃)
    (hcopy : h₃.Rewriting (copyPath file out) p₂
      (if p₂ = place then ByteArray.empty else bytes) y h₄)
    (hnot : ¬Beside file out h₄) : Delivered file out text html h h₄ := by
  have hnot₃ : ¬Beside file out h₃ := fun hb =>
    hnot (hb.of_keepsDirectories hcopy.same.workingDirectory hcopy.keepsDirectories)
  have hh₂ := hh.of_extends hgains.extends
  -- neither of the two files is the source
  have hne₁ : p₁ ≠ place := by
    rintro rfl
    exact hnot₃ (hh₂.of_rewriting_self isPlain_index hindex).2
  have hh₃ := hh₂.of_rewriting_ne hindex hne₁
  obtain ⟨dir, name, -, hname, hpath⟩ := hh₃.copyPath_eq out
  have hne₂ : p₂ ≠ place := by
    rintro rfl
    rw [hpath] at hcopy
    exact hnot (hh₃.of_rewriting_self hname hcopy).2
  have hbytes : bytes = text.toUTF8 := by
    have hread := hsource.read_eq
    rw [hh₃.read_eq] at hread
    exact (Except.ok.inj hread).symm
  rw [if_neg hne₂, hbytes] at hcopy
  obtain ⟨z, hpage⟩ := hcopy.file?_of_file? hindex.file
  exact
    { source := hh.read_eq
      sourceKept := (hh₃.of_rewriting_ne hcopy hne₂).read_eq
      copy := Disk.read_eq_of_file? hcopy.file
      index := by
        rw [Disk.read_eq_of_file? hpage]
        by_cases hname : Path.fileName? file = some "index.html"
        · rw [if_pos ((eq_place_iff hh₂ hindex hcopy).mpr hname), if_pos hname]
        · rw [if_neg fun heq => hname ((eq_place_iff hh₂ hindex hcopy).mp heq), if_neg hname]
      others := fun p hp₁ hp₂ => by
        have hne : p ≠ p₁ := by
          rintro rfl
          exact hp₁ (Disk.file?_eq_ok.mp hpage).1
        have hne' : p ≠ p₂ := by
          rintro rfl
          exact hp₂ (Disk.file?_eq_ok.mp hcopy.file).1
        rw [hcopy.same.entry? p hne', hindex.same.entry? p hne]
        exact hgains.entry? p }

section Runs

variable {options : ParseOptions} {page : PageSettings} {quiet : Bool}

/-- What holds when a build ends: if it worked, and not in the directory of the source, it has
delivered a page. -/
def Delivers (file out : String) (options : ParseOptions) (page : PageSettings) (h : Host)
    (r : Except BuildError Unit) (h' : Host) : Prop :=
  r = .ok () → ¬Beside file out h' →
    ∃ text, Delivered file out text ((documentOf options text).page page) h h'

lemma Delivers.of_sameFiles (hd : Delivers file out options page h (.ok ()) h₁)
    (hsame : h₁.SameFiles h₂) : Delivers file out options page h (.ok ()) h₂ := by
  intro _ hnot
  obtain ⟨text, hdelivered⟩ := hd rfl fun hb => hnot (hb.of_sameFiles hsame)
  exact ⟨text, hdelivered.of_sameFiles hsame⟩

/-- What comes after the directories are made. -/
lemma always_write_delivers (mayFail : Effect → Prop) (hgains : h.GainsDirectories h₁)
    (hh : Holds file place text.toUTF8 h) :
    ((do
      (writeText (indexPath out) ((documentOf options text).page page)).elseFail
        (BuildError.pageNotWritten (indexPath out))
      (copyFile file (copyPath file out)).elseFail (.sourceNotCopied (copyPath file out))
      Effect.act (.log .info "mdseo::build" ("built " ++ indexPath out ++ " from " ++ file))
      unless quiet do
        Effect.act (.print ("Built " ++ indexPath out ++ "\n"))
        Effect.act (.print ("  source: " ++ copyPath file out ++ "\n"))) :
          ExceptT BuildError Program Unit).run.Always mayFail (fun _ => True)
            (Delivers file out options page h) h₁ := by
  have hwritten := (always_writeFile mayFail (indexPath out)
    ((documentOf options text).page page).toUTF8 h₁).atEnd
  refine Always.except_bind (always_elseFail (R := fun r h' => r = .ok () → ∃ p x,
    h₁.Rewriting (indexPath out) p ((documentOf options text).page page).toUTF8 x h') hwritten
    (fun _ _ hr _ => hr) fun _ _ _ => nofun) ?_ fun _ _ _ => nofun
  rintro ⟨⟩ h₂ - hindex
  obtain ⟨p₁, x, hindex⟩ := hindex rfl
  obtain ⟨bytes, hsource, -⟩ := (hh.of_extends hgains.extends).paged hindex
  obtain ⟨executable, hfile⟩ := id hsource
  have hcopied := (always_copyFile mayFail (copyPath file out) hfile).atEnd
  refine Always.except_bind (always_elseFail (R := fun r h' => r = .ok () → ∃ p x,
    h₂.Rewriting (copyPath file out) p (if p = place then ByteArray.empty else bytes) x h') hcopied
    (fun _ _ hr _ => hr) fun _ _ _ => nofun) ?_ fun _ _ _ => nofun
  rintro ⟨⟩ h₃ - hcopy
  obtain ⟨p₂, y, hcopy⟩ := hcopy rfl
  refine always_messages (fun _ _ => Delivers.of_sameFiles) (fun _ hnot => ?_) _ _ _ _ _
  exact ⟨text, delivered_of_rewriting hgains hh hindex hsource hcopy hnot⟩

lemma always_run_delivers (mayFail : Effect → Prop) (file out : String) (options : ParseOptions)
    (page : PageSettings) (quiet : Bool) (h : Host) :
    (run file out options page quiet).run.Always mayFail (fun _ => True)
      (Delivers file out options page h) h := by
  unfold run
  refine (always_readSource mayFail file h).except_bind ?_ fun _ _ _ => nofun
  rintro text h₁ - ⟨rfl, hread⟩
  obtain ⟨place, executable, hfile⟩ := Disk.exists_file?_of_read hread
  have hh : Holds file place text.toUTF8 h₁ := ⟨executable, hfile⟩
  refine Always.except_bind ((always_document mayFail file options text h₁).lift
    (R := fun r h' => r = .ok (documentOf options text) ∧ h₁.SameFiles h')
    fun d _ hd => ⟨congrArg Except.ok hd.1, hd.2⟩) ?_ fun _ _ _ => nofun
  rintro d h₂ - ⟨hd, hsame⟩
  obtain rfl := Except.ok.inj hd
  have hstable : ∀ q ∈ Path.directories out, StableUnder mayFail h₁.GainsDirectories q :=
    fun q _ => stableUnder_gainsDirectories mayFail h₁ q
  have hmade := always_makeDirectories_of hstable hsame.gainsDirectories
  refine Always.except_bind (always_elseFail_keeps hmade.atEnd) ?_ fun _ _ _ => nofun
  rintro ⟨⟩ h₃ - hgains
  exact always_write_delivers mayFail hgains hh

/-- A build that works, and whose output directory is not the one of the source, puts the text of
the source into its copy. It delivers the page too, unless the source is called as the page is: then
the copy is written over the page. All other files are as they were. The conditions are exact for
disks without links. -/
theorem delivered_of_reaches (file out : String) (options : ParseOptions) (page : PageSettings)
    (quiet : Bool) {h h' : Host}
    (hreach : Reaches (fun _ => True) (run file out options page quiet).run h (.done (.ok ())) h')
    (hbeside : ¬Beside file out h') :
    ∃ text, Delivered file out text ((documentOf options text).page page) h h' :=
  (hreach.always (always_run_delivers _ file out options page quiet h)).2 rfl hbeside

/-- A source called as the page is. -/
theorem delivered_of_reaches_index :
    let h : Host := ⟨⟨[(["s", "index.html"], .file "# A".toUTF8 false), (["s"], .directory)]⟩, [],
      fun _ _ _ => .error .notFound, "", [], none, []⟩
    let program := (run "s/index.html" "dist" .default default true).run
    (h.run program).1 = .ok () ∧ ¬Beside "s/index.html" "dist" (h.run program).2 ∧
      (h.run program).2.disk.read (h.run program).2.workingDirectory (indexPath "dist") =
        .ok "# A".toUTF8 := by
  intro h program
  have hok : (h.run program).1 = .ok () := by decide +kernel
  have hfile : (h.run program).2.disk.locate (h.run program).2.workingDirectory "s/index.html" =
      .ok ["s", "index.html"] := by decide +kernel
  have hout : (h.run program).2.disk.directory? (h.run program).2.workingDirectory "dist" =
      .ok ["dist"] := by decide +kernel
  have hbeside : ¬Beside "s/index.html" "dist" (h.run program).2 := by
    rintro ⟨dir, name, hfile', hout'⟩
    obtain rfl : ["dist"] = dir := Except.ok.inj (hout.symm.trans hout')
    have hplace := Except.ok.inj (hfile.symm.trans hfile')
    simp at hplace
  have hreach := Reaches.run (fun _ => True) program h
  rw [hok] at hreach
  obtain ⟨text, hd⟩ := delivered_of_reaches "s/index.html" "dist" .default default true hreach
    hbeside
  have hsource : h.disk.read h.workingDirectory "s/index.html" = .ok "# A".toUTF8 := by
    decide +kernel
  have htext : text.toUTF8 = "# A".toUTF8 := Except.ok.inj (hd.source.symm.trans hsource)
  have hindex := hd.index
  rw [if_pos (by decide +kernel), htext] at hindex
  exact ⟨hok, hbeside, hindex⟩

end Runs

end Build

end Folio
