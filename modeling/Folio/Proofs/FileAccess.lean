import Folio.Proofs.Interruption
import Folio.Proofs.SameFiles

/-!
# Reading and writing files

Reading a text changes nothing, and what it yields depends only on the bytes of the file. Writing a
file anew changes at most the file at the place of its path, also when it fails or is interrupted.
-/

namespace Folio

open Program

def Host.Reads (mayFail : Effect → Prop) (h : Host) (path : String)
    (r : Except IoError ByteArray) : Prop :=
  r = h.disk.read h.workingDirectory path ∨
    mayFail (.readFile path) ∧ ∃ cause, r = .error cause

/-- The file of a path was emptied or made, and holds what was written since then. -/
structure Host.Rewriting (path : String) (place : List String) (content : ByteArray)
    (executable : Bool) (h h' : Host) : Prop where
  located : h.disk.locate h.workingDirectory path = .ok place
  notDirectory : h.disk.entry? place ≠ some .directory
  same : h.SameFilesBut place h'
  file : h'.disk.file? h'.workingDirectory path = .ok (place, content, executable)

/-- What writing a file anew can leave behind: everything as it was, or a change of that file. -/
def Host.WriteLeaves (path : String) (h h' : Host) : Prop :=
  h.SameFiles h' ∨
    ∃ place content executable, h.Rewriting path place content executable h'

/-- What writing a file anew leaves behind with an answer. -/
def Host.WriteYields (mayFail : Effect → Prop) (path : String) (bytes : ByteArray) (h : Host) :
    Except IoError Unit → Host → Prop
  | .ok (), h' => ∃ place executable, h.Rewriting path place bytes executable h'
  | .error _, h' => h.WriteLeaves path h' ∧ ((∀ e, ¬mayFail e) → h.SameFiles h')

/-- What copying a file leaves behind with an answer: the file is at `place` and holds `content`. -/
def Host.CopyYields (mayFail : Effect → Prop) (target : String) (place : List String)
    (content : ByteArray) (h : Host) : Except IoError Unit → Host → Prop
  | .ok (), h' => ∃ goal executable,
      h.Rewriting target goal (if goal = place then ByteArray.empty else content) executable h'
  | .error _, h' => h.WriteLeaves target h' ∧ ((∀ e, ¬mayFail e) →
      h.SameFiles h' ∧ ∃ cause, h.disk.truncate h.workingDirectory target = .error cause)

section Rewriting

variable {path : String} {place : List String} {content bytes : ByteArray} {executable : Bool}
  {h h' : Host} {d : Disk}

lemma Host.rewriting_of_truncate
    (htruncate : h.disk.truncate h.workingDirectory path = .ok d) :
    ∃ place executable,
      h.Rewriting path place ByteArray.empty executable { h with disk := d } := by
  obtain ⟨place, executable, hlocate, hentry, hmeans, rfl⟩ := Disk.truncate_eq_ok.mp htruncate
  have hnotDirectory : h.disk.entry? place ≠ some .directory := by
    rcases hentry with ⟨hnone, -⟩ | ⟨content, hfile⟩
    · simp [hnone]
    · simp [hfile]
  have hsame := h.sameFilesBut_put place (.file ByteArray.empty executable)
  refine ⟨place, executable, hlocate, hnotDirectory, hsame, ?_⟩
  exact Disk.file?_put _ _ hlocate hnotDirectory hmeans

lemma Host.Rewriting.keepsDirectories (hw : h.Rewriting path place content executable h') :
    h.disk.KeepsDirectories h'.disk := hw.same.keepsDirectories hw.notDirectory

lemma Host.Rewriting.append (hw : h.Rewriting path place content executable h')
    (happend : h'.disk.append h'.workingDirectory path bytes = .ok d) :
    h.Rewriting path place (content ++ bytes) executable { h' with disk := d } := by
  obtain ⟨rfl, hfile⟩ := Disk.append_of_file? hw.file happend
  exact ⟨hw.located, hw.notDirectory, hw.same.put _, hfile⟩

/-- Nothing but a fault prevents adding to a file that is being written. -/
lemma Host.Rewriting.append_ne_error (hw : h.Rewriting path place content executable h')
    (bytes : ByteArray) (cause : IoError) :
    h'.disk.append h'.workingDirectory path bytes ≠ .error cause := by
  intro herror
  rw [Disk.append, hw.file] at herror
  cases herror

/-- What a path that leads to a file leads to when another file, or the same, is being written. -/
lemma Host.Rewriting.file?_of_file? (hw : h.Rewriting path place content executable h')
    {source : String} {p : List String} {old : ByteArray} {x : Bool}
    (hfile : h.disk.file? h.workingDirectory source = .ok (p, old, x)) :
    ∃ y, h'.disk.file? h'.workingDirectory source =
      .ok (p, if place = p then content else old, y) := by
  by_cases hp : place = p
  · subst hp
    obtain ⟨hlocate, -, hmeans⟩ := Disk.file?_eq_ok.mp hfile
    obtain ⟨-, hentry, -⟩ := Disk.file?_eq_ok.mp hw.file
    refine ⟨executable, Disk.file?_eq_ok.mpr ⟨?_, by simpa using hentry, hmeans⟩⟩
    rw [hw.same.workingDirectory]
    exact hw.keepsDirectories.locate hlocate
  · refine ⟨x, ?_⟩
    rw [if_neg hp]
    exact hw.same.file? hw.notDirectory (Ne.symm hp) hfile

lemma Host.Rewriting.leaves (hw : h.Rewriting path place content executable h') :
    h.WriteLeaves path h' := .inr ⟨place, content, executable, hw⟩

end Rewriting

/-- An effect that cannot fail is a message, which does not reach the disk. -/
lemma Outcome.message_disk {mayFail : Effect → Prop} {h h' : Host} {e : Effect} {r : e.Answer}
    (ho : Outcome mayFail h e r h') (he : ∀ cause, e.failure? cause = none) :
    h'.disk = h.disk ∧ h'.workingDirectory = h.workingDirectory := by
  cases ho with
  | works =>
    cases e with
    | print text => exact ⟨rfl, rfl⟩
    | report line => exact ⟨rfl, rfl⟩
    | startLogging level => exact ⟨rfl, rfl⟩
    | log level area text =>
      simp only [Host.step]
      split <;> exact ⟨rfl, rfl⟩
    | _ => cases he .notFound
  | fails fault answer =>
    rw [he] at answer
    cases answer
  | cutShort => cases he .notFound

lemma Outcome.message {mayFail : Effect → Prop} {h h' : Host} {e : Effect} {r : e.Answer}
    (ho : Outcome mayFail h e r h') (he : ∀ cause, e.failure? cause = none) : h.SameFiles h' := by
  obtain ⟨hdisk, hdirectory⟩ := ho.message_disk he
  exact ⟨hdirectory, fun p => by rw [hdisk]⟩

namespace Program

def textOf : Except IoError ByteArray → Except IoError String
  | .error e => .error e
  | .ok bytes =>
    match String.fromUTF8? bytes with
    | some text => .ok text
    | none => .error .invalidText

lemma textOf_toUTF8 (text : String) : textOf (.ok text.toUTF8) = .ok text := by
  have hvalid : text.toUTF8.IsValidUTF8 := text.isValidUTF8
  have htext : String.fromUTF8? text.toUTF8 = some text := by
    unfold String.fromUTF8?
    rw [dif_pos hvalid]
    rfl
  simp only [textOf, htext]

lemma readText_eq (path : String) :
    readText path = (Effect.readFile path).act >>= fun r => pure (textOf r) := by
  unfold readText
  congr
  funext r
  cases r with
  | error e => rfl
  | ok bytes =>
    simp only [textOf]
    rcases String.fromUTF8? bytes with _ | text <;> rfl

/-- What a program does on a host that answers its first effect with `r`. -/
lemma run_perform_of_step {h h' : Host} {e : Effect} {next : e.Answer → Program α} {r : e.Answer}
    (hstep : h.step e = (r, h')) : h.run (.perform e next) = h'.run (next r) := by
  have hrun : h.run (.perform e next) = (h.step e).2.run (next (h.step e).1) := rfl
  rw [hrun, hstep]

/-- What a program does with the text of a file that can be read. -/
lemma run_readText_bind {ε : Type} {h : Host} {path text : String}
    (htext : textOf (h.disk.read h.workingDirectory path) = .ok text) (f : IoError → ε)
    (next : String → ExceptT ε Program α) :
    h.run ((readText path).elseFail f >>= next).run = h.run (next text).run := by
  rw [elseFail, readText_eq]
  change h.run (Program.bind
    (Program.bind (.done (textOf (h.disk.read h.workingDirectory path))) _) _) = _
  rw [htext]
  rfl

/-- Nothing is done with the text of a file that cannot be read. -/
lemma run_readText_bind_of_error {ε : Type} {h : Host} {path : String} {e : IoError}
    (htext : textOf (h.disk.read h.workingDirectory path) = .error e) (f : IoError → ε)
    (next : String → ExceptT ε Program α) :
    h.run ((readText path).elseFail f >>= next).run = (.error (f e), h) := by
  rw [elseFail, readText_eq]
  change h.run (Program.bind
    (Program.bind (.done (textOf (h.disk.read h.workingDirectory path))) _) _) = _
  rw [htext]
  rfl

variable {mayFail : Effect → Prop} {I : Host → Prop} {h : Host}

lemma always_message_bind {ε : Type} {Q : Except ε α → Host → Prop} {e : Effect}
    {f : e.Answer → ExceptT ε Program α} (he : ∀ cause, e.failure? cause = none) (hI : I h)
    (hf : ∀ r h', h.SameFiles h' → Program.Always mayFail I Q (f r).run h') :
    Program.Always mayFail I Q ((liftM e.act : ExceptT ε Program e.Answer) >>= f).run h :=
  ⟨hI, fun r h' ho => hf r h' (ho.message he)⟩

lemma always_readFile_bind {Q : α → Host → Prop} {path : String}
    {f : Except IoError ByteArray → Program α} (hI : I h)
    (hf : ∀ r, h.Reads mayFail path r → (f r).Always mayFail I Q h) :
    ((Effect.readFile path).act >>= f).Always mayFail I Q h := by
  refine always_act_bind hI ?_
  intro r h' hr
  obtain ⟨rfl, hreads⟩ := hr.readFile
  exact hf r hreads

lemma eq_toUTF8_of_textOf {r : Except IoError ByteArray} {text : String}
    (h : textOf r = .ok text) : r = .ok text.toUTF8 := by
  unfold textOf at h
  rcases r with e | bytes
  · cases h
  · simp only at h
    rcases htext : String.fromUTF8? bytes with _ | text'
    · rw [htext] at h
      cases h
    · rw [htext] at h
      cases h
      unfold String.fromUTF8? at htext
      split at htext
      · cases htext
        rfl
      · cases htext

/-- Reading a text changes nothing, and unless there is a fault it yields what the file holds. -/
lemma always_readText_yields (mayFail : Effect → Prop) (path : String) (h : Host) :
    (readText path).Always mayFail (fun _ => True) (fun r h' => h' = h ∧
      (r = textOf (h.disk.read h.workingDirectory path) ∨
        mayFail (.readFile path) ∧ ∃ cause, r = .error cause)) h := by
  rw [readText_eq]
  refine always_readFile_bind trivial ?_
  rintro r (rfl | ⟨hfault, cause, rfl⟩)
  · exact always_pure trivial ⟨rfl, .inl rfl⟩
  · exact always_pure trivial ⟨rfl, .inr ⟨hfault, cause, rfl⟩⟩

lemma always_readText (mayFail : Effect → Prop) (path : String) (h : Host) :
    (readText path).Always mayFail (fun _ => True) (fun r h' => h' = h ∧
      ∀ text, r = .ok text → h.disk.read h.workingDirectory path = .ok text.toUTF8) h := by
  refine (always_readText_yields mayFail path h).mono (fun _ _ => trivial) ?_
  rintro r h' ⟨rfl, rfl | ⟨-, cause, rfl⟩⟩
  · exact ⟨rfl, fun text htext => eq_toUTF8_of_textOf htext⟩
  · exact ⟨rfl, nofun⟩

lemma always_append {path : String} {place : List String} {content : ByteArray}
    {executable : Bool} {h h' : Host} (hw : h.Rewriting path place content executable h')
    (mayFail : Effect → Prop) (bytes : ByteArray) :
    (Effect.append path bytes).act.Always mayFail (h.WriteLeaves path)
      (fun r h'' => match r with
        | .ok () => h.Rewriting path place (content ++ bytes) executable h''
        | .error _ => h.WriteLeaves path h'' ∧ ∃ e, mayFail e) h' := by
  refine ⟨hw.leaves, ?_⟩
  intro r h'' hr
  rcases hr.append with (⟨rfl, cause, rfl, hfault⟩ | ⟨d, happend, rfl, rfl⟩) |
    ⟨hfault, ⟨cause, rfl⟩, part, d, happend, rfl⟩
  · rcases hfault with hfault | herror
    · exact ⟨hw.leaves, hw.leaves, _, hfault⟩
    · exact (hw.append_ne_error bytes cause herror).elim
  · have hw' := hw.append happend
    exact ⟨hw'.leaves, hw'⟩
  · have hw' := hw.append happend
    exact ⟨hw'.leaves, hw'.leaves, _, hfault⟩

lemma always_writeFile (mayFail : Effect → Prop) (path : String) (bytes : ByteArray) (h : Host) :
    (writeFile path bytes).Always mayFail (h.WriteLeaves path) (h.WriteYields mayFail path bytes)
      h := by
  have hidle : h.WriteLeaves path h := .inl (.refl h)
  refine always_act_bind hidle ?_
  intro r h₁ hr
  rcases hr.truncate with ⟨rfl, cause, rfl, -⟩ | ⟨d, htruncate, rfl, rfl⟩
  · exact always_pure hidle ⟨hidle, fun _ => .refl h₁⟩
  · obtain ⟨place, executable, hw⟩ := Host.rewriting_of_truncate htruncate
    refine (always_append hw mayFail bytes).mono (fun _ hleaves => hleaves) ?_
    rintro (cause | ⟨⟩) h₂ hadded
    · obtain ⟨hleaves, e, hfault⟩ := hadded
      exact ⟨hleaves, fun hnone => (hnone e hfault).elim⟩
    · rw [ByteArray.empty_append] at hadded
      exact ⟨place, executable, hadded⟩

/-- Copying empties the target before it reads the source: a file is lost when it is copied to its
own place. -/
lemma always_copyFile (mayFail : Effect → Prop) {source : String} (target : String) {h : Host}
    {place : List String} {content : ByteArray} {x : Bool}
    (hfile : h.disk.file? h.workingDirectory source = .ok (place, content, x)) :
    (copyFile source target).Always mayFail (h.WriteLeaves target)
      (h.CopyYields mayFail target place content) h := by
  have hidle : h.WriteLeaves target h := .inl (.refl h)
  refine always_readFile_bind hidle ?_
  rintro r (rfl | ⟨hfault, cause, rfl⟩)
  · rw [Disk.read_eq_of_file? hfile]
    refine always_act_bind hidle ?_
    intro r h₁ hr
    rcases hr.truncate with ⟨rfl, cause, rfl, hfault⟩ | ⟨d, htruncate, rfl, rfl⟩
    · refine always_pure hidle ⟨hidle, fun hnone => ⟨.refl h₁, cause, ?_⟩⟩
      exact hfault.resolve_left (hnone _)
    · obtain ⟨goal, executable, hw⟩ := Host.rewriting_of_truncate htruncate
      refine always_readFile_bind hw.leaves ?_
      rintro r (rfl | ⟨hfault, cause, rfl⟩)
      · obtain ⟨y, hfile'⟩ := hw.file?_of_file? hfile
        rw [Disk.read_eq_of_file? hfile']
        refine (always_append hw mayFail _).mono (fun _ hleaves => hleaves) ?_
        rintro (cause | ⟨⟩) h₂ hadded
        · obtain ⟨hleaves, e, hfault⟩ := hadded
          exact ⟨hleaves, fun hnone => (hnone e hfault).elim⟩
        · rw [ByteArray.empty_append] at hadded
          exact ⟨goal, executable, hadded⟩
      · exact always_pure hw.leaves ⟨hw.leaves, fun hnone => (hnone _ hfault).elim⟩
  · exact always_pure hidle ⟨hidle, fun hnone => (hnone _ hfault).elim⟩

section Directories

variable {path : String} {k : Host}

/-- A property of hosts stays when a directory is made. -/
def StableUnder (mayFail : Effect → Prop) (I : Host → Prop) (path : String) : Prop :=
  ∀ k r k', I k → Outcome mayFail k (.makeDirectory path) r k' → I k'

/-- Only when the directory is made anything changes. -/
lemma stableUnder_of_makeDirectory
    (hI : ∀ k d, I k → k.disk.makeDirectory k.workingDirectory path = .ok d →
      I { k with disk := d }) : StableUnder mayFail I path := by
  intro k r k' hk hr
  rcases hr.makeDirectory with ⟨rfl, -⟩ | ⟨d, hmake, -, rfl⟩
  · exact hk
  · exact hI k d hk hmake

lemma always_makeDirectoryOnce (hI : StableUnder mayFail I path) (hk : I k) :
    (makeDirectoryOnce path).Always mayFail I (fun _ h' => I h') k := by
  refine always_act_bind hk ?_
  rintro (cause | ⟨⟩) h₁ hr
  · have hk₁ := hI k _ h₁ hk hr
    refine always_act_bind hk₁ ?_
    intro isThere h₂ hr
    rw [hr.isDirectory]
    exact always_pure hk₁ hk₁
  · have hk₁ := hI k _ h₁ hk hr
    exact always_pure hk₁ hk₁

lemma always_makeDirectoryBelow {outer : List String}
    (hI : ∀ q ∈ path :: outer, StableUnder mayFail I q) (hk : I k) :
    (makeDirectoryBelow path outer).Always mayFail I (fun _ h' => I h') k := by
  have hpath := hI path List.mem_cons_self
  induction outer generalizing path k with
  | nil => exact always_makeDirectoryOnce hpath hk
  | cons parent outer ih =>
    have houter : ∀ q ∈ parent :: outer, StableUnder mayFail I q :=
      fun q hq => hI q (List.mem_cons_of_mem path hq)
    refine always_act_bind hk ?_
    intro r h₁ hr
    have hk₁ := hpath k r h₁ hk hr
    rcases r with cause | ⟨⟩
    · cases cause with
      | notFound =>
        refine (ih houter hk₁ (houter parent List.mem_cons_self)).bind ?_
        rintro (cause | ⟨⟩) h₂ - hk₂
        · exact always_pure hk₂ hk₂
        · exact always_makeDirectoryOnce hpath hk₂
      | _ =>
        refine always_act_bind hk₁ ?_
        intro isThere h₂ hr
        rw [hr.isDirectory]
        exact always_pure hk₁ hk₁
    · exact always_pure hk₁ hk₁

/-- What stays when any directory above a path is made stays when all of them are. -/
lemma always_makeDirectories_of (hI : ∀ q ∈ Path.directories path, StableUnder mayFail I q)
    (hk : I k) : (makeDirectories path).Always mayFail I (fun _ h' => I h') k := by
  unfold makeDirectories
  unfold Path.directories at hI
  split
  · exact always_pure hk hk
  · next hpath =>
    rw [if_neg hpath] at hI
    exact always_makeDirectoryBelow hI hk

lemma stableUnder_extends (mayFail : Effect → Prop) (h : Host) (path : String) :
    StableUnder mayFail h.Extends path := by
  refine stableUnder_of_makeDirectory fun k d hk hmake => ?_
  obtain ⟨place, -, hnone, rfl⟩ := Disk.makeDirectory_eq_ok.mp hmake
  exact hk.trans (k.extends_put hnone _)

lemma always_makeDirectories (mayFail : Effect → Prop) (path : String) (h : Host) :
    (makeDirectories path).Always mayFail h.Extends (fun _ h' => h.Extends h') h :=
  always_makeDirectories_of (fun q _ => stableUnder_extends mayFail h q) (.refl h)

end Directories

end Program

end Folio
