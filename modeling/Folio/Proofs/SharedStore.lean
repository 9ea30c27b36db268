import Folio.Proofs.StoredValues

/-!
# Stores that are shared

Any number of writers put values under one key while any number of readers ask for it. Whatever the
order of their steps, and even if a writer fails or stops for good between two of them, a reader is
given the whole value that was the last to take its place before it read.
-/

namespace Folio

namespace Disk

variable {d d' : Disk} {outer place goal names : List String} {t : String}

lemma enter_eq_ok_cases {next : List String} {name : String} (h : d.enter place name = .ok next) :
    next = place ∨ next = place.dropLast ∨ next = place ++ [name] := by
  rw [enter, isDirectory_of_enter h] at h
  simp only at h
  split at h
  · exact .inl (Except.ok.inj h).symm
  · split at h
    · exact .inr (.inl (Except.ok.inj h).symm)
    · split at h
      · cases h
      · exact .inr (.inr (Except.ok.inj h).symm)

/-- A path stays out of something if it starts outside of it and does not name it. -/
lemma not_prefix_of_enter {next : List String} {name : String} (hname : t ≠ name)
    (hplace : ¬outer ++ [t] <+: place) (h : d.enter place name = .ok next) :
    ¬outer ++ [t] <+: next := by
  rcases enter_eq_ok_cases h with rfl | rfl | rfl
  · exact hplace
  · exact fun hbegins => hplace (hbegins.trans (List.dropLast_prefix place))
  · rw [List.prefix_concat_iff]
    rintro (heq | hbegins)
    · exact hname (List.append_inj' heq rfl |>.2 |> List.singleton_inj.mp)
    · exact hplace hbegins

lemma follow_of_notMem (hsame : ∀ p, p ≠ outer ++ [t] → d'.entry? p = d.entry? p)
    (hnames : t ∉ names) (hplace : ¬outer ++ [t] <+: place) :
    d'.follow place names = d.follow place names ∧
      ∀ goal, d.follow place names = .ok goal → ¬outer ++ [t] <+: goal := by
  induction names generalizing place with
  | nil =>
    refine ⟨rfl, fun goal hgoal => ?_⟩
    obtain rfl : place = goal := Except.ok.inj hgoal
    exact hplace
  | cons name names ih =>
    have hne : place ≠ outer ++ [t] := fun heq => hplace (heq ▸ List.prefix_rfl)
    have henter : d'.enter place name = d.enter place name := by
      rw [enter, enter, hsame place hne]
    rw [follow_cons, follow_cons, henter]
    rcases hnext : d.enter place name with e | next
    · refine ⟨rfl, ?_⟩
      rintro goal ⟨⟩
    · have hname : t ≠ name := fun heq => hnames (heq ▸ List.mem_cons_self)
      exact ih (fun hmem => hnames (List.mem_cons_of_mem name hmem))
        (not_prefix_of_enter hname hplace hnext)

end Disk

/-- Whether an effect that was answered has put a file in its place. -/
def Effect.isPublication : (e : Effect) → e.Answer → Bool
  | rename .., .ok () => true
  | _, _ => false

def Program.answer? : Program α → Option α
  | done a => some a
  | perform .. => none

namespace Store

section Paths

variable {s : Store} {key : String} {dir : List String} {t : String} {h h' : Host}

/-- The path of a key leads on from the store's directory, unless the key is an absolute path. -/
lemma exists_follow_keyPath (hdir : h.disk.directory? h.workingDirectory
      (if s.directory.isEmpty then "." else s.directory) = .ok dir) (key : String) :
    ∃ place, place.length ≤ dir.length ∧ ∀ d, h.disk.KeepsDirectories d →
      d.follow (if Path.isAbsolute (s.keyPath key) then [] else h.workingDirectory)
        (Path.rawNames (s.keyPath key)) = d.follow place (Path.rawNames (key ++ ".json")) := by
  by_cases hkey : (key ++ ".json").startsWith '/' = true
  · have hpath : s.keyPath key = key ++ ".json" := by
      rw [keyPath, Path.join, hkey, Bool.true_or, if_pos rfl]
    refine ⟨[], Nat.zero_le _, fun d _ => ?_⟩
    rw [hpath, Path.isAbsolute, hkey, if_pos rfl]
  · have hrelative : (key ++ ".json").startsWith '/' = false := by simpa using hkey
    refine ⟨dir, le_rfl, fun d hkeeps => ?_⟩
    rw [keyPath, Path.isAbsolute_join _ hrelative, Path.rawNames_join _ hrelative,
      Disk.follow_append, hkeeps.follow (Disk.follow_of_directory? hdir).2]
    rfl

/-- Two hosts that differ at most in a temporary file of a store. -/
structure Differs (s : Store) (dir : List String) (t : String) (h h' : Host) : Prop where
  directory : h.disk.directory? h.workingDirectory
    (if s.directory.isEmpty then "." else s.directory) = .ok dir
  notDirectory : h.disk.entry? (dir ++ [t]) ≠ some .directory
  same : h.SameFilesBut (dir ++ [t]) h'

lemma Differs.locate_keyPath (hd : s.Differs dir t h h')
    (hkey : t ∉ Path.rawNames (key ++ ".json")) :
    h'.disk.locate h'.workingDirectory (s.keyPath key) =
        h.disk.locate h.workingDirectory (s.keyPath key) ∧
      ∀ place, h.disk.locate h.workingDirectory (s.keyPath key) = .ok place →
        place ≠ dir ++ [t] := by
  obtain ⟨place, hlength, hfollow⟩ := exists_follow_keyPath hd.directory key
  have hplace : ¬dir ++ [t] <+: place := by
    intro hbegins
    have hle := hbegins.length_le
    rw [List.length_append, List.length_singleton] at hle
    omega
  obtain ⟨hsame, hgoal⟩ := Disk.follow_of_notMem hd.same.entry? hkey hplace
  have hhere := hfollow h.disk fun _ hp => hp
  have hthere := hfollow h'.disk (hd.same.keepsDirectories hd.notDirectory)
  constructor
  · unfold Disk.locate
    rw [hd.same.workingDirectory, hthere, hhere, hsame]
  · rintro goal hlocate rfl
    obtain ⟨-, -, -, hlocate⟩ := Disk.locate_eq_ok.mp hlocate
    exact hgoal _ (hhere ▸ hlocate) List.prefix_rfl

/-- A store yields for a key what it would without the temporary file. -/
lemma Differs.run_get (hd : s.Differs dir t h h') (hkey : t ∉ Path.rawNames (key ++ ".json"))
    (read? : String → Option α) :
    (h'.run (s.get key read?).run).1 = (h.run (s.get key read?).run).1 := by
  obtain ⟨hlocate, hne⟩ := hd.locate_keyPath hkey
  have hfile : h'.disk.file? h'.workingDirectory (s.keyPath key) =
      h.disk.file? h.workingDirectory (s.keyPath key) := by
    unfold Disk.file?
    rw [hlocate]
    rcases hplace : h.disk.locate h.workingDirectory (s.keyPath key) with e | place
    · rfl
    · simp only [bind, Except.bind, hd.same.entry? place (hne place hplace)]
  rw [Store.run_get, Store.run_get, Disk.read, Disk.read, hfile]

end Paths

section Files

variable {s : Store} {key : String} {v : Json} {dir : List String} {t : String}
  {content bytes : ByteArray} {h h' : Host}

/-- A temporary file of a store holds `content`. -/
structure Holds (s : Store) (dir : List String) (t : String) (content : ByteArray) (h : Host) :
    Prop where
  directory : h.disk.directory? h.workingDirectory
    (if s.directory.isEmpty then "." else s.directory) = .ok dir
  temporary : ∃ n, t = Disk.candidate Host.temporaryStem n
  file : h.disk.file? h.workingDirectory (Path.join s.directory t) =
    .ok (dir ++ [t], content, false)

lemma Holds.differs (hh : s.Holds dir t content h) (hsame : h.SameFilesBut (dir ++ [t]) h') :
    s.Differs dir t h h' := by
  obtain ⟨-, hentry, -⟩ := Disk.file?_eq_ok.mp hh.file
  exact ⟨hh.directory, by simp [hentry], hsame⟩

/-- A new temporary file is empty, and nobody held one of its name. -/
lemma exists_holds_of_createFresh {path : String} {d : Disk}
    (hfresh : h.disk.createFresh h.workingDirectory s.directory Host.temporaryStem
      (.file ByteArray.empty false) = .ok (path, d)) :
    ∃ dir t, path = Path.join s.directory t ∧ s.Differs dir t h { h with disk := d } ∧
      s.Holds dir t ByteArray.empty { h with disk := d } ∧
        ∀ dir' content, ¬s.Holds dir' t content h := by
  obtain ⟨dir, rfl, hw⟩ := writing_of_createFresh hfresh
  have hnone := Disk.entry?_freshName h.disk dir Host.temporaryStem
  have hkeeps := hw.same.keepsDirectories (by simp [hnone])
  refine ⟨dir, h.disk.freshName dir Host.temporaryStem, rfl,
    ⟨hw.directory, by simp [hnone], hw.same⟩,
    ⟨hkeeps.directory? hw.directory, Disk.exists_freshName_eq .., hw.file⟩, ?_⟩
  intro dir' content hh
  obtain rfl : dir = dir' := Except.ok.inj (hw.directory.symm.trans hh.directory)
  obtain ⟨-, hentry, -⟩ := Disk.file?_eq_ok.mp hh.file
  rw [hnone] at hentry
  cases hentry

lemma Holds.append (hh : s.Holds dir t content h) {d : Disk}
    (happend : h.disk.append h.workingDirectory (Path.join s.directory t) bytes = .ok d) :
    s.Differs dir t h { h with disk := d } ∧
      s.Holds dir t (content ++ bytes) { h with disk := d } := by
  obtain ⟨rfl, hfile⟩ := Disk.append_of_file? hh.file happend
  have hd := hh.differs (h.sameFilesBut_put (dir ++ [t]) (.file (content ++ bytes) false))
  have hkeeps := hd.same.keepsDirectories hd.notDirectory
  exact ⟨hd, hkeeps.directory? hh.directory, hh.temporary, hfile⟩

lemma Holds.remove (hh : s.Holds dir t content h) {d : Disk}
    (hremove : h.disk.remove h.workingDirectory (Path.join s.directory t) = .ok d) :
    s.Differs dir t h { h with disk := d } := by
  obtain ⟨place, old, executable, hfile, rfl⟩ := Disk.remove_eq_ok.mp hremove
  rw [hh.file] at hfile
  cases hfile
  exact hh.differs ⟨rfl, fun p hp => Disk.entry?_erase_of_ne h.disk hp⟩

/-- Other files than the temporary one are still held. -/
lemma Holds.of_differs {dir' : List String} {t' : String} (hh : s.Holds dir' t' content h)
    (hd : s.Differs dir t h h') (hne : t' ≠ t) : s.Holds dir' t' content h' := by
  have hkeeps := hd.same.keepsDirectories hd.notDirectory
  have hplace : dir' ++ [t'] ≠ dir ++ [t] := fun heq =>
    hne (List.singleton_inj.mp (List.append_inj_right' heq rfl))
  refine ⟨?_, hh.temporary, hd.same.file? hd.notDirectory hplace hh.file⟩
  rw [hd.same.workingDirectory]
  exact hkeeps.directory? hh.directory

/-- Temporary files are still held after a file was put in the place of a key. -/
lemma Holds.of_put {place : List String} (hh : s.Holds dir t content h)
    (hkey : t ∉ Path.rawNames (key ++ ".json"))
    (hlocate : h.disk.locate h.workingDirectory (s.keyPath key) = .ok place)
    (hplace : h.disk.entry? place ≠ some .directory) (e : Disk.Entry) :
    s.Holds dir t content { h with disk := h.disk.put place e } := by
  have hne := ((hh.differs ⟨rfl, fun _ _ => rfl⟩).locate_keyPath hkey).2 place hlocate
  have hsame := h.sameFilesBut_put place e
  exact ⟨(hsame.keepsDirectories hplace).directory? hh.directory, hh.temporary,
    hsame.file? hplace hne.symm hh.file⟩

/-- What a step of a writer does on a host, when it held the file `own` before and holds `own'`
afterwards. -/
structure Moves (s : Store) (key : String) (v : Json) (own own' : Option (String × ByteArray))
    (publishes : Bool) (h h' : Host) : Prop where
  holds : ∀ t content, own' = some (t, content) → ∃ dir, s.Holds dir t content h'
  /-- A new temporary file is one that nobody holds. -/
  fresh : ∀ t content, own' = some (t, content) →
    own.map Prod.fst = some t ∨ ∀ dir content, ¬s.Holds dir t content h
  others : ∀ dir t content, own.map Prod.fst ≠ some t → s.Holds dir t content h →
    s.Holds dir t content h'
  reads : (h'.run (s.get key readValue?).run).1 =
    if publishes then .ok (some v.sorted) else (h.run (s.get key readValue?).run).1

section Moves

variable {own own' : Option (String × ByteArray)}

/-- A step after which no temporary file is held. -/
lemma moves_none {publishes : Bool}
    (hothers : ∀ dir t content, own.map Prod.fst ≠ some t → s.Holds dir t content h →
      s.Holds dir t content h')
    (hreads : (h'.run (s.get key readValue?).run).1 =
      if publishes then .ok (some v.sorted) else (h.run (s.get key readValue?).run).1) :
    s.Moves key v own none publishes h h' :=
  ⟨fun _ _ heq => (nomatch heq), fun _ _ heq => (nomatch heq), hothers, hreads⟩

/-- A step that changes nothing; the file may be left where it is. -/
lemma moves_of_idle (hown : ∀ t content, own = some (t, content) → ∃ dir, s.Holds dir t content h)
    (hown' : own' = own ∨ own' = none) : s.Moves key v own own' false h h := by
  rcases hown' with rfl | rfl
  · exact ⟨hown, fun t content heq => .inl (by rw [heq]; rfl), fun _ _ _ _ hh => hh, rfl⟩
  · exact moves_none (fun _ _ _ _ hh => hh) rfl

/-- A step that changes the temporary file only, a new one or the one that was held. -/
lemma Differs.moves (hd : s.Differs dir t h h') (hkey : t ∉ Path.rawNames (key ++ ".json"))
    (hown : own.map Prod.fst = some t ∨
      own = none ∧ ∀ dir content, ¬s.Holds dir t content h)
    (hown' : own' = none ∨ ∃ content, own' = some (t, content) ∧ s.Holds dir t content h') :
    s.Moves key v own own' false h h' := by
  have hothers : ∀ dir' t' content, own.map Prod.fst ≠ some t' → s.Holds dir' t' content h →
      s.Holds dir' t' content h' := by
    intro dir' t' content hne hh
    refine hh.of_differs hd ?_
    rintro rfl
    rcases hown with hown | ⟨-, hnone⟩
    · exact hne hown
    · exact hnone dir' content hh
  rcases hown' with rfl | ⟨content, rfl, hh⟩
  · exact moves_none hothers (hd.run_get hkey readValue?)
  · refine ⟨?_, ?_, hothers, hd.run_get hkey readValue?⟩
    · rintro _ _ ⟨⟩
      exact ⟨dir, hh⟩
    · rintro _ _ ⟨⟩
      exact hown.imp id fun hnone => hnone.2

/-- The step in which the value takes its place. -/
lemma Holds.moves_of_rename (hh : s.Holds dir t v.compact.toUTF8 h) (hv : IsStorable v)
    (hkey : ∀ n, Disk.candidate Host.temporaryStem n ∉ Path.rawNames (key ++ ".json")) {d : Disk}
    (hrename : h.disk.rename h.workingDirectory (Path.join s.directory t) (s.keyPath key) = .ok d) :
    s.Moves key v (some (t, v.compact.toUTF8)) none true h { h with disk := d } := by
  obtain ⟨source, text, executable, place, hfile, hlocate, hentry, hmeans, rfl⟩ :=
    Disk.rename_eq_ok.mp hrename
  rw [hh.file] at hfile
  cases hfile
  have hfresh : ∀ dir t content, s.Holds dir t content h → t ∉ Path.rawNames (key ++ ".json") := by
    rintro dir t content ⟨-, ⟨n, rfl⟩, -⟩
    exact hkey n
  have hd : s.Differs dir t h { h with disk := h.disk.erase (dir ++ [t]) } :=
    hh.differs ⟨rfl, fun p hp => Disk.entry?_erase_of_ne h.disk hp⟩
  obtain ⟨hlocated, hne⟩ := hd.locate_keyPath (hfresh dir t _ hh)
  rw [hlocate] at hlocated
  have hplace : Disk.entry? (h.disk.erase (dir ++ [t])) place ≠ some .directory := by
    rwa [Disk.entry?_erase_of_ne h.disk (hne place hlocate)]
  apply moves_none
  · intro dir' t' content hother hh'
    have hne' : t' ≠ t := fun heq => hother (by rw [heq]; rfl)
    exact (hh'.of_differs hd hne').of_put (hfresh dir' t' content hh') hlocated hplace _
  · have hread :=
      Disk.read_eq_of_file? (Disk.file?_put v.compact.toUTF8 false hlocated hplace hmeans)
    rw [Store.run_get, if_pos rfl, hread]
    exact valueOf_toUTF8 (readValue?_compact hv)

end Moves

end Files

/-- The end of a put, once the value is in a temporary file. -/
def publish (s : Store) (key temporary : String) : Program (Except StorageError Unit) := do
  match ← Effect.act (.rename temporary (s.keyPath key)) with
  | .error e => discard temporary (s.keyPath key) e
  | .ok () => return .ok ()

/-- What is left of a put when there is a temporary file. -/
def fill (s : Store) (key : String) (v : Json) (temporary : String) :
    Program (Except StorageError Unit) := do
  match ← Effect.act (.append temporary v.compact.toUTF8) with
  | .error e => discard temporary temporary e
  | .ok () => s.publish key temporary

/-- What is left of a put, and the temporary file that it works on then. -/
inductive Stage (s : Store) (key : String) (v : Json) :
    Option (String × ByteArray) → Program (Except StorageError Unit) → Prop
  | waiting : Stage s key v none (s.put key v).run
  | created (name : String) :
    Stage s key v (some (name, ByteArray.empty)) (s.fill key v (Path.join s.directory name))
  | written (name : String) :
    Stage s key v (some (name, v.compact.toUTF8)) (s.publish key (Path.join s.directory name))
  | failed (name : String) (content : ByteArray) (path : String) (cause : IoError) :
    Stage s key v (some (name, content)) (discard (Path.join s.directory name) path cause)
  | ended (r : Except StorageError Unit) : Stage s key v none (.done r)

/-- Each step of a writer leads to another stage of its put. -/
lemma Stage.step {mayFail : Effect → Prop} {s : Store} {key : String} {v : Json}
    {own : Option (String × ByteArray)} {p : Program (Except StorageError Unit)} {h h' : Host}
    {e : Effect} {next : e.Answer → Program (Except StorageError Unit)} {r : e.Answer}
    (hstage : Stage s key v own p) (hv : IsStorable v)
    (hkey : ∀ n, Disk.candidate Host.temporaryStem n ∉ Path.rawNames (key ++ ".json"))
    (hown : ∀ t content, own = some (t, content) → ∃ dir, s.Holds dir t content h)
    (hp : p = .perform e next) (ho : Outcome mayFail h e r h') :
    ∃ own', Stage s key v own' (next r) ∧ s.Moves key v own own' (e.isPublication r) h h' := by
  cases hstage with
  | waiting =>
    cases hp
    rcases ho.createTemporary with ⟨rfl, cause, rfl⟩ | ⟨path, d, hfresh, rfl, rfl⟩
    · exact ⟨none, .ended _, moves_of_idle hown (.inr rfl)⟩
    · obtain ⟨dir, t, rfl, hd, hh, hnobody⟩ := exists_holds_of_createFresh hfresh
      obtain ⟨n, rfl⟩ := hh.temporary
      exact ⟨_, .created _, hd.moves (hkey n) (.inr ⟨rfl, hnobody⟩) (.inr ⟨_, rfl, hh⟩)⟩
  | created name =>
    cases hp
    obtain ⟨dir, hh⟩ := hown _ _ rfl
    obtain ⟨n, rfl⟩ := hh.temporary
    rcases ho.append with (⟨rfl, cause, rfl, -⟩ | ⟨d, happend, rfl, rfl⟩) |
      ⟨-, ⟨cause, rfl⟩, part, d, happend, rfl⟩
    · exact ⟨_, .failed _ _ _ _, moves_of_idle hown (.inl rfl)⟩
    · obtain ⟨hd, hfull⟩ := hh.append happend
      rw [ByteArray.empty_append] at hfull
      exact ⟨_, .written _, hd.moves (hkey n) (.inl rfl) (.inr ⟨_, rfl, hfull⟩)⟩
    · obtain ⟨hd, hpart⟩ := hh.append happend
      exact ⟨_, .failed _ _ _ _, hd.moves (hkey n) (.inl rfl) (.inr ⟨_, rfl, hpart⟩)⟩
  | written name =>
    cases hp
    obtain ⟨dir, hh⟩ := hown _ _ rfl
    rcases ho.rename with ⟨rfl, cause, rfl, -⟩ | ⟨d, hrename, rfl, rfl⟩
    · exact ⟨_, .failed _ _ _ _, moves_of_idle hown (.inl rfl)⟩
    · exact ⟨none, .ended _, hh.moves_of_rename hv hkey hrename⟩
  | failed name content path cause =>
    cases hp
    obtain ⟨dir, hh⟩ := hown _ _ rfl
    obtain ⟨n, rfl⟩ := hh.temporary
    rcases ho.remove with ⟨rfl, cause', rfl, -⟩ | ⟨d, hremove, rfl, rfl⟩
    · exact ⟨none, .ended _, moves_of_idle hown (.inr rfl)⟩
    · exact ⟨none, .ended _, (hh.remove hremove).moves (hkey n) (.inl rfl) (.inl rfl)⟩
  | ended r => cases hp

variable {ι κ : Type}

/-- Writers and readers on one host. -/
structure Sharing (ι κ : Type) where
  host : Host
  writers : ι → Program (Except StorageError Unit)
  readers : κ → Program (Except StorageError (Option Json))

namespace Sharing

inductive Event (ι κ : Type) where
  /-- The value of a writer took its place. -/
  | published (i : ι)
  | answered (j : κ) (r : Except StorageError (Option Json))

/-- Nobody has made a step. -/
def start (s : Store) (key : String) (values : ι → Json) (h : Host) : Sharing ι κ :=
  ⟨h, fun i => (s.put key (values i)).run, fun _ => (s.get key readValue?).run⟩

section Steps

variable [DecidableEq ι] [DecidableEq κ]

/-- One of the writers or readers performs its next effect, which may be one that fails. -/
inductive Step (mayFail : Effect → Prop) :
    Sharing ι κ → Option (Event ι κ) → Sharing ι κ → Prop where
  | write {c : Sharing ι κ} (i : ι) {e : Effect} {next : e.Answer → Program _} {r : e.Answer}
    {h' : Host} (program : c.writers i = .perform e next)
    (outcome : Outcome mayFail c.host e r h') :
    Step mayFail c (if e.isPublication r then some (.published i) else none)
      { c with host := h', writers := Function.update c.writers i (next r) }
  | read {c : Sharing ι κ} (j : κ) {e : Effect} {next : e.Answer → Program _} {r : e.Answer}
    {h' : Host} (program : c.readers j = .perform e next)
    (outcome : Outcome mayFail c.host e r h') :
    Step mayFail c ((next r).answer?.map (.answered j))
      { c with host := h', readers := Function.update c.readers j (next r) }

/-- The events of some steps, latest first. -/
inductive Runs (mayFail : Effect → Prop) (c₀ : Sharing ι κ) :
    List (Event ι κ) → Sharing ι κ → Prop where
  | refl : Runs mayFail c₀ [] c₀
  | step {events : List (Event ι κ)} {event : Option (Event ι κ)} {c c' : Sharing ι κ}
    (before : Runs mayFail c₀ events c) (last : Step mayFail c event c') :
    Runs mayFail c₀ (event.toList ++ events) c'

end Steps

/-- The value that took its place last, or else the one that was there at the start. -/
def latest (values : ι → Json) (initial : Option Json) : List (Event ι κ) → Option Json
  | [] => initial
  | .published i :: _ => some (values i).sorted
  | .answered .. :: before => latest values initial before

section Runs

variable {mayFail : Effect → Prop} {s : Store} {key : String} {values : ι → Json}
  {initial : Option Json} {h h' : Host} {events : List (Event ι κ)} {c c' : Sharing ι κ}
  {own : ι → Option (String × ByteArray)}

/-- Each answer is the value that took its place last before it was given. -/
def Truthful (values : ι → Json) (initial : Option Json) (events : List (Event ι κ)) : Prop :=
  ∀ after before j r, events = after ++ .answered j r :: before →
    r = .ok (latest values initial before)

lemma Truthful.cons (hevents : Truthful values initial events) {event : Event ι κ}
    (hevent : ∀ j r, event = .answered j r → r = .ok (latest values initial events)) :
    Truthful values initial (event :: events) := by
  intro after before j r heq
  cases after with
  | nil =>
    obtain ⟨rfl, rfl⟩ := List.cons.inj heq
    exact hevent j r rfl
  | cons a after => exact hevents after before j r (List.cons.inj heq).2

/-- What holds after any steps, when each writer holds the temporary file that `own` tells. -/
structure Invariant (s : Store) (key : String) (values : ι → Json) (initial : Option Json)
    (own : ι → Option (String × ByteArray)) (events : List (Event ι κ)) (c : Sharing ι κ) :
    Prop where
  stage : ∀ i, Stage s key (values i) (own i) (c.writers i)
  holds : ∀ i t content, own i = some (t, content) → ∃ dir, s.Holds dir t content c.host
  /-- Two writers hold different files. -/
  apart : ∀ i i' t content content', own i = some (t, content) → own i' = some (t, content') →
    i = i'
  reads : (c.host.run (s.get key readValue?).run).1 = .ok (latest values initial events)
  readers : ∀ j, c.readers j = (s.get key readValue?).run ∨
    ∃ r, c.readers j = .done r ∧ .answered j r ∈ events
  truthful : Truthful values initial events

lemma invariant_start (hinitial : (h.run (s.get key readValue?).run).1 = .ok initial) :
    Invariant s key values initial (fun _ => none) [] (start s key values h : Sharing ι κ) where
  stage _ := .waiting
  holds _ _ _ heq := nomatch heq
  apart _ _ _ _ _ heq := nomatch heq
  reads := hinitial
  readers _ := .inl rfl
  truthful after before j r heq := by simp at heq

section Others

variable {i i' : ι} {own' : Option (String × ByteArray)} {publishes : Bool} {t : String}
  {content content' : ByteArray}

/-- The file that another writer holds is not the one that a step is about. -/
lemma Invariant.ne_of_held (hinv : Invariant s key values initial own events c) (hne : i' ≠ i)
    (hown : own i' = some (t, content)) : (own i).map Prod.fst ≠ some t := by
  intro heq
  obtain ⟨⟨t', content'⟩, hi, rfl⟩ := Option.map_eq_some_iff.mp heq
  exact hne (hinv.apart i' i _ _ _ hown hi)

lemma Invariant.holds_of_moves (hinv : Invariant s key values initial own events c)
    (hmoves : s.Moves key (values i) (own i) own' publishes c.host h') (hne : i' ≠ i)
    (hown : own i' = some (t, content)) : ∃ dir, s.Holds dir t content h' := by
  obtain ⟨dir, hh⟩ := hinv.holds i' t content hown
  exact ⟨dir, hmoves.others dir t content (hinv.ne_of_held hne hown) hh⟩

/-- After the step of a writer it holds no file of another. -/
lemma Invariant.apart_of_moves (hinv : Invariant s key values initial own events c)
    (hmoves : s.Moves key (values i) (own i) own' publishes c.host h') (hne : i' ≠ i)
    (hown : own i' = some (t, content)) : own' ≠ some (t, content') := by
  intro hown'
  rcases hmoves.fresh t content' hown' with heq | hnobody
  · exact hinv.ne_of_held hne hown heq
  · obtain ⟨dir, hh⟩ := hinv.holds i' t content hown
    exact hnobody dir content hh

end Others

/-- What a step of a writer preserves. -/
lemma Invariant.write [DecidableEq ι] (hinv : Invariant s key values initial own events c)
    (hvalues : ∀ i, IsStorable (values i))
    (hkey : ∀ n, Disk.candidate Host.temporaryStem n ∉ Path.rawNames (key ++ ".json")) {i : ι}
    {e : Effect} {next : e.Answer → Program _} {r : e.Answer}
    (hprogram : c.writers i = .perform e next) (ho : Outcome mayFail c.host e r h') :
    ∃ own', Invariant s key values initial own'
      ((if e.isPublication r then some (.published i) else none : Option (Event ι κ)).toList ++
        events)
      { c with host := h', writers := Function.update c.writers i (next r) } := by
  obtain ⟨own', hstage, hmoves⟩ :=
    (hinv.stage i).step (hvalues i) hkey (hinv.holds i) hprogram ho
  refine ⟨Function.update own i own', ?_, ?_, ?_, ?_, ?_, ?_⟩
  · intro i'
    by_cases hi : i' = i
    · subst hi
      simpa using hstage
    · simpa [hi] using hinv.stage i'
  · intro i' t content hown
    by_cases hi : i' = i
    · subst hi
      rw [Function.update_self] at hown
      exact hmoves.holds t content hown
    · rw [Function.update_of_ne hi] at hown
      exact hinv.holds_of_moves hmoves hi hown
  · intro i₁ i₂ t content₁ content₂ h₁ h₂
    by_cases hi₁ : i₁ = i <;> by_cases hi₂ : i₂ = i
    · rw [hi₁, hi₂]
    · subst hi₁
      rw [Function.update_self] at h₁
      rw [Function.update_of_ne hi₂] at h₂
      exact absurd h₁ (hinv.apart_of_moves hmoves hi₂ h₂)
    · subst hi₂
      rw [Function.update_of_ne hi₁] at h₁
      rw [Function.update_self] at h₂
      exact absurd h₂ (hinv.apart_of_moves hmoves hi₁ h₁)
    · rw [Function.update_of_ne hi₁] at h₁
      rw [Function.update_of_ne hi₂] at h₂
      exact hinv.apart i₁ i₂ t _ _ h₁ h₂
  · have hreads := hmoves.reads
    rcases hp : e.isPublication r <;> rw [hp] at hreads
    · exact hreads.trans hinv.reads
    · exact hreads
  · intro j
    exact (hinv.readers j).imp_right fun ⟨r, hr, hmem⟩ => ⟨r, hr, List.mem_append_right _ hmem⟩
  · rcases e.isPublication r
    · exact hinv.truthful
    · exact hinv.truthful.cons fun _ _ heq => nomatch heq

/-- What a step of a reader preserves. -/
lemma Invariant.read [DecidableEq κ] (hinv : Invariant s key values initial own events c)
    (hread : ¬mayFail (.readFile (s.keyPath key))) {j : κ}
    {e : Effect} {next : e.Answer → Program _} {r : e.Answer}
    (hprogram : c.readers j = .perform e next) (ho : Outcome mayFail c.host e r h') :
    Invariant s key values initial own (((next r).answer?.map (.answered j)).toList ++ events)
      { c with host := h', readers := Function.update c.readers j (next r) } := by
  rcases hinv.readers j with hget | ⟨r, hdone, -⟩
  swap
  · rw [hprogram] at hdone
    cases hdone
  rw [hprogram, get_run_eq] at hget
  cases hget
  obtain ⟨rfl, hr | ⟨hfault, -⟩⟩ := ho.readFile
  swap
  · exact absurd hfault hread
  have hanswer : valueOf (s.keyPath key) readValue? r = .ok (latest values initial events) := by
    rw [hr, ← hinv.reads, Store.run_get]
  refine ⟨hinv.stage, hinv.holds, hinv.apart, hinv.reads, fun j' => ?_, ?_⟩
  · by_cases hj : j' = j
    · subst hj
      refine .inr ⟨valueOf (s.keyPath key) readValue? r, ?_, List.mem_cons_self⟩
      simp only [Function.update_self]
      rfl
    · simp only [Function.update_of_ne hj]
      exact (hinv.readers j').imp_right fun ⟨r, hr, hmem⟩ => ⟨r, hr, List.mem_cons_of_mem _ hmem⟩
  · refine hinv.truthful.cons ?_
    rintro _ _ ⟨⟩
    exact hanswer

variable [DecidableEq ι] [DecidableEq κ]

/-- What any steps preserve. -/
lemma Runs.exists_invariant (hinitial : (h.run (s.get key readValue?).run).1 = .ok initial)
    (hvalues : ∀ i, IsStorable (values i))
    (hkey : ∀ n, Disk.candidate Host.temporaryStem n ∉ Path.rawNames (key ++ ".json"))
    (hread : ¬mayFail (.readFile (s.keyPath key)))
    (hruns : Runs mayFail (start s key values h) events c) :
    ∃ own, Invariant s key values initial own events c := by
  induction hruns with
  | refl => exact ⟨_, invariant_start hinitial⟩
  | step before last ih =>
    obtain ⟨own, hinv⟩ := ih
    cases last with
    | write i program outcome => exact hinv.write hvalues hkey program outcome
    | read j program outcome => exact ⟨own, hinv.read hread program outcome⟩

/-- Whatever the order of the steps and whichever of them fail, as long as reading works: a get
answers with the value of the put that was the last to take its place before, and with what was
there at the start if there is none. -/
theorem answered_latest (hinitial : (h.run (s.get key readValue?).run).1 = .ok initial)
    (hvalues : ∀ i, IsStorable (values i))
    (hkey : ∀ n, Disk.candidate Host.temporaryStem n ∉ Path.rawNames (key ++ ".json"))
    (hread : ¬mayFail (.readFile (s.keyPath key)))
    (hruns : Runs mayFail (start s key values h) events c) :
    (∀ after before j r, events = after ++ .answered j r :: before →
        r = .ok (latest values initial before)) ∧
      ∀ j, c.readers j = (s.get key readValue?).run ∨
        ∃ r, c.readers j = .done r ∧ .answered j r ∈ events := by
  obtain ⟨own, hinv⟩ := hruns.exists_invariant hinitial hvalues hkey hread
  exact ⟨hinv.truthful, hinv.readers⟩

/-- Lets one of the writers or readers make a step in which nothing fails, unless it is done. -/
def advance (run : List (Event ι κ) × Sharing ι κ) : ι ⊕ κ → List (Event ι κ) × Sharing ι κ
  | .inl i =>
    match run.2.writers i with
    | .done _ => run
    | .perform e next =>
      let (r, host) := run.2.host.step e
      ((if e.isPublication r then some (Event.published i) else none).toList ++ run.1,
        { run.2 with host, writers := Function.update run.2.writers i (next r) })
  | .inr j =>
    match run.2.readers j with
    | .done _ => run
    | .perform e next =>
      let (r, host) := run.2.host.step e
      (((next r).answer?.map (Event.answered j)).toList ++ run.1,
        { run.2 with host, readers := Function.update run.2.readers j (next r) })

/-- Every order in which they are to make steps is one in which they can. -/
lemma runs_advance (order : List (ι ⊕ κ)) :
    Runs mayFail c (order.foldl advance ([], c)).1 (order.foldl advance ([], c)).2 := by
  induction order using List.reverseRecOn with
  | nil => exact .refl
  | append_singleton order actor ih =>
    rw [List.foldl_concat]
    rcases actor with i | j
    · rw [advance]
      split
      · exact ih
      · next e next hprogram => exact .step ih (.write i hprogram (.works e))
    · rw [advance]
      split
      · exact ih
      · next e next hprogram => exact .step ih (.read j hprogram (.works e))

def numbered (i : Fin 2) : Json :=
  .array [.string (toString i.val), .number (.decimal "1.5")]

lemma isStorable_numbered (i : Fin 2) : IsStorable (numbered i) :=
  ⟨⟨trivial, rfl, trivial⟩, by decide +revert⟩

/-- Two writers, one of which overtakes the other, and readers between their steps. -/
def overtaking : List (Event (Fin 2) (Fin 4)) × Sharing (Fin 2) (Fin 4) :=
  [.inl 0, .inr 0, .inl 1, .inl 1, .inr 1, .inl 1, .inr 2, .inl 0, .inl 0, .inr 3].foldl advance
    ([], start ⟨"store"⟩ "k" numbered emptyStoreHost)

theorem answered_latest_overtaking :
    overtaking.1.length = 6 ∧
      (∀ after before j r, overtaking.1 = after ++ .answered j r :: before →
        r = .ok (latest numbered none before)) ∧
      ∀ j, overtaking.2.readers j = ((Store.mk "store").get "k" readValue?).run ∨
        ∃ r, overtaking.2.readers j = .done r ∧ .answered j r ∈ overtaking.1 := by
  have hkey : ∀ n, Disk.candidate Host.temporaryStem n ∉ Path.rawNames ("k" ++ ".json") := by
    intro n hmem
    exact candidate_ne_file n "k" (List.mem_singleton.mp hmem)
  have hruns : Runs (fun _ => False) (start ⟨"store"⟩ "k" numbered emptyStoreHost)
      overtaking.1 overtaking.2 := runs_advance _
  have hinitial :
      (emptyStoreHost.run ((Store.mk "store").get "k" readValue?).run).1 = .ok none := by
    rw [Store.run_get]
    exact valueOf_eq_ok_none.mpr (by decide +kernel)
  exact ⟨by decide +kernel,
    answered_latest hinitial isStorable_numbered hkey (by exact id) hruns⟩

end Runs

end Sharing

end Store

end Folio
