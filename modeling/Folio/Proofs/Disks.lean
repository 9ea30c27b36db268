import Folio.Files.Disk
import Folio.Proofs.Paths

/-!
# Disks

What an operation on a disk does, said once for each of them. A place stays what it is unless the
operation puts something there or takes it away, and a path leads to the same place as long as no
directory is lost.
-/

namespace Folio.Disk

section Places

lemma ne_nil_of_entry?_ne {d : Disk} {place : List String} (h : d.entry? place ≠ some .directory) :
    place ≠ [] := by
  rintro rfl
  exact h rfl

lemma lookup_filter (keep : List String → Bool) (entries : List (List String × Entry))
    {p : List String} (h : keep p = true) :
    (entries.filter (keep ·.1)).lookup p = entries.lookup p := by
  induction entries with
  | nil => rfl
  | cons e entries ih =>
    obtain ⟨q, e⟩ := e
    by_cases hq : keep q = true
    · rw [List.filter_cons_of_pos (by exact hq), List.lookup_cons, List.lookup_cons, ih]
    · have hne : p ≠ q := fun heq => hq (heq ▸ h)
      rw [List.filter_cons_of_neg (by exact hq), ih, List.lookup_cons, beq_eq_false_iff_ne.mpr hne]

lemma lookup_filter_eq_none (keep : List String → Bool) (entries : List (List String × Entry))
    {p : List String} (h : keep p = false) : (entries.filter (keep ·.1)).lookup p = none := by
  rw [List.lookup_eq_none_iff]
  intro e he
  have hkeep : keep e.1 = true := (List.mem_filter.mp he).2
  have hne : p ≠ e.1 := by
    rintro rfl
    rw [h] at hkeep
    cases hkeep
  exact bne_iff_ne.mpr hne

lemma put_put (d : Disk) (place : List String) (e e' : Entry) :
    (d.put place e).put place e' = d.put place e' := by
  simp [put, List.filter_filter]

lemma entry?_put (d : Disk) {place : List String} (e : Entry) (h : place ≠ []) :
    entry? (d.put place e) place = some e := by
  unfold entry? put
  simp [h]

lemma entry?_put_of_ne (d : Disk) {p place : List String} (e : Entry) (h : p ≠ place) :
    entry? (d.put place e) p = d.entry? p := by
  unfold entry? put
  have hbeq : (p == place) = false := beq_eq_false_iff_ne.mpr h
  have hkeep : (p != place) = true := bne_iff_ne.mpr h
  rw [List.lookup_cons, hbeq, lookup_filter (· != place) _ hkeep]

lemma entry?_erase (d : Disk) {place : List String} (h : place ≠ []) :
    entry? (d.erase place) place = none := by
  unfold entry? erase
  rw [if_neg h, lookup_filter_eq_none (· != place) _ (by simp)]

lemma entry?_erase_of_ne (d : Disk) {p place : List String} (h : p ≠ place) :
    entry? (d.erase place) p = d.entry? p := by
  unfold entry? erase
  rw [lookup_filter (· != place) _ (bne_iff_ne.mpr h)]

/-- Nothing is left at a place or below it. -/
lemma entry?_eraseTree (d : Disk) {p place : List String} (h : place ≠ []) (hp : place <+: p) :
    entry? (d.eraseTree place) p = none := by
  have hne : p ≠ [] := by
    rintro rfl
    exact h (List.prefix_nil.mp hp)
  unfold entry? eraseTree
  rw [if_neg hne, lookup_filter_eq_none (!place.isPrefixOf ·) _ (by simpa using hp)]

end Places

section Paths

/-- No directory of the first disk is missing in the second one. -/
def KeepsDirectories (d d' : Disk) : Prop :=
  ∀ p, d.entry? p = some .directory → d'.entry? p = some .directory

/-- All that is on the first disk is on the second one. -/
def KeepsEntries (d d' : Disk) : Prop :=
  ∀ p e, d.entry? p = some e → d'.entry? p = some e

lemma KeepsEntries.keepsDirectories {d d' : Disk} (h : KeepsEntries d d') :
    KeepsDirectories d d' := fun p hp => h p _ hp

lemma keepsEntries_put {d : Disk} {place : List String} (hnone : d.entry? place = none)
    (e : Entry) : KeepsEntries d (d.put place e) := by
  intro p old hold
  have hne : p ≠ place := by
    rintro rfl
    rw [hnone] at hold
    cases hold
  rwa [entry?_put_of_ne d e hne]

lemma keepsDirectories_put {d : Disk} {place : List String} (e : Entry)
    (h : d.entry? place ≠ some .directory) : KeepsDirectories d (d.put place e) := by
  intro p hp
  have hne : p ≠ place := by
    rintro rfl
    exact h hp
  rwa [entry?_put_of_ne d e hne]

/-- One step on a path: the place that a name leads to from a place. -/
def enter (d : Disk) (place : List String) (name : String) : Except IoError (List String) :=
  match d.entry? place with
  | none => .error .notFound
  | some (.file ..) => .error .notADirectory
  | some .directory =>
    if name = "." then .ok place
    else if name = ".." then .ok place.dropLast
    else if nameLimit < name.utf8ByteSize then .error .nameTooLong
    else .ok (place ++ [name])

lemma follow_cons (d : Disk) (place : List String) (name : String) (rest : List String) :
    d.follow place (name :: rest) = (d.enter place name).bind (d.follow · rest) := by
  rw [follow, enter]
  rcases d.entry? place with _ | ⟨content, executable⟩ | _
  · rfl
  · rfl
  · simp only
    split
    · rfl
    · split
      · rfl
      · split <;> rfl

lemma follow_append (d : Disk) (place names more : List String) :
    d.follow place (names ++ more) = (d.follow place names).bind (d.follow · more) := by
  induction names generalizing place with
  | nil => rfl
  | cons name names ih =>
    rw [List.cons_append, follow_cons, follow_cons]
    rcases d.enter place name with e | next
    · rfl
    · exact ih next

lemma isDirectory_of_enter {d : Disk} {place next : List String} {name : String}
    (h : d.enter place name = .ok next) : d.entry? place = some .directory := by
  unfold enter at h
  rcases hentry : d.entry? place with _ | ⟨content, executable⟩ | _
  · rw [hentry] at h
    cases h
  · rw [hentry] at h
    cases h
  · rfl

lemma KeepsDirectories.enter {d d' : Disk} (h : KeepsDirectories d d') {place next : List String}
    {name : String} (hnext : d.enter place name = .ok next) : d'.enter place name = .ok next := by
  have hplace := isDirectory_of_enter hnext
  unfold Disk.enter at hnext ⊢
  rw [h place hplace]
  rwa [hplace] at hnext

lemma KeepsDirectories.follow {d d' : Disk} (h : KeepsDirectories d d') {names : List String}
    {place goal : List String} (hgoal : d.follow place names = .ok goal) :
    d'.follow place names = .ok goal := by
  induction names generalizing place with
  | nil => exact hgoal
  | cons name names ih =>
    rw [follow_cons] at hgoal ⊢
    rcases hnext : d.enter place name with e | next
    · rw [hnext] at hgoal
      cases hgoal
    · rw [hnext] at hgoal
      rw [h.enter hnext]
      exact ih hgoal

lemma locate_eq_ok {d : Disk} {start place : List String} {path : String} :
    d.locate start path = .ok place ↔
      '\x00' ∉ path.toList ∧ path ≠ "" ∧ path.utf8ByteSize < pathLimit ∧
        d.follow (if Path.isAbsolute path then [] else start) (Path.rawNames path) = .ok place := by
  unfold locate
  by_cases hnul : '\x00' ∈ path.toList
  · simp [hnul]
  · by_cases hempty : path = ""
    · simp [hempty]
    · by_cases hlong : pathLimit ≤ path.utf8ByteSize
      · simp [hnul, hempty, hlong, Nat.not_lt.mpr hlong]
      · simp [hnul, hempty, hlong, Nat.lt_of_not_le hlong]

lemma KeepsDirectories.locate {d d' : Disk} (h : KeepsDirectories d d') {start : List String}
    {path : String} {place : List String} (hplace : d.locate start path = .ok place) :
    d'.locate start path = .ok place := by
  obtain ⟨hnul, hempty, hlong, hfollow⟩ := locate_eq_ok.mp hplace
  exact locate_eq_ok.mpr ⟨hnul, hempty, hlong, h.follow hfollow⟩

lemma eq_of_enter {d d' : Disk} {place next next' : List String} {name : String}
    (h : d.enter place name = .ok next) (h' : d'.enter place name = .ok next') : next' = next := by
  have hplace := isDirectory_of_enter h
  have hplace' := isDirectory_of_enter h'
  unfold enter at h h'
  rw [hplace] at h
  rw [hplace'] at h'
  exact Except.ok.inj (h'.symm.trans h)

lemma eq_of_follow {d d' : Disk} {names place goal goal' : List String}
    (h : d.follow place names = .ok goal) (h' : d'.follow place names = .ok goal') :
    goal' = goal := by
  induction names generalizing place with
  | nil => exact (Except.ok.inj h').symm.trans (Except.ok.inj h)
  | cons name names ih =>
    rw [follow_cons] at h h'
    rcases hnext : d.enter place name with e | next
    · rw [hnext] at h
      cases h
    · rcases hnext' : d'.enter place name with e | next'
      · rw [hnext'] at h'
        cases h'
      · rw [hnext] at h
        rw [hnext', eq_of_enter hnext hnext'] at h'
        exact ih h h'

/-- A path cannot lead to different places, whatever is on the disk. -/
lemma eq_of_locate {d d' : Disk} {start place place' : List String} {path : String}
    (h : d.locate start path = .ok place) (h' : d'.locate start path = .ok place') :
    place' = place := by
  obtain ⟨-, -, -, hfollow⟩ := locate_eq_ok.mp h
  obtain ⟨-, -, -, hfollow'⟩ := locate_eq_ok.mp h'
  exact eq_of_follow hfollow hfollow'

/-- Where a path leads to depends only on what is where. -/
lemma locate_congr {d d' : Disk} (h : d'.entry? = d.entry?) (start : List String) (path : String) :
    d'.locate start path = d.locate start path := by
  have hfollow : ∀ names place, d'.follow place names = d.follow place names := by
    intro names
    induction names with
    | nil => exact fun _ => rfl
    | cons name names ih =>
      intro place
      have henter : d'.enter place name = d.enter place name := by rw [enter, enter, h]
      rw [follow_cons, follow_cons, henter]
      exact congrArg _ (funext ih)
  unfold locate
  rw [hfollow]

lemma file?_eq_ok {d : Disk} {start place : List String} {path : String} {content : ByteArray}
    {executable : Bool} :
    d.file? start path = .ok (place, content, executable) ↔
      d.locate start path = .ok place ∧ d.entry? place = some (.file content executable) ∧
        Path.meansDirectory path = false := by
  unfold file?
  rcases d.locate start path with e | goal
  · simp [bind, Except.bind]
  · simp only [bind, Except.bind, Except.ok.injEq]
    constructor
    · intro h
      split at h
      · cases h
      · cases h
      · split at h
        · cases h
        · next hentry hmeans =>
          cases h
          exact ⟨rfl, hentry, by simpa using hmeans⟩
    · rintro ⟨rfl, hentry, hmeans⟩
      simp [hentry, hmeans]

lemma file?_put {d : Disk} {start place : List String} {path : String} (content : ByteArray)
    (executable : Bool) (hlocate : d.locate start path = .ok place)
    (hentry : d.entry? place ≠ some .directory) (hmeans : Path.meansDirectory path = false) :
    (d.put place (.file content executable)).file? start path =
      .ok (place, content, executable) := by
  have hkeeps := keepsDirectories_put (.file content executable) hentry
  have hplace := entry?_put d (.file content executable) (ne_nil_of_entry?_ne hentry)
  exact file?_eq_ok.mpr ⟨hkeeps.locate hlocate, hplace, hmeans⟩

lemma file?_congr {d d' : Disk} (h : d'.entry? = d.entry?) (start : List String) (path : String) :
    d'.file? start path = d.file? start path := by
  rw [file?, file?, locate_congr h, h]

lemma read_eq_of_file? {d : Disk} {start place : List String} {path : String}
    {content : ByteArray} {executable : Bool}
    (hfile : d.file? start path = .ok (place, content, executable)) :
    d.read start path = .ok content := by
  rw [read, hfile]
  rfl

lemma exists_file?_of_read {d : Disk} {start : List String} {path : String}
    {content : ByteArray} (hread : d.read start path = .ok content) :
    ∃ place executable, d.file? start path = .ok (place, content, executable) := by
  rw [read] at hread
  rcases hfile : d.file? start path with e | ⟨place, bytes, executable⟩
  · rw [hfile] at hread
    cases hread
  · rw [hfile] at hread
    cases hread
    exact ⟨place, executable, rfl⟩

lemma isDirectory_iff {d : Disk} {start : List String} {path : String} :
    d.isDirectory start path = true ↔
      ∃ place, d.locate start path = .ok place ∧ d.entry? place = some .directory := by
  unfold isDirectory find?
  rcases d.locate start path with e | place
  · simp
  · simp only [Except.ok.injEq, exists_eq_left']
    rcases d.entry? place with _ | ⟨content, executable⟩ | _
    · simp
    · by_cases hmeans : Path.meansDirectory path = true <;> simp [hmeans, Entry.isDirectory]
    · simp [Entry.isDirectory]

lemma directory?_eq_ok {d : Disk} {start place : List String} {path : String} :
    d.directory? start path = .ok place ↔
      d.locate start path = .ok place ∧ d.entry? place = some .directory := by
  unfold directory?
  rcases d.locate start path with e | goal
  · simp [bind, Except.bind]
  · simp only [bind, Except.bind, Except.ok.injEq]
    constructor
    · intro h
      split at h
      · cases h
      · cases h
      · next hentry =>
        cases h
        exact ⟨rfl, hentry⟩
    · rintro ⟨rfl, hentry⟩
      simp [hentry]

lemma KeepsDirectories.directory? {d d' : Disk} (h : KeepsDirectories d d')
    {start place : List String} {path : String} (hplace : d.directory? start path = .ok place) :
    d'.directory? start path = .ok place := by
  obtain ⟨hlocate, hentry⟩ := directory?_eq_ok.mp hplace
  exact directory?_eq_ok.mpr ⟨h.locate hlocate, h place hentry⟩

end Paths

section Names

lemma eq_of_enter_dot {d : Disk} {place next : List String} (h : d.enter place "." = .ok next) :
    next = place := by
  have hplace := isDirectory_of_enter h
  rw [enter, hplace] at h
  exact (Except.ok.inj h).symm

lemma eq_of_locate_dot {d : Disk} {start place : List String} (h : d.locate start "." = .ok place) :
    place = start := by
  obtain ⟨-, -, -, hfollow⟩ := locate_eq_ok.mp h
  rw [Path.isAbsolute_dot, Path.rawNames_dot, follow_cons, if_neg Bool.false_ne_true] at hfollow
  rcases hnext : d.enter start "." with e | next
  · rw [hnext] at hfollow
    cases hfollow
  · rw [hnext] at hfollow
    cases hfollow
    exact eq_of_enter_dot hnext

lemma locate_dot {d : Disk} {start : List String} (h : d.entry? start = some .directory) :
    d.locate start "." = .ok start := by
  refine locate_eq_ok.mpr ⟨by decide, by decide, by decide, ?_⟩
  have henter : d.enter start "." = .ok start := by
    rw [enter, h]
    rfl
  rw [Path.isAbsolute_dot, Path.rawNames_dot, follow_cons, if_neg Bool.false_ne_true, henter]
  rfl

/-- The names of a directory's path lead to it; those of the empty path lead nowhere, and the
directory is the one that paths start from. -/
lemma follow_of_directory? {d : Disk} {start place : List String} {dir : String}
    (h : d.directory? start (if dir.isEmpty then "." else dir) = .ok place) :
    '\x00' ∉ dir.toList ∧
      d.follow (if Path.isAbsolute dir then [] else start) (Path.rawNames dir) = .ok place := by
  obtain ⟨hlocate, -⟩ := directory?_eq_ok.mp h
  by_cases hempty : dir = ""
  · subst hempty
    rw [Path.isAbsolute_empty, Path.rawNames_empty, if_neg Bool.false_ne_true]
    exact ⟨by simp, by rw [eq_of_locate_dot hlocate]; rfl⟩
  · have hdir : dir.isEmpty = false := by simpa using hempty
    rw [hdir, if_neg Bool.false_ne_true] at hlocate
    obtain ⟨hnul, -, -, hfollow⟩ := locate_eq_ok.mp hlocate
    exact ⟨hnul, hfollow⟩

lemma enter_plain {d : Disk} {place : List String} {name : String} (h : Path.IsPlain name)
    (hplace : d.entry? place = some .directory) :
    d.enter place name =
      if nameLimit < name.utf8ByteSize then .error .nameTooLong else .ok (place ++ [name]) := by
  rw [enter, hplace]
  simp only [h.ne_dot, h.ne_dots, if_false]

/-- A name in a directory leads to its place there, unless it or the path is too long. -/
lemma locate_join {d : Disk} {start place : List String} {dir name : String}
    (hname : Path.IsPlain name)
    (h : d.directory? start (if dir.isEmpty then "." else dir) = .ok place) :
    d.locate start (Path.join dir name) =
      if pathLimit ≤ (Path.join dir name).utf8ByteSize ∨ nameLimit < name.utf8ByteSize then
        .error .nameTooLong
      else .ok (place ++ [name]) := by
  obtain ⟨hnul, hfollow⟩ := follow_of_directory? h
  have hdirectory := (directory?_eq_ok.mp h).2
  have hnul' : ¬(Path.join dir name).toList.contains '\x00' = true := by
    simpa [hname.nul_mem_join] using hnul
  have hempty : ¬(Path.join dir name).isEmpty = true := by
    simpa using hname.join_ne_empty dir
  unfold locate
  rw [if_neg hnul', if_neg hempty, hname.isAbsolute_join, hname.rawNames_join, follow_append,
    hfollow]
  by_cases hlong : pathLimit ≤ (Path.join dir name).utf8ByteSize
  · rw [if_pos hlong, if_pos (.inl hlong)]
  · rw [if_neg hlong]
    change d.follow place [name] = _
    rw [follow_cons, enter_plain hname hdirectory]
    by_cases hlongName : nameLimit < name.utf8ByteSize
    · rw [if_pos hlongName, if_pos (.inr hlongName)]
      rfl
    · rw [if_neg hlongName, if_neg (not_or.mpr ⟨hlong, hlongName⟩)]
      rfl

lemma locate_join_of_short {d : Disk} {start place : List String} {dir name : String}
    (hname : Path.IsPlain name)
    (h : d.directory? start (if dir.isEmpty then "." else dir) = .ok place)
    (hdir : dir.utf8ByteSize + 1 + nameLimit < pathLimit) (hshort : name.utf8ByteSize ≤ nameLimit) :
    d.locate start (Path.join dir name) = .ok (place ++ [name]) := by
  have hpath := Path.utf8ByteSize_join_le dir name
  rw [locate_join hname h, if_neg (by omega)]

lemma exists_of_follow_concat {d : Disk} {start goal names : List String} {name : String}
    (hname : Path.IsPlain name) (h : d.follow start (names ++ [name]) = .ok goal) :
    ∃ place, d.follow start names = .ok place ∧ d.entry? place = some .directory ∧
      goal = place ++ [name] := by
  rw [follow_append] at h
  rcases hplace : d.follow start names with e | place
  · rw [hplace] at h
    cases h
  · rw [hplace] at h
    change d.follow place [name] = .ok goal at h
    rw [follow_cons] at h
    rcases hgoal : d.enter place name with e | next
    · rw [hgoal] at h
      cases h
    · rw [hgoal] at h
      cases h
      have hdirectory := isDirectory_of_enter hgoal
      rw [enter_plain hname hdirectory] at hgoal
      split at hgoal
      · cases hgoal
      · exact ⟨place, rfl, hdirectory, (Except.ok.inj hgoal).symm⟩

lemma exists_directory_of_locate_join {d : Disk} {start goal : List String} {dir name : String}
    (hname : Path.IsPlain name) (h : d.locate start (Path.join dir name) = .ok goal) :
    ∃ place, d.directory? start (if dir.isEmpty then "." else dir) = .ok place ∧
      goal = place ++ [name] := by
  obtain ⟨hnul, -, hlong, hfollow⟩ := locate_eq_ok.mp h
  rw [hname.isAbsolute_join, hname.rawNames_join] at hfollow
  obtain ⟨place, hplace, hdirectory, rfl⟩ := exists_of_follow_concat hname hfollow
  refine ⟨place, directory?_eq_ok.mpr ⟨?_, hdirectory⟩, rfl⟩
  by_cases hempty : dir = ""
  · subst hempty
    rw [Path.isAbsolute_empty, Path.rawNames_empty, if_neg Bool.false_ne_true] at hplace
    cases hplace
    exact locate_dot hdirectory
  · have hdir : dir.isEmpty = false := by simpa using hempty
    have hsize := Path.utf8ByteSize_le_join dir name hname.not_startsWith
    rw [hdir, if_neg Bool.false_ne_true]
    refine locate_eq_ok.mpr ⟨?_, hempty, by omega, hplace⟩
    rwa [hname.nul_mem_join] at hnul

/-- A file is in a directory under the name with which its path ends. -/
lemma exists_name_of_file? {d : Disk} {start place : List String} {path : String}
    {content : ByteArray} {executable : Bool}
    (h : d.file? start path = .ok (place, content, executable)) :
    ∃ dir name, place = dir ++ [name] ∧ Path.IsPlain name ∧ Path.fileName? path = some name := by
  obtain ⟨hlocate, -, hmeans⟩ := file?_eq_ok.mp h
  obtain ⟨hnul, -, -, hfollow⟩ := locate_eq_ok.mp hlocate
  obtain ⟨outer, name, hnames, hname, hfile⟩ := Path.exists_name_of_not_meansDirectory hmeans hnul
  rw [hnames] at hfollow
  obtain ⟨dir, -, -, rfl⟩ := exists_of_follow_concat hname hfollow
  exact ⟨dir, name, rfl, hname, hfile⟩

lemma locate_plain {d : Disk} {start : List String} {name : String} (hname : Path.IsPlain name)
    (hstart : d.entry? start = some .directory) (hshort : name.utf8ByteSize ≤ nameLimit) :
    d.locate start name = .ok (start ++ [name]) := by
  have habsolute : Path.isAbsolute name = false := by
    rw [Path.isAbsolute, hname.not_startsWith]
  have hsize : name.utf8ByteSize < pathLimit := Nat.lt_of_le_of_lt hshort (by decide)
  refine locate_eq_ok.mpr ⟨hname.no_nul, hname.ne_empty, hsize, ?_⟩
  rw [habsolute, if_neg Bool.false_ne_true, hname.rawNames_eq, follow_cons,
    enter_plain hname hstart, if_neg (Nat.not_lt.mpr hshort)]
  rfl

end Names

section Operations

variable {d d' : Disk} {start : List String}

lemma makeDirectory_eq_ok {path : String} :
    d.makeDirectory start path = .ok d' ↔
      ∃ place, d.locate start path = .ok place ∧ d.entry? place = none ∧
        d' = d.put place .directory := by
  unfold makeDirectory
  rcases d.locate start path with e | place
  · simp [bind, Except.bind]
  · simp only [bind, Except.bind, Except.ok.injEq, exists_eq_left']
    rcases d.entry? place with _ | e
    · simp [eq_comm]
    · simp

/-- Emptying leaves an empty file, which is executable as it was before. -/
lemma truncate_eq_ok {path : String} :
    d.truncate start path = .ok d' ↔
      ∃ place executable, d.locate start path = .ok place ∧
        (d.entry? place = none ∧ executable = false ∨
          ∃ content, d.entry? place = some (.file content executable)) ∧
        Path.meansDirectory path = false ∧
        d' = d.put place (.file ByteArray.empty executable) := by
  unfold truncate
  rcases d.locate start path with e | place
  · simp [bind, Except.bind]
  · simp only [bind, Except.bind, Except.ok.injEq, exists_and_left, exists_eq_left']
    rcases d.entry? place with _ | ⟨content, executable⟩ | _
    · by_cases hmeans : Path.meansDirectory path = true <;> simp [hmeans, eq_comm]
    · by_cases hmeans : Path.meansDirectory path = true <;> simp [hmeans, eq_comm]
    · simp

lemma append_eq_ok {path : String} {bytes : ByteArray} :
    d.append start path bytes = .ok d' ↔
      ∃ place content executable, d.file? start path = .ok (place, content, executable) ∧
        d' = d.put place (.file (content ++ bytes) executable) := by
  unfold append
  rcases d.file? start path with e | ⟨place, content, executable⟩
  · simp [bind, Except.bind]
  · constructor
    · intro h
      exact ⟨place, content, executable, rfl, (Except.ok.inj h).symm⟩
    · rintro ⟨_, _, _, hfile, rfl⟩
      cases hfile
      rfl

lemma append_of_file? {place : List String} {path : String} {content bytes : ByteArray}
    {executable : Bool} (hfile : d.file? start path = .ok (place, content, executable))
    (happend : d.append start path bytes = .ok d') :
    d' = d.put place (.file (content ++ bytes) executable) ∧
      d'.file? start path = .ok (place, content ++ bytes, executable) := by
  obtain ⟨goal, old, x, hold, rfl⟩ := append_eq_ok.mp happend
  rw [hfile] at hold
  cases hold
  obtain ⟨hlocate, hentry, hmeans⟩ := file?_eq_ok.mp hfile
  exact ⟨rfl, file?_put _ _ hlocate (by simp [hentry]) hmeans⟩

lemma rename_eq_ok {source target : String} :
    d.rename start source target = .ok d' ↔
      ∃ place content executable goal, d.file? start source = .ok (place, content, executable) ∧
        d.locate start target = .ok goal ∧ d.entry? goal ≠ some .directory ∧
        Path.meansDirectory target = false ∧
        d' = (d.erase place).put goal (.file content executable) := by
  unfold rename
  rcases d.file? start source with e | ⟨place, content, executable⟩
  · simp [bind, Except.bind]
  · rcases d.locate start target with e | goal
    · simp [bind, Except.bind]
    · simp only [bind, Except.bind]
      constructor
      · intro h
        split at h
        · cases h
        · next hentry =>
          split at h
          · cases h
          · next hmeans =>
            exact ⟨place, content, executable, goal, rfl, rfl, hentry, by simpa using hmeans,
              (Except.ok.inj h).symm⟩
      · rintro ⟨_, _, _, _, hfile, hgoal, hentry, hmeans, rfl⟩
        cases hfile
        cases hgoal
        split
        · next hdirectory => exact absurd hdirectory hentry
        · rw [hmeans]
          rfl

lemma remove_eq_ok {path : String} :
    d.remove start path = .ok d' ↔
      ∃ place content executable, d.file? start path = .ok (place, content, executable) ∧
        d' = d.erase place := by
  unfold remove
  rcases d.file? start path with e | ⟨place, content, executable⟩
  · simp [bind, Except.bind]
  · constructor
    · intro h
      exact ⟨place, content, executable, rfl, (Except.ok.inj h).symm⟩
    · rintro ⟨_, _, _, hfile, rfl⟩
      cases hfile
      rfl

lemma removeTree_eq_ok {path : String} :
    d.removeTree start path = .ok d' ↔
      ∃ place, d.locate start path = .ok place ∧ d.entry? place = some .directory ∧
        d' = d.eraseTree place := by
  unfold removeTree
  rcases d.locate start path with e | place
  · simp [bind, Except.bind]
  · simp only [bind, Except.bind, Except.ok.injEq, exists_eq_left']
    rcases d.entry? place with _ | ⟨content, executable⟩ | _
    · simp
    · simp
    · simp [eq_comm]

/-- After its tree is taken away a directory is not there. -/
lemma not_isDirectory_of_removeTree {d₀ : Disk} {path : String} {place : List String}
    (hplace : d₀.locate start path = .ok place) (hne : place ≠ [])
    (hremove : d.removeTree start path = .ok d') : d'.isDirectory start path = false := by
  obtain ⟨goal, hgoal, -, rfl⟩ := removeTree_eq_ok.mp hremove
  obtain rfl := eq_of_locate hplace hgoal
  rw [← Bool.not_eq_true, isDirectory_iff]
  rintro ⟨goal', hgoal', hdirectory⟩
  obtain rfl := eq_of_locate hplace hgoal'
  rw [entry?_eraseTree d hne List.prefix_rfl] at hdirectory
  cases hdirectory

lemma exists_removeTree_iff {path : String} :
    (∃ d', d.removeTree start path = .ok d') ↔ d.isDirectory start path = true := by
  rw [isDirectory_iff]
  constructor
  · rintro ⟨d', hremove⟩
    obtain ⟨place, hplace, hentry, -⟩ := removeTree_eq_ok.mp hremove
    exact ⟨place, hplace, hentry⟩
  · rintro ⟨place, hplace, hentry⟩
    exact ⟨d.eraseTree place, removeTree_eq_ok.mpr ⟨place, hplace, hentry, rfl⟩⟩

lemma createFresh_eq_ok {dir stem path : String} {e : Entry} :
    d.createFresh start dir stem e = .ok (path, d') ↔
      ∃ place goal, d.directory? start (if dir.isEmpty then "." else dir) = .ok place ∧
        path = Path.join dir (d.freshName place stem) ∧ d.locate start path = .ok goal ∧
        d' = d.put goal e := by
  unfold createFresh
  rcases d.directory? start (if dir.isEmpty then "." else dir) with e | place
  · simp [bind, Except.bind]
  · simp only [bind, Except.bind, Except.ok.injEq, exists_and_left, exists_eq_left']
    rcases hgoal : d.locate start (Path.join dir (d.freshName place stem)) with e | goal
    · simp only [reduceCtorEq, false_iff]
      rintro ⟨rfl, goal, hlocate, -⟩
      rw [hgoal] at hlocate
      cases hlocate
    · simp only [Except.ok.injEq, Prod.mk.injEq]
      constructor
      · rintro ⟨rfl, rfl⟩
        exact ⟨rfl, goal, hgoal, rfl⟩
      · rintro ⟨rfl, goal', hlocate, rfl⟩
        rw [hgoal] at hlocate
        cases hlocate
        exact ⟨rfl, rfl⟩

end Operations

end Folio.Disk
