import Folio.Proofs.FileAccess
import Folio.Proofs.PathAncestors

/-!
# Making directories again

Making the directories of a path ends as if each of them was made in turn, the outermost first,
unless it is there. What an attempt leaves behind that fails, or is stopped, is a part of this, so
that the next attempt ends as the first one would have ended.
-/

namespace Folio

namespace Disk

variable {d d' : Disk} {start : List String} {path : String} {paths : List String}

/-- Makes a directory unless it is there. -/
def ensure (start : List String) (path : String) (d : Disk) : Option Disk :=
  if d.isDirectory start path then some d else (d.makeDirectory start path).toOption

/-- Makes those of some directories that are not there, the last one first. -/
def ensureAll (start : List String) : List String → Disk → Option Disk
  | [], d => some d
  | path :: outer, d => (d.ensureAll start outer).bind (ensure start path)

section Above

/-- Names of a dot can be left out of a path that leads somewhere. -/
lemma follow_filter {names place goal : List String} (h : d.follow place names = .ok goal) :
    d.follow place (names.filter (· != ".")) = .ok goal := by
  induction names generalizing place with
  | nil => exact h
  | cons name names ih =>
    rw [follow_cons] at h
    rcases hnext : d.enter place name with e | next
    · rw [hnext] at h
      cases h
    · rw [hnext] at h
      by_cases hname : name = "."
      · subst hname
        rw [eq_of_enter_dot hnext] at h
        simpa using ih h
      · rw [List.filter_cons_of_pos (by simpa using hname), follow_cons, hnext]
        exact ih h

/-- What a path leads to is reached through the directories above it. -/
lemma isDirectory_of_above {outer inner : String} {place : List String}
    (habove : Path.Above outer inner) (h : d.locate start inner = .ok place) :
    d.isDirectory start outer = true := by
  obtain ⟨hnul, -, hlong, hfollow⟩ := locate_eq_ok.mp h
  obtain ⟨rest, hrest, hnames⟩ := habove.names
  have hmeant : d.follow (if Path.isAbsolute inner then [] else start) (Path.names inner) =
      .ok place := follow_filter hfollow
  rw [hnames, follow_append, ← habove.absolute] at hmeant
  rcases houter : d.follow (if Path.isAbsolute outer then [] else start) (Path.rawNames outer)
    with e | goal
  · rw [houter] at hmeant
    cases hmeant
  · rw [houter] at hmeant
    obtain ⟨name, rest, rfl⟩ := List.exists_cons_of_ne_nil hrest
    have hdirectory : d.entry? goal = some .directory := by
      change d.follow goal (name :: rest) = .ok place at hmeant
      rw [follow_cons] at hmeant
      rcases hnext : d.enter goal name with e | next
      · rw [hnext] at hmeant
        cases hmeant
      · exact isDirectory_of_enter hnext
    have hsize : outer.utf8ByteSize ≤ inner.utf8ByteSize := by
      rw [← String.ofList_toList (s := outer), ← String.ofList_toList (s := inner),
        String.utf8ByteSize_ofList, String.utf8ByteSize_ofList]
      exact String.utf8Len_le_of_sublist habove.chars
    refine isDirectory_iff.mpr ⟨goal, locate_eq_ok.mpr ⟨?_, habove.ne_empty, ?_, houter⟩, hdirectory⟩
    · exact fun hmem => hnul (habove.chars.subset hmem)
    · exact Nat.lt_of_le_of_lt hsize hlong

lemma exists_locate_of_isDirectory (h : d.isDirectory start path = true) :
    ∃ place, d.locate start path = .ok place := by
  obtain ⟨place, hlocate, -⟩ := isDirectory_iff.mp h
  exact ⟨place, hlocate⟩

lemma exists_locate_of_makeDirectory (h : d.makeDirectory start path = .ok d') :
    ∃ place, d.locate start path = .ok place := by
  obtain ⟨place, hlocate, -⟩ := makeDirectory_eq_ok.mp h
  exact ⟨place, hlocate⟩

end Above

section Ensure

lemma ensure_of_isDirectory (h : d.isDirectory start path = true) :
    d.ensure start path = some d := by
  rw [ensure, if_pos h]

lemma not_isDirectory_of_makeDirectory (h : d.makeDirectory start path = .ok d') :
    d.isDirectory start path = false := by
  obtain ⟨place, hlocate, hnone, -⟩ := makeDirectory_eq_ok.mp h
  rw [← Bool.not_eq_true, isDirectory_iff]
  rintro ⟨place', hlocate', hentry⟩
  obtain rfl : place = place' := Except.ok.inj (hlocate.symm.trans hlocate')
  rw [hnone] at hentry
  cases hentry

lemma ensure_of_makeDirectory (h : d.makeDirectory start path = .ok d') :
    d.ensure start path = some d' := by
  rw [ensure, not_isDirectory_of_makeDirectory h, h]
  rfl

lemma ensure_eq_none {cause : IoError} (h : d.makeDirectory start path = .error cause)
    (hdirectory : d.isDirectory start path = false) : d.ensure start path = none := by
  rw [ensure, hdirectory, h]
  rfl

lemma keepsEntries_of_makeDirectory (h : d.makeDirectory start path = .ok d') :
    KeepsEntries d d' := by
  obtain ⟨place, -, hnone, rfl⟩ := makeDirectory_eq_ok.mp h
  exact keepsEntries_put hnone _

lemma isDirectory_of_makeDirectory (h : d.makeDirectory start path = .ok d') :
    d'.isDirectory start path = true := by
  have hkeeps := (keepsEntries_of_makeDirectory h).keepsDirectories
  obtain ⟨place, hlocate, hnone, rfl⟩ := makeDirectory_eq_ok.mp h
  have hne : place ≠ [] := ne_nil_of_entry?_ne (d := d) (by simp [hnone])
  exact isDirectory_iff.mpr ⟨place, hkeeps.locate hlocate, entry?_put d _ hne⟩

lemma keepsEntries_of_ensure (h : d.ensure start path = some d') : KeepsEntries d d' := by
  unfold ensure at h
  split at h
  · obtain rfl := Option.some.inj h
    exact fun _ _ he => he
  · rcases hmake : d.makeDirectory start path with e | d₁
    · rw [hmake] at h
      cases h
    · rw [hmake] at h
      obtain rfl := Option.some.inj h
      exact keepsEntries_of_makeDirectory hmake

lemma keepsEntries_of_ensureAll (h : d.ensureAll start paths = some d') : KeepsEntries d d' := by
  induction paths generalizing d' with
  | nil =>
    obtain rfl := Option.some.inj h
    exact fun _ _ he => he
  | cons path outer ih =>
    obtain ⟨d₁, houter, hpath⟩ := Option.bind_eq_some_iff.mp h
    exact fun p e he => keepsEntries_of_ensure hpath p e (ih houter p e he)

lemma ensureAll_append (inner outer : List String) :
    d.ensureAll start (inner ++ outer) = (d.ensureAll start outer).bind (ensureAll start inner) := by
  induction inner with
  | nil => cases h : d.ensureAll start outer <;> simp [h, ensureAll]
  | cons path inner ih => rw [List.cons_append, ensureAll, ih, Option.bind_assoc]; rfl

lemma ensureAll_of_isDirectory (h : ∀ path ∈ paths, d.isDirectory start path = true) :
    d.ensureAll start paths = some d := by
  induction paths with
  | nil => rfl
  | cons path outer ih =>
    rw [ensureAll, ih fun q hq => h q (List.mem_cons_of_mem path hq)]
    exact ensure_of_isDirectory (h path List.mem_cons_self)

/-- Where all directories above are asked for, one that is made was the only one that was missing. -/
lemma ensureAll_of_makeDirectory {outer : List String}
    (houter : ∀ q ∈ outer, Path.Above q path) (h : d.makeDirectory start path = .ok d') :
    d.ensureAll start (path :: outer) = some d' := by
  obtain ⟨place, hlocate⟩ := exists_locate_of_makeDirectory h
  rw [ensureAll, ensureAll_of_isDirectory fun q hq => isDirectory_of_above (houter q hq) hlocate]
  exact ensure_of_makeDirectory h

lemma ensureAll_of_isDirectory_head {outer : List String}
    (houter : ∀ q ∈ outer, Path.Above q path) (h : d.isDirectory start path = true) :
    d.ensureAll start (path :: outer) = some d := by
  obtain ⟨place, hlocate⟩ := exists_locate_of_isDirectory h
  rw [ensureAll, ensureAll_of_isDirectory fun q hq => isDirectory_of_above (houter q hq) hlocate]
  exact ensure_of_isDirectory h

/-- A directory that was made before is not missed later. -/
theorem ensureAll_eq_of_makeDirectory
    (hpaths : paths.Pairwise fun inner outer => Path.Above outer inner) (hmem : path ∈ paths)
    (h : d.makeDirectory start path = .ok d') :
    d'.ensureAll start paths = d.ensureAll start paths := by
  obtain ⟨inner, outer, rfl⟩ := List.append_of_mem hmem
  have houter := (List.pairwise_cons.mp (List.pairwise_append.mp hpaths).2.1).1
  rw [ensureAll_append, ensureAll_append, ensureAll_of_makeDirectory houter h,
    ensureAll_of_isDirectory_head houter (isDirectory_of_makeDirectory h)]

lemma isDirectory_of_mem_directories {q : String} (h : d.isDirectory start path = true)
    (hq : q ∈ Path.directories path) : d.isDirectory start q = true := by
  have hpairwise := Path.pairwise_directories path
  unfold Path.directories at hq hpairwise
  split at hq
  · cases hq
  · next hempty =>
    rw [if_neg hempty] at hpairwise
    rcases List.mem_cons.mp hq with rfl | houter
    · exact h
    · obtain ⟨place, hlocate⟩ := exists_locate_of_isDirectory h
      exact isDirectory_of_above ((List.pairwise_cons.mp hpairwise).1 q houter) hlocate

end Ensure

section Failures

/-- What keeps a path from leading anywhere stays, unless something was only missing. -/
lemma KeepsEntries.locate_error (hkeeps : KeepsEntries d d') {cause : IoError}
    (hcause : cause ≠ .notFound) (h : d.locate start path = .error cause) :
    d'.locate start path = .error cause := by
  have hfollow : ∀ names place, d.follow place names = .error cause →
      d'.follow place names = .error cause := by
    intro names
    induction names with
    | nil =>
      intro place h
      cases h
    | cons name names ih =>
      intro place h
      rw [follow_cons] at h ⊢
      rcases hnext : d.enter place name with e | next
      · rw [hnext] at h
        obtain rfl : e = cause := Except.error.inj h
        have hnext' : d'.enter place name = .error e := by
          unfold enter at hnext ⊢
          rcases hentry : d.entry? place with _ | entry
          · rw [hentry] at hnext
            cases hnext
            exact absurd rfl hcause
          · rw [hkeeps place entry hentry]
            rwa [hentry] at hnext
        rw [hnext']
        rfl
      · rw [hnext] at h
        rw [hkeeps.keepsDirectories.enter hnext]
        exact ih next h
  unfold locate at h ⊢
  split_ifs at h ⊢ <;> first | exact h | exact hfollow _ _ h

/-- A directory that cannot be made, for another reason than that one above is missing, cannot be
made when those above are there. -/
lemma KeepsEntries.ensure_eq_none (hkeeps : KeepsEntries d d') {cause : IoError}
    (hcause : cause ≠ .notFound) (h : d.makeDirectory start path = .error cause)
    (hdirectory : d.isDirectory start path = false) : d'.ensure start path = none := by
  unfold makeDirectory at h
  rcases hlocate : d.locate start path with e | place
  · rw [hlocate] at h
    obtain rfl : e = cause := Except.error.inj h
    have hlocate' := hkeeps.locate_error hcause hlocate
    have hmake : d'.makeDirectory start path = .error e := by
      rw [makeDirectory, hlocate']
      rfl
    refine Disk.ensure_eq_none hmake ?_
    rw [← Bool.not_eq_true, isDirectory_iff, hlocate']
    rintro ⟨place, hplace, -⟩
    cases hplace
  · rcases hentry : d.entry? place with _ | entry
    · simp [hlocate, hentry, bind, Except.bind] at h
    · have hlocate' := hkeeps.keepsDirectories.locate hlocate
      have hentry' := hkeeps place entry hentry
      have hne : entry ≠ .directory := by
        rintro rfl
        rw [isDirectory_iff.mpr ⟨place, hlocate, hentry⟩] at hdirectory
        cases hdirectory
      have hmake : d'.makeDirectory start path = .error .alreadyExists := by
        simp only [makeDirectory, hlocate', bind, Except.bind, hentry']
      refine Disk.ensure_eq_none hmake ?_
      rw [← Bool.not_eq_true, isDirectory_iff]
      rintro ⟨goal, hgoal, hgoalEntry⟩
      obtain rfl : place = goal := Except.ok.inj (hlocate'.symm.trans hgoal)
      exact hne (Option.some.inj (hentry'.symm.trans hgoalEntry))

end Failures

section Congruence

lemma entry?_put_congr (h : d'.entry? = d.entry?) {place : List String}
    (hne : place ≠ []) (e : Entry) : entry? (d'.put place e) = entry? (d.put place e) := by
  funext p
  by_cases hp : p = place
  · rw [hp, entry?_put d' e hne, entry?_put d e hne]
  · rw [entry?_put_of_ne d' e hp, entry?_put_of_ne d e hp, h]

lemma ensure_congr (h : d'.entry? = d.entry?) (start : List String) (path : String) :
    (d'.ensure start path).map entry? = (d.ensure start path).map entry? := by
  have hdirectory : d'.isDirectory start path = d.isDirectory start path := by
    rw [isDirectory, isDirectory, find?, find?, locate_congr h, h]
  unfold ensure
  rw [hdirectory]
  split
  · exact congrArg some h
  · unfold makeDirectory
    rw [locate_congr h, h]
    rcases d.locate start path with e | place
    · rfl
    · simp only [bind, Except.bind]
      rcases hentry : d.entry? place with _ | entry
      · have hne : place ≠ [] := ne_nil_of_entry?_ne (d := d) (by simp [hentry])
        exact congrArg some (entry?_put_congr h hne _)
      · rfl

/-- Which directories are made depends only on what is where. -/
lemma ensureAll_congr (h : d'.entry? = d.entry?) (start : List String) (paths : List String) :
    (d'.ensureAll start paths).map entry? = (d.ensureAll start paths).map entry? := by
  induction paths with
  | nil => exact congrArg some h
  | cons path outer ih =>
    rw [ensureAll, ensureAll]
    rcases houter : d.ensureAll start outer with _ | d₁
    · rw [houter, Option.map_none, Option.map_eq_none_iff] at ih
      rw [ih]
    · rw [houter, Option.map_some, Option.map_eq_some_iff] at ih
      obtain ⟨d₁', houter', h₁⟩ := ih
      rw [houter']
      exact ensure_congr h₁ start path

end Congruence

end Disk

namespace Host

/-- What making some directories leads to, the last one of the list first. -/
def Ensures (paths : List String) (h : Host) : Except ε Unit → Host → Prop
  | .ok (), h' => h'.workingDirectory = h.workingDirectory ∧
      h.disk.ensureAll h.workingDirectory paths = some h'.disk
  | .error _, _ => h.disk.ensureAll h.workingDirectory paths = none

/-- Making some directories leads to the same files on both hosts, or fails on both. -/
structure MakesAlike (paths : List String) (h h' : Host) : Prop where
  workingDirectory : h'.workingDirectory = h.workingDirectory
  ensureAll : (h'.disk.ensureAll h'.workingDirectory paths).map Disk.entry? =
    (h.disk.ensureAll h.workingDirectory paths).map Disk.entry?

section MakesAlike

variable {paths : List String} {h h' h'' : Host}

lemma MakesAlike.trans (hh : MakesAlike paths h h') (hh' : MakesAlike paths h' h'') :
    MakesAlike paths h h'' :=
  ⟨hh'.workingDirectory.trans hh.workingDirectory, hh'.ensureAll.trans hh.ensureAll⟩

lemma SameFiles.makesAlike (hh : h.SameFiles h') (paths : List String) : MakesAlike paths h h' :=
  ⟨hh.workingDirectory, by
    rw [hh.workingDirectory, Disk.ensureAll_congr (funext hh.entry?)]⟩

end MakesAlike

end Host

namespace Program

open Host

variable {mayFail : Effect → Prop} {h k : Host} {path : String} {paths outer : List String}

/-- Where a directory of the path is made, the same is still to be reached. -/
lemma stableUnder_makesAlike (mayFail : Effect → Prop) (h : Host)
    (hpaths : paths.Pairwise fun inner outer => Path.Above outer inner) (hmem : path ∈ paths) :
    StableUnder mayFail (MakesAlike paths h) path := by
  refine stableUnder_of_makeDirectory fun k d hk hmake => hk.trans ⟨rfl, ?_⟩
  exact congrArg (Option.map Disk.entry?) (Disk.ensureAll_eq_of_makeDirectory hpaths hmem hmake)

/-- Where a path leads to a directory nothing is made. -/
lemma stableUnder_sameFiles (mayFail : Effect → Prop)
    (hdirectory : h.disk.isDirectory h.workingDirectory path = true) :
    StableUnder mayFail h.SameFiles path := by
  refine stableUnder_of_makeDirectory fun k d hk hmake => ?_
  obtain ⟨place, hlocate, hentry⟩ := Disk.isDirectory_iff.mp hdirectory
  obtain ⟨goal, hgoal, hnone, -⟩ := Disk.makeDirectory_eq_ok.mp hmake
  rw [hk.locate_eq, hlocate] at hgoal
  cases hgoal
  rw [hk.entry?, hentry] at hnone
  cases hnone

section Unhindered

lemma always_unlessDirectory {Q : Except IoError Unit → Host → Prop} {cause : IoError}
    (hthere : k.disk.isDirectory k.workingDirectory path = true → Q (.ok ()) k)
    (hmissing : k.disk.isDirectory k.workingDirectory path = false → Q (.error cause) k) :
    ((Effect.isDirectory path).act >>= fun isThere =>
      pure (if isThere then .ok () else .error cause)).Always (fun _ => False) (fun _ => True) Q
        k := by
  refine always_act_bind trivial ?_
  intro isThere k' ho
  obtain ⟨rfl, rfl⟩ := ho.eq_step id
  refine always_pure trivial ?_
  by_cases hdirectory : k'.disk.isDirectory k'.workingDirectory path = true
  · rw [Host.step, if_pos hdirectory]
    exact hthere hdirectory
  · rw [Host.step, if_neg hdirectory]
    exact hmissing (eq_false_of_ne_true hdirectory)

lemma always_makeDirectoryOnce_ensures (hk : k.workingDirectory = h.workingDirectory)
    (houter : h.disk.ensureAll h.workingDirectory outer = some k.disk) :
    (makeDirectoryOnce path).Always (fun _ => False) (fun _ => True) (h.Ensures (path :: outer))
      k := by
  have hall : h.disk.ensureAll h.workingDirectory (path :: outer) =
      k.disk.ensure k.workingDirectory path := by
    rw [Disk.ensureAll, houter, hk]
    rfl
  refine always_act_bind trivial ?_
  intro r k' ho
  rcases ho.makeDirectory with ⟨rfl, cause, rfl, hmake⟩ | ⟨d, hmake, rfl, rfl⟩
  · have hmake := hmake.resolve_left id
    apply always_unlessDirectory
    · intro hdirectory
      exact ⟨hk, hall.trans (Disk.ensure_of_isDirectory hdirectory)⟩
    · intro hdirectory
      exact hall.trans (Disk.ensure_eq_none hmake hdirectory)
  · exact always_pure trivial ⟨hk, hall.trans (Disk.ensure_of_makeDirectory hmake)⟩

/-- First the path itself is tried; it ends as if those above had been made first. -/
lemma always_makeDirectoryBelow_ensures
    (hpaths : (path :: outer).Pairwise fun inner outer => Path.Above outer inner) :
    (makeDirectoryBelow path outer).Always (fun _ => False) (fun _ => True)
      (h.Ensures (path :: outer)) h := by
  induction outer generalizing path with
  | nil => exact always_makeDirectoryOnce_ensures rfl rfl
  | cons parent outer ih =>
    obtain ⟨habove, houter⟩ := List.pairwise_cons.mp hpaths
    refine always_act_bind trivial ?_
    intro r h' ho
    rcases ho.makeDirectory with ⟨rfl, cause, rfl, hmake⟩ | ⟨d, hmake, rfl, rfl⟩
    · have hmake := hmake.resolve_left id
      by_cases hcause : cause = .notFound
      · subst hcause
        refine (ih houter).bind ?_
        rintro (cause | ⟨⟩) k - hk
        · refine always_pure trivial ?_
          have hnone : h'.disk.ensureAll h'.workingDirectory (parent :: outer) = none := hk
          rw [Ensures, Disk.ensureAll, hnone]
          rfl
        · exact always_makeDirectoryOnce_ensures hk.1 hk.2
      · have htail : (((Effect.isDirectory path).act >>= fun isThere =>
            pure (if isThere then .ok () else .error cause)) : Program (Except IoError Unit)).Always
              (fun _ => False) (fun _ => True) (h'.Ensures (path :: parent :: outer)) h' := by
          apply always_unlessDirectory
          · intro hdirectory
            exact ⟨rfl, Disk.ensureAll_of_isDirectory_head habove hdirectory⟩
          · intro hdirectory
            rw [Ensures, Disk.ensureAll, Option.bind_eq_none_iff]
            intro d hd
            exact (Disk.keepsEntries_of_ensureAll hd).ensure_eq_none hcause hmake hdirectory
        cases cause with
        | notFound => exact absurd rfl hcause
        | _ => exact htail
    · exact always_pure trivial ⟨rfl, Disk.ensureAll_of_makeDirectory habove hmake⟩

lemma always_makeDirectories_ensures (path : String) (h : Host) :
    (makeDirectories path).Always (fun _ => False) (fun _ => True)
      (h.Ensures (Path.directories path)) h := by
  unfold makeDirectories Path.directories
  split
  · exact always_pure trivial ⟨rfl, rfl⟩
  · exact always_makeDirectoryBelow_ensures (Path.pairwise_above path)

end Unhindered

end Program

end Folio
