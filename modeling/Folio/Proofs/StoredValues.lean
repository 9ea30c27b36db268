import Folio.Proofs.SavedTrees
import Mathlib.Data.List.Induction
import Mathlib.Data.String.Basic
import Mathlib.Logic.Function.Basic

/-!
# Stores as maps

After any calls, a store answers like a map from keys to values: it yields for a key the value that
was last put there, and its directory holds one file for each key and nothing else. Putting a value
fails neither for want of a name nor because of what was put before.
-/

namespace Folio

namespace Json

mutual

/-- In each object of a value, the names are sorted and occur once. -/
def IsSorted : Json → Prop
  | array items => ItemsSorted items
  | object fields => (fields.map (·.1)).Pairwise (· < ·) ∧ FieldsSorted fields
  | _ => True

def ItemsSorted : List Json → Prop
  | [] => True
  | v :: vs => v.IsSorted ∧ ItemsSorted vs

def FieldsSorted : List (String × Json) → Prop
  | [] => True
  | (_, v) :: fs => v.IsSorted ∧ FieldsSorted fs

end

lemma insertField_of_lt {name : String} (v : α) {acc : List (String × α)}
    (h : ∀ n ∈ acc.map (·.1), n < name) : insertField name v acc = acc ++ [(name, v)] := by
  induction acc with
  | nil => rfl
  | cons f acc ih =>
    obtain ⟨n, w⟩ := f
    have hn : n < name := h n List.mem_cons_self
    rw [insertField, if_neg hn.ne', if_neg hn.asymm,
      ih fun m hm => h m (List.mem_cons_of_mem n hm)]
    rfl

mutual

/-- Sorting changes nothing in a value that is sorted. -/
lemma sorted_eq_self {v : Json} (h : v.IsSorted) : v.sorted = v := by
  cases v with
  | array items => rw [sorted, sortedItems_eq_self h]
  | object fields =>
    have hfields := sortedFields_eq_append h.2 [] (by simpa using h.1)
    rw [sorted, hfields, List.nil_append]
  | _ => rfl

lemma sortedItems_eq_self {vs : List Json} (h : ItemsSorted vs) : sortedItems vs = vs := by
  cases vs with
  | nil => rfl
  | cons v vs => rw [sortedItems, sorted_eq_self h.1, sortedItems_eq_self h.2]

lemma sortedFields_eq_append {fs : List (String × Json)} (h : FieldsSorted fs)
    (acc : List (String × Json)) (hnames : ((acc ++ fs).map (·.1)).Pairwise (· < ·)) :
    sortedFields fs acc = acc ++ fs := by
  cases fs with
  | nil => simp [sortedFields]
  | cons f fs =>
    obtain ⟨name, v⟩ := f
    have hlast : ∀ n ∈ acc.map (·.1), n < name := by
      rw [List.map_append, List.pairwise_append] at hnames
      exact fun n hn => hnames.2.2 n hn name List.mem_cons_self
    have hrest := sortedFields_eq_append h.2 (acc ++ [(name, v)]) (by simpa using hnames)
    rw [sortedFields, sorted_eq_self h.1, insertField_of_lt v hlast, hrest]
    simp

end

end Json

namespace Store

/-- The file system takes a name in the store's directory. -/
def Takes (s : Store) (name : String) : Prop :=
  name.utf8ByteSize ≤ Disk.nameLimit ∧
    (Path.join s.directory name).utf8ByteSize < Disk.pathLimit

instance (s : Store) (name : String) : Decidable (s.Takes name) :=
  inferInstanceAs (Decidable (_ ∧ _))

structure IsKey (s : Store) (key : String) : Prop where
  no_slash : '/' ∉ key.toList
  no_nul : '\x00' ∉ key.toList
  takes : s.Takes (key ++ ".json")

instance (s : Store) (key : String) : Decidable (s.IsKey key) :=
  decidable_of_iff ('/' ∉ key.toList ∧ '\x00' ∉ key.toList ∧ s.Takes (key ++ ".json"))
    ⟨fun ⟨hslash, hnul, htakes⟩ => ⟨hslash, hnul, htakes⟩,
      fun hkey => ⟨hkey.no_slash, hkey.no_nul, hkey.takes⟩⟩

/-- A value that can be read again from its text. -/
def IsStorable (v : Json) : Prop :=
  v.Writable ∧ v.depth < Json.nestingLimit

/-- The store's directory is there, and nothing is in it. -/
structure Fresh (s : Store) (dir : List String) (h : Host) : Prop where
  directory : h.disk.directory? h.workingDirectory
    (if s.directory.isEmpty then "." else s.directory) = .ok dir
  empty : ∀ names, names ≠ [] → h.disk.entry? (dir ++ names) = none

inductive Call where
  | reopen
  | put (key : String) (v : Json)
  | get (key : String)
  | save (nodes : List FileNode)
  | load

namespace Call

/-- What a call stores, and under which key. -/
def stored? : Call → Option (String × Json)
  | put key v => some (key, v)
  | save nodes => some (fileTreeKey, FileNode.forestToJson nodes)
  | reopen | get _ | load => none

/-- What a call stores can be read again, and its key is the name of a file. -/
def IsFit (s : Store) (c : Call) : Prop :=
  ∀ key v, c.stored? = some (key, v) → s.IsKey key ∧ IsStorable v

/-- The host after a call on a store that was opened below `root`. -/
def after (root database collection : String) (s : Store) (h : Host) : Call → Host
  | reopen => (h.run (openNamed root database collection).run).2
  | put key v => (h.run (s.put key v).run).2
  | get key => (h.run (s.get key readValue?).run).2
  | save nodes => (h.run (s.save nodes).run).2
  | load => (h.run s.load.run).2

end Call

/-- The host after some calls, one after another. -/
def afterAll (root database collection : String) (s : Store) (calls : List Call) (h : Host) :
    Host :=
  calls.foldl (Call.after root database collection s) h

/-- The value that was last stored under a key. -/
def lastStored? (key : String) (calls : List Call) : Option Json :=
  (calls.filterMap Call.stored?).reverse.lookup key

/-- The store's directory holds one file for each key of a map and nothing else. -/
structure Mirrors (s : Store) (dir : List String) (values : String → Option Json) (h : Host) :
    Prop where
  directory : h.disk.directory? h.workingDirectory
    (if s.directory.isEmpty then "." else s.directory) = .ok dir
  contents : ∀ names e, names ≠ [] → (h.disk.entry? (dir ++ names) = some e ↔
    ∃ key v, values key = some v ∧ names = [key ++ ".json"] ∧ e = .file v.compact.toUTF8 false)

variable {s : Store} {dir : List String} {values : String → Option Json} {h h' : Host}
  {key : String} {v : Json}

section Names

lemma IsKey.isPlain (hkey : s.IsKey key) : Path.IsPlain (key ++ ".json") := by
  have hlast : (key ++ ".json").toList.getLast? = some 'n' := by simp
  have hne : ∀ name : String, name.toList.getLast? ≠ some 'n' → key ++ ".json" ≠ name := by
    rintro _ hname rfl
    exact hname hlast
  refine ⟨hne "" (by decide), ?_, ?_, hne "." (by decide), hne ".." (by decide)⟩
  · simp [hkey.no_slash]
  · simp [hkey.no_nul]

lemma append_json_injective : Function.Injective (· ++ ".json") := by
  intro key key' heq
  have hchars := congrArg String.toList heq
  simp only [String.toList_append] at hchars
  exact String.toList_inj.mp (List.append_cancel_right hchars)

/-- No file of a key has the name of a temporary file. -/
lemma candidate_ne_file (n : Nat) (key : String) :
    Disk.candidate Host.temporaryStem n ≠ key ++ ".json" := by
  have hlast : (key ++ ".json").toList.getLast? = some 'n' := by simp
  exact Disk.candidate_ne n hlast (by decide)

lemma locate_of_takes {d : Disk} {start : List String} {name : String}
    (hname : Path.IsPlain name) (htakes : s.Takes name)
    (hdir : d.directory? start (if s.directory.isEmpty then "." else s.directory) = .ok dir) :
    d.locate start (Path.join s.directory name) = .ok (dir ++ [name]) := by
  rw [Disk.locate_join hname hdir, if_neg]
  exact not_or.mpr ⟨Nat.not_le.mpr htakes.2, Nat.not_lt.mpr htakes.1⟩

end Names

section Contents

lemma Fresh.mirrors (hfresh : s.Fresh dir h) : s.Mirrors dir (fun _ => none) h := by
  refine ⟨hfresh.directory, fun names e hnames => ?_⟩
  simp [hfresh.empty names hnames]

lemma Mirrors.of_sameFiles (hm : s.Mirrors dir values h) (hsame : h.SameFiles h') :
    s.Mirrors dir values h' := by
  refine ⟨?_, fun names e hnames => ?_⟩
  · rw [hsame.workingDirectory]
    exact hsame.keepsDirectories.directory? hm.directory
  · rw [hsame.entry?, hm.contents names e hnames]

lemma Mirrors.entry?_key (hm : s.Mirrors dir values h) (key : String) :
    h.disk.entry? (dir ++ [key ++ ".json"]) =
      (values key).map fun v => .file v.compact.toUTF8 false := by
  have hcontents := fun e => hm.contents [key ++ ".json"] e (List.cons_ne_nil _ _)
  rcases hvalue : values key with _ | v
  · refine Option.eq_none_iff_forall_ne_some.mpr fun e he => ?_
    obtain ⟨key', v, hv, hname, -⟩ := (hcontents e).mp he
    rw [append_json_injective (List.singleton_inj.mp hname), hv] at hvalue
    cases hvalue
  · exact (hcontents _).mpr ⟨key, v, hvalue, rfl, rfl⟩

/-- No file has the first of the names for temporary files. -/
lemma Mirrors.freshName_eq (hm : s.Mirrors dir values h) :
    h.disk.freshName dir Host.temporaryStem = Disk.candidate Host.temporaryStem 0 := by
  have hnone : h.disk.entry? (dir ++ [Disk.candidate Host.temporaryStem 0]) = none := by
    refine Option.eq_none_iff_forall_ne_some.mpr fun e he => ?_
    obtain ⟨key, v, -, hname, -⟩ := (hm.contents _ e (List.cons_ne_nil _ _)).mp he
    exact candidate_ne_file _ key (List.singleton_inj.mp hname)
  rw [Disk.freshName_eq, List.range_succ_eq_map, List.find?_cons_of_pos]
  rw [hnone]
  rfl

lemma Mirrors.of_stored (hm : s.Mirrors dir values h) (hkey : s.IsKey key) {place : List String}
    (hs : s.Stored key v place h h') :
    s.Mirrors dir (Function.update values key (some v)) h' := by
  have hlocate := locate_of_takes hkey.isPlain hkey.takes hm.directory
  obtain rfl : place = dir ++ [key ++ ".json"] := Except.ok.inj (hs.located.symm.trans hlocate)
  refine ⟨?_, fun names e hnames => ?_⟩
  · rw [hs.same.workingDirectory]
    exact (hs.same.keepsDirectories hs.notDirectory).directory? hm.directory
  · by_cases hname : names = [key ++ ".json"]
    · subst hname
      rw [hs.file]
      constructor
      · rintro ⟨⟩
        exact ⟨key, v, Function.update_self .., rfl, rfl⟩
      · rintro ⟨key', w, hw, heq, rfl⟩
        rw [← append_json_injective (List.singleton_inj.mp heq), Function.update_self] at hw
        cases hw
        rfl
    · have hne : dir ++ names ≠ dir ++ [key ++ ".json"] :=
        fun heq => hname (List.append_cancel_left heq)
      rw [hs.same.entry? _ hne, hm.contents names e hnames]
      constructor
      · rintro ⟨key', w, hw, rfl, rfl⟩
        have hkey' : key' ≠ key := by
          rintro rfl
          exact hname rfl
        exact ⟨key', w, by rwa [Function.update_of_ne hkey'], rfl, rfl⟩
      · rintro ⟨key', w, hw, rfl, rfl⟩
        have hkey' : key' ≠ key := by
          rintro rfl
          exact hname rfl
        rw [Function.update_of_ne hkey'] at hw
        exact ⟨key', w, hw, rfl, rfl⟩

end Contents

section Calls

/-- A put succeeds when each of its steps on the disk works. -/
lemma run_put {path : String} {d₁ d₂ d₃ : Disk}
    (hcreate : h.disk.createFresh h.workingDirectory s.directory Host.temporaryStem
      (.file ByteArray.empty false) = .ok (path, d₁))
    (happend : d₁.append h.workingDirectory path v.compact.toUTF8 = .ok d₂)
    (hrename : d₂.rename h.workingDirectory path (s.keyPath key) = .ok d₃) :
    h.run (s.put key v).run = (.ok (), { h with disk := d₃ }) := by
  have hfirst : h.step (.createTemporary s.directory) = (.ok path, { h with disk := d₁ }) := by
    rw [Host.step, Host.create, hcreate]
  have hsecond : Host.step { h with disk := d₁ } (.append path v.compact.toUTF8) =
      (.ok (), { h with disk := d₂ }) := by
    rw [Host.step, Host.change, happend]
  have hthird : Host.step { h with disk := d₂ } (.rename path (s.keyPath key)) =
      (.ok (), { h with disk := d₃ }) := by
    rw [Host.step, Host.change, hrename]
  exact (Program.run_perform_of_step hfirst).trans
    ((Program.run_perform_of_step hsecond).trans (Program.run_perform_of_step hthird))

lemma Writing.exists_append {content : ByteArray} (hw : s.Writing dir content h h')
    (bytes : ByteArray) :
    ∃ d, h'.disk.append h.workingDirectory
      (Path.join s.directory (h.disk.freshName dir Host.temporaryStem)) bytes = .ok d :=
  ⟨_, Disk.append_eq_ok.mpr ⟨_, _, _, hw.file, rfl⟩⟩

lemma Writing.exists_rename {content : ByteArray} (hw : s.Writing dir content h h')
    {place : List String} (hlocate : h.disk.locate h.workingDirectory (s.keyPath key) = .ok place)
    (hplace : h.disk.entry? place ≠ some .directory)
    (hmeans : Path.meansDirectory (s.keyPath key) = false) :
    ∃ d, h'.disk.rename h.workingDirectory
      (Path.join s.directory (h.disk.freshName dir Host.temporaryStem)) (s.keyPath key) =
        .ok d := by
  have hnone := Disk.entry?_freshName h.disk dir Host.temporaryStem
  have hkeeps := hw.same.keepsDirectories (by simp [hnone])
  have hplace' : h'.disk.entry? place ≠ some .directory := by
    by_cases hp : place = dir ++ [h.disk.freshName dir Host.temporaryStem]
    · obtain ⟨-, hfile, -⟩ := Disk.file?_eq_ok.mp hw.file
      simp [hp, hfile]
    · rwa [hw.same.entry? place hp]
  exact ⟨_, Disk.rename_eq_ok.mpr
    ⟨_, _, _, place, hw.file, hkeeps.locate hlocate, hplace', hmeans, rfl⟩⟩

/-- A put fails neither for want of a name nor because of what was put before. -/
lemma Mirrors.run_put_eq_ok (hm : s.Mirrors dir values h) (hkey : s.IsKey key)
    (htemporary : s.Takes (Disk.candidate Host.temporaryStem 0)) (v : Json) :
    (h.run (s.put key v).run).1 = .ok () := by
  have htakes : s.Takes (h.disk.freshName dir Host.temporaryStem) := by
    rw [hm.freshName_eq]
    exact htemporary
  have hlocate := locate_of_takes (isPlain_temporary h.disk dir) htakes hm.directory
  have hcreate : h.disk.createFresh h.workingDirectory s.directory Host.temporaryStem
      (.file ByteArray.empty false) = .ok (Path.join s.directory
        (h.disk.freshName dir Host.temporaryStem), h.disk.put
          (dir ++ [h.disk.freshName dir Host.temporaryStem]) (.file ByteArray.empty false)) :=
    Disk.createFresh_eq_ok.mpr ⟨dir, _, hm.directory, rfl, hlocate, rfl⟩
  obtain ⟨dir', -, hw⟩ := writing_of_createFresh hcreate
  obtain rfl : dir = dir' := Except.ok.inj (hm.directory.symm.trans hw.directory)
  obtain ⟨d₂, happend⟩ := hw.exists_append v.compact.toUTF8
  have hgoal := locate_of_takes hkey.isPlain hkey.takes hm.directory
  have hentry : h.disk.entry? (dir ++ [key ++ ".json"]) ≠ some .directory := by
    rw [hm.entry?_key]
    cases values key <;> simp
  obtain ⟨d₃, hrename⟩ := (hw.append happend).exists_rename hgoal hentry
    (hkey.isPlain.meansDirectory_join _)
  rw [run_put hcreate happend hrename]

/-- What a put leads to on a store that holds what it should. -/
lemma Mirrors.after_put (hm : s.Mirrors dir values h) (hkey : s.IsKey key)
    (htemporary : s.Takes (Disk.candidate Host.temporaryStem 0)) (v : Json) :
    s.Mirrors dir (Function.update values key (some v)) (h.run (s.put key v).run).2 := by
  have hreach := Reaches.run (fun _ => False) (s.put key v).run h
  rw [hm.run_put_eq_ok hkey htemporary v] at hreach
  obtain ⟨place, hs⟩ := exists_stored_of_reaches hreach
  exact hm.of_stored hkey hs

lemma readValue?_compact (hv : IsStorable v) : readValue? v.compact = some v.sorted := by
  have hadmissible : v.isAdmissible 0 = true := by
    simp [Json.isAdmissible, hv.1.isRepresentable, hv.2]
  simp [readValue?, Json.read?_compact hv.1, hadmissible]

lemma readForest?_compact (hv : IsStorable v) :
    FileNode.readForest? v.compact = FileNode.forestOfJson? v := by
  simp [FileNode.readForest?, Json.read?_compact hv.1]

/-- What a store that holds what it should yields for a key. -/
lemma Mirrors.run_get (hm : s.Mirrors dir values h) (hkey : s.IsKey key)
    (read? : String → Option α) :
    h.run (s.get key read?).run =
      (match values key with
        | none => .ok none
        | some v => (read? v.compact).elim (.error (.json (s.keyPath key))) fun a => .ok (some a),
        h) := by
  have hlocate : h.disk.locate h.workingDirectory (s.keyPath key) = .ok (dir ++ [key ++ ".json"]) :=
    locate_of_takes hkey.isPlain hkey.takes hm.directory
  have hentry := hm.entry?_key key
  rw [Store.run_get]
  rcases hvalue : values key with _ | v
  · have hread : h.disk.read h.workingDirectory (s.keyPath key) = .error .notFound := by
      rw [hvalue, Option.map_none] at hentry
      simp only [Disk.read, Disk.file?, hlocate, bind, Except.bind, hentry]
      rfl
    rw [hread]
    rfl
  · have hfile := Disk.file?_eq_ok.mpr ⟨hlocate, hvalue ▸ hentry,
      hkey.isPlain.meansDirectory_join s.directory⟩
    rw [Disk.read_eq_of_file? hfile, valueOf, Program.textOf_toUTF8]
    rcases hread : read? v.compact with _ | a <;> simp only [hread] <;> rfl

/-- The directory of a store is found, unless its path is empty. -/
lemma Mirrors.isDirectory (hm : s.Mirrors dir values h) (hne : s.directory.isEmpty = false) :
    h.disk.isDirectory h.workingDirectory s.directory = true := by
  have hdirectory := hm.directory
  rw [hne, if_neg Bool.false_ne_true] at hdirectory
  exact Disk.isDirectory_iff.mpr ⟨dir, Disk.directory?_eq_ok.mp hdirectory⟩

/-- What opening a store answers, unless it fails. -/
lemma always_openNamed (mayFail : Effect → Prop) (root database collection : String) (h : Host) :
    (openNamed root database collection).run.Always mayFail (fun _ => True)
      (fun r _ => ∀ s, r = .ok s → s = ⟨Path.join (Path.join root database) collection⟩) h := by
  refine ⟨trivial, ?_⟩
  rintro (_ | _) h₁ -
  · refine ⟨trivial, fun _ h₂ _ => ?_⟩
    have hmake := (Program.always_makeDirectories mayFail
      (Path.join (Path.join root database) collection) h₂).mono (fun _ _ => trivial)
        fun _ _ _ => trivial
    refine Program.Always.except_bind (Program.always_elseFail (R := fun _ _ => True) hmake
      (fun _ _ hr => hr) fun _ _ hr => hr) ?_ ?_
    · rintro ⟨⟩ h₃ - -
      refine Program.always_pure trivial ?_
      rintro s ⟨⟩
      rfl
    · rintro e h₃ - s ⟨⟩
  · refine Program.always_pure trivial ?_
    rintro s ⟨⟩
    rfl

section Opening

variable {root database collection : String}

lemma run_openNamed_of_isDirectory
    (hdirectory : h.disk.isDirectory h.workingDirectory
      (Path.join (Path.join root database) collection) = true) :
    h.run (openNamed root database collection).run =
      (.ok ⟨Path.join (Path.join root database) collection⟩, h) := by
  have hstep : h.step (.isDirectory (Path.join (Path.join root database) collection)) =
      (true, h) := by rw [Host.step, hdirectory]
  exact Program.run_perform_of_step hstep

/-- The empty path is no directory, and none is made for it. -/
lemma run_openNamed_of_empty (hempty : Path.join (Path.join root database) collection = "") :
    h.run (openNamed root database collection).run =
      (.ok ⟨""⟩, (h.step (.log .debug logArea ("creating store at " ++ ""))).2) := by
  have hstep : h.step (.isDirectory "") = (false, h) := by
    rw [Host.step]
    rfl
  rw [openNamed, hempty]
  exact Program.run_perform_of_step hstep

lemma Mirrors.run_openNamed
    (hm : Mirrors ⟨Path.join (Path.join root database) collection⟩ dir values h) :
    (h.run (openNamed root database collection).run).1 =
        .ok ⟨Path.join (Path.join root database) collection⟩ ∧
      h.SameFiles (h.run (openNamed root database collection).run).2 := by
  by_cases hempty : Path.join (Path.join root database) collection = ""
  · have hlog :
        Outcome (fun _ => False) h (.log .debug logArea ("creating store at " ++ "")) () _ :=
      .works _
    rw [run_openNamed_of_empty hempty, hempty]
    exact ⟨rfl, hlog.message fun _ => rfl⟩
  · rw [run_openNamed_of_isDirectory (hm.isDirectory (by simpa using hempty))]
    exact ⟨rfl, .refl h⟩

end Opening

end Calls

section Runs

variable {root database collection : String} {calls : List Call}

lemma lastStored?_concat_of_none {c : Call} (hc : c.stored? = none) :
    (lastStored? · (calls ++ [c])) = (lastStored? · calls) := by
  simp [lastStored?, hc]

lemma lastStored?_concat_of_some {c : Call} (hc : c.stored? = some (key, v)) :
    (lastStored? · (calls ++ [c])) = Function.update (lastStored? · calls) key (some v) := by
  funext other
  rw [lastStored?, List.filterMap_append, List.filterMap_cons_some hc, List.filterMap_nil,
    List.reverse_append, List.reverse_singleton, List.singleton_append, List.lookup_cons]
  by_cases hother : other = key
  · simp [hother]
  · rw [Function.update_of_ne hother, beq_eq_false_iff_ne.mpr hother]
    rfl

/-- What one call leads to. -/
lemma Mirrors.after_call
    (hm : s.Mirrors dir (lastStored? · calls) h)
    (hs : s = ⟨Path.join (Path.join root database) collection⟩)
    (htemporary : s.Takes (Disk.candidate Host.temporaryStem 0)) {c : Call} (hc : c.IsFit s) :
    s.Mirrors dir (lastStored? · (calls ++ [c])) (c.after root database collection s h) := by
  cases c with
  | reopen =>
    subst hs
    rw [lastStored?_concat_of_none rfl]
    exact hm.of_sameFiles hm.run_openNamed.2
  | put key v =>
    rw [lastStored?_concat_of_some rfl]
    exact hm.after_put (hc key v rfl).1 htemporary v
  | get key =>
    rw [lastStored?_concat_of_none rfl, Call.after, Store.run_get]
    exact hm
  | save nodes =>
    rw [lastStored?_concat_of_some rfl]
    exact hm.after_put (hc _ _ rfl).1 htemporary _
  | load =>
    rw [lastStored?_concat_of_none rfl, Call.after, Store.load, Store.run_get]
    exact hm

/-- What any calls lead to. -/
lemma Fresh.after_calls (hfresh : s.Fresh dir h)
    (hs : s = ⟨Path.join (Path.join root database) collection⟩)
    (htemporary : s.Takes (Disk.candidate Host.temporaryStem 0))
    (hcalls : ∀ c ∈ calls, c.IsFit s) :
    s.Mirrors dir (lastStored? · calls) (afterAll root database collection s calls h) := by
  induction calls using List.reverseRecOn with
  | nil => exact hfresh.mirrors
  | append_singleton calls c ih =>
    have hm := ih fun d hd => hcalls d (List.mem_append_left _ hd)
    rw [afterAll, List.foldl_concat]
    exact hm.after_call hs htemporary (hcalls c (by simp))

lemma isStorable_of_lastStored? (hcalls : ∀ c ∈ calls, c.IsFit s)
    (h : lastStored? key calls = some v) : IsStorable v := by
  obtain ⟨later, earlier, hlookup, -⟩ := List.lookup_eq_some_iff.mp h
  have hmem : (key, v) ∈ calls.filterMap Call.stored? := by
    rw [← List.mem_reverse, hlookup]
    simp
  obtain ⟨c, hc, hstored⟩ := List.mem_filterMap.mp hmem
  exact (hcalls c hc key v hstored).2

/-- What a store that holds what it should yields for a key, read as a value. -/
lemma Mirrors.run_get_value (hm : s.Mirrors dir values h) (hkey : s.IsKey key)
    (hvalues : ∀ v, values key = some v → IsStorable v) :
    h.run (s.get key readValue?).run = (.ok ((values key).map Json.sorted), h) := by
  rw [hm.run_get hkey]
  rcases hvalue : values key with _ | v
  · rfl
  · simp only [readValue?_compact (hvalues v hvalue)]
    rfl

/-- A store answers as some calls would have it. -/
structure AnswersAs (root database collection : String) (s : Store) (dir : List String)
    (calls : List Call) (h : Host) : Prop where
  /-- The value that was last stored under a key, with the names in its objects sorted. -/
  get : ∀ key, s.IsKey key →
    h.run (s.get key readValue?).run = (.ok ((lastStored? key calls).map Json.sorted), h)
  get_sorted : ∀ key v, s.IsKey key → lastStored? key calls = some v → v.IsSorted →
    h.run (s.get key readValue?).run = (.ok (some v), h)
  put : ∀ key v, s.IsKey key → (h.run (s.put key v).run).1 = .ok ()
  /-- Other keys keep their values. -/
  get_put : ∀ key other v, s.IsKey key → s.IsKey other → key ≠ other →
    ((h.run (s.put other v).run).2.run (s.get key readValue?).run).1 =
      (h.run (s.get key readValue?).run).1
  save : ∀ nodes, s.save nodes = s.put fileTreeKey (FileNode.forestToJson nodes)
  load : s.IsKey fileTreeKey → h.run s.load.run =
    (match lastStored? fileTreeKey calls with
      | none => .ok none
      | some v => (FileNode.forestOfJson? v).elim (.error (.json (s.keyPath fileTreeKey)))
          fun nodes => .ok (some nodes), h)
  load_saved : ∀ nodes, s.IsKey fileTreeKey →
    lastStored? fileTreeKey calls = some (FileNode.forestToJson nodes) →
    h.run s.load.run = (.ok (some nodes), h)
  reopen : (h.run (openNamed root database collection).run).1 = .ok s ∧
    h.SameFiles (h.run (openNamed root database collection).run).2
  /-- One file for each key, and nothing else. -/
  contents : ∀ names e, names ≠ [] → (h.disk.entry? (dir ++ names) = some e ↔
    ∃ key v, lastStored? key calls = some v ∧ names = [key ++ ".json"] ∧
      e = .file v.compact.toUTF8 false)

lemma Mirrors.answersAs (hm : s.Mirrors dir (lastStored? · calls) h)
    (hs : s = ⟨Path.join (Path.join root database) collection⟩)
    (htemporary : s.Takes (Disk.candidate Host.temporaryStem 0))
    (hcalls : ∀ c ∈ calls, c.IsFit s) : s.AnswersAs root database collection dir calls h := by
  have hstorable : ∀ key v, lastStored? key calls = some v → IsStorable v :=
    fun _ _ => isStorable_of_lastStored? hcalls
  have hget : ∀ key, s.IsKey key →
      h.run (s.get key readValue?).run = (.ok ((lastStored? key calls).map Json.sorted), h) :=
    fun key hkey => hm.run_get_value hkey (hstorable key)
  have hload : s.IsKey fileTreeKey → h.run s.load.run =
      (match lastStored? fileTreeKey calls with
        | none => .ok none
        | some v => (FileNode.forestOfJson? v).elim (.error (.json (s.keyPath fileTreeKey)))
            fun nodes => .ok (some nodes), h) := by
    intro hkey
    rw [load, hm.run_get hkey]
    rcases hlast : lastStored? fileTreeKey calls with _ | v
    · rfl
    · simp only [readForest?_compact (hstorable _ v hlast)]
  refine
    { get := hget
      get_sorted := fun key v hkey hlast hv => ?_
      put := fun key v hkey => hm.run_put_eq_ok hkey htemporary v
      get_put := fun key other v hkey hother hne => ?_
      save := fun nodes => rfl
      load := hload
      load_saved := fun nodes hkey hlast => ?_
      reopen := by
        subst hs
        exact hm.run_openNamed
      contents := hm.contents }
  · rw [hget key hkey, hlast, Option.map_some, Json.sorted_eq_self hv]
  · have hput := hm.after_put hother htemporary v
    rw [hput.run_get hkey, hm.run_get hkey, Function.update_of_ne hne]
  · have hforest := FileNode.readForest?_forestToJson (hstorable _ _ hlast).2
    rw [readForest?_compact (hstorable _ _ hlast)] at hforest
    simp only [hload hkey, hlast, hforest, Option.elim]

/-- From an empty directory on, whatever calls are made, a store answers as if it was a map. The paths
to the files of its keys must be short enough for the host, and so must the paths to the temporary
files that are written first. -/
theorem answersAs_afterAll {h₀ : Host}
    (hopen : h₀.run (openNamed root database collection).run = (.ok s, h))
    (hfresh : s.Fresh dir h) (htemporary : s.Takes (Disk.candidate Host.temporaryStem 0))
    (hcalls : ∀ c ∈ calls, c.IsFit s) :
    s.AnswersAs root database collection dir calls
      (afterAll root database collection s calls h) := by
  have hs : s = ⟨Path.join (Path.join root database) collection⟩ := by
    have hanswer := (always_openNamed (fun _ => False) root database collection h₀).run
    rw [hopen] at hanswer
    exact hanswer s rfl
  exact (hfresh.after_calls hs htemporary hcalls).answersAs hs htemporary hcalls

def openedHost : Host :=
  (emptyStoreHost.run (openNamed "store" "d" "c").run).2

/-- Opening a collection makes its directory. -/
lemma fresh_openedHost : Fresh ⟨"store/d/c"⟩ ["store", "d", "c"] openedHost := by
  have hplaces : openedHost.disk.entries.map (·.1) =
      [["store", "d", "c"], ["store", "d"], ["store"]] := by decide +kernel
  refine ⟨by decide +kernel, fun names hnames => ?_⟩
  by_contra hentry
  have hmem := Disk.mem_places_of_entry? (by simp) hentry
  simp [hplaces, hnames] at hmem

def someCalls : List Call :=
  [.put "a" (.string "x"), .put "b" .null, .reopen, .put "a" (.array []), .save [], .get "c"]

lemma isFit_of_mem_someCalls {c : Call} (hc : c ∈ someCalls) : c.IsFit ⟨"store/d/c"⟩ := by
  have hkeys : ∀ key ∈ ["a", "b", fileTreeKey], IsKey ⟨"store/d/c"⟩ key := by decide +kernel
  intro key v hstored
  have hmem : (key, v) ∈ someCalls.filterMap Call.stored? :=
    List.mem_filterMap.mpr ⟨c, hc, hstored⟩
  simp only [someCalls, List.filterMap_cons, List.filterMap_nil, Call.stored?, List.mem_cons,
    Prod.mk.injEq, List.not_mem_nil, or_false] at hmem
  rcases hmem with ⟨rfl, rfl⟩ | ⟨rfl, rfl⟩ | ⟨rfl, rfl⟩ | ⟨rfl, rfl⟩ <;>
    exact ⟨hkeys _ (by decide), trivial, by decide⟩

theorem answersAs_afterAll_someCalls :
    (emptyStoreHost.run (openNamed "store" "d" "c").run).1 = .ok ⟨"store/d/c"⟩ ∧
      AnswersAs "store" "d" "c" ⟨"store/d/c"⟩ ["store", "d", "c"] someCalls
        (afterAll "store" "d" "c" ⟨"store/d/c"⟩ someCalls openedHost) := by
  have hopen : (emptyStoreHost.run (openNamed "store" "d" "c").run).1 = .ok ⟨"store/d/c"⟩ := by
    decide +kernel
  exact ⟨hopen, answersAs_afterAll (Prod.ext hopen rfl) fresh_openedHost (by decide +kernel)
    fun _ => isFit_of_mem_someCalls⟩

end Runs

end Store

end Folio
