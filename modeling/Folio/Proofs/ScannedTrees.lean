import Folio.Proofs.DirectoryTrees
import Folio.Proofs.FileAccess
import Folio.Workspace.Scan

/-!
# Scanning a tree

The files of a directory are met one after another, and each is put into folders that are looked up
by name. What comes of it is the forest that recursion on the directory gives: a file for each
markdown file and a folder for each directory with such a file somewhere in it.
-/

namespace Folio

namespace Scan

/-- The text of a file that holds one. -/
def contentText (content : ByteArray) : String :=
  (String.fromUTF8? content).getD ""

mutual

/-- The node of an item, with the names that lead to its directory: a file if it is markdown, and a
folder unless nothing would be in it. -/
def nodes (above : List String) (name : String) : Disk.Item → List FileNode
  | .file content _ =>
    if isMarkdown name then [.file (nodeId (above ++ [name])) name (contentText content)] else []
  | .directory items =>
    match forest (above ++ [name]) items with
    | [] => []
    | child :: children => [.folder (nodeId (above ++ [name])) name (child :: children)]

/-- The forest of a directory, by recursion on what is in it. -/
def forest (above : List String) : List (String × Disk.Item) → List FileNode
  | [] => []
  | (name, item) :: items => nodes above name item ++ forest above items

end

/-- Puts a name in front of the names that lead to files. -/
def inFolder (name : String) (files : List (List String × String)) : List (List String × String) :=
  files.map fun (names, text) => (name :: names, text)

end Scan

namespace FileNode

mutual

/-- The files of a node, each with the names that lead there and its text. -/
def leaves : FileNode → List (List String × String)
  | file _ name content => [([name], content)]
  | folder _ name children => Scan.inFolder name (leavesOf children)

def leavesOf : List FileNode → List (List String × String)
  | [] => []
  | n :: ns => n.leaves ++ leavesOf ns

end

mutual

/-- No folder is empty, and the names in each folder are in order, so that none is there twice. -/
def IsTidy : FileNode → Prop
  | file .. => True
  | folder _ _ children => children ≠ [] ∧ AreTidy children

def AreTidy : List FileNode → Prop
  | [] => True
  | n :: ns => n.IsTidy ∧ (∀ m ∈ ns, n.name < m.name) ∧ AreTidy ns

end

lemma leavesOf_append (ms ns : List FileNode) :
    leavesOf (ms ++ ns) = leavesOf ms ++ leavesOf ns := by
  induction ms with
  | nil => rfl
  | cons m ms ih => rw [List.cons_append, leavesOf, ih, leavesOf, List.append_assoc]

lemma areTidy_append {ms ns : List FileNode} (hms : AreTidy ms) (hns : AreTidy ns)
    (h : ∀ m ∈ ms, ∀ n ∈ ns, m.name < n.name) : AreTidy (ms ++ ns) := by
  induction ms with
  | nil => exact hns
  | cons m ms ih =>
    refine ⟨hms.1, fun n hn => ?_, ih hms.2.2 fun m' hm' => h m' (List.mem_cons_of_mem _ hm')⟩
    rcases List.mem_append.mp hn with hn | hn
    · exact hms.2.1 n hn
    · exact h m List.mem_cons_self n hn

end FileNode

namespace Scan

section Files

/-- What is in a directory, if it is a markdown file. -/
def markdown? (x : List String × Disk.Entry) : Option (List String × String) :=
  match x.2 with
  | .file content _ => if x.1.getLast?.any isMarkdown then some (x.1, contentText content) else none
  | .directory => none

/-- The markdown files in a directory, in the order of their names. -/
def markdownFiles (items : List (String × Disk.Item)) : List (List String × String) :=
  (Disk.listing items).filterMap markdown?

variable {names : List String} {e : Disk.Entry} {file : List String × String} {name : String}
  {items : List (String × Disk.Item)}

lemma markdown?_eq_some_iff :
    markdown? (names, e) = some file ↔ ∃ content executable, e = .file content executable ∧
      names.getLast?.any isMarkdown = true ∧ file = (names, contentText content) := by
  rcases e with ⟨content, executable⟩ | _
  · by_cases hname : names.getLast?.any isMarkdown = true <;> simp [markdown?, hname, eq_comm]
  · simp [markdown?]

/-- What a file is called decides, not where it lies. -/
lemma markdown?_cons (h : names ≠ []) :
    markdown? (name :: names, e) =
      (markdown? (names, e)).map fun (names, text) => (name :: names, text) := by
  have hlast : (name :: names).getLast? = names.getLast? := by
    rw [List.getLast?_cons, List.getLast?_eq_some_getLast h, Option.getD_some]
  rcases e with ⟨content, executable⟩ | _
  · by_cases hname : names.getLast?.any isMarkdown = true <;> simp [markdown?, hlast, hname]
  · rfl

lemma markdownFiles_cons (name : String) (item : Disk.Item) (items : List (String × Disk.Item)) :
    markdownFiles ((name, item) :: items) =
      (item.listing name).filterMap markdown? ++ markdownFiles items := by
  rw [markdownFiles, Disk.listing, List.filterMap_append]
  rfl

lemma markdownFiles_directory (name : String) (items : List (String × Disk.Item)) :
    ((Disk.Item.directory items).listing name).filterMap markdown? =
      inFolder name (markdownFiles items) := by
  rw [Disk.Item.listing, List.filterMap_cons_none rfl, List.filterMap_map, inFolder, markdownFiles,
    List.map_filterMap]
  refine List.filterMap_congr ?_
  rintro ⟨names, e⟩ hmem
  exact markdown?_cons (Disk.within_of_mem_listing hmem).ne_nil

lemma mem_markdownFiles_iff : file ∈ markdownFiles items ↔ ∃ content executable,
    Disk.Within items file.1 (.file content executable) ∧ file.1.getLast?.any isMarkdown = true ∧
      contentText content = file.2 := by
  obtain ⟨names, text⟩ := file
  rw [markdownFiles, List.mem_filterMap]
  constructor
  · rintro ⟨⟨names', e⟩, hmem, hsome⟩
    obtain ⟨content, executable, rfl, hname, heq⟩ := markdown?_eq_some_iff.mp hsome
    cases heq
    exact ⟨content, executable, Disk.mem_listing_iff.mp hmem, hname, rfl⟩
  · rintro ⟨content, executable, hw, hname, rfl⟩
    exact ⟨_, Disk.mem_listing_iff.mpr hw,
      markdown?_eq_some_iff.mpr ⟨content, executable, rfl, hname, rfl⟩⟩

lemma ne_nil_of_mem_markdownFiles (h : file ∈ markdownFiles items) : file.1 ≠ [] := by
  obtain ⟨content, executable, hw, -⟩ := mem_markdownFiles_iff.mp h
  exact hw.ne_nil

lemma pairwise_markdownFiles (hs : Disk.AreSound items) :
    (markdownFiles items).Pairwise (·.1 < ·.1) := by
  refine (Disk.pairwise_listing hs).filterMap _ ?_
  rintro ⟨names, e⟩ ⟨names', e'⟩ hlt file hfile file' hfile'
  obtain ⟨-, -, -, -, rfl⟩ := markdown?_eq_some_iff.mp hfile
  obtain ⟨-, -, -, -, rfl⟩ := markdown?_eq_some_iff.mp hfile'
  exact hlt

lemma name_of_mem_nodes {above : List String} {item : Disk.Item} {node : FileNode}
    (h : node ∈ nodes above name item) : node.name = name := by
  cases item with
  | file content executable =>
    rw [nodes] at h
    split at h
    · rw [List.mem_singleton.mp h]
      rfl
    · cases h
  | directory items =>
    rw [nodes] at h
    split at h
    · cases h
    · rw [List.mem_singleton.mp h]
      rfl

mutual

lemma leavesOf_nodes (above : List String) (name : String) (item : Disk.Item) :
    FileNode.leavesOf (nodes above name item) = (item.listing name).filterMap markdown? := by
  cases item with
  | file content executable =>
    by_cases hname : isMarkdown name = true <;>
      simp [nodes, Disk.Item.listing, markdown?, hname, FileNode.leavesOf, FileNode.leaves]
  | directory items =>
    have hinner := leavesOf_forest (above ++ [name]) items
    rw [markdownFiles_directory, ← hinner, nodes]
    rcases forest (above ++ [name]) items with _ | ⟨child, children⟩
    · rfl
    · rw [FileNode.leavesOf, FileNode.leaves, FileNode.leavesOf, List.append_nil]

/-- The files of the forest are the markdown files. -/
lemma leavesOf_forest (above : List String) (items : List (String × Disk.Item)) :
    FileNode.leavesOf (forest above items) = markdownFiles items := by
  cases items with
  | nil => rfl
  | cons x items =>
    rw [forest, FileNode.leavesOf_append, markdownFiles_cons, leavesOf_nodes, leavesOf_forest]

end

lemma exists_of_mem_forest {above : List String} {node : FileNode} (h : node ∈ forest above items) :
    ∃ x ∈ items, node.name = x.1 := by
  induction items with
  | nil => cases h
  | cons x items ih =>
    rcases List.mem_append.mp h with h | h
    · exact ⟨x, List.mem_cons_self, name_of_mem_nodes h⟩
    · obtain ⟨y, hy, hname⟩ := ih h
      exact ⟨y, List.mem_cons_of_mem _ hy, hname⟩

mutual

lemma areTidy_nodes {item : Disk.Item} (hs : item.IsSound) (above : List String) (name : String) :
    FileNode.AreTidy (nodes above name item) := by
  cases item with
  | file content executable =>
    by_cases hname : isMarkdown name = true <;>
      simp [nodes, hname, FileNode.AreTidy, FileNode.IsTidy]
  | directory items =>
    have hinner := areTidy_forest hs (above ++ [name])
    rw [nodes]
    rcases hforest : forest (above ++ [name]) items with _ | ⟨child, children⟩
    · trivial
    · rw [hforest] at hinner
      exact ⟨⟨List.cons_ne_nil _ _, hinner⟩, fun _ hm => (nomatch hm), trivial⟩

lemma areTidy_forest {items : List (String × Disk.Item)} (hs : Disk.AreSound items)
    (above : List String) : FileNode.AreTidy (forest above items) := by
  cases items with
  | nil => trivial
  | cons x items =>
    obtain ⟨-, hitem, hfirst, hitems⟩ := hs
    refine FileNode.areTidy_append (areTidy_nodes hitem above _) (areTidy_forest hitems above) ?_
    intro m hm n hn
    obtain ⟨y, hy, hname⟩ := exists_of_mem_forest hn
    rw [name_of_mem_nodes hm, hname]
    exact hfirst y hy

end

end Files

section Insertion

def insertAll (above : List String) (files : List (List String × String)) (before : List FileNode) :
    List FileNode :=
  files.foldl (fun nodes file => insert above file.2 file.1 nodes) before

variable {above : List String} {name : String} {before : List FileNode}
  {files : List (List String × String)}

lemma insert_cons_cons (above : List String) (content name first : String) (rest : List String)
    (before : List FileNode) :
    insert above content (name :: first :: rest) before =
      changeFolder (nodeId (above ++ [name])) name
        (insert (above ++ [name]) content (first :: rest)) before := by
  rw [insert]
  exact List.cons_ne_nil first rest

lemma changeFolder_append {id : String} {f : List FileNode → List FileNode}
    (h : ∀ i children, .folder i name children ∉ before) (after : List FileNode) :
    changeFolder id name f (before ++ after) = before ++ changeFolder id name f after := by
  induction before with
  | nil => rfl
  | cons node before ih =>
    have hrest := ih fun i children hmem => h i children (List.mem_cons_of_mem _ hmem)
    rw [List.cons_append, List.cons_append, ← hrest]
    cases node with
    | file i n content => rfl
    | folder i n children =>
      have hne : n ≠ name := by
        rintro rfl
        exact h i children List.mem_cons_self
      rw [changeFolder, if_neg hne]

/-- Files that lie in one folder go there, one after another. -/
lemma insertAll_inFolder (h : ∀ i children, .folder i name children ∉ before)
    (hfiles : ∀ file ∈ files, file.1 ≠ []) (children : List FileNode) :
    insertAll above (inFolder name files)
        (before ++ [.folder (nodeId (above ++ [name])) name children]) =
      before ++ [.folder (nodeId (above ++ [name])) name
        (insertAll (above ++ [name]) files children)] := by
  induction files generalizing children with
  | nil => rfl
  | cons file files ih =>
    obtain ⟨_ | ⟨first, rest⟩, text⟩ := file
    · exact absurd rfl (hfiles _ List.mem_cons_self)
    · have hfirst : insert above text (name :: first :: rest)
          (before ++ [.folder (nodeId (above ++ [name])) name children]) =
            before ++ [.folder (nodeId (above ++ [name])) name
              (insert (above ++ [name]) text (first :: rest) children)] := by
        rw [insert_cons_cons, changeFolder_append h, changeFolder, if_pos rfl]
      rw [inFolder, List.map_cons, insertAll, List.foldl_cons, hfirst]
      exact ih (fun file hfile => hfiles file (List.mem_cons_of_mem _ hfile)) _

/-- The first of them makes the folder. -/
lemma insertAll_inFolder_new (h : ∀ i children, .folder i name children ∉ before)
    (hfiles : ∀ file ∈ files, file.1 ≠ []) (hne : files ≠ []) :
    insertAll above (inFolder name files) before =
      before ++ [.folder (nodeId (above ++ [name])) name
        (insertAll (above ++ [name]) files [])] := by
  rcases files with _ | ⟨⟨_ | ⟨first, rest⟩, text⟩, files⟩
  · exact absurd rfl hne
  · exact absurd rfl (hfiles _ List.mem_cons_self)
  · have hfirst : insert above text (name :: first :: rest) before =
        before ++ [.folder (nodeId (above ++ [name])) name
          (insert (above ++ [name]) text (first :: rest) [])] := by
      rw [insert_cons_cons]
      exact (congrArg _ (List.append_nil before).symm).trans (changeFolder_append h [])
    rw [inFolder, List.map_cons, insertAll, List.foldl_cons, hfirst]
    exact insertAll_inFolder h (fun file hfile => hfiles file (List.mem_cons_of_mem _ hfile)) _

mutual

lemma insertAll_item {item : Disk.Item} {above : List String} {name : String}
    {before : List FileNode} (hs : item.IsSound)
    (h : ∀ i children, .folder i name children ∉ before) :
    insertAll above ((item.listing name).filterMap markdown?) before =
      before ++ nodes above name item := by
  cases item with
  | file content executable =>
    by_cases hname : isMarkdown name = true <;>
      simp [Disk.Item.listing, markdown?, hname, nodes, insertAll, insert]
  | directory items =>
    have hinner : insertAll (above ++ [name]) (markdownFiles items) [] =
        forest (above ++ [name]) items := insertAll_markdownFiles hs (by simp)
    rw [markdownFiles_directory, nodes]
    rcases hforest : forest (above ++ [name]) items with _ | ⟨child, children⟩
    · have hnone : markdownFiles items = [] := by
        rw [← leavesOf_forest (above ++ [name]), hforest]
        rfl
      simp [hnone, inFolder, insertAll]
    · have hne : markdownFiles items ≠ [] := by
        intro hnone
        rw [hnone, hforest] at hinner
        cases hinner
      rw [insertAll_inFolder_new h (fun _ => ne_nil_of_mem_markdownFiles) hne, hinner, hforest]

/-- Putting the files of a directory into a forest adds what recursion gives for it. -/
lemma insertAll_markdownFiles {items : List (String × Disk.Item)} {above : List String}
    {before : List FileNode} (hs : Disk.AreSound items)
    (h : ∀ x ∈ items, ∀ i children, .folder i x.1 children ∉ before) :
    insertAll above (markdownFiles items) before = before ++ forest above items := by
  cases items with
  | nil => simp [markdownFiles, Disk.listing, insertAll, forest]
  | cons x items =>
    obtain ⟨-, hitem, hfirst, hitems⟩ := hs
    have hsplit : insertAll above (markdownFiles (x :: items)) before =
        insertAll above (markdownFiles items)
          (insertAll above ((x.2.listing x.1).filterMap markdown?) before) := by
      rw [markdownFiles_cons]
      exact List.foldl_append
    rw [hsplit, insertAll_item hitem (h _ List.mem_cons_self), forest, ← List.append_assoc]
    refine insertAll_markdownFiles hitems fun y hy i children hmem => ?_
    rcases List.mem_append.mp hmem with hmem | hmem
    · exact h y (List.mem_cons_of_mem _ hy) i children hmem
    · exact (hfirst y hy).ne' (name_of_mem_nodes hmem)

end

end Insertion

section Runs

variable {h : Host} {directory : String} {place names : List String}
  {items : List (String × Disk.Item)} {x : List String × Disk.Entry}

/-- What stops a scan of a directory at an entry whose path is too long: a directory cannot be
opened then, and a markdown file cannot be read. -/
def obstacle? (directory : String) (x : List String × Disk.Entry) : Option ScanError :=
  let path := Path.join directory ("/".intercalate x.1)
  if path.utf8ByteSize < Disk.pathLimit then none
  else match x.2 with
    | .directory => some (.unlisted path .nameTooLong)
    | .file .. => if x.1.getLast?.any isMarkdown then some (.unreadable path) else none

/-- An entry, as walking lists it. -/
def listed (x : List String × Disk.Entry) : Walked :=
  .found ⟨x.1, !x.2.isDirectory⟩

lemma short_of_obstacle?_eq_none (h : obstacle? directory (names, .directory) = none) :
    (Path.join directory ("/".intercalate names)).utf8ByteSize < Disk.pathLimit := by
  by_contra hlong
  simp [obstacle?, hlong] at h

lemma run_run (hplace : h.disk.directory? h.workingDirectory directory = .ok place) :
    h.run (run directory).run =
      h.run (collect directory ((h.disk.below place).flatMap (h.meet directory)) []).run := by
  have hdirectory : h.disk.isDirectory h.workingDirectory directory = true :=
    Disk.isDirectory_iff.mpr ⟨place, Disk.directory?_eq_ok.mp hplace⟩
  have hfirst : h.step (.isDirectory directory) = (true, h) := by rw [Host.step, hdirectory]
  have hsecond : h.step (.walk directory) =
      (.ok ((h.disk.below place).flatMap (h.meet directory)), h) := by
    rw [Host.step, hplace]
    rfl
  exact (Program.run_perform_of_step hfirst).trans (Program.run_perform_of_step hsecond)

lemma directory?_dot_of_directory?
    (hplace : h.disk.directory? h.workingDirectory directory = .ok place) :
    h.disk.directory? h.workingDirectory (if directory.isEmpty then "." else directory) =
      .ok place := by
  obtain ⟨-, hne, -⟩ := Disk.locate_eq_ok.mp (Disk.directory?_eq_ok.mp hplace).1
  rwa [if_neg (by simpa using hne)]

section Met

variable (hplace : h.disk.directory? h.workingDirectory directory = .ok place)
  (hd : h.disk.HoldsTree place items)
include hplace hd

lemma openDirectory_eq (hw : Disk.Within items names .directory) :
    h.openDirectory directory names =
      if (Path.join directory ("/".intercalate names)).utf8ByteSize < Disk.pathLimit then
        .ok (place ++ names) else .error .nameTooLong := by
  have hdir := directory?_dot_of_directory? hplace
  unfold Host.openDirectory
  by_cases hshort : (Path.join directory ("/".intercalate names)).utf8ByteSize < Disk.pathLimit
  · obtain ⟨hlocate, -⟩ := hw.locate hd.sound hdir (fun _ _ => hd.entry?_of_within) hshort
    rw [if_pos hshort]
    exact Disk.directory?_eq_ok.mpr ⟨hlocate, hd.entry?_of_within hw⟩
  · rw [if_neg hshort, Disk.directory?, hw.locate_of_long hd.sound hdir (not_lt.mp hshort)]
    rfl

/-- The directory that holds an entry stands in front of it, and can be opened unless it is an
obstacle. -/
lemma isOk_openDirectory_of_free {before after : List (List String × Disk.Entry)}
    (hlisting : Disk.listing items = before ++ x :: after)
    (hfree : ∀ y ∈ before, obstacle? directory y = none) (hnames : 1 < x.1.length) :
    (h.openDirectory directory x.1.dropLast).isOk = true := by
  have hw : Disk.Within items x.1 x.2 :=
    Disk.mem_listing_iff.mp (hlisting ▸ List.mem_append_right _ List.mem_cons_self)
  have hparent := hw.dropLast hnames
  have hlt := Disk.dropLast_lt hw.ne_nil
  have hfirst : (x.1.dropLast, .directory) ∈ before := by
    have hmem := Disk.mem_listing_iff.mpr hparent
    have hsorted := Disk.pairwise_listing hd.sound
    rw [hlisting] at hmem hsorted
    have hafter := (List.pairwise_cons.mp (List.pairwise_append.mp hsorted).2.1).1
    rcases List.mem_append.mp hmem with hmem | hmem
    · exact hmem
    · rcases List.mem_cons.mp hmem with heq | hmem
      · exact absurd (congrArg Prod.fst heq) hlt.ne
      · exact absurd (hafter _ hmem) (lt_asymm hlt)
  rw [openDirectory_eq hplace hd hparent, if_pos (short_of_obstacle?_eq_none (hfree _ hfirst))]
  rfl

/-- A walk comes to every entry up to the first obstacle. -/
lemma meet_eq_of_free {before after : List (List String × Disk.Entry)}
    (hlisting : Disk.listing items = before ++ x :: after)
    (hfree : ∀ y ∈ before, obstacle? directory y = none) :
    h.meet directory x = listed x :: match obstacle? directory x with
      | some (.unlisted _ cause) => [.unopened x.1 cause]
      | _ => [] := by
  have hreached : (decide (x.1.length ≤ 1) ||
      (h.openDirectory directory x.1.dropLast).isOk) = true := by
    by_cases hnames : x.1.length ≤ 1
    · simp [hnames]
    · rw [isOk_openDirectory_of_free hplace hd hlisting hfree (not_le.mp hnames), Bool.or_true]
  rw [Host.meet, if_pos hreached, listed]
  obtain ⟨names, ⟨content, executable⟩ | _⟩ := x
  · by_cases hlong : (Path.join directory ("/".intercalate names)).utf8ByteSize < Disk.pathLimit <;>
      by_cases hname : names.getLast?.any isMarkdown = true <;> simp [obstacle?, hlong, hname]
  · have hw : Disk.Within items names .directory :=
      Disk.mem_listing_iff.mp (hlisting ▸ List.mem_append_right _ List.mem_cons_self)
    by_cases hlong : (Path.join directory ("/".intercalate names)).utf8ByteSize < Disk.pathLimit <;>
      simp [obstacle?, openDirectory_eq hplace hd hw, hlong]

end Met

/-- What can be read is put into the forest, and the scan goes on with what is met next. -/
lemma run_collect_listed {entries : List (List String × Disk.Entry)}
    (hread : ∀ file ∈ entries.filterMap markdown?, Program.textOf (h.disk.read h.workingDirectory
      (Path.join directory ("/".intercalate file.1))) = .ok file.2) (rest : List Walked)
    (before : List FileNode) :
    h.run (collect directory (entries.map listed ++ rest) before).run =
      h.run (collect directory rest (insertAll [] (entries.filterMap markdown?) before)).run := by
  induction entries generalizing before with
  | nil => rfl
  | cons x entries ih =>
    obtain ⟨names, e⟩ := x
    rw [List.map_cons, List.cons_append, listed, collect]
    rcases e with ⟨content, executable⟩ | _
    · by_cases hname : names.getLast?.any isMarkdown = true
      · have hsome : markdown? (names, .file content executable) =
            some (names, contentText content) := by simp [markdown?, hname]
        have haccepts : accepts ⟨names, true⟩ = true := by simp [accepts, hname]
        rw [List.filterMap_cons_some hsome] at hread ⊢
        rw [Disk.Entry.isDirectory, Bool.not_false, if_pos haccepts]
        exact (Program.run_readText_bind (hread _ List.mem_cons_self) _ _).trans
          (ih (fun file hfile => hread file (List.mem_cons_of_mem _ hfile)) _)
      · have hnone : markdown? (names, .file content executable) = none := by
          simp [markdown?, hname]
        have haccepts : ¬accepts ⟨names, true⟩ = true := by simp [accepts, hname]
        rw [List.filterMap_cons_none hnone] at hread ⊢
        rw [Disk.Entry.isDirectory, Bool.not_false, if_neg haccepts]
        exact ih hread before
    · rw [List.filterMap_cons_none rfl] at hread ⊢
      exact ih hread before

section Met

variable (hplace : h.disk.directory? h.workingDirectory directory = .ok place)
  (hd : h.disk.HoldsTree place items)
include hplace hd

/-- A scan ends at the first obstacle. -/
lemma run_collect_obstacle {before after : List (List String × Disk.Entry)} {e : ScanError}
    (hlisting : Disk.listing items = before ++ x :: after)
    (hfree : ∀ y ∈ before, obstacle? directory y = none) (hx : obstacle? directory x = some e)
    (rest : List Walked) (found : List FileNode) :
    h.run (collect directory (h.meet directory x ++ rest) found).run = (.error e, h) := by
  have hw : Disk.Within items x.1 x.2 :=
    Disk.mem_listing_iff.mp (hlisting ▸ List.mem_append_right _ List.mem_cons_self)
  rw [meet_eq_of_free hplace hd hlisting hfree, hx]
  obtain ⟨names, ⟨content, executable⟩ | _⟩ := x
  · by_cases hlong : (Path.join directory ("/".intercalate names)).utf8ByteSize < Disk.pathLimit
    · simp [obstacle?, hlong] at hx
    · by_cases hname : names.getLast?.any isMarkdown = true
      · have herror : e = .unreadable (Path.join directory ("/".intercalate names)) := by
          simpa [obstacle?, hlong, hname] using hx.symm
        have hlocate := hw.locate_of_long hd.sound (directory?_dot_of_directory? hplace)
          (not_lt.mp hlong)
        have hread : Program.textOf (h.disk.read h.workingDirectory
            (Path.join directory ("/".intercalate names))) = .error .nameTooLong := by
          rw [Disk.read, Disk.file?, hlocate]
          rfl
        have haccepts : accepts ⟨names, true⟩ = true := by simp [accepts, hname]
        rw [List.cons_append, listed, collect, Disk.Entry.isDirectory, Bool.not_false,
          if_pos haccepts, herror]
        exact Program.run_readText_bind_of_error hread _ _
      · simp [obstacle?, hlong, hname] at hx
  · by_cases hlong : (Path.join directory ("/".intercalate names)).utf8ByteSize < Disk.pathLimit
    · simp [obstacle?, hlong] at hx
    · have herror : e = .unlisted (Path.join directory ("/".intercalate names)) .nameTooLong := by
        simpa [obstacle?, hlong] using hx.symm
      rw [herror]
      rfl

lemma textOf_read {file : List String × String}
    (hshort : (Path.join directory ("/".intercalate file.1)).utf8ByteSize < Disk.pathLimit)
    (hfile : file ∈ markdownFiles items)
    (hvalid : ∀ content executable, Disk.Within items file.1 (.file content executable) →
      ∃ text, String.fromUTF8? content = some text) :
    Program.textOf (h.disk.read h.workingDirectory
      (Path.join directory ("/".intercalate file.1))) = .ok file.2 := by
  obtain ⟨content, executable, hw, -, htext⟩ := mem_markdownFiles_iff.mp hfile
  obtain ⟨text, hvalid⟩ := hvalid content executable hw
  obtain ⟨hlocate, hmeans⟩ := hw.locate hd.sound (directory?_dot_of_directory? hplace)
    (fun _ _ => hd.entry?_of_within) hshort
  rw [Disk.read_eq_of_file? (Disk.file?_eq_ok.mpr ⟨hlocate, hd.entry?_of_within hw, hmeans⟩)]
  simp only [Program.textOf, hvalid, ← htext, contentText, Option.getD_some]

end Met

/-- The files of the forest are the markdown files on the disk. -/
lemma mem_leavesOf_forest_iff {d : Disk} {names : List String} {text : String}
    (hd : d.HoldsTree place items)
    (hvalid : ∀ content executable, Disk.Within items names (.file content executable) →
      names.getLast?.any isMarkdown = true → ∃ text, String.fromUTF8? content = some text) :
    (names, text) ∈ FileNode.leavesOf (forest [] items) ↔
      ∃ content executable, d.entry? (place ++ names) = some (.file content executable) ∧
        names.getLast?.any isMarkdown = true ∧ String.fromUTF8? content = some text := by
  rw [leavesOf_forest, mem_markdownFiles_iff]
  constructor
  · rintro ⟨content, executable, hw, hname, rfl⟩
    obtain ⟨text, htext⟩ := hvalid content executable hw hname
    exact ⟨content, executable, hd.entry?_of_within hw, hname, by simp [contentText, htext]⟩
  · rintro ⟨content, executable, hentry, hname, htext⟩
    have hne : names ≠ [] := by
      rintro rfl
      cases hname
    exact ⟨content, executable, (hd.entry?_iff names _ hne).mp hentry, hname,
      by simp [contentText, htext]⟩

section Outcome

variable (hplace : h.disk.directory? h.workingDirectory directory = .ok place)
  (hd : h.disk.HoldsTree place items)
  (hvalid : ∀ names content executable, Disk.Within items names (.file content executable) →
    names.getLast?.any isMarkdown = true → ∃ text, String.fromUTF8? content = some text)
include hplace hd

lemma flatMap_meet_eq {before after : List (List String × Disk.Entry)}
    (hlisting : Disk.listing items = before ++ after)
    (hfree : ∀ y ∈ before, obstacle? directory y = none) :
    before.flatMap (h.meet directory) = before.map listed := by
  rw [← List.flatMap_singleton' (before.map listed), List.flatMap_map]
  refine List.flatMap_congr fun x hx => ?_
  obtain ⟨first, rest, rfl⟩ := List.append_of_mem hx
  rw [List.append_assoc, List.cons_append] at hlisting
  rw [meet_eq_of_free hplace hd hlisting fun y hy => hfree y (List.mem_append_left _ hy),
    hfree x hx]

include hvalid

/-- The entries in front of the first obstacle are put into the forest. -/
lemma run_eq_run_collect {before after : List (List String × Disk.Entry)}
    (hlisting : Disk.listing items = before ++ after)
    (hfree : ∀ y ∈ before, obstacle? directory y = none) :
    h.run (run directory).run = h.run (collect directory (after.flatMap (h.meet directory))
      (insertAll [] (before.filterMap markdown?) [])).run := by
  rw [run_run hplace, hd.below_eq_listing, hlisting, List.flatMap_append,
    flatMap_meet_eq hplace hd hlisting hfree]
  refine run_collect_listed (fun file hfile => ?_) _ _
  obtain ⟨⟨names, e⟩, hmem, hsome⟩ := List.mem_filterMap.mp hfile
  obtain ⟨content, executable, rfl, hname, rfl⟩ := markdown?_eq_some_iff.mp hsome
  have hmarkdown : (names, contentText content) ∈ markdownFiles items := by
    rw [markdownFiles, hlisting, List.filterMap_append]
    exact List.mem_append_left _ hfile
  have hshort : (Path.join directory ("/".intercalate names)).utf8ByteSize < Disk.pathLimit := by
    by_contra hlong
    have hnone := hfree _ hmem
    simp [obstacle?, hlong, hname] at hnone
  exact textOf_read hplace hd hshort hmarkdown
    fun _ _ hw => hvalid names _ _ hw hname

lemma run_eq_error_of_obstacle {e : ScanError}
    (hfound : (Disk.listing items).findSome? (obstacle? directory) = some e) :
    h.run (run directory).run = (.error e, h) := by
  obtain ⟨before, x, after, hlisting, hx, hfree⟩ := List.findSome?_eq_some_iff.mp hfound
  rw [run_eq_run_collect hplace hd hvalid hlisting hfree, List.flatMap_cons]
  exact run_collect_obstacle hplace hd hlisting hfree hx _ _

lemma run_eq_ok_of_free
    (hfound : (Disk.listing items).findSome? (obstacle? directory) = none) :
    h.run (run directory).run = (.ok (forest [] items), h) := by
  have hall : insertAll [] (markdownFiles items) [] = forest [] items :=
    insertAll_markdownFiles hd.sound (by simp)
  rw [run_eq_run_collect hplace hd hvalid (List.append_nil _).symm
    (List.findSome?_eq_none_iff.mp hfound), ← hall]
  rfl

end Outcome

/-- Scanning a directory yields the forest that recursion on its tree gives: each markdown file is
there once, with its text, and nothing else is there but the folders above them. If there are
directories or markdown files whose paths are too long, it yields the error of the first of them
instead. -/
theorem run_eq_forest_unless_obstacle
    (hplace : h.disk.directory? h.workingDirectory directory = .ok place)
    (hd : h.disk.HoldsTree place items)
    (hvalid : ∀ names content executable, Disk.Within items names (.file content executable) →
      names.getLast?.any isMarkdown = true → ∃ text, String.fromUTF8? content = some text) :
    h.run (run directory).run =
        (match (Disk.listing items).findSome? (obstacle? directory) with
          | none => .ok (forest [] items)
          | some e => .error e, h) ∧
      FileNode.AreTidy (forest [] items) ∧
      (FileNode.leavesOf (forest [] items)).Pairwise (·.1 < ·.1) ∧
      ∀ names text, (names, text) ∈ FileNode.leavesOf (forest [] items) ↔
        ∃ content executable, h.disk.entry? (place ++ names) = some (.file content executable) ∧
          names.getLast?.any isMarkdown = true ∧ String.fromUTF8? content = some text := by
  refine ⟨?_, areTidy_forest hd.sound [], ?_, fun names text => ?_⟩
  · rcases hfound : (Disk.listing items).findSome? (obstacle? directory) with _ | e
    · exact run_eq_ok_of_free hplace hd hvalid hfound
    · exact run_eq_error_of_obstacle hplace hd hvalid hfound
  · rw [leavesOf_forest]
    exact pairwise_markdownFiles hd.sound
  · exact mem_leavesOf_forest_iff hd fun _ _ hw hname => hvalid _ _ _ hw hname

/-- A host with a tree in the directory `w`. -/
def hostWith (items : List (String × Disk.Item)) : Host :=
  ⟨Disk.ofTree ["w"] items, [], fun _ _ _ => .error .notFound, "", [], none, []⟩

/-- A directory that is called like a markdown file, with such a file and an empty directory in it,
beside a file of another kind. -/
def someItems : List (String × Disk.Item) :=
  [("a.md", .directory [("b.md", .file "B".toUTF8 false), ("c", .directory [])]),
    ("d.txt", .file "D".toUTF8 false)]

theorem run_eq_forest_unless_obstacle_someItems :
    (hostWith someItems).run (run "w").run = (.ok [.folder (nodeId ["a.md"]) "a.md"
      [.file (nodeId ["a.md", "b.md"]) "b.md" "B"]], hostWith someItems) := by
  have hsound : Disk.AreSound someItems :=
    ⟨by decide, ⟨by decide, trivial, by decide, by decide, trivial, by simp, trivial⟩, by decide,
      by decide, trivial, by simp, trivial⟩
  have hvalid : ∀ names content executable,
      Disk.Within someItems names (.file content executable) →
        names.getLast?.any isMarkdown = true → ∃ text, String.fromUTF8? content = some text := by
    intro names content executable hw _
    have hmem : (names, .file content executable) ∈ [(["a.md"], Disk.Entry.directory),
        (["a.md", "b.md"], .file "B".toUTF8 false), (["a.md", "c"], .directory),
          (["d.txt"], .file "D".toUTF8 false)] := Disk.mem_listing_iff.mpr hw
    simp only [List.mem_cons, Prod.mk.injEq, reduceCtorEq, and_false, false_or, List.not_mem_nil,
      or_false, Disk.Entry.file.injEq] at hmem
    rcases hmem with ⟨-, rfl, -⟩ | ⟨-, rfl, -⟩
    · exact ⟨"B", by decide +kernel⟩
    · exact ⟨"D", by decide +kernel⟩
  have hfree : (Disk.listing someItems).findSome? (obstacle? "w") = none := by decide +kernel
  have hforest : forest [] someItems = [.folder (nodeId ["a.md"]) "a.md"
      [.file (nodeId ["a.md", "b.md"]) "b.md" "B"]] := by
    have hmarkdown : isMarkdown "b.md" = true := by decide +kernel
    have hother : isMarkdown "d.txt" = false := by decide +kernel
    have htext : contentText "B".toUTF8 = "B" := by decide +kernel
    simp only [someItems, forest, nodes, hmarkdown, hother, htext]
    rfl
  have hplace : (hostWith someItems).disk.directory? (hostWith someItems).workingDirectory "w" =
      .ok ["w"] := by decide +kernel
  have hrun := (run_eq_forest_unless_obstacle hplace (Disk.holdsTree_ofTree ["w"] hsound) hvalid).1
  rw [hfree, hforest] at hrun
  exact hrun

def longName : String := String.ofList (List.replicate 100 'd')

/-- A file below so many directories. -/
def nestedItems : Nat → List (String × Disk.Item)
  | 0 => [("a.md", .file "A".toUTF8 false)]
  | n + 1 => [(longName, .directory (nestedItems n))]

lemma areSound_nestedItems (n : Nat) : Disk.AreSound (nestedItems n) := by
  induction n with
  | zero => exact ⟨by decide, trivial, by simp, trivial⟩
  | succ n ih => exact ⟨by decide +kernel, ih, by simp, trivial⟩

lemma content_of_within_nestedItems {n : Nat} {content : ByteArray} {executable : Bool}
    (hw : Disk.Within (nestedItems n) names (.file content executable)) :
    content = "A".toUTF8 := by
  induction n generalizing names with
  | zero =>
    cases Disk.mem_listing_iff.mpr hw with
    | head => rfl
    | tail _ hmem => cases hmem
  | succ n ih =>
    have hmem := Disk.mem_listing_iff.mpr hw
    rw [nestedItems, Disk.listing, Disk.listing, List.append_nil, Disk.Item.listing] at hmem
    cases hmem with
    | tail _ hmem =>
      obtain ⟨⟨rest, e⟩, hrest, heq⟩ := List.mem_map.mp hmem
      cases heq
      exact ih (Disk.mem_listing_iff.mp hrest)

/-- The path of the file has more than four thousand bytes, and so one of the directories above it
cannot be opened: a scan yields an error and not the forest, which has the file. -/
theorem run_ne_forest_nestedItems :
    let h := hostWith (nestedItems 41)
    h.disk.HoldsTree ["w"] (nestedItems 41) ∧
      (∀ names content executable, Disk.Within (nestedItems 41) names (.file content executable) →
        ∃ text, String.fromUTF8? content = some text) ∧
      (∃ path, (h.run (run "w").run).1 = .error (.unlisted path .nameTooLong)) ∧
      (h.run (run "w").run).1 ≠ .ok (forest [] (nestedItems 41)) := by
  intro h
  have hd := Disk.holdsTree_ofTree ["w"] (areSound_nestedItems 41)
  have hvalid : ∀ names content executable,
      Disk.Within (nestedItems 41) names (.file content executable) →
        ∃ text, String.fromUTF8? content = some text := by
    intro names content executable hw
    rw [content_of_within_nestedItems hw]
    exact ⟨"A", by decide +kernel⟩
  have hshort : ((Disk.listing (nestedItems 41)).take 40).findSome? (obstacle? "w") = none := by
    decide +kernel
  have hlast : (Disk.listing (nestedItems 41)).drop 40 =
      [(List.replicate 41 longName, .directory),
        (List.replicate 41 longName ++ ["a.md"], .file "A".toUTF8 false)] := by rfl
  have hlong : ¬(Path.join "w" ("/".intercalate (List.replicate 41 longName))).utf8ByteSize <
      Disk.pathLimit := by decide +kernel
  obtain ⟨path, hfound⟩ : ∃ path, (Disk.listing (nestedItems 41)).findSome? (obstacle? "w") =
      some (.unlisted path .nameTooLong) := by
    rw [← List.take_append_drop 40 (Disk.listing (nestedItems 41)), List.findSome?_append, hshort,
      hlast, List.findSome?_cons, obstacle?, if_neg hlong]
    exact ⟨_, rfl⟩
  have hrun : h.run (run "w").run = (.error _, h) :=
    run_eq_error_of_obstacle (by decide +kernel) hd
      (fun names content executable hw _ => hvalid names content executable hw) hfound
  rw [hrun]
  exact ⟨hd, hvalid, ⟨_, rfl⟩, nofun⟩

end Runs

end Scan

end Folio
