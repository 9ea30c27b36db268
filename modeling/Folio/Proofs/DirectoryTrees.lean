import Folio.Proofs.Disks
import Mathlib.Data.List.Lex
import Mathlib.Data.List.Nodup
import Mathlib.Data.String.Basic

/-!
# Directory trees

A directory holds names in their order, each of them that of a file or of another directory. Walking
through a directory of a disk lists what the tree holds: each directory before what is in it, and
each name once.
-/

namespace Folio.Disk

inductive Item where
  | file (content : ByteArray) (executable : Bool)
  | directory (items : List (String × Item))

/-- What a disk holds for an item at its place. -/
def Item.entry : Item → Entry
  | .file content executable => .file content executable
  | .directory _ => .directory

/-- Names lead from a directory to something in it. -/
inductive Within : List (String × Item) → List String → Entry → Prop where
  | here {items : List (String × Item)} {name : String} {item : Item} (mem : (name, item) ∈ items) :
    Within items [name] item.entry
  | inside {items inner : List (String × Item)} {name : String} {names : List String} {e : Entry}
    (mem : (name, .directory inner) ∈ items) (rest : Within inner names e) :
    Within items (name :: names) e

mutual

/-- All names can be given to a file, and those in a directory are in order. -/
def Item.IsSound : Item → Prop
  | .file .. => True
  | .directory items => AreSound items

def AreSound : List (String × Item) → Prop
  | [] => True
  | (name, item) :: items =>
    (Path.IsPlain name ∧ name.utf8ByteSize ≤ nameLimit) ∧ item.IsSound ∧
      (∀ other ∈ items, name < other.1) ∧ AreSound items

end

mutual

/-- An item and what is in it, each with the names that lead there. -/
def Item.listing (name : String) : Item → List (List String × Entry)
  | .file content executable => [([name], .file content executable)]
  | .directory items =>
    ([name], .directory) :: (listing items).map fun (names, e) => (name :: names, e)

def listing : List (String × Item) → List (List String × Entry)
  | [] => []
  | (name, item) :: items => item.listing name ++ listing items

end

/-- A directory of a disk holds just what a tree does. -/
structure HoldsTree (d : Disk) (place : List String) (items : List (String × Item)) : Prop where
  /-- The disk has one entry for each place. -/
  nodup : (d.entries.map (·.1)).Nodup
  sound : AreSound items
  entry?_iff : ∀ names e, names ≠ [] →
    (d.entry? (place ++ names) = some e ↔ Within items names e)

variable {d : Disk} {place names : List String} {items items' : List (String × Item)}
  {name : String} {item : Item} {e : Entry}

section Members

lemma Within.ne_nil (hw : Within items names e) : names ≠ [] := by
  cases hw <;> exact List.cons_ne_nil _ _

lemma Within.mono (hw : Within items names e) (hsub : items ⊆ items') : Within items' names e := by
  cases hw with
  | here mem => exact .here (hsub mem)
  | inside mem rest => exact .inside (hsub mem) rest

lemma Within.exists_name (hw : Within items names e) :
    ∃ i ∈ items, ∃ rest, names = i.1 :: rest := by
  cases hw with
  | here mem => exact ⟨_, mem, [], rfl⟩
  | inside mem rest => exact ⟨_, mem, _, rfl⟩

lemma AreSound.of_mem (hs : AreSound items) (hmem : (name, item) ∈ items) :
    (Path.IsPlain name ∧ name.utf8ByteSize ≤ nameLimit) ∧ item.IsSound := by
  induction items with
  | nil => cases hmem
  | cons i items ih =>
    rcases List.mem_cons.mp hmem with rfl | hmem
    · exact ⟨hs.1, hs.2.1⟩
    · exact ih hs.2.2.2 hmem

lemma Within.isPlain (hw : Within items names e) (hs : AreSound items) :
    ∀ name ∈ names, Path.IsPlain name := by
  induction hw with
  | here mem =>
    rintro name hname
    obtain rfl := List.mem_singleton.mp hname
    exact (hs.of_mem mem).1.1
  | inside mem rest ih =>
    intro name hname
    obtain ⟨hplain, hinner⟩ := hs.of_mem mem
    rcases List.mem_cons.mp hname with rfl | hname
    · exact hplain.1
    · exact ih hinner name hname

/-- The names of something in a directory lead to it on the disk, if their path is not too long. -/
lemma Within.locate {start : List String} {path : String} (hw : Within items names e)
    (hs : AreSound items)
    (hdir : d.directory? start (if path.isEmpty then "." else path) = .ok place)
    (hholds : ∀ names e, Within items names e → d.entry? (place ++ names) = some e)
    (hshort : (Path.join path ("/".intercalate names)).utf8ByteSize < pathLimit) :
    d.locate start (Path.join path ("/".intercalate names)) = .ok (place ++ names) ∧
      Path.meansDirectory (Path.join path ("/".intercalate names)) = false := by
  induction hw generalizing path place with
  | @here items name item mem =>
    obtain ⟨⟨hplain, hname⟩, -⟩ := hs.of_mem mem
    rw [String.intercalate_singleton] at hshort ⊢
    rw [locate_join hplain hdir, if_neg (by omega)]
    exact ⟨rfl, hplain.meansDirectory_join path⟩
  | @inside items inner name names e mem rest ih =>
    obtain ⟨⟨hplain, hname⟩, hinner⟩ := hs.of_mem mem
    have hrelative := Path.not_startsWith_intercalate (rest.isPlain hinner)
    have hpath : Path.join path ("/".intercalate (name :: names)) =
        Path.join (Path.join path name) ("/".intercalate names) := by
      rw [hplain.join_join path hrelative, String.intercalate_cons_of_ne_nil rest.ne_nil,
        String.append_assoc]
    have hsize := Path.utf8ByteSize_le_join (Path.join path name) _ hrelative
    have hempty : (Path.join path name).isEmpty = false := by
      simpa using hplain.join_ne_empty path
    rw [hpath] at hshort ⊢
    have hdir' : d.directory? start
        (if (Path.join path name).isEmpty then "." else Path.join path name) =
          .ok (place ++ [name]) := by
      rw [hempty, if_neg Bool.false_ne_true, directory?_eq_ok, locate_join hplain hdir,
        if_neg (by omega)]
      exact ⟨rfl, hholds [name] _ (.here mem)⟩
    have hinside := ih hinner hdir' (fun names e hw => by
      simpa using hholds (name :: names) e (.inside mem hw)) hshort
    simpa using hinside

/-- A path that is too long leads nowhere. -/
lemma Within.locate_of_long {start : List String} {path : String} (hw : Within items names e)
    (hs : AreSound items)
    (hdir : d.directory? start (if path.isEmpty then "." else path) = .ok place)
    (hlong : pathLimit ≤ (Path.join path ("/".intercalate names)).utf8ByteSize) :
    d.locate start (Path.join path ("/".intercalate names)) = .error .nameTooLong := by
  have hplain := hw.isPlain hs
  have hnul : '\x00' ∉ (Path.join path ("/".intercalate names)).toList := by
    rw [Path.nul_mem_join path (Path.not_startsWith_intercalate hplain)]
    exact not_or.mpr ⟨(follow_of_directory? hdir).1, Path.nul_notMem_intercalate hplain⟩
  have hempty : Path.join path ("/".intercalate names) ≠ "" := by
    intro heq
    rw [heq] at hlong
    exact absurd hlong (by decide)
  unfold Disk.locate
  rw [if_neg (by simpa using hnul), if_neg (by simpa using hempty), if_pos hlong]

/-- Below a directory is only what is in directories. -/
lemma Within.dropLast (hw : Within items names e) (hnames : 1 < names.length) :
    Within items names.dropLast .directory := by
  induction hw with
  | here mem => exact absurd hnames (lt_irrefl 1)
  | @inside items inner name names e mem rest ih =>
    rw [List.dropLast_cons_of_ne_nil rest.ne_nil]
    by_cases hinner : 1 < names.length
    · exact .inside mem (ih hinner)
    · obtain ⟨last, rfl⟩ : ∃ last, names = [last] := by
        have hlength := List.length_pos_iff.mpr rest.ne_nil
        exact List.length_eq_one_iff.mp (by omega)
      exact .here mem

lemma HoldsTree.entry?_of_within (hd : d.HoldsTree place items) (hw : Within items names e) :
    d.entry? (place ++ names) = some e :=
  (hd.entry?_iff names e hw.ne_nil).mpr hw

end Members

section Listing

mutual

lemma Item.within_of_mem_listing {names : List String} {e : Entry} {name : String} {item : Item}
    {items : List (String × Item)} (hmem : (name, item) ∈ items)
    (he : (names, e) ∈ item.listing name) : Within items names e := by
  cases item with
  | file content executable =>
    rw [Item.listing, List.mem_singleton] at he
    cases he
    exact .here hmem
  | directory inner =>
    rw [Item.listing, List.mem_cons] at he
    rcases he with he | he
    · cases he
      exact .here hmem
    · obtain ⟨⟨rest, e'⟩, hrest, heq⟩ := List.mem_map.mp he
      cases heq
      exact .inside hmem (within_of_mem_listing hrest)

lemma within_of_mem_listing {names : List String} {e : Entry} {items : List (String × Item)}
    (he : (names, e) ∈ listing items) : Within items names e := by
  cases items with
  | nil => cases he
  | cons i items =>
    obtain ⟨name, item⟩ := i
    rw [listing, List.mem_append] at he
    rcases he with he | he
    · exact Item.within_of_mem_listing List.mem_cons_self he
    · exact (within_of_mem_listing he).mono (List.subset_cons_self _ _)

end

lemma mem_listing_of_mem {x : List String × Entry} (hmem : (name, item) ∈ items)
    (hx : x ∈ item.listing name) : x ∈ listing items := by
  induction items with
  | nil => cases hmem
  | cons i items ih =>
    rw [listing, List.mem_append]
    rcases List.mem_cons.mp hmem with rfl | hmem
    · exact .inl hx
    · exact .inr (ih hmem)

/-- The listing of a directory has what is in it. -/
lemma mem_listing_iff : (names, e) ∈ listing items ↔ Within items names e := by
  refine ⟨within_of_mem_listing, fun hw => ?_⟩
  induction hw with
  | @here items name item mem =>
    refine mem_listing_of_mem mem ?_
    cases item <;> simp [Item.listing, Item.entry]
  | inside mem rest ih =>
    refine mem_listing_of_mem mem ?_
    rw [Item.listing]
    exact List.mem_cons_of_mem _ (List.mem_map.mpr ⟨_, ih, rfl⟩)

lemma exists_of_mem_itemListing {x : List String × Entry} (hx : x ∈ item.listing name) :
    ∃ rest, x.1 = name :: rest := by
  obtain ⟨i, hi, rest, hrest⟩ :=
    (Item.within_of_mem_listing (List.mem_singleton_self (name, item)) hx).exists_name
  obtain rfl := List.mem_singleton.mp hi
  exact ⟨rest, hrest⟩

mutual

lemma Item.pairwise_listing {item : Item} (hs : item.IsSound) (name : String) :
    (item.listing name).Pairwise (·.1 < ·.1) := by
  cases item with
  | file content executable => exact List.pairwise_singleton _ _
  | directory items =>
    rw [Item.listing, List.pairwise_cons, List.pairwise_map]
    refine ⟨?_, ?_⟩
    · rintro x hx
      obtain ⟨⟨names, e⟩, hmem, rfl⟩ := List.mem_map.mp hx
      obtain ⟨first, rest, rfl⟩ := List.exists_cons_of_ne_nil (within_of_mem_listing hmem).ne_nil
      exact List.cons_lt_cons_iff.mpr (.inr ⟨rfl, List.nil_lt_cons _ _⟩)
    · exact (pairwise_listing hs).imp fun hlt => List.cons_lt_cons_iff.mpr (.inr ⟨rfl, hlt⟩)

/-- The listing of a directory is in order. -/
lemma pairwise_listing {items : List (String × Item)} (hs : AreSound items) :
    (listing items).Pairwise (·.1 < ·.1) := by
  cases items with
  | nil => exact .nil
  | cons i items =>
    obtain ⟨name, item⟩ := i
    obtain ⟨-, hitem, hfirst, hitems⟩ := hs
    rw [listing, List.pairwise_append]
    refine ⟨Item.pairwise_listing hitem name, pairwise_listing hitems, ?_⟩
    rintro x hx ⟨names, e⟩ hy
    obtain ⟨rest, hrest⟩ := exists_of_mem_itemListing hx
    obtain ⟨other, hother, rest', rfl⟩ := (within_of_mem_listing hy).exists_name
    rw [hrest]
    exact List.cons_lt_cons_iff.mpr (.inl (hfirst other hother))

end

/-- A directory comes before what is in it. -/
lemma dropLast_lt {names : List String} (h : names ≠ []) : names.dropLast < names := by
  induction names with
  | nil => exact absurd rfl h
  | cons name names ih =>
    rcases names with _ | ⟨inner, names⟩
    · exact List.nil_lt_cons _ _
    · rw [List.dropLast_cons_cons]
      exact List.cons_lt_cons_iff.mpr (.inr ⟨rfl, ih (List.cons_ne_nil _ _)⟩)

lemma lookup_eq_some_of_nodup {entries : List (List String × Entry)}
    (hnodup : (entries.map (·.1)).Nodup) (hmem : (place, e) ∈ entries) :
    entries.lookup place = some e := by
  obtain ⟨before, after, rfl⟩ := List.append_of_mem hmem
  refine List.lookup_eq_some_iff.mpr ⟨before, after, rfl, fun x hx => ?_⟩
  rw [List.map_append, List.nodup_append] at hnodup
  simpa using (hnodup.2.2 _ (List.mem_map_of_mem hx) place (by simp)).symm

lemma mem_entries_iff (hnodup : (d.entries.map (·.1)).Nodup) (hplace : place ≠ []) :
    (place, e) ∈ d.entries ↔ d.entry? place = some e := by
  unfold entry?
  rw [if_neg hplace]
  refine ⟨lookup_eq_some_of_nodup hnodup, fun h => ?_⟩
  obtain ⟨before, after, hentries, -⟩ := List.lookup_eq_some_iff.mp h
  simp [hentries]

/-- An entry seen from a directory, if it is below it. -/
def seenFrom (place : List String) (x : List String × Entry) : Option (List String × Entry) :=
  if place.isPrefixOf x.1 && x.1 != place then some (x.1.drop place.length, x.2) else none

lemma seenFrom_append (place names : List String) (e : Entry) :
    seenFrom place (place ++ names, e) = if names = [] then none else some (names, e) := by
  have hbegins : place.isPrefixOf (place ++ names) = true :=
    List.isPrefixOf_iff_prefix.mpr (List.prefix_append place names)
  by_cases hnames : names = [] <;> simp [seenFrom, hbegins, hnames]

lemma seenFrom_eq_some_iff {x y : List String × Entry} :
    seenFrom place x = some y ↔ y.1 ≠ [] ∧ x = (place ++ y.1, y.2) := by
  constructor
  · intro hseen
    have hbegins : place <+: x.1 := by
      unfold seenFrom at hseen
      split at hseen
      · next h => exact List.isPrefixOf_iff_prefix.mp (Bool.and_eq_true_iff.mp h).1
      · cases hseen
    obtain ⟨p, e⟩ := x
    obtain ⟨names, rfl⟩ := hbegins
    rw [seenFrom_append] at hseen
    split at hseen
    · cases hseen
    · next hne =>
      cases hseen
      exact ⟨hne, rfl⟩
  · rintro ⟨hne, rfl⟩
    rw [seenFrom_append, if_neg hne]

lemma HoldsTree.mem_seen_iff (hd : d.HoldsTree place items) {x : List String × Entry} :
    x ∈ d.entries.filterMap (seenFrom place) ↔ x ∈ listing items := by
  obtain ⟨names, e⟩ := x
  rw [mem_listing_iff, List.mem_filterMap]
  constructor
  · rintro ⟨y, hy, hsome⟩
    obtain ⟨hne, rfl⟩ := seenFrom_eq_some_iff.mp hsome
    exact (hd.entry?_iff names e hne).mp ((mem_entries_iff hd.nodup (by simp [hne])).mp hy)
  · intro hw
    have hne := hw.ne_nil
    exact ⟨_, (mem_entries_iff hd.nodup (by simp [hne])).mpr (hd.entry?_of_within hw),
      seenFrom_eq_some_iff.mpr ⟨hne, rfl⟩⟩

lemma HoldsTree.perm_below (hd : d.HoldsTree place items) :
    (d.below place).Perm (listing items) := by
  have hseen : (d.entries.filterMap (seenFrom place)).Nodup := by
    refine (List.Nodup.of_map _ hd.nodup).filterMap fun x x' y hx hx' => ?_
    exact (seenFrom_eq_some_iff.mp hx).2.trans (seenFrom_eq_some_iff.mp hx').2.symm
  have hlisting : (listing items).Nodup := (pairwise_listing hd.sound).imp fun hlt heq => by
    rw [heq] at hlt
    exact lt_irrefl _ hlt
  exact (List.mergeSort_perm _ _).trans
    ((List.perm_ext_iff_of_nodup hseen hlisting).mpr fun _ => hd.mem_seen_iff)

lemma pairwise_below (d : Disk) (place : List String) :
    (d.below place).Pairwise fun a b => ¬b.1 < a.1 := by
  have hbelow : (d.below place).Pairwise fun a b => decide (¬b.1 < a.1) = true := by
    refine List.pairwise_mergeSort (fun a b c hab hbc => ?_) (fun a b => ?_) _
    · simp only [decide_eq_true_eq, not_lt] at hab hbc ⊢
      exact hab.trans hbc
    · simpa using le_total a.1 b.1
  simpa only [decide_eq_true_eq] using hbelow

/-- Walking through a directory lists what the tree in it holds. -/
theorem HoldsTree.below_eq_listing (hd : d.HoldsTree place items) :
    d.below place = listing items := by
  have hnames : ∀ a ∈ listing items, ∀ b ∈ listing items, a.1 = b.1 → a = b := by
    rintro ⟨names, e⟩ ha ⟨_, e'⟩ hb rfl
    have he := hd.entry?_of_within (mem_listing_iff.mp ha)
    have he' := hd.entry?_of_within (mem_listing_iff.mp hb)
    rw [he] at he'
    cases he'
    rfl
  have hperm := hd.perm_below
  refine hperm.eq_of_pairwise ?_ (pairwise_below d place)
    ((pairwise_listing hd.sound).imp fun hlt => hlt.asymm)
  intro a b ha hb hab hba
  exact hnames a (hperm.mem_iff.mp ha) b hb (le_antisymm (not_lt.mp hab) (not_lt.mp hba))

/-- A disk with a tree in one of its directories. -/
def ofTree (place : List String) (items : List (String × Item)) : Disk :=
  ⟨(place, .directory) :: (listing items).map fun (names, e) => (place ++ names, e)⟩

/-- Every tree can be on a disk. -/
lemma holdsTree_ofTree (place : List String) (hs : AreSound items) :
    (ofTree place items).HoldsTree place items := by
  have hnodup : ((ofTree place items).entries.map (·.1)).Nodup := by
    rw [ofTree, List.map_cons, List.map_map, List.nodup_cons]
    refine ⟨?_, ?_⟩
    · rw [List.mem_map]
      rintro ⟨⟨names, e⟩, hmem, heq⟩
      exact (mem_listing_iff.mp hmem).ne_nil (List.append_right_eq_self.mp heq)
    · refine List.pairwise_map.mpr ((pairwise_listing hs).imp fun hlt heq => ?_)
      rw [List.append_cancel_left heq] at hlt
      exact lt_irrefl _ hlt
  refine ⟨hnodup, hs, fun names e hne => ?_⟩
  rw [← mem_entries_iff hnodup (by simp [hne]), ← mem_listing_iff]
  simp [ofTree, hne]

end Listing

end Folio.Disk
