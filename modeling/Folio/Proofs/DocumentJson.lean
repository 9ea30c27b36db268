import Folio.Document.Json
import Folio.Proofs.FileNodeJson
import Folio.Proofs.Siblings

/-!
# Reading trees that were written

A node is read again from its object, and a node that was read takes no more brackets to write than
the text it was read from had. So a document that is not nested too deeply survives being written
and read, and one that was read is never nested too deeply.
-/

namespace Folio

namespace Json

lemma uint8?_toNat (n : UInt8) : (number (.integer n.toNat)).uint8? = some n := by
  have hn : 0 ≤ (n.toNat : Int) ∧ (n.toNat : Int) < 256 := by
    have hlt := n.toNat_lt
    omega
  rw [uint8?, if_pos hn, Int.toNat_natCast, UInt8.ofNat_toNat]

lemma uint64?_toNat (n : UInt64) : (number (.integer n.toNat)).uint64? = some n := by
  have hn : 0 ≤ (n.toNat : Int) ∧ (n.toNat : Int).toNat < UInt64.size := by
    have hlt := n.toNat_lt_size
    omega
  rw [uint64?, if_pos hn, Int.toNat_natCast, UInt64.ofNat_toNat]

section Depth

variable {names : List String} {v w : Json} {values : List (Option Json)}

lemma depth_le_depthItems {items : List Json} (h : v ∈ items) : v.depth ≤ depthItems items := by
  induction items with
  | nil => cases h
  | cons w items ih =>
    rw [depthItems]
    rcases List.mem_cons.mp h with rfl | hmem
    · exact Nat.le_max_left ..
    · exact (ih hmem).trans (Nat.le_max_right ..)

lemma exists_of_mem_mapM {α β : Type} {f : α → Option β} {as : List α} {bs : List β} {b : β}
    (h : as.mapM f = some bs) (hb : b ∈ bs) : ∃ a ∈ as, f a = some b := by
  induction as generalizing bs with
  | nil =>
    cases h
    cases hb
  | cons a as ih =>
    rw [List.mapM_cons] at h
    obtain ⟨b', hb', h⟩ := Option.bind_eq_some_iff.mp h
    obtain ⟨bs', hbs', h⟩ := Option.bind_eq_some_iff.mp h
    cases h
    rcases List.mem_cons.mp hb with rfl | hmem
    · exact ⟨a, List.mem_cons_self, hb'⟩
    · obtain ⟨c, hc, hcb⟩ := ih hbs' hmem
      exact ⟨c, List.mem_cons_of_mem a hc, hcb⟩

/-- The fields of a record are nested less deeply than the record. -/
lemma depth_lt_of_mem_record? (h : record? names v = some values) (hw : some w ∈ values) :
    w.depth < v.depth := by
  unfold record? at h
  split at h
  · next fields =>
    obtain ⟨name, -, hname⟩ := exists_of_mem_mapM h hw
    have hdepth := depth_le_depthFields (mem_of_field? hname)
    rw [depth]
    omega
  · next items =>
    split at h
    · obtain rfl := Option.some.inj h
      have hmem : w ∈ items := by simpa using hw
      have hdepth := depth_le_depthItems hmem
      rw [depth]
      omega
    · cases h
  · cases h

end Depth

end Json

namespace Node

/-- Nodes of this kind have children, of which there may be none. -/
def isContainer : Node → Bool
  | text _ | inlineCode _ | code .. | thematicBreak | image .. | .break | html _ | math _
  | inlineMath _ | footnoteReference _ | unknown _ => false
  | _ => true

/-- The children that a field describes. -/
def readChildren? (levels : Nat) : Json → Option (List Node)
  | .array items => items.mapM (ofJson? levels true)
  | _ => none

section Writing

variable {n : Node}

lemma writable_toJson_of_children (h : Json.ItemsWritable (listToJson n.children)) :
    n.toJson.Writable := by
  cases n with
  | heading level cs =>
    have hlevel := level.toNat_lt
    refine ⟨trivial, ⟨?_, ?_⟩, h, trivial⟩ <;> omega
  | list ordered start cs =>
    cases start with
    | none => exact ⟨trivial, trivial, h, trivial⟩
    | some start =>
      have hstart := start.toNat_lt
      refine ⟨trivial, trivial, ⟨?_, ?_⟩, h, trivial⟩ <;> omega
  | listItem checked cs =>
    cases checked with
    | none => exact ⟨trivial, h, trivial⟩
    | some checked => exact ⟨trivial, trivial, h, trivial⟩
  | link url title cs =>
    cases title with
    | none => exact ⟨trivial, trivial, h, trivial⟩
    | some title => exact ⟨trivial, trivial, trivial, h, trivial⟩
  | paragraph | blockquote | table | tableRow | tableCell | strong | emphasis | delete =>
    exact ⟨trivial, h, trivial⟩
  | footnoteDefinition => exact ⟨trivial, trivial, h, trivial⟩
  | code lang value => cases lang <;> simp [toJson, tagged, optionalField, Json.Writable,
      Json.FieldsWritable]
  | image url alt title => cases title <;> simp [toJson, tagged, optionalField, Json.Writable,
      Json.FieldsWritable]
  | _ => simp [toJson, tagged, Json.Writable, Json.FieldsWritable]

lemma writable_listToJson (ns : List Node) : Json.ItemsWritable (listToJson ns) := by
  induction ns using forest_induction with
  | nil => trivial
  | cons n ns ihn ihns => exact ⟨writable_toJson_of_children ihn, ihns⟩

lemma depth_toJson (n : Node) : n.toJson.depth =
    if n.isContainer then Json.depthItems (listToJson n.children) + 2 else 1 := by
  cases n with
  | list _ start _ =>
    cases start <;> simp [toJson, tagged, childrenField, optionalField, Json.depth,
      Json.depthFields, children, isContainer]
  | listItem checked _ =>
    cases checked <;> simp [toJson, tagged, childrenField, optionalField, Json.depth,
      Json.depthFields, children, isContainer]
  | link _ title _ =>
    cases title <;> simp [toJson, tagged, childrenField, optionalField, Json.depth,
      Json.depthFields, children, isContainer]
  | code lang _ => cases lang <;> rfl
  | image _ _ title => cases title <;> rfl
  | _ => simp [toJson, tagged, childrenField, Json.depth, Json.depthFields, children, isContainer]

end Writing

section Reading

variable {levels : Nat} {numbered : Bool}

lemma ofJson?_tagged {kind : String} {fields : List (String × Json)} {values : List (Option Json)}
    (hkind : kind ∈ kindNames) (hfree : Json.valuesOf "kind" fields = [])
    (hvalues : Json.record? (fieldNames kind) (tagged kind fields) = some values) :
    ofJson? (levels + 1) numbered (tagged kind fields) =
      ofFields? (readChildren? levels) kind values := by
  have htag : Json.field? "kind" (("kind", .string kind) :: fields) =
      some (some (.string kind)) := by
    have hfields : Json.valuesOf "kind" (("kind", .string kind) :: fields) =
        .string kind :: Json.valuesOf "kind" fields := rfl
    rw [Json.field?, hfields, hfree]
  have hkindOf : kindOf? numbered (.string kind) = some kind := if_pos hkind
  rw [tagged] at hvalues ⊢
  rw [ofJson?]
  simp only [htag, hkindOf, hvalues, Option.bind_eq_bind, Option.bind_some, Option.map_some]
  rfl

lemma eq_some_of_children {n : Option Node} {make : List Node → Node} {cs : List Node}
    (hcs : readChildren? levels (.array (listToJson cs)) = some cs)
    (hn : n = (readChildren? levels (.array (listToJson cs))).bind (some ∘ make)) :
    n = some (make cs) := by
  rw [hn, hcs]
  rfl

/-- A node is read again from its object if its children are read again from theirs. -/
lemma ofJson?_toJson_of_children {n : Node}
    (h : readChildren? levels (.array (listToJson n.children)) = some n.children) :
    ofJson? (levels + 1) numbered n.toJson = some n := by
  cases n with
  | heading level cs =>
    have hlevel := Json.uint8?_toNat level
    rw [toJson]
    -- Unification would otherwise compute with the bound of the level.
    generalize Json.number (.integer level.toNat) = v at hlevel
    rw [ofJson?_tagged (by decide) rfl rfl]
    change v.uint8?.bind (fun level =>
      (readChildren? levels (.array (listToJson cs))).bind (some ∘ heading level)) = _
    rw [hlevel]
    exact eq_some_of_children h rfl
  | list ordered start cs =>
    cases start with
    | none =>
      rw [toJson, ofJson?_tagged (by decide) rfl rfl]
      exact eq_some_of_children h rfl
    | some start =>
      have hstart : Json.optional? Json.uint64? (some (.number (.integer start.toNat))) =
          some (some start) := congrArg (Option.map some) (Json.uint64?_toNat start)
      change ofJson? _ _ (tagged "list" [("ordered", .bool ordered),
        ("start", .number (.integer start.toNat)), childrenField (listToJson cs)]) = _
      generalize Json.number (.integer start.toNat) = v at hstart
      rw [ofJson?_tagged (by decide) rfl rfl]
      change (Json.optional? Json.uint64? (some v)).bind (fun start =>
        (readChildren? levels (.array (listToJson cs))).bind (some ∘ list ordered start)) = _
      rw [hstart]
      exact eq_some_of_children h rfl
  | paragraph | blockquote | table | tableRow | tableCell | strong | emphasis | delete
  | footnoteDefinition =>
    rw [toJson, ofJson?_tagged (by decide) rfl rfl]
    exact eq_some_of_children h rfl
  | listItem checked =>
    cases checked <;>
    · rw [toJson, ofJson?_tagged (by decide) rfl rfl]
      exact eq_some_of_children h rfl
  | link _ title =>
    cases title <;>
    · rw [toJson, ofJson?_tagged (by decide) rfl rfl]
      exact eq_some_of_children h rfl
  | code lang =>
    cases lang <;>
    · rw [toJson, ofJson?_tagged (by decide) rfl rfl]
      rfl
  | image _ _ title =>
    cases title <;>
    · rw [toJson, ofJson?_tagged (by decide) rfl rfl]
      rfl
  | _ =>
    rw [toJson, ofJson?_tagged (by decide) rfl rfl]
    rfl

/-- Nodes are read again from their objects, with as many levels as those have brackets. -/
lemma mapM_listToJson {ns : List Node} (h : Json.depthItems (listToJson ns) ≤ levels) :
    (listToJson ns).mapM (ofJson? levels numbered) = some ns := by
  induction ns using forest_induction generalizing levels numbered with
  | nil => rfl
  | cons n ns ihn ihns =>
    rw [listToJson, Json.depthItems] at h
    have hdepth := depth_toJson n
    obtain ⟨levels, rfl⟩ : ∃ m, levels = m + 1 := ⟨levels - 1, by split at hdepth <;> omega⟩
    have hchildren : readChildren? levels (.array (listToJson n.children)) = some n.children := by
      apply ihn
      cases hn : n.isContainer with
      | true =>
        rw [hn, if_pos rfl] at hdepth
        omega
      | false =>
        rw [show n.children = [] by cases n <;> first | rfl | cases hn]
        exact Nat.zero_le _
    rw [listToJson, List.mapM_cons, ofJson?_toJson_of_children hchildren, ihns (by omega)]
    rfl

end Reading

section Accepted

variable {levels : Nat} {numbered : Bool} {n : Node}

lemma ofFields?_cases {read : Json → Option (List Node)} {kind : String}
    {fields : List (Option Json)} (h : ofFields? read kind fields = some n) :
    n.isContainer = false ∨ ∃ v, some v ∈ fields ∧ read v = some n.children := by
  unfold ofFields? at h
  split at h
  all_goals simp only [Option.bind_eq_bind, Option.bind_eq_some_iff, Option.pure_def,
    Option.some.injEq, reduceCtorEq] at h
  all_goals grind [children, isContainer]

lemma depthItems_listToJson_le
    (ih : ∀ {v : Json} {n : Node}, ofJson? levels numbered v = some n → n.toJson.depth ≤ v.depth)
    {items : List Json} {ns : List Node} (h : items.mapM (ofJson? levels numbered) = some ns) :
    Json.depthItems (listToJson ns) ≤ Json.depthItems items := by
  induction items generalizing ns with
  | nil =>
    cases h
    exact Nat.zero_le _
  | cons v items ihitems =>
    rw [List.mapM_cons] at h
    obtain ⟨n, hn, h⟩ := Option.bind_eq_some_iff.mp h
    obtain ⟨ms, hms, h⟩ := Option.bind_eq_some_iff.mp h
    cases h
    have hhead := ih hn
    have htail := ihitems hms
    rw [listToJson, Json.depthItems, Json.depthItems]
    omega

/-- A value that describes a node, in either form: its fields are a record that has no more
brackets than the value, and the node is made of them. -/
lemma ofJson?_cases {v : Json} (h : ofJson? levels numbered v = some n) :
    ∃ outer kind names values w, levels = outer + 1 ∧ Json.record? names w = some values ∧
      w.depth ≤ v.depth ∧ 0 < v.depth ∧ ofFields? (readChildren? outer) kind values = some n := by
  unfold ofJson? at h
  split at h
  · cases h
  · next outer =>
    split at h
    · next fields =>
      simp only [Option.bind_eq_bind, Option.bind_eq_some_iff, Option.map_eq_some_iff] at h
      obtain ⟨_, _, _, ⟨_, _, rfl⟩, kind, _, values, hvalues, h⟩ := h
      exact ⟨outer, kind, _, values, _, rfl, hvalues, le_rfl, Nat.succ_pos _, h⟩
    · next tag items =>
      simp only [Option.bind_eq_bind, Option.bind_some, Option.bind_eq_some_iff] at h
      obtain ⟨kind, -, values, hvalues, h⟩ := h
      refine ⟨outer, kind, _, values, _, rfl, hvalues, ?_, Nat.succ_pos _, h⟩
      simp [Json.depth, Json.depthItems]
    · cases h

/-- Writing a node that was read opens no more brackets than there were. -/
lemma depth_toJson_le {v : Json} (h : ofJson? levels numbered v = some n) :
    n.toJson.depth ≤ v.depth := by
  induction levels generalizing v n numbered with
  | zero =>
    obtain ⟨outer, -, -, -, -, hlevels, -⟩ := ofJson?_cases h
    cases hlevels
  | succ levels ih =>
    obtain ⟨outer, kind, names, values, w, hlevels, hvalues, hw, hpos, hn⟩ := ofJson?_cases h
    obtain rfl : levels = outer := by omega
    rw [depth_toJson]
    rcases ofFields?_cases hn with hleaf | ⟨u, hu, hchildren⟩
    · rw [hleaf]
      exact hpos
    · have hdepth := Json.depth_lt_of_mem_record? hvalues hu
      unfold readChildren? at hchildren
      split at hchildren
      · have hitems := depthItems_listToJson_le ih hchildren
        rw [Json.depth] at hdepth
        split <;> omega
      · cases hchildren

end Accepted

end Node

namespace Document

/-- A document is read again from its text if few enough brackets are open in it. -/
lemma read?_compact {d : Document} (h : d.toJson.depth < Json.nestingLimit) :
    read? d.toJson.compact = some d := by
  have hwritable : Json.ItemsWritable (Node.listToJson d.children) :=
    Node.writable_listToJson d.children
  have hdepth : Json.depthItems (Node.listToJson d.children) + 2 < Json.nestingLimit := by
    simpa [toJson, Json.depth, Json.depthFields] using h
  have hitems : (Node.listToJson d.children).mapM (Node.ofJson? Json.nestingLimit false) =
      some d.children := Node.mapM_listToJson (by omega)
  have hadmissible : (Json.array (Node.listToJson d.children)).isAdmissible 1 = true := by
    have hrepresentable := Json.Writable.isRepresentable (v := .array _) hwritable
    simp [Json.isAdmissible, hrepresentable, Json.depth, hdepth]
  have hread : Json.read? d.toJson.compact = some d.toJson :=
    Json.read?_compact (show Json.FieldsWritable _ from ⟨hwritable, trivial⟩)
  rw [read?, hread]
  change (if _ then _ else _) = _
  rw [if_pos hadmissible, hitems]
  rfl

/-- A document that was read is not nested too deeply. -/
lemma depth_toJson_lt {text : String} {d : Document} (h : read? text = some d) :
    d.toJson.depth < Json.nestingLimit := by
  obtain ⟨v, -, h⟩ := Option.bind_eq_some_iff.mp h
  obtain ⟨values, -, h⟩ := Option.bind_eq_some_iff.mp h
  split at h
  · next items =>
    split at h
    · next hadmissible =>
      obtain ⟨ns, hns, h⟩ := Option.bind_eq_some_iff.mp h
      cases h
      have hitems := Node.depthItems_listToJson_le Node.depth_toJson_le hns
      have hdepth : (Json.array items).depth + 1 < Json.nestingLimit :=
        of_decide_eq_true (Bool.and_eq_true_iff.mp hadmissible).2
      rw [Json.depth] at hdepth
      simp only [toJson, Json.depth, Json.depthFields]
      omega
    · cases h
  · cases h

end Document

/-- A document that is not nested too deeply is read again from its text, and so is every document
and every forest of files that was itself read from a text. -/
theorem read_again_from_compact :
    (∀ d : Document, d.toJson.depth < Json.nestingLimit →
        Document.read? d.toJson.compact = some d) ∧
      (∀ text d, Document.read? text = some d → Document.read? d.toJson.compact = some d) ∧
      ∀ text nodes, FileNode.readForest? text = some nodes →
        FileNode.readForest? (FileNode.forestToJson nodes).compact = some nodes :=
  ⟨fun _ hdepth => Document.read?_compact hdepth,
    fun _ _ hread => Document.read?_compact (Document.depth_toJson_lt hread),
    fun _ _ hread => FileNode.readForest?_forestToJson_of_readForest? hread⟩

/-- The greatest start of a list, and text with control characters. -/
def oddDocument : Document :=
  ⟨[.list true (some (UInt64.ofNat (2 ^ 64 - 1))) [.listItem (some false) [.text "\x00\"\\\n😀"]],
    .heading 255 [.image "" "" none], .unknown "kind"]⟩

/-- A document as an array, with a link as an array, an unknown field and an absent language. -/
def arrayText : String :=
  "[[[\"link\",\"u\",null,[[11,\"a\"]]]," ++
    "\x7b\"x\":[],\"value\":\"b\",\"lang\":null,\"kind\":\"code\"\x7d]]"

/-- A folder without its children, in `n` folders. -/
def emptyFolder : Nat → Json
  | 0 => .object [("kind", .string "folder"), ("id", .string "1"), ("name", .string "d")]
  | n + 1 => .object [("kind", .string "folder"), ("id", .string "1"), ("name", .string "d"),
      ("children", .array [emptyFolder n])]

lemma writable_emptyFolder (n : Nat) : (emptyFolder n).Writable := by
  induction n with
  | zero => exact ⟨trivial, trivial, trivial, trivial⟩
  | succ n ih => exact ⟨trivial, trivial, trivial, ⟨ih, trivial⟩, trivial⟩

/-- The text of an empty folder in sixty-two folders has as many brackets as can be read but one,
and that one more when it is written again. -/
theorem read_again_from_compact_forms :
    (oddDocument.toJson.depth < Json.nestingLimit ∧
        Document.read? oddDocument.toJson.compact = some oddDocument) ∧
      (∃ d, Document.read? arrayText = some d ∧ Document.read? d.toJson.compact = some d) ∧
      ∃ nodes, FileNode.readForest? (Json.array [emptyFolder 62]).compact = some nodes ∧
        FileNode.readForest? (FileNode.forestToJson nodes).compact = some nodes := by
  have hodd : oddDocument.toJson.depth < Json.nestingLimit := by decide +kernel
  have harray : (Document.read? arrayText).isSome = true := by decide +kernel
  have hfolder : (FileNode.readForest? (Json.array [emptyFolder 62]).compact).isSome = true := by
    have hwritable : (Json.array [emptyFolder 62]).Writable := ⟨writable_emptyFolder 62, trivial⟩
    rw [FileNode.readForest?, Json.read?_compact hwritable]
    decide +kernel
  obtain ⟨d, hd⟩ := Option.isSome_iff_exists.mp harray
  obtain ⟨nodes, hnodes⟩ := Option.isSome_iff_exists.mp hfolder
  exact ⟨⟨hodd, read_again_from_compact.1 _ hodd⟩,
    ⟨d, hd, read_again_from_compact.2.1 _ _ hd⟩,
    ⟨nodes, hnodes, read_again_from_compact.2.2 _ _ hnodes⟩⟩

end Folio
