import Folio.Proofs.JsonRoundTrip
import Folio.Workspace.FileNode

/-!
# Reading file trees that were written

A forest that is not nested too deeply can be read again from its text. A forest that was read from
a text is never nested too deeply, although its text may have to be longer than the one it was read
from: a folder is written with its children even when it was read without any.
-/

namespace Folio

namespace Json

mutual

lemma Writable.isRepresentable {v : Json} (h : v.Writable) : v.isRepresentable = true := by
  cases v with
  | unrepresentable => exact h.elim
  | array items => exact ItemsWritable.itemsRepresentable h
  | object fields => exact FieldsWritable.fieldsRepresentable h
  | _ => rfl

lemma ItemsWritable.itemsRepresentable {vs : List Json} (h : ItemsWritable vs) :
    itemsRepresentable vs = true := by
  cases vs with
  | nil => rfl
  | cons v vs =>
    rw [Json.itemsRepresentable, h.1.isRepresentable, ItemsWritable.itemsRepresentable h.2]
    rfl

lemma FieldsWritable.fieldsRepresentable {fs : List (String × Json)} (h : FieldsWritable fs) :
    fieldsRepresentable fs = true := by
  cases fs with
  | nil => rfl
  | cons f fs =>
    obtain ⟨k, v⟩ := f
    rw [Json.fieldsRepresentable, h.1.isRepresentable, FieldsWritable.fieldsRepresentable h.2]
    rfl

end

lemma depth_le_depthFields {k : String} {v : Json} {fields : List (String × Json)}
    (h : (k, v) ∈ fields) : v.depth ≤ depthFields fields := by
  induction fields with
  | nil => cases h
  | cons f fields ih =>
    obtain ⟨l, w⟩ := f
    rw [depthFields]
    rcases List.mem_cons.mp h with heq | hmem
    · cases heq
      exact Nat.le_max_left ..
    · exact (ih hmem).trans (Nat.le_max_right ..)

lemma mem_of_field? {name : String} {v : Json} {fields : List (String × Json)}
    (h : field? name fields = some (some v)) : (name, v) ∈ fields := by
  unfold field? at h
  split at h
  · cases h
  · next w hvalues =>
    cases h
    have hmem : v ∈ valuesOf name fields := by rw [hvalues]; exact List.mem_cons_self
    obtain ⟨⟨n, w⟩, hfield, hvalue⟩ := List.mem_filterMap.mp hmem
    by_cases hname : n = name
    · simp only [hname, if_true, Option.some.injEq] at hvalue
      rwa [hname, hvalue] at hfield
    · simp [hname] at hvalue
  · cases h

end Json

namespace FileNode

mutual

lemma writable_toJson (n : FileNode) : n.toJson.Writable := by
  cases n with
  | file id name content => simp [toJson, Json.Writable, Json.FieldsWritable]
  | folder id name children =>
    simp [toJson, Json.Writable, Json.FieldsWritable, writable_listToJson children]

lemma writable_listToJson (ns : List FileNode) : Json.ItemsWritable (listToJson ns) := by
  cases ns with
  | nil => trivial
  | cons n ns => exact ⟨writable_toJson n, writable_listToJson ns⟩

end

mutual

lemma ofJson?_toJson {n : FileNode} {levels : Nat} (h : n.toJson.depth ≤ levels) :
    ofJson? levels n.toJson = some n := by
  cases n with
  | file id name content =>
    simp only [toJson, Json.depth] at h
    obtain ⟨levels, rfl⟩ : ∃ m, levels = m + 1 := ⟨levels - 1, by omega⟩
    simp [toJson, ofJson?, Json.field?, Json.valuesOf, Json.string?, isFolder?]
  | folder id name children =>
    simp only [toJson, Json.depth, Json.depthFields] at h
    obtain ⟨levels, rfl⟩ : ∃ m, levels = m + 1 := ⟨levels - 1, by omega⟩
    have hchildren : (listToJson children).mapM (ofJson? levels) = some children :=
      mapM_listToJson (by omega)
    simp [toJson, ofJson?, Json.field?, Json.valuesOf, Json.string?, isFolder?, hchildren]

lemma mapM_listToJson {ns : List FileNode} {levels : Nat}
    (h : Json.depthItems (listToJson ns) ≤ levels) :
    (listToJson ns).mapM (ofJson? levels) = some ns := by
  cases ns with
  | nil => rfl
  | cons n ns =>
    rw [listToJson, Json.depthItems] at h
    rw [listToJson, List.mapM_cons, ofJson?_toJson (by omega), mapM_listToJson (by omega)]
    rfl

end

/-- A forest is read again from its text if few enough brackets are open in it. -/
theorem readForest?_forestToJson {ns : List FileNode}
    (h : (forestToJson ns).depth < Json.nestingLimit) :
    readForest? (forestToJson ns).compact = some ns := by
  have hwritable : (forestToJson ns).Writable := writable_listToJson ns
  have hadmissible : (forestToJson ns).isAdmissible 0 = true := by
    simp [Json.isAdmissible, hwritable.isRepresentable, h]
  have hitems : (listToJson ns).mapM (ofJson? Json.nestingLimit) = some ns := by
    apply mapM_listToJson
    rw [forestToJson, Json.depth] at h
    omega
  rw [readForest?, Json.read?_compact hwritable, Option.bind_eq_bind, Option.bind_some,
    forestToJson, forestOfJson?, ← forestToJson, if_pos hadmissible, hitems]

/-- A value that describes a node: an object for a file, for a folder without children, or for a
folder whose children its items describe. -/
lemma ofJson?_cases {levels : Nat} {v : Json} {n : FileNode} (h : ofJson? levels v = some n) :
    ∃ outer fields, levels = outer + 1 ∧ v = .object fields ∧
      ((∃ id name content, n = .file id name content) ∨ (∃ id name, n = .folder id name []) ∨
        ∃ id name items children, ("children", Json.array items) ∈ fields ∧
          items.mapM (ofJson? outer) = some children ∧ n = .folder id name children) := by
  unfold ofJson? at h
  split at h
  · next outer fields =>
    refine ⟨outer, fields, rfl, rfl, ?_⟩
    simp only [Option.bind_eq_bind, Option.bind_eq_some_iff] at h
    obtain ⟨_, -, id, -, _, -, name, -, _, -, isFolder, -, h⟩ := h
    cases isFolder with
    | false =>
      simp only [Bool.false_eq_true, if_false, Option.bind_eq_some_iff] at h
      obtain ⟨content, -, h⟩ := h
      left
      cases content with
      | none => exact ⟨id, name, "", (Option.some.inj h).symm⟩
      | some content =>
        obtain ⟨text, -, h⟩ := Option.bind_eq_some_iff.mp h
        exact ⟨id, name, text, (Option.some.inj h).symm⟩
    | true =>
      simp only [if_true, Option.bind_eq_some_iff] at h
      obtain ⟨found, hfound, h⟩ := h
      right
      split at h
      · exact .inl ⟨id, name, (Option.some.inj h).symm⟩
      · next items =>
        obtain ⟨children, hchildren, h⟩ := Option.bind_eq_some_iff.mp h
        exact .inr ⟨id, name, items, children, Json.mem_of_field? hfound, hchildren,
          (Option.some.inj h).symm⟩
      · cases h
  · cases h

/-- The nodes that items describe are nested as deeply as the items, and one bracket more where a
folder without children was not written with an empty array. -/
lemma depthItems_listToJson_le {levels : Nat}
    (ih : ∀ {v : Json} {n : FileNode}, ofJson? levels v = some n →
      n.toJson.depth ≤ 2 * ((v.depth + 1) / 2))
    {items : List Json} {ns : List FileNode} (h : items.mapM (ofJson? levels) = some ns) :
    Json.depthItems (listToJson ns) ≤ 2 * ((Json.depthItems items + 1) / 2) := by
  induction items generalizing ns with
  | nil =>
    cases h
    exact Nat.zero_le _
  | cons v items ihitems =>
    rw [List.mapM_cons] at h
    obtain ⟨n, hn, h⟩ := Option.bind_eq_some_iff.mp h
    obtain ⟨ms, hms, h⟩ := Option.bind_eq_some_iff.mp h
    cases h
    have hhead := ih hn
    have htail := ihitems hms
    rw [listToJson, Json.depthItems, Json.depthItems]
    omega

/-- Each level of nodes opens two brackets, so that an empty array at the deepest level opens no
more of them than the text could have. -/
lemma depth_toJson_le {levels : Nat} {v : Json} {n : FileNode} (h : ofJson? levels v = some n) :
    n.toJson.depth ≤ 2 * ((v.depth + 1) / 2) := by
  induction levels generalizing v n with
  | zero =>
    obtain ⟨outer, fields, hlevels, -⟩ := ofJson?_cases h
    cases hlevels
  | succ levels ih =>
    obtain ⟨outer, fields, hlevels, rfl, hn⟩ := ofJson?_cases h
    obtain rfl : levels = outer := by omega
    rw [Json.depth]
    rcases hn with ⟨id, name, content, rfl⟩ | ⟨id, name, rfl⟩ |
      ⟨id, name, items, children, hfield, hchildren, rfl⟩
    · simp only [toJson, Json.depth, Json.depthFields]
      omega
    · simp only [toJson, listToJson, Json.depth, Json.depthFields, Json.depthItems]
      omega
    · have hitems : (Json.array items).depth ≤ Json.depthFields fields :=
        Json.depth_le_depthFields hfield
      have hbelow := depthItems_listToJson_le ih hchildren
      simp only [toJson, Json.depth, Json.depthFields] at hitems ⊢
      omega

/-- A forest that was read from a text can be written and read again. -/
theorem readForest?_forestToJson_of_readForest? {text : String} {ns : List FileNode}
    (h : readForest? text = some ns) : readForest? (forestToJson ns).compact = some ns := by
  obtain ⟨v, -, hv⟩ := Option.bind_eq_some_iff.mp h
  unfold forestOfJson? at hv
  split at hv
  · next items =>
    split at hv
    · next hadmissible =>
      have hbelow := depthItems_listToJson_le depth_toJson_le hv
      have hdepth : (Json.array items).depth + 0 < Json.nestingLimit :=
        of_decide_eq_true (Bool.and_eq_true_iff.mp hadmissible).2
      rw [Json.depth, Json.nestingLimit] at hdepth
      apply readForest?_forestToJson
      rw [forestToJson, Json.depth, Json.nestingLimit]
      omega
    · cases hv
  · cases hv

end FileNode

end Folio
