import Folio.Proofs.FileNodeJson
import Folio.Proofs.StoreWrites
import Folio.Proofs.TreeFiles

/-!
# Loading what was saved

A store yields for a key what can be read from the text that was last put there. Writing has no
bound on nesting and reading has one, so that a forest can be loaded after it was saved exactly if
few enough brackets are open in its text.
-/

namespace Folio

namespace FileNode

/-- What can be read from the text of a forest: the forest, unless it is nested too deeply. -/
lemma readForest?_forestToJson_eq (ns : List FileNode) :
    readForest? (forestToJson ns).compact =
      if (forestToJson ns).depth < Json.nestingLimit then some ns else none := by
  by_cases h : (forestToJson ns).depth < Json.nestingLimit
  · rw [if_pos h]
    exact readForest?_forestToJson h
  · have hwritable : (forestToJson ns).Writable := writable_listToJson ns
    have hdeep : (forestToJson ns).isAdmissible 0 = false := by
      rw [Json.isAdmissible, hwritable.isRepresentable, Bool.true_and, Nat.add_zero]
      exact decide_eq_false h
    rw [if_neg h, readForest?, Json.read?_compact hwritable, Option.bind_eq_bind,
      Option.bind_some, forestToJson, forestOfJson?, ← forestToJson, if_neg (by simp [hdeep])]

end FileNode

namespace Store

variable {s : Store} {key : String} {v : Json} {place : List String} {h h' : Host}

/-- What a store yields for a key after a value was put there. -/
lemma Stored.run_get (hs : s.Stored key v place h h') (read? : String → Option α) :
    h'.run (s.get key read?).run =
      ((read? v.compact).elim (.error (.json (s.keyPath key))) fun a => .ok (some a), h') := by
  rw [Store.run_get, Disk.read_eq_of_file? hs.file?, valueOf, Program.textOf_toUTF8]
  rcases hread : read? v.compact with _ | a <;> simp only [hread] <;> rfl

/-- After a value was put under a key, the file of the key holds it. -/
lemma exists_stored_of_reaches {mayFail : Effect → Prop}
    (hput : Reaches mayFail (s.put key v).run h (.done (.ok ())) h') :
    ∃ place, s.Stored key v place h h' :=
  (hput.always (always_put mayFail s key v h)).2

/-- After a forest was saved, whatever else could fail, the next loading yields this forest if
fewer brackets are open in its text than the reader admits, and otherwise fails. -/
theorem load_run_after_save {nodes : List FileNode} {mayFail : Effect → Prop}
    (hsave : Reaches mayFail (s.save nodes).run h (.done (.ok ())) h') :
    h'.run s.load.run =
      (if (FileNode.forestToJson nodes).depth < Json.nestingLimit then .ok (some nodes)
        else .error (.json (s.keyPath fileTreeKey)), h') := by
  obtain ⟨place, hs⟩ := exists_stored_of_reaches hsave
  rw [load, hs.run_get, FileNode.readForest?_forestToJson_eq]
  by_cases hdepth : (FileNode.forestToJson nodes).depth < Json.nestingLimit
  · rw [if_pos hdepth, if_pos hdepth]
    rfl
  · rw [if_neg hdepth, if_neg hdepth]
    rfl

/-- A file in `n` folders, one in another. -/
def nested : Nat → List FileNode
  | 0 => [.file "0" "x.md" "\"\n"]
  | n + 1 => [.folder "1" "d" (nested n)]

lemma depth_nested (n : Nat) : (FileNode.forestToJson (nested n)).depth = 2 * n + 2 := by
  induction n with
  | zero => rfl
  | succ n ih =>
    simp only [FileNode.forestToJson, nested, FileNode.listToJson, FileNode.toJson, Json.depth,
      Json.depthItems, Json.depthFields] at ih ⊢
    omega

def emptyStoreHost : Host :=
  ⟨⟨[(["store"], .directory)]⟩, [], fun _ _ _ => .error .notFound, "", [], none, []⟩

/-- What saving a file in `n` folders leads to. -/
def saveNested (n : Nat) : Except StorageError Unit × Host :=
  emptyStoreHost.run (Store.mk "store" |>.save (nested n)).run

lemma reaches_saveNested {n : Nat} (hok : (saveNested n).1 = .ok ()) :
    Reaches (fun _ => True) (Store.mk "store" |>.save (nested n)).run emptyStoreHost
      (.done (.ok ())) (saveNested n).2 := by
  rw [← hok]
  exact Reaches.run _ _ _

/-- A file in sixty-two folders is loaded again after it was saved, and one in sixty-three is
not. -/
theorem load_run_after_save_nested :
    (saveNested 62).1 = .ok () ∧
      (saveNested 62).2.run (Store.mk "store").load.run =
        (.ok (some (nested 62)), (saveNested 62).2) ∧
      (saveNested 63).1 = .ok () ∧
        (saveNested 63).2.run (Store.mk "store").load.run =
          (.error (.json ((Store.mk "store").keyPath fileTreeKey)), (saveNested 63).2) := by
  have hshallow : (saveNested 62).1 = .ok () := by decide +kernel
  have hdeep : (saveNested 63).1 = .ok () := by decide +kernel
  have hloaded := load_run_after_save (reaches_saveNested hshallow)
  have hrefused := load_run_after_save (reaches_saveNested hdeep)
  rw [depth_nested, if_pos (by decide)] at hloaded
  rw [depth_nested, if_neg (by decide)] at hrefused
  exact ⟨hshallow, hloaded, hdeep, hrefused⟩

end Store

end Folio
