import Mathlib.Data.List.Basic
import Retouch.Files.Tree
import Retouch.Files.Fix

/-!
What writing to a file does to a file tree. It changes the bytes at one place and leaves the shape
of the tree, and where a path leads, which files a directory holds and what a list of paths stands
for depend on the shape alone.
-/

namespace Retouch

namespace FileTree

variable {a b t : FileTree} {place other : Place} {bytes : ByteArray}

/-- The trees have the same directories, and files at the same places. -/
structure SameShape (a b : FileTree) : Prop where
  places : b.files.map Prod.fst = a.files.map Prod.fst
  directories : b.directories = a.directories

theorem bytes?_eq_none_iff : t.bytes? place = none ↔ place ∉ t.files.map Prod.fst := by
  rw [bytes?, List.lookup_eq_none_iff, List.mem_map, not_exists]
  refine forall_congr' fun f => ?_
  rw [not_and, bne_iff_ne, ne_comm]

namespace SameShape

variable (same : SameShape a b)

include same

theorem isDirectory (place : Place) : b.isDirectory place = a.isDirectory place := by
  have files : ∀ t : FileTree,
      (t.files.any fun f => place.isPrefixOf f.1 && place.length < f.1.length) =
      (t.files.map Prod.fst).any fun name => place.isPrefixOf name && place.length < name.length :=
    fun t => by rw [List.any_map]; rfl
  rw [FileTree.isDirectory, FileTree.isDirectory, files, files, same.places, same.directories]

theorem filesBelow (place : Place) : b.filesBelow place = a.filesBelow place := by
  have files : ∀ t : FileTree, t.filesBelow place = (t.files.map Prod.fst).filterMap fun name =>
      if place.isPrefixOf name && place.length < name.length &&
          (name.drop place.length).all (Path.IsName ·) then
        some (name.drop place.length)
      else none :=
    fun t => by rw [List.filterMap_map]; rfl
  rw [files, files, same.places]

theorem entry?_cases (place : Place) : (a.entry? place = none ∧ b.entry? place = none) ∨
    (∃ x y, a.entry? place = some (.file x) ∧ b.entry? place = some (.file y)) ∨
    (a.entry? place = some .directory ∧ b.entry? place = some .directory) := by
  have none : b.bytes? place = none ↔ a.bytes? place = none := by
    rw [bytes?_eq_none_iff, bytes?_eq_none_iff, same.places]
  unfold entry?
  rw [same.isDirectory place]
  cases first : a.bytes? place with
  | none =>
    rw [none.mpr first]
    cases a.isDirectory place <;> simp
  | some x =>
    cases second : b.bytes? place with
    | none => simp [none.mp second] at first
    | some y => simp

end SameShape

theorem sameShape_write (t : FileTree) (place : Place) (bytes : ByteArray) :
    SameShape t (t.write place bytes) := by
  refine ⟨?_, rfl⟩
  rw [write, List.map_map]
  refine List.map_congr_left fun f _ => ?_
  by_cases here : f.1 = place
  · simp [here]
  · simp [here]

theorem bytes?_write (t : FileTree) (place other : Place) (bytes : ByteArray) :
    (t.write place bytes).bytes? other =
      if other = place then (t.bytes? other).map fun _ => bytes else t.bytes? other := by
  unfold write bytes?
  induction t.files with
  | nil => simp
  | cons f files ih =>
    obtain ⟨name, old⟩ := f
    rw [List.map_cons, List.lookup_cons, ih, List.lookup_cons]
    by_cases found : other = name
    · subst found
      by_cases here : other = place <;> simp [here]
    · have skips : (other == name) = false := beq_eq_false_iff_ne.mpr found
      by_cases here : name = place
      · subst here
        simp [skips, found]
      · simp [here, skips]

end FileTree

namespace Workspace

variable {w v : Workspace} {p q : Path} {place : Place} {text old : Text}

structure SameShape (w v : Workspace) : Prop where
  tree : w.tree.SameShape v.tree
  cwd : v.cwd = w.cwd

namespace SameShape

theorem refl (w : Workspace) : SameShape w w := ⟨⟨rfl, rfl⟩, rfl⟩

theorem trans {u : Workspace} (first : SameShape w v) (second : SameShape v u) : SameShape w u :=
  ⟨⟨second.tree.places.trans first.tree.places,
    second.tree.directories.trans first.tree.directories⟩, second.cwd.trans first.cwd⟩

variable (same : SameShape w v)

include same

theorem step (place : Place) (piece : Text) : v.step place piece = w.step place piece := by
  unfold Workspace.step
  rcases same.tree.entry?_cases place with ⟨first, second⟩ | ⟨_, _, first, second⟩ | ⟨first, second⟩
  · rw [first, second]
  · rw [first, second]
  · rw [first, second]
    rcases same.tree.entry?_cases (place ++ [piece]) with
      ⟨first, second⟩ | ⟨_, _, first, second⟩ | ⟨first, second⟩ <;> rw [first, second]

theorem locate (p : Path) : v.locate p = w.locate p := by
  have steps : v.step = w.step := funext fun place => funext fun piece => same.step place piece
  rw [Workspace.locate, Workspace.locate, steps, same.cwd]

theorem expand (extensions : List String) (p : Path) :
    v.expand extensions p = w.expand extensions p := by
  unfold Workspace.expand entry
  rw [same.locate p]
  cases w.locate p with
  | error fault => rfl
  | ok place =>
    simp only [bind, Except.bind]
    rcases same.tree.entry?_cases place with
      ⟨first, second⟩ | ⟨_, _, first, second⟩ | ⟨first, second⟩
    · rw [first, second]
    · rw [first, second]
    · rw [first, second]
      simp only [same.tree.filesBelow place]

theorem collect (extensions : List String) (paths : List Path) :
    v.collect extensions paths = w.collect extensions paths := by
  have expands : v.expand extensions = w.expand extensions := funext (same.expand extensions)
  rw [Workspace.collect, Workspace.collect, expands]

end SameShape

/-! ### Reading and writing -/

theorem fromUTF8?_eq_some_iff {bytes : ByteArray} {s : String} :
    String.fromUTF8? bytes = some s ↔ bytes = s.toUTF8 := by
  unfold String.fromUTF8?
  constructor
  · intro decoded
    split at decoded
    · obtain rfl := Option.some.inj decoded
      rfl
    · cases decoded
  · rintro rfl
    exact dif_pos s.isValidUTF8

theorem readText_eq_ok_iff : w.readText p = .ok text ↔
    ∃ place, w.locate p = .ok place ∧ w.tree.bytes? place = some (String.ofList text).toUTF8 := by
  unfold readText read entry FileTree.entry?
  cases w.locate p with
  | error fault => simp [bind, Except.bind]
  | ok place =>
    simp only [bind, Except.bind, Except.ok.injEq, exists_eq_left']
    cases w.tree.bytes? place with
    | none => cases w.tree.isDirectory place <;> simp
    | some bytes =>
      simp only [Option.some.injEq, ← fromUTF8?_eq_some_iff]
      cases String.fromUTF8? bytes with
      | none => simp
      | some s =>
        simp only [Except.ok.injEq, Option.some.injEq]
        constructor
        · rintro rfl
          exact String.ofList_toList.symm
        · rintro rfl
          exact String.toList_ofList

theorem source_eq_ok_iff : w.source p = .ok text ↔
    ∃ place, w.locate p = .ok place ∧ w.tree.bytes? place = some (String.ofList text).toUTF8 := by
  rw [← readText_eq_ok_iff, source]
  split <;> simp_all

theorem sameShape_writeText (w : Workspace) (p : Path) (text : Text) :
    SameShape w (w.writeText p text) := by
  unfold writeText
  split
  · exact SameShape.refl w
  · exact ⟨w.tree.sameShape_write _ _, rfl⟩

/-- Writing over a file that can be read puts the new text there and touches nothing else. -/
theorem bytes?_writeText (located : w.locate p = .ok place)
    (readable : w.tree.bytes? place = some (String.ofList old).toUTF8) (text : Text)
    (other : Place) :
    (w.writeText p text).tree.bytes? other =
      if other = place then some (String.ofList text).toUTF8 else w.tree.bytes? other := by
  unfold writeText
  rw [located]
  show (w.tree.write place _).bytes? other = _
  rw [FileTree.bytes?_write]
  by_cases here : other = place
  · rw [if_pos here, if_pos here, here, readable]
    rfl
  · rw [if_neg here, if_neg here]

theorem source_writeText (readable : w.source p = .ok old) (text : Text) :
    (w.writeText p text).source p = .ok text := by
  obtain ⟨place, located, bytes⟩ := source_eq_ok_iff.mp readable
  refine source_eq_ok_iff.mpr ⟨place, (sameShape_writeText w p text).locate p ▸ located, ?_⟩
  rw [bytes?_writeText located bytes, if_pos rfl]

/-- After writing to one file, another holds what was written or what it held before, according to
whether its path leads to the same place. -/
theorem source_writeText_or (readable : w.source p = .ok old) (text : Text) {other : Text}
    (readable' : w.source q = .ok other) :
    (w.writeText p text).source q = .ok text ∨ (w.writeText p text).source q = .ok other := by
  obtain ⟨place, located, bytes⟩ := source_eq_ok_iff.mp readable
  obtain ⟨place', located', bytes'⟩ := source_eq_ok_iff.mp readable'
  rw [← (sameShape_writeText w p text).locate q] at located'
  have after := bytes?_writeText located bytes text place'
  by_cases here : place' = place
  · rw [if_pos here] at after
    exact Or.inl (source_eq_ok_iff.mpr ⟨place', located', after⟩)
  · rw [if_neg here, bytes'] at after
    exact Or.inr (source_eq_ok_iff.mpr ⟨place', located', after⟩)

end Workspace

end Retouch
