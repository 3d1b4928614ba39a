import Retouch.Proofs.Files.Tree
import Retouch.Proofs.Path

/-!
Collecting files is a set operation on paths. The result is in strict path order and holds what the
given paths stand for, up to how a path is written, so that it depends neither on the order of the
given paths nor on overlaps between them. Two ways to the same file that differ in their components
are two paths all the same: the same file is collected once for each.
-/

namespace Retouch

open Retouch.Path (Component IsName)

namespace FileTree

variable {t : FileTree} {place names : Place}

theorem bytes?_isSome_iff : (t.bytes? place).isSome ↔ place ∈ t.files.map Prod.fst := by
  rw [← not_iff_not, Option.not_isSome_iff_eq_none, bytes?_eq_none_iff]

theorem mem_filesBelow_iff : names ∈ t.filesBelow place ↔
    names ≠ [] ∧ (∀ n ∈ names, IsName n) ∧ (t.bytes? (place ++ names)).isSome := by
  rw [bytes?_isSome_iff, filesBelow, List.mem_filterMap]
  constructor
  · rintro ⟨f, listed, found⟩
    split at found
    case isFalse => cases found
    case isTrue reached =>
      obtain ⟨⟨⟨names, here⟩, longer⟩, proper⟩ : (place <+: f.1 ∧ place.length < f.1.length) ∧
          ∀ n ∈ f.1.drop place.length, IsName n := by
        simpa using reached
      have rest : f.1.drop place.length = names := by simp [← here]
      rw [rest] at found proper
      obtain rfl := Option.some.inj found
      refine ⟨?_, proper, here ▸ List.mem_map_of_mem listed⟩
      rintro rfl
      simp [← here] at longer
  · rintro ⟨deeper, proper, file⟩
    obtain ⟨f, listed, here⟩ := List.mem_map.mp file
    refine ⟨f, listed, ?_⟩
    have longer : 0 < names.length := List.length_pos_iff.mpr deeper
    simpa [here, longer] using proper

end FileTree

namespace Workspace

variable {w : Workspace} {p q : Path} {place next : Place} {extensions : List String}

/-! ### Where components lead -/

def follow (place : Place) : Component → Place
  | .root => []
  | .current => place
  | .parent => place.dropLast
  | .name n => place ++ [n]

theorem step_eq_follow {piece : Text} (stepped : w.step place piece = .ok next)
    (before : List Text) :
    next = if Path.counts piece before then follow place (Component.ofPiece piece) else place := by
  unfold step at stepped
  split at stepped
  case h_1 | h_2 => cases stepped
  case h_3 =>
    by_cases stays : piece = [] ∨ piece = ['.']
    · rw [if_pos (by simpa using stays)] at stepped
      obtain rfl := Except.ok.inj stepped
      rcases stays with rfl | rfl
      · rfl
      · exact (ite_self place).symm
    obtain ⟨some, dot⟩ := not_or.mp stays
    have counted : Path.counts piece before = true := by simp [Path.counts, some, dot]
    rw [if_neg (by simpa using stays)] at stepped
    rw [if_pos counted]
    by_cases dots : piece = ['.', '.']
    · rw [if_pos (by simpa using dots)] at stepped
      rw [← Except.ok.inj stepped, dots]
      rfl
    rw [if_neg (by simpa using dots)] at stepped
    have named : Component.ofPiece piece = .name piece := by simp [Component.ofPiece, dot, dots]
    rw [named]
    split at stepped
    · cases stepped
    split at stepped
    · cases stepped
    · exact (Except.ok.inj stepped).symm

theorem foldlM_step_eq_follow {pieces : List Text} {start : Place}
    (walked : pieces.foldlM w.step start = .ok place) :
    place = (Path.componentsOf pieces.reverse).reverse.foldl follow start := by
  -- Components are read from the last piece on, so that the last step comes first.
  induction pieces using List.reverseRecOn generalizing place with
  | nil => exact (Except.ok.inj walked).symm
  | append_singleton pieces piece ih =>
    simp only [List.foldlM_append, List.foldlM_cons, List.foldlM_nil, bind_pure] at walked
    cases first : pieces.foldlM w.step start with
    | error fault =>
      rw [first] at walked
      cases walked
    | ok halfway =>
      rw [first] at walked
      rw [step_eq_follow walked pieces.reverse, ih first, List.reverse_concat, Path.componentsOf]
      split
      · rw [List.reverse_cons, List.foldl_append]
        rfl
      · rfl

/-- A path that leads somewhere leads where its components do. -/
theorem locate_eq_follow (located : w.locate p = .ok place) :
    place = p.components.foldl follow w.cwd := by
  unfold locate at located
  split at located
  · cases located
  split at located
  · cases located
  split at located
  · cases located
  rw [foldlM_step_eq_follow located, Path.components, List.foldl_append]
  cases p.isAbsolute <;> rfl

theorem foldl_follow_names (place names : Place) :
    (names.map Component.name).foldl follow place = place ++ names := by
  induction names generalizing place with
  | nil => exact (List.append_nil place).symm
  | cons n names ih =>
    rw [List.map_cons, List.foldl_cons, ih, follow, List.append_assoc]
    rfl

theorem locate_of_entry {e : Entry} (found : w.entry p = .ok (place, e)) :
    w.locate p = .ok place := by
  unfold entry at found
  cases located : w.locate p with
  | error fault =>
    rw [located] at found
    cases found
  | ok place' =>
    simp only [located, bind, Except.bind] at found
    split at found
    · cases found
    · obtain ⟨rfl, -⟩ := Prod.mk.inj (Except.ok.inj found)
      rfl

theorem text_ne_nil {e : Entry} (found : w.entry p = .ok (place, e)) : p.text ≠ [] := by
  intro empty
  have located := locate_of_entry found
  simp [locate, empty] at located

theorem isDirectory_iff : w.isDirectory p ↔ ∃ place, w.entry p = .ok (place, .directory) := by
  unfold isDirectory
  split <;> simp_all

/-! ### What a path stands for -/

theorem components_below {names : Place} (some : p.text ≠ []) (named : ∀ n ∈ names, IsName n) :
    (below p names).components = p.components ++ names.map .name := by
  induction names generalizing p with
  | nil => exact (List.append_nil _).symm
  | cons n names ih =>
    obtain ⟨first, rest⟩ := List.forall_mem_cons.mp named
    obtain ⟨front, text, -⟩ := Path.text_join some first
    have some' : (p.join ⟨n⟩).text ≠ [] := by simp [text]
    calc (below (p.join ⟨n⟩) names).components
        = (p.join ⟨n⟩).components ++ names.map .name := ih some' rest
      _ = p.components ++ (n :: names).map .name := by
          rw [Path.components_join some first, List.append_assoc]
          rfl

def Admitted (extensions : List String) (p : Path) : Prop :=
  extensions = [] ∨ ∃ e ∈ extensions, p.extension = some e.toList

theorem admits_iff : admits extensions p ↔ Admitted extensions p := by
  have listed (e : Text) : String.ofList e ∈ extensions ↔ ∃ s ∈ extensions, e = s.toList := by
    constructor
    · exact fun member => ⟨_, member, String.toList_ofList.symm⟩
    · rintro ⟨s, member, rfl⟩
      rwa [String.ofList_toList]
  rw [admits, Admitted]
  cases p.extension <;> simp [listed]

theorem Admitted.congr (admitted : Admitted extensions p) (same : p.components = q.components) :
    Admitted extensions q := by
  rwa [Admitted, ← Path.extension_congr same]

/-- On a command line, `p` stands for `q`: it is no directory and the same path, or a directory with
the file `q` somewhere below it. -/
inductive StandsFor (w : Workspace) (extensions : List String) (p q : Path) : Prop
  | itself (plain : w.isDirectory p = false) (same : p.components = q.components)
  | below (place names : Place) (directory : w.entry p = .ok (place, .directory))
      (deeper : names ≠ []) (file : (w.tree.bytes? (place ++ names)).isSome)
      (path : q.components = p.components ++ names.map .name) (admitted : Admitted extensions q)

theorem mem_expand_iff :
    (∃ r ∈ w.expand extensions p, r.same q) ↔ StandsFor w extensions p q := by
  unfold expand
  split
  case h_1 place directory =>
    have isDirectory : w.isDirectory p = true := isDirectory_iff.mpr ⟨place, directory⟩
    have path {names : Place} (proper : ∀ n ∈ names, IsName n) :
        (Workspace.below p names).components = p.components ++ names.map .name :=
      components_below (text_ne_nil directory) proper
    constructor
    · rintro ⟨r, member, same⟩
      rw [Path.same_iff] at same
      obtain ⟨found, admitted⟩ := List.mem_filter.mp member
      obtain ⟨names, listed, rfl⟩ := List.mem_map.mp found
      obtain ⟨deeper, proper, file⟩ := FileTree.mem_filesBelow_iff.mp listed
      exact .below place names directory deeper file (same ▸ path proper)
        ((admits_iff.mp admitted).congr same)
    · rintro (⟨plain, -⟩ | ⟨place', names, directory', deeper, file, path', admitted⟩)
      · exact (Bool.true_eq_false.mp (isDirectory ▸ plain)).elim
      · obtain rfl : place = place' := by
          rw [directory] at directory'
          exact congrArg Prod.fst (Except.ok.inj directory')
        -- The names are components of a path, so that each of them is one.
        have proper : ∀ n ∈ names, IsName n := fun n member =>
          Path.isName_of_mem_components (p := q) (path' ▸ by simp [member])
        have same : q.components = (Workspace.below p names).components :=
          path'.trans (path proper).symm
        refine ⟨Workspace.below p names, List.mem_filter.mpr ⟨List.mem_map_of_mem ?_, ?_⟩, ?_⟩
        · exact FileTree.mem_filesBelow_iff.mpr ⟨deeper, proper, file⟩
        · exact admits_iff.mpr (admitted.congr same)
        · exact Path.same_iff.mpr same.symm
  case h_2 other =>
    have plain : w.isDirectory p = false := by
      rw [← Bool.not_eq_true, isDirectory_iff]
      exact fun ⟨place, directory⟩ => other place directory
    constructor
    · rintro ⟨r, member, same⟩
      obtain rfl := List.mem_singleton.mp member
      exact .itself plain (Path.same_iff.mp same)
    · rintro (⟨-, same⟩ | ⟨place, names, directory, -⟩)
      · exact ⟨p, List.mem_singleton_self p, Path.same_iff.mpr same⟩
      · exact (other place directory).elim

/-- A directory whose path goes on from another's stands for nothing that the other does not. -/
theorem StandsFor.of_subdirectory {names : Place} {r : Path} (outer : w.isDirectory p)
    (inner : w.isDirectory q) (path : q.components = p.components ++ names.map .name)
    (stands : StandsFor w extensions q r) : StandsFor w extensions p r := by
  obtain ⟨place, directory⟩ := isDirectory_iff.mp outer
  cases stands with
  | itself plain => exact (Bool.true_eq_false.mp (inner ▸ plain)).elim
  | below place' names' directory' deeper file path' admitted =>
    have leads : place' = place ++ names := by
      rw [locate_eq_follow (locate_of_entry directory'), path, List.foldl_append,
        ← locate_eq_follow (locate_of_entry directory), foldl_follow_names]
    refine .below place (names ++ names') directory (by simp [deeper]) ?_ ?_ admitted
    · rwa [leads, List.append_assoc] at file
    · rw [path', path, List.append_assoc, List.map_append]

/-! ### Sorting and dropping repeats -/

theorem mem_components_dedup {c : List Component} {ps : List Path} :
    c ∈ (dedup ps).map Path.components ↔ c ∈ ps.map Path.components := by
  fun_induction dedup ps with
  | case1 p q rest same ih =>
    rw [ih]
    simp [Path.same_iff.mp same]
  | case2 p q rest differ ih =>
    rw [List.map_cons, List.mem_cons, ih, ← List.mem_cons, ← List.map_cons]
  | case3 => rfl

theorem dedup_sublist (ps : List Path) : (dedup ps).Sublist ps := by
  fun_induction dedup ps with
  | case1 p q rest same ih => exact ih.trans ((List.sublist_cons_self q rest).cons_cons p)
  | case2 p q rest differ ih => exact ih.cons_cons p
  | case3 ps => exact .refl ps

theorem pairwise_dedup {ps : List Path} (sorted : ps.Pairwise fun p q => (p.compare q).isLE) :
    (dedup ps).Pairwise fun p q => p.compare q = .lt := by
  fun_induction dedup ps with
  | case1 p q rest same ih =>
    exact ih (sorted.sublist ((List.sublist_cons_self q rest).cons_cons p))
  | case2 p q rest differ ih =>
    obtain ⟨least, sorted⟩ := List.pairwise_cons.mp sorted
    refine List.pairwise_cons.mpr ⟨fun r member => ?_, ih sorted⟩
    have less : p.compare q = .lt := by
      have le := least q List.mem_cons_self
      have ne : p.compare q ≠ .eq :=
        fun same => differ (Path.same_iff.mpr (Path.compare_eq_iff.mp same))
      cases order : p.compare q <;> simp_all
    rcases List.mem_cons.mp ((dedup_sublist (q :: rest)).mem member) with rfl | later
    · exact less
    · exact Std.TransCmp.lt_of_lt_of_isLE less (List.rel_of_pairwise_cons sorted later)
  | case3 ps short =>
    match ps, short with
    | [], _ => exact .nil
    | [p], _ => exact List.pairwise_singleton _ p
    | p :: q :: rest, short => exact (short p q rest rfl).elim

theorem pairwise_collect (w : Workspace) (extensions : List String) (paths : List Path) :
    (w.collect extensions paths).Pairwise fun p q => p.compare q = .lt := by
  have le (p q : Path) : (p.compare q != .gt) = (p.compare q).isLE := by cases p.compare q <;> rfl
  simp only [collect, le]
  refine pairwise_dedup (List.pairwise_mergeSort ?_ ?_ _)
  · exact fun _ _ _ => Std.TransCmp.isLE_trans
  · intro p q
    have flip : q.compare p = (p.compare q).swap := Std.OrientedCmp.eq_swap
    rw [flip]
    cases p.compare q <;> rfl

theorem exists_same_iff {ps : List Path} :
    (∃ r ∈ ps, r.same q) ↔ q.components ∈ ps.map Path.components := by
  simp only [Path.same_iff, List.mem_map]

theorem mem_collect_iff {paths : List Path} :
    (∃ r ∈ w.collect extensions paths, r.same q) ↔ ∃ p ∈ paths, StandsFor w extensions p q := by
  rw [exists_same_iff, collect, mem_components_dedup, ((List.mergeSort_perm _ _).map _).mem_iff,
    List.map_flatMap, List.mem_flatMap]
  simp only [← exists_same_iff, mem_expand_iff]

/-- What is collected is known by what the given paths stand for. -/
theorem components_collect_congr {paths others : List Path}
    (alike : ∀ q,
      (∃ p ∈ others, StandsFor w extensions p q) ↔ ∃ p ∈ paths, StandsFor w extensions p q) :
    (w.collect extensions others).map Path.components =
      (w.collect extensions paths).map Path.components := by
  have increasing (paths : List Path) : ((w.collect extensions paths).map Path.components).Pairwise
      fun a b => Path.compareComponents a b = .lt :=
    List.pairwise_map.mpr (pairwise_collect w extensions paths)
  have nodup (paths : List Path) : ((w.collect extensions paths).map Path.components).Nodup := by
    refine (increasing paths).imp ?_
    rintro a b less rfl
    exact Ordering.noConfusion ((Std.ReflCmp.compare_self (a := a)).symm.trans less)
  have holds (paths : List Path) (c : List Component) :
      c ∈ (w.collect extensions paths).map Path.components ↔
        ∃ q, q.components = c ∧ ∃ p ∈ paths, StandsFor w extensions p q := by
    simp only [← mem_collect_iff, exists_same_iff]
    constructor
    · intro member
      obtain ⟨q, -, rfl⟩ := List.mem_map.mp member
      exact ⟨q, rfl, member⟩
    · rintro ⟨q, rfl, member⟩
      exact member
  have members (c : List Component) : c ∈ (w.collect extensions others).map Path.components ↔
      c ∈ (w.collect extensions paths).map Path.components := by
    simp only [holds, alike]
  refine List.Perm.eq_of_pairwise ?_ (increasing others) (increasing paths)
    ((List.perm_ext_iff_of_nodup (nodup others) (nodup paths)).mpr members)
  exact fun a b _ _ less greater => (Std.OrientedCmp.not_lt_of_lt less greater).elim

/-- What is collected increases strictly and is just what the given paths stand for. Their order and
repetition do not matter, nor does a directory whose path goes on from that of another. -/
theorem collect_stands_for (w : Workspace) (extensions : List String) (paths : List Path) :
    (w.collect extensions paths).Pairwise (fun p q => p.compare q = .lt) ∧
    (∀ q, (∃ r ∈ w.collect extensions paths, r.same q) ↔
      ∃ p ∈ paths, StandsFor w extensions p q) ∧
    (∀ others, others ⊆ paths → paths ⊆ others →
      (w.collect extensions others).map Path.components =
        (w.collect extensions paths).map Path.components) ∧
    (∀ p ∈ paths, ∀ q, ∀ names : Place, w.isDirectory p → w.isDirectory q →
      q.components = p.components ++ names.map .name →
      (w.collect extensions (q :: paths)).map Path.components =
        (w.collect extensions paths).map Path.components) := by
  refine ⟨pairwise_collect w extensions paths, fun q => mem_collect_iff, ?_, ?_⟩
  · intro others fewer more
    refine components_collect_congr fun q => ?_
    exact ⟨fun ⟨p, given, stands⟩ => ⟨p, fewer given, stands⟩,
      fun ⟨p, given, stands⟩ => ⟨p, more given, stands⟩⟩
  · intro p given q names outer inner path
    refine components_collect_congr fun r => ?_
    rw [List.exists_mem_cons_iff]
    refine ⟨?_, Or.inr⟩
    rintro (stands | stands)
    · exact ⟨p, given, stands.of_subdirectory outer inner path⟩
    · exact stands

theorem collect_stands_for_overlapping :
    let w : Workspace :=
      { tree :=
          { files :=
              [([['d'], ['a', '.', 'x']], ⟨#[]⟩), ([['d'], ['e'], ['b', '.', 'x']], ⟨#[]⟩),
                ([['d'], ['c', '.', 'y']], ⟨#[]⟩)]
            directories := [] }
        cwd := [] }
    let outer : Path := ⟨['d']⟩
    let inner : Path := ⟨['d', '/', '/', 'e']⟩
    let gone : Path := ⟨['z']⟩
    (w.isDirectory outer ∧ w.isDirectory inner) ∧
    (w.collect ["x"] [inner, outer, gone, outer]).Pairwise (fun p q => p.compare q = .lt) ∧
    (∃ r ∈ w.collect ["x"] [inner, outer, gone, outer],
      r.same ⟨['d', '/', 'e', '/', 'b', '.', 'x']⟩) ∧
    (w.collect ["x"] [gone, outer]).map Path.components =
      (w.collect ["x"] [outer, gone, outer]).map Path.components ∧
    (w.collect ["x"] [inner, outer, gone, outer]).map Path.components =
      (w.collect ["x"] [outer, gone, outer]).map Path.components := by
  intro w outer inner gone
  have directories : w.isDirectory outer ∧ w.isDirectory inner := by decide +kernel
  have all := collect_stands_for w ["x"]
  refine ⟨directories, (all _).1, ?_, ?_, ?_⟩
  · refine ((all [inner, outer, gone, outer]).2.1 _).mpr ⟨outer, by simp, ?_⟩
    exact .below [['d']] [['e'], ['b', '.', 'x']] rfl (by simp) rfl (by decide)
      (.inr ⟨"x", by simp, by decide⟩)
  · exact (all [outer, gone, outer]).2.2.1 [gone, outer] (by simp) (by simp)
  · exact (all [outer, gone, outer]).2.2.2 outer (by simp) inner [['e']] directories.1 directories.2
      (by decide)

/-- A subdirectory given in other words than the directory above it is collected a second time. -/
theorem collect_subdirectory_again :
    let w : Workspace :=
      { tree := { files := [([['d'], ['a']], ⟨#[]⟩)], directories := [] }
        cwd := [] }
    let outer : Path := ⟨['.']⟩
    let inner : Path := ⟨['d']⟩
    (w.isDirectory outer ∧ w.isDirectory inner ∧ w.locate outer = .ok [] ∧
      w.locate inner = .ok [['d']]) ∧
    w.collect [] [outer] = [⟨['.', '/', 'd', '/', 'a']⟩] ∧
    w.collect [] [outer, inner] = [⟨['.', '/', 'd', '/', 'a']⟩, ⟨['d', '/', 'a']⟩] ∧
    (w.collect [] [outer, inner]).map Path.components ≠
      (w.collect [] [outer]).map Path.components := by
  intro w outer inner
  have alone : w.collect [] [outer] = [⟨['.', '/', 'd', '/', 'a']⟩] := by
    have expanded : [outer].flatMap (w.expand []) = [⟨['.', '/', 'd', '/', 'a']⟩] := by
      decide +kernel
    rw [collect, expanded, List.mergeSort_singleton, dedup]
    simp
  have both : w.collect [] [outer, inner] = [⟨['.', '/', 'd', '/', 'a']⟩, ⟨['d', '/', 'a']⟩] := by
    have expanded : [outer, inner].flatMap (w.expand []) =
        [⟨['.', '/', 'd', '/', 'a']⟩, ⟨['d', '/', 'a']⟩] := by
      decide +kernel
    rw [collect, expanded, List.mergeSort_of_pairwise (by decide +kernel), dedup,
      if_neg (by decide), dedup]
    simp
  refine ⟨⟨by decide +kernel, by decide +kernel, rfl, rfl⟩, alone, both, ?_⟩
  rw [alone, both]
  decide

end Workspace

end Retouch
