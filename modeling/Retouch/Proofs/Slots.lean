import Mathlib.Data.List.Induction
import Mathlib.Data.List.Nodup
import Retouch.Slots

/-!
Slots are a map. Every operation is described through `get?`, and the entries are the graph of the
map, each position once. After any writes a position has the value of its last write and the place
of its first one.
-/

namespace Retouch.Slots

variable {α : Type}

/-! ### Lists of positions and values -/

theorem find_overwrite (pos q : Nat) (value : α) (l : List (Nat × α)) :
    find q (overwrite pos value l) =
      if q = pos then (find q l).map (fun _ => value) else find q l := by
  induction l with
  | nil => simp [find, overwrite]
  | cons e rest ih =>
    obtain ⟨p, v⟩ := e
    simp only [overwrite] at ih
    by_cases here : p = pos
    · subst here
      by_cases same : q = p
      · subst same
        simp [find, overwrite]
      · simp [find, overwrite, same, Ne.symm same, ih]
    · simp only [overwrite, List.map_cons, here, if_false, find, ih]
      by_cases same : p = q
      · subst same
        simp [here]
      · simp [same]

theorem find_filter_ne (pos q : Nat) (l : List (Nat × α)) :
    find q (l.filter fun e => e.1 != pos) = if q = pos then none else find q l := by
  induction l with
  | nil => simp [find]
  | cons e rest ih =>
    obtain ⟨p, v⟩ := e
    by_cases here : p = pos
    · subst here
      by_cases same : q = p
      · subst same
        simpa using ih
      · simp [same, find, ih, Ne.symm same]
    · by_cases same : p = q
      · subst same
        simp [here, find]
      · simp [here, find, same, ih]

theorem find_eq_some_iff {pos : Nat} {value : α} {l : List (Nat × α)}
    (distinct : (l.map Prod.fst).Nodup) : find pos l = some value ↔ (pos, value) ∈ l := by
  induction l with
  | nil => simp [find]
  | cons e rest ih =>
    obtain ⟨p, v⟩ := e
    obtain ⟨fresh, distinct⟩ := List.nodup_cons.mp distinct
    by_cases here : p = pos
    · subst here
      have absent : (p, value) ∉ rest := fun member => fresh (List.mem_map.mpr ⟨_, member, rfl⟩)
      simp [find, absent, eq_comm]
    · simp [find, here, ih distinct, Ne.symm here]

theorem find_filterMap {f : Nat → Option (Nat × α)} (own : ∀ pos e, f pos = some e → e.1 = pos)
    (positions : List Nat) (q : Nat) :
    find q (positions.filterMap f) = if q ∈ positions then (f q).map Prod.snd else none := by
  induction positions with
  | nil => rfl
  | cons pos rest ih =>
    cases asked : f pos with
    | none =>
      rw [List.filterMap_cons_none asked, ih]
      by_cases here : q = pos
      · simp [here, asked]
      · simp [here]
    | some e =>
      obtain ⟨p, v⟩ := e
      obtain rfl : p = pos := own pos _ asked
      rw [List.filterMap_cons_some asked, find, ih]
      by_cases here : p = q
      · simp [← here, asked]
      · simp [here, Ne.symm here]

theorem nodup_keys_filterMap {f : Nat → Option (Nat × α)}
    (own : ∀ pos e, f pos = some e → e.1 = pos) {positions : List Nat} (distinct : positions.Nodup) :
    ((positions.filterMap f).map Prod.fst).Nodup := by
  have keys : (positions.filterMap f).map Prod.fst = positions.filter fun pos => (f pos).isSome := by
    induction positions with
    | nil => rfl
    | cons pos rest ih =>
      have rest := ih (List.nodup_cons.mp distinct).2
      cases asked : f pos with
      | none => simp [asked, rest]
      | some e => simp [asked, rest, own pos e asked]
  rw [keys]
  exact distinct.filter _

/-! ### The map -/

theorem get?_insert (s : Slots α) (pos q : Nat) (value : α) :
    (s.insert pos value).get? q = if q = pos then some value else s.get? q := by
  unfold insert
  split
  case h_1 held present =>
    have graph := find_overwrite pos q value s.latest
    by_cases same : q = pos
    · subst same
      have present : find q s.latest = some held := present
      simpa [get?, present] using graph
    · simpa [get?, same] using graph
  case h_2 absent =>
    by_cases same : q = pos
    · simp [get?, find, same]
    · simp [get?, find, same, Ne.symm same]

theorem get?_foldl_insert {edits : List (Nat × α)} (distinct : (edits.map Prod.fst).Nodup)
    (s : Slots α) (q : Nat) :
    (edits.foldl (fun s e => s.insert e.1 e.2) s).get? q = (find q edits).or (s.get? q) := by
  induction edits generalizing s with
  | nil => rfl
  | cons e rest ih =>
    obtain ⟨p, v⟩ := e
    obtain ⟨fresh, distinct⟩ := List.nodup_cons.mp distinct
    rw [List.foldl_cons, ih distinct, get?_insert, find]
    by_cases here : p = q
    · subst here
      simp [find_eq_none_iff.mpr fresh]
    · simp [here, Ne.symm here]

theorem get?_erase (s : Slots α) (pos q : Nat) :
    (s.erase pos).get? q = if q = pos then none else s.get? q :=
  find_filter_ne pos q s.latest

theorem contains_eq_false_iff {s : Slots α} {pos : Nat} :
    s.contains pos = false ↔ s.get? pos = none := by
  simp [contains]

/-! ### Entries -/

theorem mem_entries_iff {s : Slots α} {pos : Nat} {value : α} :
    (pos, value) ∈ s.entries ↔ s.get? pos = some value := by
  rw [entries, List.mem_reverse]
  exact (find_eq_some_iff s.distinct).symm

theorem nodup_entries (s : Slots α) : (s.entries.map Prod.fst).Nodup := by
  rw [entries, List.map_reverse, List.nodup_reverse]
  exact s.distinct

theorem mem_positions_iff {s : Slots α} {pos : Nat} :
    pos ∈ s.entries.map Prod.fst ↔ (s.get? pos).isSome := by
  rw [Option.isSome_iff_exists, List.mem_map]
  constructor
  · rintro ⟨⟨p, v⟩, member, rfl⟩
    exact ⟨v, mem_entries_iff.mp member⟩
  · rintro ⟨v, present⟩
    exact ⟨(pos, v), mem_entries_iff.mpr present, rfl⟩

theorem find_entries (s : Slots α) (pos : Nat) : find pos s.entries = s.get? pos := by
  cases held : s.get? pos with
  | some value => exact (find_eq_some_iff s.nodup_entries).mpr (mem_entries_iff.mpr held)
  | none =>
    apply find_eq_none_iff.mpr
    rw [mem_positions_iff, held]
    simp

theorem entries_insert {s : Slots α} {pos : Nat} (value : α) (absent : s.get? pos = none) :
    (s.insert pos value).entries = s.entries ++ [(pos, value)] := by
  unfold insert
  split
  case h_1 held present => simp [present] at absent
  case h_2 => simp [entries]

theorem positions_insert (s : Slots α) (pos : Nat) (value : α) :
    (s.insert pos value).entries.map Prod.fst =
      s.entries.map Prod.fst ++ if (s.get? pos).isSome then [] else [pos] := by
  cases held : s.get? pos with
  | none => simp [entries_insert value held]
  | some old =>
    unfold insert
    split
    case h_1 => simp [entries, keys_overwrite]
    case h_2 absent => simp [held] at absent

theorem length_entries (s : Slots α) : s.entries.length = s.size := by
  simp [entries, size]

theorem size_congr {s t : Slots α} (same : ∀ pos, s.get? pos = t.get? pos) : s.size = t.size := by
  have positions : (s.entries.map Prod.fst).Perm (t.entries.map Prod.fst) := by
    apply (List.perm_ext_iff_of_nodup s.nodup_entries t.nodup_entries).mpr
    intro pos
    rw [mem_positions_iff, mem_positions_iff, same pos]
  rw [← length_entries, ← length_entries, ← List.length_map Prod.fst, positions.length_eq,
    List.length_map]

/-- The size counts the written positions below any bound that covers them. -/
theorem size_eq_count {s : Slots α} {bound : Nat}
    (below : ∀ pos, (s.get? pos).isSome → pos < bound) :
    s.size = ((List.range bound).filter s.contains).length := by
  have covered : (s.entries.map Prod.fst).Perm ((List.range bound).filter s.contains) := by
    apply (List.perm_ext_iff_of_nodup s.nodup_entries (List.nodup_range.filter _)).mpr
    intro pos
    rw [mem_positions_iff, List.mem_filter, List.mem_range]
    exact ⟨fun written => ⟨below pos written, written⟩, fun counted => counted.2⟩
  rw [← covered.length_eq, List.length_map, length_entries]

theorem size_eq_zero_iff {s : Slots α} : s.size = 0 ↔ ∀ pos, s.get? pos = none := by
  rw [← length_entries, List.length_eq_zero_iff]
  constructor
  · intro none pos
    cases present : s.get? pos with
    | none => rfl
    | some value =>
      have member := mem_entries_iff.mpr present
      simp [none] at member
  · intro absent
    apply List.eq_nil_iff_forall_not_mem.mpr
    rintro ⟨pos, value⟩ member
    simp [mem_entries_iff, absent] at member

/-! ### Any number of writes -/

def ofWrites (writes : List (Nat × α)) : Slots α :=
  writes.foldl (fun s write => s.insert write.1 write.2) ∅

def lastWrite (writes : List (Nat × α)) (pos : Nat) : Option α :=
  (writes.filter fun write => write.1 = pos).getLast?.map Prod.snd

/-- How many writes come before the first one to a position. -/
def firstWrite (writes : List (Nat × α)) (pos : Nat) : Nat := (writes.map Prod.fst).idxOf pos

variable {writes : List (Nat × α)} {pos : Nat}

theorem ofWrites_concat (writes : List (Nat × α)) (write : Nat × α) :
    ofWrites (writes ++ [write]) = (ofWrites writes).insert write.1 write.2 := by
  simp [ofWrites]

theorem lastWrite_concat (writes : List (Nat × α)) (write : Nat × α) (pos : Nat) :
    lastWrite (writes ++ [write]) pos =
      if pos = write.1 then some write.2 else lastWrite writes pos := by
  by_cases here : pos = write.1
  · simp [lastWrite, here]
  · simp [lastWrite, here, Ne.symm here]

theorem isSome_lastWrite_iff : (lastWrite writes pos).isSome ↔ pos ∈ writes.map Prod.fst := by
  simp [lastWrite]

theorem firstWrite_lt (written : pos ∈ writes.map Prod.fst) :
    firstWrite writes pos < writes.length := by
  rw [← List.length_map Prod.fst]
  exact List.idxOf_lt_length_of_mem written

theorem firstWrite_concat (written : pos ∈ writes.map Prod.fst) (write : Nat × α) :
    firstWrite (writes ++ [write]) pos = firstWrite writes pos := by
  rw [firstWrite, List.map_append, List.idxOf_append_of_mem written, firstWrite]

theorem firstWrite_concat_of_fresh {write : Nat × α} (fresh : write.1 ∉ writes.map Prod.fst) :
    firstWrite (writes ++ [write]) write.1 = writes.length := by
  simp [firstWrite, List.idxOf_append_of_notMem fresh]

theorem get?_ofWrites (writes : List (Nat × α)) (pos : Nat) :
    (ofWrites writes).get? pos = lastWrite writes pos := by
  induction writes using List.reverseRecOn with
  | nil => rfl
  | append_singleton writes write ih =>
    rw [ofWrites_concat, get?_insert, lastWrite_concat, ih]

theorem mem_positions_ofWrites :
    pos ∈ (ofWrites writes).entries.map Prod.fst ↔ pos ∈ writes.map Prod.fst := by
  rw [mem_positions_iff, get?_ofWrites, isSome_lastWrite_iff]

theorem pairwise_ofWrites (writes : List (Nat × α)) :
    ((ofWrites writes).entries.map Prod.fst).Pairwise fun p q =>
      firstWrite writes p < firstWrite writes q := by
  induction writes using List.reverseRecOn with
  | nil => exact List.Pairwise.nil
  | append_singleton writes write ih =>
    rw [ofWrites_concat, positions_insert, get?_ofWrites]
    refine List.pairwise_append.mpr ⟨?_, by split <;> simp, fun p former q added => ?_⟩
    · -- One more write comes after the first write to each of these.
      refine ih.imp_of_mem fun {p q} former latter before => ?_
      rwa [firstWrite_concat (mem_positions_ofWrites.mp former),
        firstWrite_concat (mem_positions_ofWrites.mp latter)]
    · split at added
      case isTrue => cases added
      case isFalse absent =>
        obtain rfl := List.mem_singleton.mp added
        have written := mem_positions_ofWrites.mp former
        rw [firstWrite_concat written,
          firstWrite_concat_of_fresh fun again => absent (isSome_lastWrite_iff.mpr again)]
        exact firstWrite_lt written

/-- After any writes to empty slots, each position that was written stands there once, in the order
of the first writes and with the value of the last. -/
theorem ordered_by_first_write (writes : List (Nat × α)) :
    ((ofWrites writes).entries.map Prod.fst).Nodup ∧
    ((ofWrites writes).entries.map Prod.fst).Pairwise
      (fun p q => firstWrite writes p < firstWrite writes q) ∧
    (∀ pos value, (pos, value) ∈ (ofWrites writes).entries ↔ lastWrite writes pos = some value) ∧
    (∀ pos, (ofWrites writes).get? pos = lastWrite writes pos) ∧
    ∀ pos, (ofWrites writes).get? pos = none ↔ pos ∉ writes.map Prod.fst := by
  refine ⟨nodup_entries _, pairwise_ofWrites writes, ?_, get?_ofWrites writes, ?_⟩
  · intro pos value
    rw [mem_entries_iff, get?_ofWrites]
  · intro pos
    rw [← isSome_lastWrite_iff, get?_ofWrites, Option.not_isSome_iff_eq_none]

/-- The second write to a position changes its value and not its place. -/
example : ((((∅ : Slots Char).insert 4 'd').insert 1 'a').insert 4 'z').entries =
    [(4, 'z'), (1, 'a')] := by
  decide

end Retouch.Slots
