/-!
A finite map from positions to values that remembers the order of first insertion, as a changeset
does. Writing to a position that is already present changes its value and keeps its place.
-/

namespace Retouch

/-- Values at distinct positions. -/
structure Slots (α : Type) where
  /-- The positions and their values, the position that was written last for the first time in
  front. -/
  latest : List (Nat × α)
  distinct : (latest.map Prod.fst).Nodup

namespace Slots

variable {α : Type}

/-! ### Lists of positions and values -/

def find (pos : Nat) : List (Nat × α) → Option α
  | [] => none
  | (p, v) :: rest => if p = pos then some v else find pos rest

def overwrite (pos : Nat) (value : α) (l : List (Nat × α)) : List (Nat × α) :=
  l.map fun e => if e.1 = pos then (pos, value) else e

theorem find_eq_none_iff {pos : Nat} {l : List (Nat × α)} :
    find pos l = none ↔ pos ∉ l.map Prod.fst := by
  induction l with
  | nil => simp [find]
  | cons e rest ih =>
    obtain ⟨p, v⟩ := e
    by_cases h : p = pos
    · simp [find, h]
    · simp [find, h, ih, Ne.symm h]

theorem keys_overwrite (pos : Nat) (value : α) (l : List (Nat × α)) :
    (overwrite pos value l).map Prod.fst = l.map Prod.fst := by
  rw [overwrite, List.map_map]
  refine List.map_congr_left fun e _ => ?_
  by_cases h : e.1 = pos
  · simp [h]
  · simp [h]

theorem nodup_keys_filter (keep : Nat × α → Bool) {l : List (Nat × α)}
    (h : (l.map Prod.fst).Nodup) : ((l.filter keep).map Prod.fst).Nodup :=
  h.sublist (List.filter_sublist.map Prod.fst)

/-! ### Operations -/

def empty : Slots α := ⟨[], List.nodup_nil⟩

instance : EmptyCollection (Slots α) := ⟨empty⟩

/-- The positions and their values, in the order in which the positions were first written. -/
def entries (s : Slots α) : List (Nat × α) := s.latest.reverse

def get? (s : Slots α) (pos : Nat) : Option α := find pos s.latest

def contains (s : Slots α) (pos : Nat) : Bool := (s.get? pos).isSome

def insert (s : Slots α) (pos : Nat) (value : α) : Slots α :=
  match h : s.get? pos with
  | some _ =>
    { latest := overwrite pos value s.latest
      distinct := by rw [keys_overwrite]; exact s.distinct }
  | none =>
    { latest := (pos, value) :: s.latest
      distinct := List.nodup_cons.mpr ⟨find_eq_none_iff.mp h, s.distinct⟩ }

def erase (s : Slots α) (pos : Nat) : Slots α :=
  ⟨s.latest.filter (fun e => e.1 != pos), nodup_keys_filter _ s.distinct⟩

def isEmpty (s : Slots α) : Bool := s.latest.isEmpty

def size (s : Slots α) : Nat := s.latest.length

end Slots

end Retouch
