import GloryHole.Support.Runs

/-!
# Slices of shared arrays

A slice is a window of an array that other slices may share.  An array is the list of the elements
written to it so far; how much room a slice has behind them is its capacity.  Writing through a
slice changes what the others show, and allocating a new array does not.
-/

namespace GloryHole.Support.Slices

variable {α : Type}

abbrev Heap (α : Type) := List (List α)

structure Slice where
  array : Nat
  off : Nat
  len : Nat
  cap : Nat
  deriving DecidableEq

namespace Heap

def read (h : Heap α) (s : Slice) : List α := ((h[s.array]?.getD []).drop s.off).take s.len

def overwrite (h : Heap α) (s : Slice) (xs : List α) : Heap α :=
  h.modify s.array fun cells => cells.take s.off ++ xs ++ cells.drop (s.off + xs.length)

def alloc (h : Heap α) (xs : List α) (cap : Nat) : Heap α × Slice :=
  (h ++ [xs], ⟨h.length, 0, xs.length, max cap xs.length⟩)

/-- `append` of one element; an array without room is copied to one of capacity `grown`. -/
def append (h : Heap α) (s : Slice) (x : α) (grown : Nat) : Heap α × Slice :=
  if s.len < s.cap then (h.overwrite s (h.read s ++ [x]), { s with len := s.len + 1 })
  else h.alloc (h.read s ++ [x]) grown

/-- The slice is a window of its array that shows `xs`. -/
def Holds (h : Heap α) (s : Slice) (xs : List α) : Prop :=
  ∃ before after, h[s.array]? = some (before ++ xs ++ after) ∧ before.length = s.off ∧
    xs.length = s.len

variable {h : Heap α} {s : Slice} {xs : List α}

theorem Holds.read_eq (hs : h.Holds s xs) : h.read s = xs := by
  obtain ⟨before, after, harray, hbefore, hlen⟩ := hs
  rw [read, harray, Option.getD_some, List.append_assoc, ← hbefore, List.drop_left, ← hlen,
    List.take_left]

theorem Holds.length_eq (hs : h.Holds s xs) : xs.length = s.len := by
  obtain ⟨before, after, -, -, hlen⟩ := hs
  exact hlen

theorem Holds.lt_length (hs : h.Holds s xs) : s.array < h.length := by
  obtain ⟨before, after, harray, -, -⟩ := hs
  exact (List.getElem?_eq_some_iff.mp harray).1

/-- The slice cut to length zero. -/
theorem Holds.cut (hs : h.Holds s xs) : h.Holds { s with len := 0 } [] := by
  obtain ⟨before, after, harray, hbefore, -⟩ := hs
  exact ⟨before, xs ++ after, by simpa using harray, hbefore, rfl⟩

theorem Holds.overwrite (hs : h.Holds s xs) (ys : List α) {n : Nat} (hn : ys.length = n) :
    (h.overwrite s ys).Holds { s with len := n } ys := by
  obtain ⟨before, after, harray, hbefore, -⟩ := hs
  refine ⟨before, (before ++ xs ++ after).drop (s.off + ys.length), ?_, hbefore, hn⟩
  rw [Heap.overwrite, List.getElem?_modify_eq, harray, Option.map_eq_map, Option.map_some,
    List.append_assoc before, ← hbefore, List.take_left]

theorem holds_alloc (h : Heap α) (xs : List α) (cap : Nat) :
    (h.alloc xs cap).1.Holds (h.alloc xs cap).2 xs :=
  ⟨[], [], by simp [alloc], rfl, rfl⟩

theorem Holds.of_array_eq {h' : Heap α} (hs : h.Holds s xs)
    (harray : h'[s.array]? = h[s.array]?) : h'.Holds s xs := by
  obtain ⟨before, after, hcells, hrest⟩ := hs
  exact ⟨before, after, harray.trans hcells, hrest⟩

theorem overwrite_of_ne {a : Nat} (ha : a ≠ s.array) (ys : List α) :
    (h.overwrite s ys)[a]? = h[a]? := by
  rw [overwrite, List.getElem?_modify_ne]
  exact Ne.symm ha

theorem alloc_of_lt {a : Nat} (ha : a < h.length) (ys : List α) (cap : Nat) :
    (h.alloc ys cap).1[a]? = h[a]? :=
  List.getElem?_append_left ha

theorem Holds.alloc (hs : h.Holds s xs) (ys : List α) (cap : Nat) :
    (h.alloc ys cap).1.Holds s xs :=
  hs.of_array_eq (alloc_of_lt hs.lt_length ys cap)

theorem Holds.append (hs : h.Holds s xs) (x : α) (grown : Nat) :
    (h.append s x grown).1.Holds (h.append s x grown).2 (xs ++ [x]) := by
  rw [Heap.append, hs.read_eq]
  split
  · exact hs.overwrite _ (by rw [List.length_append, hs.length_eq, List.length_singleton])
  · exact holds_alloc h _ grown

/-- Appending touches no array but that of the slice, or a new one. -/
theorem append_frame (h : Heap α) (s : Slice) (x : α) (grown : Nat) {a : Nat} (ha : a < h.length)
    (hne : a ≠ s.array) : (h.append s x grown).1[a]? = h[a]? := by
  rw [Heap.append]
  split
  · exact overwrite_of_ne hne _
  · exact alloc_of_lt ha _ grown

end Heap

end GloryHole.Support.Slices
