import Mathlib.Data.List.AList

/-!
# Keyed stores

Two kinds of store an application hands its pending data to: one first-in first-out
list per key, and one last value per key. Each structure carries the laws a client may
use, so a theorem about every store is a theorem about every implementation of them; the
order in which a store lists its keys is left open.
-/

namespace WolkGateway.KeyedStores

variable {κ ι : Type} [DecidableEq κ]

/-- One first-in first-out list per key. `contents` is what the store holds; the
operations are only known through it. -/
structure KeyedFifo (κ ι : Type) [DecidableEq κ] where
  State : Type
  empty : State
  put : State → κ → ι → State
  get : State → κ → ℕ → List ι
  remove : State → κ → ℕ → State
  keys : State → List κ
  contents : State → κ → List ι
  contents_empty : ∀ k, contents empty k = []
  contents_put : ∀ s k i k',
    contents (put s k i) k' = if k' = k then contents s k' ++ [i] else contents s k'
  get_eq : ∀ s k n, get s k n = (contents s k).take n
  contents_remove : ∀ s k n k',
    contents (remove s k n) k' = if k' = k then (contents s k').drop n else contents s k'
  keys_nodup : ∀ s, (keys s).Nodup
  mem_keys : ∀ s k, k ∈ keys s ↔ contents s k ≠ []

/-- One value per key: putting overwrites, removing clears. -/
structure KeyedSlot (κ ι : Type) [DecidableEq κ] where
  State : Type
  empty : State
  put : State → κ → ι → State
  get : State → κ → Option ι
  remove : State → κ → State
  keys : State → List κ
  get_empty : ∀ k, get empty k = none
  get_put : ∀ s k i k', get (put s k i) k' = if k' = k then some i else get s k'
  get_remove : ∀ s k k', get (remove s k) k' = if k' = k then none else get s k'
  keys_nodup : ∀ s, (keys s).Nodup
  mem_keys : ∀ s k, k ∈ keys s ↔ (get s k).isSome

/-- Fetching and removing with one bound denote the same block. -/
theorem KeyedFifo.get_append_contents_remove (F : KeyedFifo κ ι) (s : F.State) (k : κ) (n : ℕ) :
    F.get s k n ++ F.contents (F.remove s k n) k = F.contents s k := by
  rw [F.get_eq, F.contents_remove, if_pos rfl, List.take_append_drop]

/-- A block that was fetched nonempty leaves a strictly shorter list behind. -/
theorem KeyedFifo.length_remove_lt (F : KeyedFifo κ ι) (s : F.State) (k : κ) (n : ℕ)
    (h : F.get s k n ≠ []) :
    (F.contents (F.remove s k n) k).length < (F.contents s k).length := by
  have hlen := congrArg List.length (F.get_append_contents_remove s k n)
  have hpos := List.length_pos_of_ne_nil h
  rw [List.length_append] at hlen
  omega

def listAt (s : AList fun _ : κ => List ι) (k : κ) : List ι := (s.lookup k).getD []

theorem listAt_insert (s : AList fun _ : κ => List ι) (k : κ) (l : List ι) (k' : κ) :
    listAt (s.insert k l) k' = if k' = k then l else listAt s k' := by
  by_cases h : k' = k
  · subst h
    simp [listAt]
  · simp [listAt, AList.lookup_insert_ne h, h]

theorem mem_keys_of_listAt (s : AList fun _ : κ => List ι) (k : κ) (h : listAt s k ≠ []) :
    k ∈ s.keys := by
  by_contra hk
  have hnone : s.lookup k = none := AList.lookup_eq_none.mpr (mt AList.mem_keys.mp hk)
  simp [listAt, hnone] at h

def KeyedFifo.inMemory (κ ι : Type) [DecidableEq κ] [DecidableEq ι] : KeyedFifo κ ι where
  State := AList fun _ : κ => List ι
  empty := ∅
  put s k i := s.insert k (listAt s k ++ [i])
  get s k n := (listAt s k).take n
  remove s k n := s.insert k ((listAt s k).drop n)
  keys s := s.keys.filter fun k => listAt s k ≠ []
  contents := listAt
  contents_empty k := by simp [listAt]
  contents_put s k i k' := by
    rw [listAt_insert]
    split_ifs with h
    · rw [h]
    · rfl
  get_eq s k n := rfl
  contents_remove s k n k' := by
    rw [listAt_insert]
    split_ifs with h
    · rw [h]
    · rfl
  keys_nodup s := s.keys_nodup.filter _
  mem_keys s k := by
    simp only [List.mem_filter, decide_eq_true_eq]
    exact ⟨fun h => h.2, fun h => ⟨mem_keys_of_listAt s k h, h⟩⟩

def KeyedSlot.inMemory (κ ι : Type) [DecidableEq κ] : KeyedSlot κ ι where
  State := AList fun _ : κ => ι
  empty := ∅
  put s k i := s.insert k i
  get s k := s.lookup k
  remove s k := s.erase k
  keys s := s.keys
  get_empty k := by simp
  get_put s k i k' := by
    by_cases h : k' = k
    · subst h
      simp
    · rw [AList.lookup_insert_ne h, if_neg h]
  get_remove s k k' := by
    by_cases h : k' = k
    · subst h
      simp
    · rw [AList.lookup_erase_ne h, if_neg h]
  keys_nodup s := s.keys_nodup
  mem_keys s k := by rw [AList.lookup_isSome, AList.mem_keys]

end WolkGateway.KeyedStores
