import Mathlib.Data.List.Nodup

/-!
# Operations on the components of a state

A state is seen through one view for each component. An operation named by a class changes
the views of the components of its class, each by a function of that view alone. Such
operations commute, so a loop over different classes has the same effect in any order.
-/

namespace WolkGateway.ComponentUpdates

variable {σ κ δ β : Type*} [DecidableEq δ] {view : σ → κ → β} {cls : κ → δ} {g : κ → β → β}

def ActsOn (view : σ → κ → β) (cls : κ → δ) (g : κ → β → β) (op : σ → δ → σ) : Prop :=
  ∀ s d k, view (op s d) k = if cls k = d then g k (view s k) else view s k

namespace ActsOn

variable {op : σ → δ → σ}

theorem foldl (h : ActsOn view cls g op) {ds : List δ} (hnd : ds.Nodup) (s : σ) (k : κ) :
    view (ds.foldl op s) k = if cls k ∈ ds then g k (view s k) else view s k := by
  induction ds generalizing s with
  | nil => simp
  | cons d ds ih =>
    obtain ⟨hd, hnd⟩ := List.nodup_cons.mp hnd
    rw [List.foldl_cons, ih hnd, h s d k]
    by_cases hk : cls k = d
    · subst hk
      rw [if_neg hd, if_pos rfl, if_pos List.mem_cons_self]
    · simp only [hk, if_false, List.mem_cons, false_or]

/-- A loop that leaves out only components it would not change. -/
theorem foldl_eq (h : ActsOn view cls g op) {ds : List δ} (hnd : ds.Nodup) {s : σ} {k : κ}
    (hskip : cls k ∉ ds → g k (view s k) = view s k) :
    view (ds.foldl op s) k = g k (view s k) := by
  rw [h.foldl hnd]
  split_ifs with hk
  · rfl
  · exact (hskip hk).symm

/-- A loop over the components of one class, from a list of all that would change. -/
theorem classwise [DecidableEq κ] {op : σ → κ → σ} (h : ActsOn view id g op) (cls : κ → δ)
    {keys : σ → List κ} (hnd : ∀ s, (keys s).Nodup)
    (hskip : ∀ s k, k ∉ keys s → g k (view s k) = view s k) :
    ActsOn view cls g fun s d => ((keys s).filter fun k => cls k = d).foldl op s := by
  intro s d k
  rw [h.foldl ((hnd s).filter _)]
  by_cases hd : cls k = d
  · by_cases hk : k ∈ keys s
    · simp [hd, hk]
    · simp [hd, hk, hskip s k hk]
  · simp [hd]

end ActsOn

end WolkGateway.ComponentUpdates
