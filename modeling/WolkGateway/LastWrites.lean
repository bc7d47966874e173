import Mathlib.Data.List.Basic

/-!
# The last of several writes

The value that a sequence of writes, each of a value under a key, leaves under a key.
-/

namespace WolkGateway.LastWrites

variable {κ β : Type*} [DecidableEq κ] {k : κ} {x : β} {ps qs : List (κ × β)}

def lastAt (k : κ) : List (κ × β) → Option β
  | [] => none
  | p :: ps => (lastAt k ps).or (if p.1 = k then some p.2 else none)

theorem lastAt_append (k : κ) (ps qs : List (κ × β)) :
    lastAt k (ps ++ qs) = (lastAt k qs).or (lastAt k ps) := by
  induction ps with
  | nil => rw [List.nil_append, lastAt, Option.or_none]
  | cons p ps ih => rw [List.cons_append, lastAt, ih, Option.or_assoc, lastAt]

theorem mem_of_lastAt (h : lastAt k ps = some x) : (k, x) ∈ ps := by
  induction ps with
  | nil => cases h
  | cons p ps ih =>
    rw [lastAt, Option.or_eq_some_iff] at h
    rcases h with h | ⟨-, h⟩
    · exact List.mem_cons_of_mem _ (ih h)
    · split_ifs at h with hk
      rw [← hk, ← Option.some.inj h]
      exact List.mem_cons_self

theorem exists_lastAt (h : (k, x) ∈ ps) : ∃ y, lastAt k ps = some y := by
  induction ps with
  | nil => cases h
  | cons p ps ih =>
    rw [lastAt]
    rcases List.mem_cons.mp h with rfl | h
    · cases lastAt k ps with
      | none => exact ⟨x, by simp⟩
      | some y => exact ⟨y, rfl⟩
    · obtain ⟨y, hy⟩ := ih h
      exact ⟨y, by rw [hy, Option.some_or]⟩

/-- Writes that agree on every key leave what they write. -/
theorem lastAt_of_agree (hagree : ∀ p ∈ ps, ∀ q ∈ ps, p.1 = q.1 → p.2 = q.2)
    (h : (k, x) ∈ ps) : lastAt k ps = some x := by
  obtain ⟨y, hy⟩ := exists_lastAt h
  have hyx : y = x := hagree (k, y) (mem_of_lastAt hy) (k, x) h rfl
  rw [hy, hyx]

theorem or_lastAt_of_suffix (h : ps <:+ qs) :
    (lastAt k ps).or (lastAt k qs) = lastAt k qs := by
  obtain ⟨before, rfl⟩ := h
  rw [lastAt_append, ← Option.or_assoc, Option.or_self]

theorem lastAt_or_of_mem {p : κ × β} (h : p ∈ ps) :
    (lastAt k ps).or (lastAt k [p]) = lastAt k ps := by
  by_cases hk : p.1 = k
  · subst hk
    obtain ⟨y, hy⟩ := exists_lastAt h
    rw [hy, Option.some_or]
  · simp [lastAt, hk]

/-- Repeating all the writes in place of some of them changes nothing in the end. -/
theorem lastAt_flatMap_repeated {α : Type*} {l : List α} {p : α → κ × β}
    {f : α → List (κ × β)} (hf : ∀ a ∈ l, f a = [p a] ∨ f a = l.map p) :
    lastAt k (l.flatMap f) = lastAt k (l.map p) := by
  have hsuffix : ∀ t, t <:+ l → lastAt k (t.flatMap f) = lastAt k (t.map p) ∨
      lastAt k (t.flatMap f) = lastAt k (l.map p) := by
    intro t
    induction t with
    | nil =>
      intro _
      exact .inl rfl
    | cons a t ih =>
      intro ht
      have ha : a ∈ l := ht.subset List.mem_cons_self
      have htail : t <:+ l := (List.suffix_cons a t).trans ht
      have hcons : lastAt k ((a :: t).map p) = (lastAt k (t.map p)).or (lastAt k [p a]) := by
        rw [List.map_cons, ← List.singleton_append, lastAt_append]
      rw [List.flatMap_cons, lastAt_append]
      rcases hf a ha with hone | hall
      · rcases ih htail with h | h
        · left
          rw [h, hone, hcons]
        · right
          rw [h, hone, lastAt_or_of_mem (List.mem_map_of_mem ha)]
      · right
        rcases ih htail with h | h
        · rw [h, hall, or_lastAt_of_suffix (htail.map p)]
        · rw [h, hall, Option.or_self]
  rcases hsuffix l (List.suffix_refl l) with h | h <;> exact h

omit [DecidableEq κ] in
theorem mem_flatMap_repeated {α : Type*} {l : List α} {p : α → κ × β} {f : α → List (κ × β)}
    (hf : ∀ a ∈ l, f a = [p a] ∨ f a = l.map p) (q : κ × β) :
    q ∈ l.flatMap f ↔ q ∈ l.map p := by
  rw [List.mem_flatMap]
  constructor
  · rintro ⟨a, ha, hq⟩
    rcases hf a ha with hone | hall
    · rw [hone, List.mem_singleton] at hq
      rw [hq]
      exact List.mem_map_of_mem ha
    · rwa [hall] at hq
  · intro hq
    obtain ⟨a, ha, rfl⟩ := List.mem_map.mp hq
    refine ⟨a, ha, ?_⟩
    rcases hf a ha with hone | hall
    · rw [hone]
      exact List.mem_singleton_self _
    · rw [hall]
      exact List.mem_map_of_mem ha

end WolkGateway.LastWrites
