import Mathlib.Data.List.Induction

/-!
# Transcripts

A transcript lists what happened, oldest first. Most safety properties of a transcript
say that each entry is justified by the entries before it; such a property of an extended
transcript is one of the old transcript and of the new entries.
-/

namespace WolkGateway.Transcripts

variable {ε : Type*} {P Q : List ε → ε → Prop} {t u pre post : List ε} {e x : ε}

/-- Every entry is justified by what precedes it. -/
def Justified (P : List ε → ε → Prop) (t : List ε) : Prop :=
  ∀ pre e post, t = pre ++ e :: post → P pre e

/-- Splitting an extended transcript at an entry: in the old part, or at the new last entry. -/
theorem split_snoc (h : t ++ [e] = pre ++ x :: post) :
    (∃ post', post = post' ++ [e] ∧ t = pre ++ x :: post') ∨ (post = [] ∧ x = e ∧ t = pre) := by
  rcases List.eq_nil_or_concat post with rfl | ⟨post', y, rfl⟩
  · obtain ⟨h1, h2⟩ := List.append_inj' h rfl
    exact .inr ⟨rfl, by simpa using h2.symm, h1⟩
  · rw [List.concat_eq_append, ← List.cons_append, ← List.append_assoc] at h
    obtain ⟨h1, h2⟩ := List.append_inj' h rfl
    exact .inl ⟨post', by simpa using h2.symm, h1⟩

/-- Splitting an extended transcript at an entry: in the old part, or in the new. -/
theorem split_append (h : t ++ u = pre ++ x :: post) :
    (∃ post', post = post' ++ u ∧ t = pre ++ x :: post') ∨
      ∃ pre', pre = t ++ pre' ∧ u = pre' ++ x :: post := by
  rcases List.append_eq_append_iff.mp h with ⟨pre', rfl, hu⟩ | ⟨post', ht, hx⟩
  · exact .inr ⟨pre', rfl, hu⟩
  · cases post' with
    | nil => exact .inr ⟨[], by simpa using ht.symm, hx.symm⟩
    | cons y post' =>
      obtain ⟨rfl, rfl⟩ := List.cons.inj hx
      exact .inl ⟨post', rfl, ht⟩

/-- The entry that contributes the item in a given place of what is read off a transcript. -/
theorem split_of_filterMap {β : Type*} {f : ε → Option β} {n : ℕ} {b : β}
    (h : (t.filterMap f)[n]? = some b) :
    ∃ pre e post, t = pre ++ e :: post ∧ f e = some b ∧ (pre.filterMap f).length = n := by
  obtain ⟨hn, rfl⟩ := List.getElem?_eq_some_iff.mp h
  have hsplit : t.filterMap f = (t.filterMap f).take n ++
      (t.filterMap f)[n] :: (t.filterMap f).drop (n + 1) := by simp
  obtain ⟨t₁, t₂, rfl, h₁, h₂⟩ := List.filterMap_eq_append_iff.mp hsplit
  obtain ⟨u₁, e, u₂, rfl, hnone, he, -⟩ := List.filterMap_eq_cons_iff.mp h₂
  refine ⟨t₁ ++ u₁, e, u₂, by simp, he, ?_⟩
  rw [List.filterMap_append, List.filterMap_eq_nil_iff.mpr hnone, List.append_nil, h₁,
    List.length_take]
  omega

/-- What is read off a transcript behind other items, and the entry that contributes it. -/
theorem split_of_sublist {β : Type*} {f : ε → Option β} {l : List β} {b : β}
    (h : (l ++ [b]).Sublist (t.filterMap f)) :
    ∃ pre e post, t = pre ++ e :: post ∧ f e = some b ∧ l.Sublist (pre.filterMap f) := by
  obtain ⟨r₁, r₂, hr, hl, hb⟩ := List.append_sublist_iff.mp h
  obtain ⟨p, q, rfl⟩ := List.append_of_mem (List.singleton_sublist.mp hb)
  obtain ⟨t₁, t₂, rfl, h₁, h₂⟩ := List.filterMap_eq_append_iff.mp hr
  obtain ⟨u₁, u₂, rfl, -, h₃⟩ := List.filterMap_eq_append_iff.mp h₂
  obtain ⟨v, e, w, rfl, -, he, -⟩ := List.filterMap_eq_cons_iff.mp h₃
  refine ⟨t₁ ++ (u₁ ++ v), e, w, by simp, he, ?_⟩
  rw [List.filterMap_append, h₁]
  exact hl.trans (List.sublist_append_left _ _)

theorem justified_nil : Justified P [] := by
  intro pre e post h
  simp at h

theorem justified_snoc : Justified P (t ++ [e]) ↔ Justified P t ∧ P t e := by
  constructor
  · intro h
    refine ⟨fun pre x post ht => h pre x (post ++ [e]) (by simp [ht]), h t e [] rfl⟩
  · rintro ⟨ht, he⟩ pre x post heq
    rcases split_snoc heq with ⟨post', -, h⟩ | ⟨-, rfl, rfl⟩
    · exact ht pre x post' h
    · exact he

theorem justified_append :
    Justified P (t ++ u) ↔ Justified P t ∧ Justified (fun pre => P (t ++ pre)) u := by
  induction u using List.reverseRecOn with
  | nil => simp [justified_nil]
  | append_singleton u e ih =>
    rw [← List.append_assoc, justified_snoc, ih, justified_snoc, and_assoc]

theorem Justified.mono (h : Justified P t) (hpq : ∀ pre e, P pre e → Q pre e) : Justified Q t :=
  fun pre e post heq => hpq pre e (h pre e post heq)

theorem Justified.and (h : Justified P t) (h' : Justified Q t) :
    Justified (fun pre e => P pre e ∧ Q pre e) t :=
  fun pre e post heq => ⟨h pre e post heq, h' pre e post heq⟩

theorem justified_of_forall (h : ∀ e ∈ t, ∀ pre, P pre e) : Justified P t :=
  fun pre e _ heq => h e (by simp [heq]) pre

/-- A summary of a transcript is not changed by entries that it ignores. -/
theorem foldl_append_of_ignored {β : Type*} {f : β → ε → β} (h : ∀ e ∈ u, ∀ b, f b e = b) (b : β) :
    (t ++ u).foldl f b = t.foldl f b := by
  rw [List.foldl_append]
  generalize t.foldl f b = c
  induction u with
  | nil => rfl
  | cons e u ih =>
    rw [List.foldl_cons, h e List.mem_cons_self]
    exact ih fun x hx => h x (List.mem_cons_of_mem _ hx)

end WolkGateway.Transcripts
