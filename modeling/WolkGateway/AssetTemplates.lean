import WolkGateway.DeviceModel

/-!
# Stored and passed templates

What lookups by reference find once the missing ones of a list of passed templates are
stored: what was found before, and otherwise the first passed template with the reference.
-/

namespace WolkGateway.DeviceModel

variable {kind : AssetKind} {stored passed : List (AssetTemplate kind)} {reference : Str}
  {t : AssetTemplate kind}

theorem templateWithReference_append (reference : Str) :
    templateWithReference (stored ++ passed) reference =
      (templateWithReference stored reference).or (templateWithReference passed reference) :=
  List.find?_append

theorem templateWithReference_cons_ne (h : t.reference ≠ reference) :
    templateWithReference (t :: passed) reference = templateWithReference passed reference :=
  List.find?_cons_of_neg (by simpa using h)

theorem addMissing_cons : addMissing stored (t :: passed) =
    addMissing (if hasTemplateWithReference stored t.reference then stored else stored ++ [t])
      passed := rfl

theorem templateWithReference_addMissing (stored passed : List (AssetTemplate kind))
    (reference : Str) : templateWithReference (addMissing stored passed) reference =
      (templateWithReference stored reference).or (templateWithReference passed reference) := by
  induction passed generalizing stored with
  | nil => exact (Option.or_none).symm
  | cons t passed ih =>
    rw [addMissing_cons, ih]
    by_cases hhas : hasTemplateWithReference stored t.reference = true
    · rw [if_pos hhas]
      by_cases hr : t.reference = reference
      · obtain ⟨e, he⟩ := Option.isSome_iff_exists.mp hhas
        rw [hr] at he
        rw [he, Option.some_or, Option.some_or]
      · rw [templateWithReference_cons_ne hr]
    · rw [if_neg hhas, templateWithReference_append, Option.or_assoc,
        ← templateWithReference_append, List.singleton_append]

theorem prefix_addMissing (stored passed : List (AssetTemplate kind)) :
    stored <+: addMissing stored passed := by
  induction passed generalizing stored with
  | nil => exact List.prefix_refl _
  | cons t passed ih =>
    rw [addMissing_cons]
    split_ifs
    · exact ih stored
    · exact (List.prefix_append stored [t]).trans (ih _)

theorem addMissing_of_forall_has (h : ∀ t ∈ passed,
    hasTemplateWithReference stored t.reference = true) : addMissing stored passed = stored := by
  induction passed with
  | nil => rfl
  | cons t passed ih =>
    rw [addMissing_cons, if_pos (h t List.mem_cons_self)]
    exact ih fun a ha => h a (List.mem_cons_of_mem _ ha)

theorem isSome_templateWithReference (h : t ∈ passed) :
    (templateWithReference passed t.reference).isSome = true := by
  rw [templateWithReference, List.find?_isSome]
  exact ⟨t, h, by simp⟩

/-- Storing the same templates again changes nothing. -/
theorem addMissing_addMissing (stored passed : List (AssetTemplate kind)) :
    addMissing (addMissing stored passed) passed = addMissing stored passed := by
  refine addMissing_of_forall_has fun t ht => ?_
  rw [hasTemplateWithReference, templateWithReference_addMissing, Option.isSome_or,
    isSome_templateWithReference ht, Bool.or_true]

theorem templateWithReference_reference (h : templateWithReference passed reference = some t) :
    t ∈ passed ∧ t.reference = reference :=
  ⟨List.mem_of_find?_eq_some h, by simpa using List.find?_some h⟩

end WolkGateway.DeviceModel
