import Mathlib.Data.Nat.Notation

/-!
# Snapshots and updates

A record is copied to a receiver that is sent the whole record or an update of it. A whole
record is taken either when it was put on its way or when it is sent, so an update that the
record already has may reach the receiver behind one that lacks it, and more than once. When
updates only add to a record, that does no harm: a receiver that will come to hold the record
still does after the record is updated and the update is put behind everything on its way.
-/

namespace WolkGateway.SnapshotsAndUpdates

/-- What is on its way to the receiver. -/
inductive Shipment (D U : Type*)
  /-- The record as it is when it is sent. -/
  | current
  /-- The record as it was when it was put on its way. -/
  | snapshot (record : D)
  | update (change : U)

variable {D U : Type*} {store : D → U → D} {size : D → ℕ} {now : D} {copy : Option D}
  {shipments : List (Shipment D U)}

/-- What the receiver holds after one shipment of a record that is `now`. -/
def receive (store : D → U → D) (now : D) (copy : Option D) : Shipment D U → Option D
  | .current => some now
  | .snapshot record => some record
  | .update change => copy.map (store · change)

/-- What the receiver comes to hold if the record stays as it is. -/
def arrives (store : D → U → D) (now : D) (copy : Option D) (shipments : List (Shipment D U)) :
    Option D := shipments.foldl (receive store now) copy

theorem arrives_snoc (x : Shipment D U) : arrives store now copy (shipments ++ [x]) =
    receive store now (arrives store now copy shipments) x := by
  rw [arrives, List.foldl_append]
  rfl

theorem arrives_append (front : List (Shipment D U)) :
    arrives store now copy (front ++ shipments) =
      arrives store now (arrives store now copy front) shipments := List.foldl_append

/-- The record as it is reaches the receiver whatever that held. -/
theorem arrives_whole (hne : shipments ≠ [])
    (h : ∀ x ∈ shipments, x = .current ∨ x = .snapshot now) :
    arrives store now copy shipments = some now := by
  obtain ⟨front, x, rfl⟩ := List.eq_nil_or_concat shipments |>.resolve_left hne
  rw [List.concat_eq_append, arrives_snoc]
  rcases h x (by simp) with rfl | rfl <;> rfl

/-- Updates add to a record what is not there yet. -/
structure Additive (store : D → U → D) (size : D → ℕ) : Prop where
  again : ∀ x u, store (store x u) u = store x u
  grows : ∀ x u, store x u = x ∨ size x < size (store x u)
  /-- What a record has it still has after another update. -/
  keeps : ∀ x u v, store x u = x → store (store x v) u = store x v

theorem Additive.size_le (h : Additive store size) (x : D) (u : U) :
    size x ≤ size (store x u) := by
  rcases h.grows x u with heq | hlt
  · exact Nat.le_of_eq (congrArg size heq.symm)
  · omega

/-- What a receiver holds of the record as it was and of the updated record: the same, the
two records, or more than the first. -/
inductive Corresponds (store : D → U → D) (size : D → ℕ) (now : D) (change : U) :
    Option D → Option D → Prop
  | same (copy : Option D) : Corresponds store size now change copy copy
  | current : Corresponds store size now change (some now) (some (store now change))
  | beyond (record : D) (copy : Option D) (h : size now < size record) :
      Corresponds store size now change (some record) copy

theorem Corresponds.receive (h : Additive store size) {change : U} {copy copy' : Option D}
    (hc : Corresponds store size now change copy copy') (x : Shipment D U) :
    Corresponds store size now change (receive store now copy x)
      (receive store (store now change) copy' x) := by
  cases x with
  | current => exact .current
  | snapshot record => exact .same _
  | update v =>
    cases hc with
    | same => exact .same _
    | current =>
      rcases h.grows now v with hkept | hgrown
      · have hstill : store (store now change) v = store now change := h.keeps now v change hkept
        have hcurrent : Corresponds store size now change (some now) (some (store now change)) :=
          .current
        simpa [SnapshotsAndUpdates.receive, hkept, hstill] using hcurrent
      · exact .beyond _ _ hgrown
    | beyond record _ hlt =>
      have hle := h.size_le record v
      have hgrown : size now < size (store record v) := by omega
      exact .beyond _ _ hgrown

theorem Corresponds.arrives (h : Additive store size) {change : U} {copy copy' : Option D}
    (hc : Corresponds store size now change copy copy') :
    Corresponds store size now change (arrives store now copy shipments)
      (arrives store (store now change) copy' shipments) := by
  induction shipments generalizing copy copy' with
  | nil => exact hc
  | cons x shipments ih => exact ih (hc.receive h x)

/-- An update that is put behind everything on its way reaches a receiver that would have
come to hold the record. -/
theorem arrives_update (h : Additive store size) (change : U)
    (harrives : arrives store now copy shipments = some now) :
    arrives store (store now change) copy (shipments ++ [.update change]) =
      some (store now change) := by
  have hc : Corresponds store size now change (arrives store now copy shipments)
      (arrives store (store now change) copy shipments) := Corresponds.arrives h (.same copy)
  rw [harrives] at hc
  rw [arrives_snoc]
  generalize arrives store (store now change) copy shipments = copy' at hc ⊢
  cases hc with
  | same => rfl
  | current => exact congrArg some (h.again now change)
  | beyond _ _ hlt => omega

end WolkGateway.SnapshotsAndUpdates
