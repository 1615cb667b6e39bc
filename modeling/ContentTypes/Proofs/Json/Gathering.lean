import ContentTypes.Json.Reader
import Mathlib
/-!
What the fields of an object are gathered into. A fact that no single field breaks holds of the
whole object, so a table that every field goes into has each name once.
-/

namespace ContentTypes

theorem exists_of_bind_ok {ε α β : Type} {x : Except ε α} {f : α → Except ε β} {b : β}
    (h : x >>= f = .ok b) : ∃ a, x = .ok a ∧ f a = .ok b := by
  cases x with
  | error e => cases h
  | ok a => exact ⟨a, rfl, h⟩

theorem exists_of_map_ok {ε α β : Type} {x : Except ε α} {f : α → β} {b : β}
    (h : x.map f = .ok b) : ∃ a, x = .ok a ∧ f a = b := by
  cases x with
  | error e => cases h
  | ok a => exact ⟨a, rfl, Except.ok.inj h⟩

namespace Json

variable {σ : Type} {field : FieldReader σ} {P : σ → Prop}

/-- A fact about what was gathered that no single field breaks. -/
def Keeps (field : FieldReader σ) (P : σ → Prop) : Prop :=
  ∀ name st s st' r, field name st s = .ok (st', r) → P st → P st'

theorem Keeps.readMoreFields (hfield : Keeps field P) {n : Nat} {st st' : σ} {s : List Char}
    {h : s.length < n} {r : Before n} (hread : readMoreFields field n st s h = .ok (st', r))
    (hst : P st) : P st' := by
  fun_induction Json.readMoreFields field n st s h with
  | case1 => cases hread
  | case2 =>
    cases hread
    exact hst
  | case3 st s h r _ _ ih =>
    obtain ⟨⟨name, r'⟩, -, hread⟩ := exists_of_bind_ok hread
    obtain ⟨⟨st₁, r''⟩, hstep, hread⟩ := exists_of_bind_ok hread
    exact ih r' st₁ r'' hread (hfield _ _ _ _ _ hstep hst)
  | case4 => cases hread

theorem Keeps.readFields (hfield : Keeps field P) {st st' : σ} {s : List Char}
    {r : Before s.length} (hread : readFields field st s = .ok (st', r)) (hst : P st) : P st' := by
  rw [Json.readFields] at hread
  split at hread
  · cases hread
  · split_ifs at hread
    · cases hread
      exact hst
    · obtain ⟨⟨name, r'⟩, -, hread⟩ := exists_of_bind_ok hread
      obtain ⟨⟨st₁, r''⟩, hstep, hread⟩ := exists_of_bind_ok hread
      exact hfield.readMoreFields hread (hfield _ _ _ _ _ hstep hst)

/-- A reader gathers its fields in a table. -/
theorem keeps_keepField {α : Type} (value : Reader α) :
    Keeps (keepField value) fun fields => (Table.keys fields).Nodup := by
  intro name fields s fields' r h hfields
  obtain ⟨⟨v, r'⟩, -, heq⟩ := exists_of_map_ok h
  cases heq
  exact Table.nodup_keys_put hfields v

end Json

end ContentTypes
