import ContentTypes.Proofs.Json.Outline
import Mathlib
/-!
Objects with the same fields in another order, and with other fields beside them. What is gathered
from an object does not change as long as fields of different names can be taken in either order
and those that come and go leave everything as it is.
-/

namespace ContentTypes.Json.Outline

variable {σ τ : Type} {step : String → σ → Outline → Option σ} {kept : Field → Bool}
  {same : Field → Field → Prop} {fs gs : List Field}

/-- The names of the fields that can be read. -/
def names (fields : List Field) : List String :=
  fields.filterMap Prod.fst

theorem names_sublist (h : fs.Sublist gs) : (names fs).Sublist (names gs) :=
  h.filterMap Prod.fst

/-- The fields that are kept are the same in both objects, but for their order and for what `same`
allows to differ. No name comes twice. -/
structure Rearranged (kept : Field → Bool) (same : Field → Field → Prop) (fs gs : List Field) :
    Prop where
  nodup : (names fs).Nodup
  order : ∃ hs, (fs.filter kept).Perm hs ∧ List.Forall₂ same hs (gs.filter kept)

theorem gather_filter (hdrop : ∀ f, kept f = false → ∀ st, take step st f = some st) (st : σ)
    (fs : List Field) : gather step st (fs.filter kept) = gather step st fs := by
  induction fs generalizing st with
  | nil => rfl
  | cons f fs ih =>
    rw [List.filter_cons, gather_cons]
    split_ifs with hf
    · simp only [gather_cons, ih]
    · rw [hdrop f (by simpa using hf), Option.bind_some, ih]

/-- Fields of different names may be taken in either order. -/
def Commutes (step : String → σ → Outline → Option σ) : Prop :=
  ∀ name name' st x y, name ≠ name' →
    (step name st x).bind (step name' · y) = (step name' st y).bind (step name · x)

theorem take_take_comm (hstep : Commutes step) {f g : Field} (h : (names [f, g]).Nodup)
    (st : σ) : (take step st f).bind (take step · g) = (take step st g).bind (take step · f) := by
  obtain ⟨name, x⟩ := f
  obtain ⟨name', y⟩ := g
  match name, name' with
  | none, none => rfl
  | none, some name' =>
    change none = (step name' st y).bind fun _ => none
    simp
  | some name, none =>
    change (step name st x).bind (fun _ => none) = none
    simp
  | some name, some name' =>
    refine hstep name name' st x y ?_
    rintro rfl
    simp [names] at h

theorem gather_perm (hstep : Commutes step) (h : fs.Perm gs) (hnodup : (names fs).Nodup)
    (st : σ) : gather step st fs = gather step st gs := by
  induction h generalizing st with
  | nil => rfl
  | cons f _ ih =>
    have hrest := hnodup.sublist (names_sublist (List.sublist_cons_self f _))
    simp only [gather_cons, ih hrest]
  | swap f g fs =>
    have hpair : (names [g, f]).Nodup :=
      hnodup.sublist (names_sublist (List.prefix_append [g, f] fs).sublist)
    simp only [gather_cons, ← Option.bind_assoc, take_take_comm hstep hpair]
  | trans hperm _ ih ih' =>
    rw [ih hnodup, ih' ((hperm.filterMap Prod.fst).nodup_iff.mp hnodup)]

theorem gather_forall₂ (hsame : ∀ f g, same f g → ∀ st, take step st f = take step st g)
    (h : List.Forall₂ same fs gs) (st : σ) : gather step st fs = gather step st gs := by
  induction h generalizing st with
  | nil => rfl
  | cons hfg _ ih => simp only [gather_cons, hsame _ _ hfg, ih]

theorem gather_rearranged (hstep : Commutes step)
    (hdrop : ∀ f, kept f = false → ∀ st, take step st f = some st)
    (hsame : ∀ f g, same f g → ∀ st, take step st f = take step st g)
    (h : Rearranged kept same fs gs) (st : σ) : gather step st fs = gather step st gs := by
  obtain ⟨hs, hperm, hforall⟩ := h.order
  have hnodup : (names (fs.filter kept)).Nodup :=
    h.nodup.sublist (names_sublist List.filter_sublist)
  calc
    gather step st fs = gather step st (fs.filter kept) := (gather_filter hdrop st fs).symm
    _ = gather step st hs := gather_perm hstep hperm hnodup st
    _ = gather step st (gs.filter kept) := gather_forall₂ hsame hforall st
    _ = gather step st gs := gather_filter hdrop st gs

/-- A view of what was gathered can be gathered by itself, if each step has a step on views. -/
theorem map_gather {view : σ → τ} {step' : String → τ → Outline → Option τ}
    (h : ∀ name st o, (step name st o).map view = step' name (view st) o) (st : σ)
    (fs : List Field) : (gather step st fs).map view = gather step' (view st) fs := by
  induction fs generalizing st with
  | nil => rfl
  | cons f fs ih =>
    obtain ⟨name, o⟩ := f
    cases name with
    | none => rfl
    | some name =>
      simp only [gather_cons, take, Option.bind_some, ← h]
      cases step name st o with
      | none => rfl
      | some st' => exact ih st'

/-- Two things that no field concerns both can be gathered one beside the other. -/
theorem gather_map₂ {ρ : Type} {pair : σ → τ → ρ} {step' : String → τ → Outline → Option τ}
    {both : String → ρ → Outline → Option ρ}
    (h : ∀ name st st' o,
      both name (pair st st') o = Option.map₂ pair (step name st o) (step' name st' o))
    (st : σ) (st' : τ) (fs : List Field) :
    gather both (pair st st') fs = Option.map₂ pair (gather step st fs) (gather step' st' fs) := by
  induction fs generalizing st st' with
  | nil => rfl
  | cons f fs ih =>
    obtain ⟨name, o⟩ := f
    cases name with
    | none => rfl
    | some name =>
      simp only [gather_cons, take, Option.bind_some, h]
      cases step name st o with
      | none => rfl
      | some st₁ =>
        cases step' name st' o with
        | none => simp
        | some st₁' => exact ih st₁ st₁'

end ContentTypes.Json.Outline
