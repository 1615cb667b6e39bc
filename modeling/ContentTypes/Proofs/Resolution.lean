import ContentTypes.Collision
import Mathlib
/-!
What a resolution leaves. It succeeds unless a repeated name is refused, drops declarations
without moving others, reports each one that it drops, and loses no name. Under any policy but
`keep` every name stands once in what is left.
-/

namespace ContentTypes.Collision

def names (ds : List Declaration) : List String :=
  ds.map (·.name)

@[simp] theorem names_nil : names [] = [] := rfl

@[simp] theorem names_cons (d : Declaration) (ds : List Declaration) :
    names (d :: ds) = d.name :: names ds := rfl

theorem names_reverse (ds : List Declaration) : names ds.reverse = (names ds).reverse :=
  List.map_reverse

theorem mem_names_iff {n : String} {ds : List Declaration} :
    n ∈ names ds ↔ ∃ d ∈ ds, d.name = n :=
  List.mem_map

theorem any_name_eq_iff {n : String} {ds : List Declaration} :
    ds.any (·.name = n) = true ↔ n ∈ names ds := by
  rw [mem_names_iff]
  simp

theorem repeatedName?_eq_none_iff {ds : List Declaration} :
    repeatedName? ds = none ↔ (names ds).Nodup := by
  induction ds with
  | nil => simp [repeatedName?]
  | cons d ds ih =>
    rw [repeatedName?, names_cons, List.nodup_cons, ← any_name_eq_iff]
    split_ifs with h
    · simp [h]
    · simpa [h] using ih

/-- Everything that a resolution can come to: the list as it is, or what a marking keeps. -/
theorem resolve_cases {policy : CollisionPolicy} {ds : List Declaration} {r : Resolution}
    (h : resolve policy ds = .ok r) :
    r = ⟨ds, []⟩ ∧ (policy = .keep ∨ (names ds).Nodup) ∨
      policy = .firstWins ∧ r = keepMarked (markFirst [] ds) ∨
      policy = .lastWins ∧ r = keepMarked (markLast ds) := by
  rw [resolve] at h
  cases hn : repeatedName? ds with
  | none =>
    rw [hn] at h
    exact .inl ⟨(Except.ok.inj h).symm, .inr (repeatedName?_eq_none_iff.mp hn)⟩
  | some name =>
    rw [hn] at h
    cases policy with
    | keep => exact .inl ⟨(Except.ok.inj h).symm, .inl rfl⟩
    | error => cases h
    | firstWins => exact .inr (.inl ⟨rfl, (Except.ok.inj h).symm⟩)
    | lastWins => exact .inr (.inr ⟨rfl, (Except.ok.inj h).symm⟩)

theorem exists_resolve {policy : CollisionPolicy} (hp : policy ≠ .error) (ds : List Declaration) :
    ∃ r, resolve policy ds = .ok r := by
  rw [resolve]
  cases repeatedName? ds with
  | none => exact ⟨_, rfl⟩
  | some name =>
    cases policy with
    | error => exact absurd rfl hp
    | keep => exact ⟨_, rfl⟩
    | firstWins => exact ⟨_, rfl⟩
    | lastWins => exact ⟨_, rfl⟩

theorem resolve_of_nodup (policy : CollisionPolicy) {ds : List Declaration}
    (h : (names ds).Nodup) : resolve policy ds = .ok ⟨ds, []⟩ := by
  rw [resolve, repeatedName?_eq_none_iff.mpr h]

/-- Only a repeated name that is refused stops a resolution. -/
theorem exists_resolve_iff {policy : CollisionPolicy} {ds : List Declaration} :
    (∃ r, resolve policy ds = .ok r) ↔ (policy = .error → (names ds).Nodup) := by
  constructor
  · rintro ⟨r, hr⟩ rfl
    rcases resolve_cases hr with ⟨-, hkeep | hnodup⟩ | ⟨hfirst, -⟩ | ⟨hlast, -⟩
    · cases hkeep
    · exact hnodup
    · cases hfirst
    · cases hlast
  · intro h
    by_cases hpolicy : policy = .error
    · exact ⟨_, resolve_of_nodup policy (h hpolicy)⟩
    · exact exists_resolve hpolicy ds

/-! ### What a marking keeps -/

@[simp] theorem keepMarked_nil : keepMarked [] = ⟨[], []⟩ := rfl

@[simp] theorem keepMarked_cons_true (d : Declaration) (ms : List (Declaration × Bool)) :
    keepMarked ((d, true) :: ms) = ⟨d :: (keepMarked ms).kept, (keepMarked ms).diagnostics⟩ := by
  simp [keepMarked]

@[simp] theorem keepMarked_cons_false (d : Declaration) (ms : List (Declaration × Bool)) :
    keepMarked ((d, false) :: ms)
      = ⟨(keepMarked ms).kept, dropped d :: (keepMarked ms).diagnostics⟩ := by
  simp [keepMarked]

theorem keepMarked_reverse (ms : List (Declaration × Bool)) :
    keepMarked ms.reverse
      = ⟨(keepMarked ms).kept.reverse, (keepMarked ms).diagnostics.reverse⟩ := by
  simp [keepMarked, List.filter_reverse, List.map_reverse]

theorem kept_sublist (ms : List (Declaration × Bool)) :
    (keepMarked ms).kept.Sublist (ms.map Prod.fst) :=
  List.filter_sublist.map _

/-- A marking neither loses nor invents a declaration of an origin. -/
theorem countP_keepMarked (o : Origin) (ms : List (Declaration × Bool)) :
    (keepMarked ms).kept.countP (·.origin = o)
        + (keepMarked ms).diagnostics.countP (·.origin = o)
      = (ms.map Prod.fst).countP (·.origin = o) := by
  induction ms with
  | nil => rfl
  | cons m ms ih =>
    obtain ⟨d, b⟩ := m
    have hdropped : (dropped d).origin = d.origin := rfl
    cases b with
    | true =>
      simp only [keepMarked_cons_true, List.map_cons, List.countP_cons]
      omega
    | false =>
      simp only [keepMarked_cons_false, List.map_cons, List.countP_cons, hdropped]
      omega

theorem mem_names_kept_markFirst {n : String} (seen : List String) (ds : List Declaration) :
    n ∈ names (keepMarked (markFirst seen ds)).kept ↔ n ∈ names ds ∧ n ∉ seen := by
  induction ds generalizing seen with
  | nil => simp [markFirst]
  | cons d ds ih =>
    rw [markFirst]
    by_cases hd : d.name ∈ seen
    · rw [show (!seen.contains d.name) = false by simpa using hd, keepMarked_cons_false, ih,
        names_cons, List.mem_cons, List.mem_cons]
      by_cases hn : n = d.name
      · simp [hn, hd]
      · simp [hn]
    · rw [show (!seen.contains d.name) = true by simpa using hd, keepMarked_cons_true,
        names_cons, names_cons, List.mem_cons, List.mem_cons, ih, List.mem_cons]
      by_cases hn : n = d.name
      · simp [hn, hd]
      · simp [hn]

theorem nodup_names_kept_markFirst (seen : List String) (ds : List Declaration) :
    (names (keepMarked (markFirst seen ds)).kept).Nodup := by
  induction ds generalizing seen with
  | nil => simp [markFirst]
  | cons d ds ih =>
    rw [markFirst]
    cases hd : seen.contains d.name with
    | true =>
      rw [Bool.not_true, keepMarked_cons_false]
      exact ih _
    | false =>
      rw [Bool.not_false, keepMarked_cons_true, names_cons, List.nodup_cons,
        mem_names_kept_markFirst]
      exact ⟨by simp, ih _⟩

/-- The last of each name in a list is the first of it from behind. -/
theorem kept_markLast (ds : List Declaration) :
    (keepMarked (markLast ds)).kept = (keepMarked (markFirst [] ds.reverse)).kept.reverse := by
  rw [markLast, keepMarked_reverse]

/-! ### What a resolution leaves -/

variable {policy : CollisionPolicy} {ds : List Declaration} {r : Resolution}

theorem kept_sublist_of_resolve (h : resolve policy ds = .ok r) : r.kept.Sublist ds := by
  rcases resolve_cases h with ⟨rfl, -⟩ | ⟨-, rfl⟩ | ⟨-, rfl⟩
  · exact List.Sublist.refl _
  · simpa [map_fst_markFirst] using kept_sublist (markFirst [] ds)
  · simpa [map_fst_markLast] using kept_sublist (markLast ds)

/-- Each declaration of an origin is kept or reported. -/
theorem countP_resolve (h : resolve policy ds = .ok r) (o : Origin) :
    r.kept.countP (·.origin = o) + r.diagnostics.countP (·.origin = o)
      = ds.countP (·.origin = o) := by
  rcases resolve_cases h with ⟨rfl, -⟩ | ⟨-, rfl⟩ | ⟨-, rfl⟩
  · simp
  · rw [countP_keepMarked, map_fst_markFirst]
  · rw [countP_keepMarked, map_fst_markLast]

theorem mem_names_resolve (h : resolve policy ds = .ok r) {n : String} :
    n ∈ names r.kept ↔ n ∈ names ds := by
  rcases resolve_cases h with ⟨rfl, -⟩ | ⟨-, rfl⟩ | ⟨-, rfl⟩
  · exact Iff.rfl
  · rw [mem_names_kept_markFirst]
    simp
  · rw [kept_markLast, names_reverse, List.mem_reverse, mem_names_kept_markFirst, names_reverse]
    simp

theorem nodup_names_resolve (hp : policy ≠ .keep) (h : resolve policy ds = .ok r) :
    (names r.kept).Nodup := by
  rcases resolve_cases h with ⟨rfl, hk | hd⟩ | ⟨-, rfl⟩ | ⟨-, rfl⟩
  · exact absurd hk hp
  · exact hd
  · exact nodup_names_kept_markFirst [] ds
  · rw [kept_markLast, names_reverse, List.nodup_reverse]
    exact nodup_names_kept_markFirst [] ds.reverse

end ContentTypes.Collision
