/-!
Tables that keep their keys in the order in which these first came. A second value for a key
takes the place of the first and moves nothing.
-/

namespace ContentTypes.Table

variable {κ α : Type} [DecidableEq κ]

def get? (k : κ) : List (κ × α) → Option α
  | [] => none
  | (k', v) :: t => if k' = k then some v else get? k t

def put (k : κ) (v : α) : List (κ × α) → List (κ × α)
  | [] => [(k, v)]
  | (k', v') :: t => if k' = k then (k', v) :: t else (k', v') :: put k v t

/-- Gives a key the value that `f` makes of the one it has, if it has one. -/
def change? (k : κ) (f : Option α → Option α) : List (κ × α) → Option (List (κ × α))
  | [] => (f none).map fun v => [(k, v)]
  | (k', v) :: t =>
    if k' = k then (f (some v)).map fun v' => (k', v') :: t
    else (change? k f t).map fun t' => (k', v) :: t'

omit [DecidableEq κ] in
/-- The keys in their order. -/
def keys (t : List (κ × α)) : List κ :=
  t.map Prod.fst

theorem get?_put_self (k : κ) (v : α) (t : List (κ × α)) : get? k (put k v t) = some v := by
  induction t with
  | nil => simp [put, get?]
  | cons e t ih =>
    simp only [put]
    split <;> simp_all [get?]

theorem get?_put_of_ne {k j : κ} (h : j ≠ k) (v : α) (t : List (κ × α)) :
    get? j (put k v t) = get? j t := by
  induction t with
  | nil => simp [put, get?, h.symm]
  | cons e t ih =>
    simp only [put]
    split
    · next hk => subst hk; simp [get?, h.symm]
    · simp [get?, ih]

theorem mem_keys_iff {k : κ} {t : List (κ × α)} : k ∈ keys t ↔ ∃ v, get? k t = some v := by
  induction t with
  | nil => simp [keys, get?]
  | cons e t ih =>
    simp only [keys, List.map_cons, List.mem_cons, get?]
    split
    · next hk => simp [hk]
    · next hk => simpa [keys, Ne.symm hk] using ih

theorem mem_of_get? {k : κ} {v : α} {t : List (κ × α)} (h : get? k t = some v) : (k, v) ∈ t := by
  induction t with
  | nil => cases h
  | cons e t ih =>
    rw [get?] at h
    split at h
    · next hk =>
      cases h
      rw [← hk]
      exact List.mem_cons_self
    · exact List.mem_cons_of_mem _ (ih h)

/-- Where no key stands twice, every entry is found by its key. -/
theorem get?_eq_some_iff {k : κ} {v : α} {t : List (κ × α)} (h : (keys t).Nodup) :
    get? k t = some v ↔ (k, v) ∈ t := by
  refine ⟨mem_of_get?, fun hmem => ?_⟩
  induction t with
  | nil => cases hmem
  | cons e t ih =>
    rw [keys, List.map_cons, List.nodup_cons] at h
    rw [get?]
    rcases List.mem_cons.mp hmem with rfl | hmem
    · exact if_pos rfl
    · have hne : e.1 ≠ k := fun hk => h.1 (hk ▸ List.mem_map.mpr ⟨(k, v), hmem, rfl⟩)
      rw [if_neg hne]
      exact ih h.2 hmem

theorem keys_put (k : κ) (v : α) (t : List (κ × α)) :
    keys (put k v t) = if k ∈ keys t then keys t else keys t ++ [k] := by
  induction t with
  | nil => simp [put, keys]
  | cons e t ih =>
    simp only [put]
    split
    · next hk => simp [keys, hk]
    · next hk =>
      simp only [keys, List.map_cons, List.mem_cons] at ih ⊢
      rw [ih]
      by_cases hm : k ∈ t.map Prod.fst
      · simp only [hm, if_true, or_true]
      · simp only [hm, or_false, if_false, Ne.symm hk, List.cons_append]

theorem nodup_keys_put {k : κ} {t : List (κ × α)} (h : (keys t).Nodup) (v : α) :
    (keys (put k v t)).Nodup := by
  rw [keys_put]
  split
  · exact h
  · next hk => simp [List.nodup_append, h]; intro a ha hak; exact hk (hak ▸ ha)

theorem mem_of_mem_put {k : κ} {v : α} {t : List (κ × α)} (h : (keys t).Nodup) {e : κ × α}
    (he : e ∈ put k v t) : e ∈ t ∨ e = (k, v) := by
  have hget := (get?_eq_some_iff (nodup_keys_put h v)).2 he
  by_cases hk : e.1 = k
  · rw [hk, get?_put_self] at hget
    exact .inr (Prod.ext hk (Option.some.inj hget).symm)
  · rw [get?_put_of_ne hk] at hget
    exact .inl (mem_of_get? hget)

end ContentTypes.Table
