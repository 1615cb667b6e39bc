import ContentTypes.Proofs.Resolution
import Mathlib
/-!
Deduplication in order. Under `first-wins` a declaration is dropped exactly where its name has come
before, under `last-wins` exactly where its name comes again, and each one that is dropped is
reported in its turn. The second policy is the first one from behind.
-/

namespace ContentTypes.Collision

namespace Resolution

/-- Both lists from behind. -/
def reverse (r : Resolution) : Resolution :=
  ⟨r.kept.reverse, r.diagnostics.reverse⟩

/-- One resolution behind another. -/
instance : Append Resolution where
  append r s := ⟨r.kept ++ s.kept, r.diagnostics ++ s.diagnostics⟩

variable (r s : Resolution)

@[simp] theorem reverse_kept : r.reverse.kept = r.kept.reverse := rfl

@[simp] theorem reverse_diagnostics : r.reverse.diagnostics = r.diagnostics.reverse := rfl

@[simp] theorem append_kept : (r ++ s).kept = r.kept ++ s.kept := rfl

@[simp] theorem append_diagnostics : (r ++ s).diagnostics = r.diagnostics ++ s.diagnostics := rfl

theorem reverse_append : (r ++ s).reverse = s.reverse ++ r.reverse := by
  rw [Resolution.mk.injEq]
  exact ⟨List.reverse_append, List.reverse_append⟩

end Resolution

theorem keepMarked_append (ms ns : List (Declaration × Bool)) :
    keepMarked (ms ++ ns) = keepMarked ms ++ keepMarked ns := by
  rw [Resolution.mk.injEq]
  simp [keepMarked]

/-! ### The first of each name -/

/-- Keeps the first declaration of each name that is not among `seen`. -/
def firsts (seen : List String) (ds : List Declaration) : Resolution :=
  keepMarked (markFirst seen ds)

variable {seen : List String} {d : Declaration} {ds : List Declaration}

@[simp] theorem firsts_nil (seen : List String) : firsts seen [] = ⟨[], []⟩ := rfl

theorem firsts_cons_of_mem (h : d.name ∈ seen) :
    firsts seen (d :: ds) = ⟨(firsts (d.name :: seen) ds).kept,
      dropped d :: (firsts (d.name :: seen) ds).diagnostics⟩ := by
  rw [firsts, markFirst, show (!seen.contains d.name) = false by simpa using h,
    keepMarked_cons_false]
  rfl

theorem firsts_cons_of_notMem (h : d.name ∉ seen) :
    firsts seen (d :: ds) = ⟨d :: (firsts (d.name :: seen) ds).kept,
      (firsts (d.name :: seen) ds).diagnostics⟩ := by
  rw [firsts, markFirst, show (!seen.contains d.name) = true by simpa using h,
    keepMarked_cons_true]
  rfl

/-- Only the names of the list itself matter among those that have come before. -/
theorem firsts_congr {seen' : List String} (h : ∀ n ∈ names ds, n ∈ seen ↔ n ∈ seen') :
    firsts seen ds = firsts seen' ds := by
  induction ds generalizing seen seen' with
  | nil => rfl
  | cons d ds ih =>
    have htail : firsts (d.name :: seen) ds = firsts (d.name :: seen') ds := by
      apply ih
      intro n hn
      rw [List.mem_cons, List.mem_cons, h n (List.mem_cons_of_mem _ hn)]
    have hhead : d.name ∈ seen ↔ d.name ∈ seen' := h d.name List.mem_cons_self
    by_cases hd : d.name ∈ seen
    · rw [firsts_cons_of_mem hd, firsts_cons_of_mem (hhead.mp hd), htail]
    · rw [firsts_cons_of_notMem hd, firsts_cons_of_notMem (mt hhead.mpr hd), htail]

/-- A list of new and distinct names is kept as it is. -/
theorem firsts_eq_self (hseen : ∀ n ∈ names ds, n ∉ seen) (hd : (names ds).Nodup) :
    firsts seen ds = ⟨ds, []⟩ := by
  induction ds generalizing seen with
  | nil => rfl
  | cons d ds ih =>
    obtain ⟨hnot, htail⟩ := List.nodup_cons.mp hd
    have hnew : ∀ n ∈ names ds, n ∉ d.name :: seen := by
      intro n hn hmem
      rcases List.mem_cons.mp hmem with rfl | hmem
      · exact hnot hn
      · exact hseen n (List.mem_cons_of_mem _ hn) hmem
    rw [firsts_cons_of_notMem (hseen d.name List.mem_cons_self), ih hnew htail]

theorem markFirst_append (seen : List String) (xs ys : List Declaration) :
    markFirst seen (xs ++ ys) = markFirst seen xs ++ markFirst ((names xs).reverse ++ seen) ys := by
  induction xs generalizing seen with
  | nil => rfl
  | cons x xs ih => simp [markFirst, ih]

theorem firsts_append (seen : List String) (xs ys : List Declaration) :
    firsts seen (xs ++ ys) = firsts seen xs ++ firsts ((names xs).reverse ++ seen) ys := by
  rw [firsts, markFirst_append, keepMarked_append]
  rfl

/-! ### Two policies -/

theorem resolve_firstWins (ds : List Declaration) :
    resolve .firstWins ds = .ok (firsts [] ds) := by
  cases hn : repeatedName? ds with
  | none =>
    have hself : firsts [] ds = ⟨ds, []⟩ :=
      firsts_eq_self (by simp) (repeatedName?_eq_none_iff.mp hn)
    rw [resolve, hn, hself]
  | some name => simp only [resolve, hn, firsts]

theorem resolve_lastWins (ds : List Declaration) :
    resolve .lastWins ds = .ok (firsts [] ds.reverse).reverse := by
  cases hn : repeatedName? ds with
  | none =>
    have hd : (names ds.reverse).Nodup := by
      rw [names_reverse, List.nodup_reverse]
      exact repeatedName?_eq_none_iff.mp hn
    rw [resolve, hn, firsts_eq_self (by simp) hd, Resolution.reverse, List.reverse_reverse]
    rfl
  | some name =>
    simp only [resolve, hn, markLast, keepMarked_reverse, firsts, Resolution.reverse]

/-- Lists without a common name are resolved side by side. -/
theorem resolve_append {policy : CollisionPolicy} {xs ys : List Declaration}
    (hp : policy = .firstWins ∨ policy = .lastWins) (h : ∀ n ∈ names xs, n ∉ names ys) :
    ∃ r s, resolve policy xs = .ok r ∧ resolve policy ys = .ok s ∧
      resolve policy (xs ++ ys) = .ok (r ++ s) := by
  rcases hp with rfl | rfl
  · have hys : firsts ((names xs).reverse ++ []) ys = firsts [] ys := by
      apply firsts_congr
      intro n hn
      simpa using fun hx => h n hx hn
    refine ⟨_, _, resolve_firstWins xs, resolve_firstWins ys, ?_⟩
    rw [resolve_firstWins, firsts_append, hys]
  · have hxs : firsts ((names ys.reverse).reverse ++ []) xs.reverse = firsts [] xs.reverse := by
      apply firsts_congr
      intro n hn
      rw [names_reverse, List.mem_reverse] at hn
      simpa [names_reverse] using h n hn
    refine ⟨_, _, resolve_lastWins xs, resolve_lastWins ys, ?_⟩
    rw [resolve_lastWins, List.reverse_append, firsts_append, hxs, Resolution.reverse_append]

/-! ### Places -/

/-- Whether the name at a place has come before. -/
def repeatsEarlier (ds : List Declaration) (p : Declaration × Nat) : Bool :=
  (names (ds.take p.2)).contains p.1.name

/-- Whether the name at a place comes again. -/
def repeatsLater (ds : List Declaration) (p : Declaration × Nat) : Bool :=
  (names (ds.drop (p.2 + 1))).contains p.1.name

/-- What is left where some places of a list are dropped, each with a diagnostic. -/
def without (drop : Declaration × Nat → Bool) (ds : List Declaration) : Resolution where
  kept := (ds.zipIdx.filter (!drop ·)).map (·.1)
  diagnostics := (ds.zipIdx.filter (drop ·)).map fun p =>
    ⟨p.1.origin, p.1.name, .duplicateName⟩

theorem without_eq (drop : Declaration × Nat → Bool) (ds : List Declaration) :
    without drop ds = keepMarked (ds.zipIdx.map fun p => (p.1, !drop p)) := by
  rw [Resolution.mk.injEq]
  simp [without, keepMarked, List.filter_map, Function.comp_def, dropped]

theorem markFirst_eq (seen : List String) (ds : List Declaration) :
    markFirst seen ds
      = ds.zipIdx.map fun p => (p.1, !(seen.contains p.1.name || repeatsEarlier ds p)) := by
  induction ds generalizing seen with
  | nil => rfl
  | cons d ds ih =>
    rw [markFirst, ih, List.zipIdx_cons, List.zipIdx_succ]
    simp [repeatsEarlier, Bool.and_assoc, Bool.and_left_comm]

theorem markLast_cons (d : Declaration) (ds : List Declaration) :
    markLast (d :: ds) = (d, !(names ds).contains d.name) :: markLast ds := by
  rw [markLast, List.reverse_cons, markFirst_append]
  simp [markFirst, markLast, names_reverse]

theorem markLast_eq (ds : List Declaration) :
    markLast ds = ds.zipIdx.map fun p => (p.1, !repeatsLater ds p) := by
  induction ds with
  | nil => rfl
  | cons d ds ih =>
    rw [markLast_cons, ih, List.zipIdx_cons, List.zipIdx_succ]
    simp [repeatsLater]

theorem firsts_eq_without (ds : List Declaration) :
    firsts [] ds = without (repeatsEarlier ds) ds := by
  rw [firsts, markFirst_eq, without_eq]
  simp

theorem firsts_reverse_eq_without (ds : List Declaration) :
    (firsts [] ds.reverse).reverse = without (repeatsLater ds) ds := by
  rw [without_eq, ← markLast_eq, markLast, keepMarked_reverse]
  rfl

/-! ### Names -/

theorem filter_kept_firsts (seen : List String) (ds : List Declaration) (n : String) :
    (firsts seen ds).kept.filter (·.name = n)
      = if n ∈ seen then [] else (ds.filter (·.name = n)).head?.toList := by
  induction ds generalizing seen with
  | nil => simp
  | cons d ds ih =>
    by_cases hd : d.name ∈ seen
    · rw [firsts_cons_of_mem hd, ih]
      by_cases hn : d.name = n
      · simp [← hn, hd]
      · simp [hn, Ne.symm hn]
    · rw [firsts_cons_of_notMem hd, List.filter_cons, ih]
      by_cases hn : d.name = n
      · simp [← hn, hd]
      · simp [hn, Ne.symm hn]

theorem kept_firsts_sublist (seen : List String) (ds : List Declaration) :
    (firsts seen ds).kept.Sublist ds := by
  have h := kept_sublist (markFirst seen ds)
  rwa [map_fst_markFirst] at h

/-- Both policies succeed on every list. What they keep is the list without the places whose name
has come before, or comes again: of each name the first declaration, or the last, and of the places
that are dropped one diagnostic each, all in the order of the list. -/
theorem resolve_dedups (ds : List Declaration) :
    (∃ r, resolve .firstWins ds = .ok r ∧ r = without (repeatsEarlier ds) ds ∧
      r.kept.Sublist ds ∧
      ∀ n, r.kept.filter (·.name = n) = (ds.filter (·.name = n)).head?.toList) ∧
    (∃ r, resolve .lastWins ds = .ok r ∧ r = without (repeatsLater ds) ds ∧
      r.kept.Sublist ds ∧
      ∀ n, r.kept.filter (·.name = n) = (ds.filter (·.name = n)).getLast?.toList) ∧
    resolve .lastWins ds = (resolve .firstWins ds.reverse).map Resolution.reverse := by
  refine ⟨?first, ?last, ?turn⟩
  case first =>
    refine ⟨_, resolve_firstWins ds, firsts_eq_without ds, kept_firsts_sublist [] ds, ?_⟩
    intro n
    simp [filter_kept_firsts]
  case last =>
    refine ⟨_, resolve_lastWins ds, firsts_reverse_eq_without ds, ?_, ?_⟩
    · have h := (kept_firsts_sublist [] ds.reverse).reverse
      rwa [List.reverse_reverse] at h
    · intro n
      rw [Resolution.reverse_kept, List.filter_reverse, filter_kept_firsts, List.filter_reverse]
      cases h : (ds.filter (·.name = n)).getLast? <;> simp [h]
  case turn =>
    rw [resolve_firstWins, resolve_lastWins]
    rfl

end ContentTypes.Collision
