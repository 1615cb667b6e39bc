import ContentTypes.Proofs.Deduplication
import Mathlib
/-!
Names that are refused. Which names are repeated can be told from a count of all names, whatever
order the count comes in, and which of them is refused is told by the list alone: it is the name of
the first declaration whose name comes again.
-/

namespace ContentTypes

namespace Table

variable {κ : Type} [DecidableEq κ]

/-- How often each key of a list comes in it, counted up along the list. -/
def occurrences (l : List κ) : List (κ × Nat) :=
  l.foldl (fun t k => put k ((get? k t).getD 0 + 1) t) []

theorem occurrences_concat (l : List κ) (k : κ) : occurrences (l ++ [k])
    = put k ((get? k (occurrences l)).getD 0 + 1) (occurrences l) := by
  rw [occurrences, List.foldl_concat]
  rfl

theorem get?_occurrences (k : κ) (l : List κ) :
    get? k (occurrences l) = if k ∈ l then some (l.count k) else none := by
  induction l using List.reverseRecOn with
  | nil => simp [occurrences, get?]
  | append_singleton l j ih =>
    rw [occurrences_concat]
    by_cases hj : k = j
    · subst hj
      have hcount : (get? k (occurrences l)).getD 0 = l.count k := by
        rw [ih]
        split_ifs with hk
        · rfl
        · exact (List.count_eq_zero.mpr hk).symm
      simp [get?_put_self, hcount]
    · have hlast : [j].count k = 0 := List.count_eq_zero.mpr (by simpa using hj)
      simp [get?_put_of_ne hj, ih, hj, List.count_append, hlast]

theorem nodup_keys_occurrences (l : List κ) : (keys (occurrences l)).Nodup := by
  induction l using List.reverseRecOn with
  | nil => exact List.nodup_nil
  | append_singleton l k ih =>
    rw [occurrences_concat]
    exact nodup_keys_put ih _

theorem mem_occurrences_iff {k : κ} {n : Nat} {l : List κ} :
    (k, n) ∈ occurrences l ↔ k ∈ l ∧ l.count k = n := by
  rw [← get?_eq_some_iff (nodup_keys_occurrences l), get?_occurrences]
  split_ifs with hk <;> simp [hk]

end Table

namespace Collision

variable {ds : List Declaration} {counts : List (String × Nat)} {n : String}

/-! ### Resolutions that count the names -/

/-- The names that are counted more than once, in the order of the count. -/
def duplicates (counts : List (String × Nat)) : List String :=
  (counts.filter (1 < ·.2)).map (·.1)

/-- A resolution that learns from a count which names are repeated. The name that is refused is
looked up in the list, and `fallback` stands for one that is not found there. -/
def resolveCounted (fallback : String) (counts : List (String × Nat)) (policy : CollisionPolicy)
    (ds : List Declaration) : Except CollisionError Resolution :=
  if duplicates counts = [] then .ok ⟨ds, []⟩
  else
    match policy with
    | .keep => .ok ⟨ds, []⟩
    | .error => .error ⟨((names ds).find? ((duplicates counts).contains ·)).getD fallback⟩
    | .firstWins => .ok (keepMarked (markFirst [] ds))
    | .lastWins => .ok (keepMarked (markLast ds))

theorem mem_duplicates_iff (h : counts.Perm (Table.occurrences (names ds))) :
    n ∈ duplicates counts ↔ 1 < (names ds).count n := by
  simp only [duplicates, List.mem_map, List.mem_filter, decide_eq_true_eq, h.mem_iff]
  constructor
  · rintro ⟨⟨m, k⟩, ⟨hmem, hk⟩, rfl⟩
    rw [(Table.mem_occurrences_iff.mp hmem).2]
    exact hk
  · intro hcount
    have hmem : n ∈ names ds := List.count_pos_iff.mp (by omega)
    exact ⟨(n, (names ds).count n), ⟨Table.mem_occurrences_iff.mpr ⟨hmem, rfl⟩, hcount⟩, rfl⟩

theorem duplicates_eq_nil_iff (h : counts.Perm (Table.occurrences (names ds))) :
    duplicates counts = [] ↔ (names ds).Nodup := by
  simp only [List.eq_nil_iff_forall_not_mem, mem_duplicates_iff h, List.nodup_iff_count_le_one,
    Nat.not_lt]

/-- The first name that comes again is the first that comes more than once. -/
theorem repeatedName?_eq_find? (ds : List Declaration) :
    repeatedName? ds = (names ds).find? (fun n => 1 < (names ds).count n) := by
  induction ds with
  | nil => rfl
  | cons d ds ih =>
    rw [repeatedName?, names_cons, List.find?_cons, List.count_cons_self]
    by_cases hd : d.name ∈ names ds
    · have hcount : 0 < (names ds).count d.name := List.count_pos_iff.mpr hd
      rw [if_pos (any_name_eq_iff.mpr hd)]
      simp [hcount]
    · have hcount : (names ds).count d.name = 0 := List.count_eq_zero.mpr hd
      rw [if_neg (mt any_name_eq_iff.mp hd), ih, hcount]
      -- The name at the head stands nowhere else, so it adds to no other count.
      apply List.find?_congr
      intro n hn
      have hne : d.name ≠ n := fun h => hd (h ▸ hn)
      rw [List.count_cons_of_ne hne]

theorem find?_duplicates (h : counts.Perm (Table.occurrences (names ds))) :
    (names ds).find? ((duplicates counts).contains ·) = repeatedName? ds := by
  rw [repeatedName?_eq_find?]
  apply List.find?_congr
  intro n _
  rw [Bool.eq_iff_iff, List.contains_iff_mem, mem_duplicates_iff h, decide_eq_true_iff]

/-- A count tells a resolution all that it needs to know, in whatever order it comes. -/
theorem resolveCounted_eq (h : counts.Perm (Table.occurrences (names ds))) (fallback : String)
    (policy : CollisionPolicy) :
    resolveCounted fallback counts policy ds = resolve policy ds := by
  rw [resolveCounted.eq_def, resolve, find?_duplicates h]
  cases hn : repeatedName? ds with
  | none => rw [if_pos ((duplicates_eq_nil_iff h).mpr (repeatedName?_eq_none_iff.mp hn))]
  | some name =>
    have hrepeated : ¬ duplicates counts = [] := by
      rw [duplicates_eq_nil_iff h, ← repeatedName?_eq_none_iff, hn]
      exact Option.some_ne_none name
    rw [if_neg hrepeated]
    rfl

/-! ### The first repeated name -/

/-- The name at a place comes again, and no name before this place does. -/
structure FirstRepeated (ds : List Declaration) (i : Nat) (d : Declaration) : Prop where
  stands : ds[i]? = some d
  again : repeatsLater ds (d, i)
  earliest : ∀ j e, j < i → ds[j]? = some e → ¬ repeatsLater ds (e, j)

theorem repeatsLater_cons_zero (d : Declaration) (ds : List Declaration) :
    repeatsLater (d :: ds) (d, 0) ↔ d.name ∈ names ds := by
  simp [repeatsLater]

theorem FirstRepeated.cons {d e : Declaration} {i : Nat} (h : FirstRepeated ds i e)
    (hd : d.name ∉ names ds) : FirstRepeated (d :: ds) (i + 1) e where
  stands := h.stands
  again := h.again
  earliest := by
    intro j e' hj he'
    cases j with
    | zero =>
      cases he'
      rwa [repeatsLater_cons_zero]
    | succ j => exact h.earliest j e' (Nat.lt_of_succ_lt_succ hj) he'

theorem exists_firstRepeated (h : repeatedName? ds = some n) :
    ∃ i d, FirstRepeated ds i d ∧ d.name = n := by
  induction ds with
  | nil => cases h
  | cons d ds ih =>
    rw [repeatedName?] at h
    split_ifs at h with hd
    · cases h
      refine ⟨0, d, ⟨rfl, ?_, fun j _ hj => absurd hj (Nat.not_lt_zero j)⟩, rfl⟩
      rw [repeatsLater_cons_zero]
      exact any_name_eq_iff.mp hd
    · obtain ⟨i, e, hfirst, hname⟩ := ih h
      exact ⟨i + 1, e, hfirst.cons (mt any_name_eq_iff.mpr hd), hname⟩

/-- Under any policy a resolution comes to the same whatever order the count of the names comes in,
and no name has to stand for one that is not found. Under `error` it leaves a list of distinct names
as it is, without a diagnostic, and refuses every other list with the name of the first declaration
in it whose name comes again. Under `keep` it leaves every list as it is, without a diagnostic. -/
theorem refusal_in_any_order (h : counts.Perm (Table.occurrences (names ds))) (fallback : String) :
    (∀ policy, resolveCounted fallback counts policy ds = resolve policy ds) ∧
      (resolveCounted fallback counts .error ds = .ok ⟨ds, []⟩ ↔ (names ds).Nodup) ∧
      (¬ (names ds).Nodup → ∃ i d, FirstRepeated ds i d ∧
        resolveCounted fallback counts .error ds = .error ⟨d.name⟩) ∧
      resolveCounted fallback counts .keep ds = .ok ⟨ds, []⟩ := by
  have hsame := resolveCounted_eq h fallback
  refine ⟨hsame, ?unchanged, ?refused, ?kept⟩
  case unchanged =>
    rw [hsame]
    constructor
    · intro hok
      exact exists_resolve_iff.mp ⟨_, hok⟩ rfl
    · exact resolve_of_nodup .error
  case refused =>
    intro hrepeated
    obtain ⟨n, hn⟩ := Option.ne_none_iff_exists'.mp (mt repeatedName?_eq_none_iff.mp hrepeated)
    obtain ⟨i, d, hfirst, rfl⟩ := exists_firstRepeated hn
    refine ⟨i, d, hfirst, ?_⟩
    rw [hsame, resolve, hn]
  case kept =>
    rw [hsame, resolve]
    cases repeatedName? ds <;> rfl

/-! ### Two repeated names -/

/-- The name that is the first to come again stands behind the first one that does. -/
def nestedNames : List Declaration :=
  [.new "APITag" .entity, .new "APIPost" .entity, .new "APIPost" .component,
    .new "APITag" .component]

/-- The count of the inner name comes first, and the outer name is refused. -/
theorem nestedNames_refused :
    [("APIPost", 2), ("APITag", 2)].Perm (Table.occurrences (names nestedNames)) ∧
      ¬ (names nestedNames).Nodup ∧
      (∃ i d, FirstRepeated nestedNames i d ∧ d.name = "APITag") ∧
      resolveCounted "" [("APIPost", 2), ("APITag", 2)] .error nestedNames
        = .error ⟨"APITag"⟩ := by
  have hperm : [("APIPost", 2), ("APITag", 2)].Perm (Table.occurrences (names nestedNames)) := by
    decide
  have hnames : ¬ (names nestedNames).Nodup := by
    decide
  have herror : resolve .error nestedNames = .error ⟨"APITag"⟩ := by
    decide
  obtain ⟨hsame, -, hrefused, -⟩ := refusal_in_any_order hperm ""
  obtain ⟨i, d, hfirst, hname⟩ := hrefused hnames
  rw [hsame, herror, Except.error.injEq, CollisionError.mk.injEq] at hname
  exact ⟨hperm, hnames, ⟨i, d, hfirst, hname.symm⟩, (hsame .error).trans herror⟩

end Collision
end ContentTypes
