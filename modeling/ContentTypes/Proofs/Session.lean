import ContentTypes.Proofs.Deduplication
import ContentTypes.Proofs.Insertions
import ContentTypes.Session
import Mathlib
/-!
Sessions that remember. Each declaration of a session is kept beside all insertions that were ever
made into it, and its fields are what these come to, whatever was inserted elsewhere, collected,
resolved or refused in between.
-/

namespace ContentTypes

/-! ### Places that a resolution drops -/

namespace Collision

/-- Whether a policy drops what stands at a place. -/
def drops (policy : CollisionPolicy) (ds : List Declaration) (p : Declaration × Nat) : Bool :=
  match policy with
  | .firstWins => repeatsEarlier ds p
  | .lastWins => repeatsLater ds p
  | .keep | .error => false

theorem kept_without_false (ds : List Declaration) : (without (fun _ => false) ds).kept = ds := by
  simp [without]

theorem kept_eq_without {policy : CollisionPolicy} {ds : List Declaration} {r : Resolution}
    (h : resolve policy ds = .ok r) : r.kept = (without (drops policy ds) ds).kept := by
  cases policy with
  | firstWins =>
    rw [resolve_firstWins, firsts_eq_without] at h
    cases h
    rfl
  | lastWins =>
    rw [resolve_lastWins, firsts_reverse_eq_without] at h
    cases h
    rfl
  | keep | error =>
    rcases resolve_cases h with ⟨rfl, -⟩ | ⟨hp, -⟩ | ⟨hp, -⟩
    · exact (kept_without_false ds).symm
    · cases hp
    · cases hp

end Collision

namespace Session
open Collision

/-- A declaration of a session, and all insertions that were made into it, in their order. -/
structure Traced where
  declaration : Declaration
  insertions : List (String × String)

namespace Traced

/-- A new declaration with fields inserted in order. -/
def build (name : String) (origin : Origin) (fields : List (String × String)) : Traced :=
  ⟨Session.build name origin fields, fields⟩

def insert (key type : String) (t : Traced) : Traced :=
  ⟨t.declaration.insert key type, t.insertions ++ [(key, type)]⟩

/-- The fields are what the insertions come to, with the one of `id` before them. -/
def IsSettled (t : Traced) : Prop :=
  Table.Settles (("id", "number") :: t.insertions) t.declaration.fields

theorem isSettled_build (name : String) (origin : Origin) (fields : List (String × String)) :
    (build name origin fields).IsSettled :=
  Declaration.settles_new name origin fields

theorem IsSettled.insert {t : Traced} (h : t.IsSettled) (key type : String) :
    (t.insert key type).IsSettled :=
  Table.Settles.put h key type

end Traced

/-- A change that also remembers what it inserts. -/
def traceStep (ts : List Traced) : Change → List Traced
  | .add name origin fields => ts ++ [.build name origin fields]
  | .insert index key type => ts.modify (index.getD (ts.length - 1)) (·.insert key type)
  | .collect name origin attributes =>
    match attributes.mapM Declaration.fieldOf with
    | .ok fields => ts ++ [.build name origin fields]
    | .error _ => ts
  | .resolve policy =>
    let ds := ts.map (·.declaration)
    (ts.zipIdx.filter fun p => !drops policy ds (p.1.declaration, p.2)).map (·.1)

def trace (cs : List Change) : List Traced :=
  cs.foldl traceStep []

variable {ts : List Traced}

/-! ### Remembering changes nothing -/

theorem map_declaration_modify (ts : List Traced) (i : Nat) (key type : String) :
    (ts.modify i (·.insert key type)).map (·.declaration)
      = (ts.map (·.declaration)).modify i (·.insert key type) := by
  apply List.ext_getElem?
  intro j
  rw [List.getElem?_map, List.getElem?_modify, List.getElem?_modify, List.getElem?_map]
  cases ts[j]? with
  | none => rfl
  | some t => by_cases hj : i = j <;> simp [hj, Traced.insert]

theorem map_declaration_filter (drop : Declaration × Nat → Bool) (ts : List Traced) :
    ((ts.zipIdx.filter fun p => !drop (p.1.declaration, p.2)).map (·.1)).map (·.declaration)
      = (without drop (ts.map (·.declaration))).kept := by
  simp [without, List.zipIdx_map, List.filter_map, Function.comp_def, Prod.map]

theorem map_declaration_traceStep (ts : List Traced) (c : Change) :
    (traceStep ts c).map (·.declaration) = step (ts.map (·.declaration)) c := by
  cases c with
  | add name origin fields => simp [traceStep, step, apply, Traced.build]
  | insert index key type =>
    rw [traceStep, map_declaration_modify, step, apply, List.length_map]
    split_ifs with hi
    · rfl
    · exact List.modify_eq_self (by simpa using Nat.le_of_not_lt hi)
  | collect name origin attributes =>
    rw [traceStep, step, apply, Declaration.collect, Declaration.collectInto_eq]
    cases attributes.mapM Declaration.fieldOf with
    | error e => rfl
    | ok fields => simp [Except.map, Traced.build, build, Declaration.insertAll]
  | resolve policy =>
    rw [traceStep, step, apply, map_declaration_filter]
    cases hr : resolve policy (ts.map (·.declaration)) with
    | ok r => exact (kept_eq_without hr).symm
    | error e =>
      have hp : policy = .error := by
        by_contra hp
        obtain ⟨r, hok⟩ := exists_resolve hp (ts.map (·.declaration))
        rw [hok] at hr
        cases hr
      rw [hp]
      exact kept_without_false _

theorem map_declaration_trace (cs : List Change) :
    (trace cs).map (·.declaration) = run cs := by
  induction cs using List.reverseRecOn with
  | nil => rfl
  | append_singleton cs c ih =>
    rw [trace, List.foldl_concat, map_declaration_traceStep, run, List.foldl_concat]
    exact congrArg (step · c) ih

/-! ### What the insertions come to -/

theorem isSettled_traceStep (h : ∀ t ∈ ts, t.IsSettled) (c : Change) :
    ∀ t ∈ traceStep ts c, t.IsSettled := by
  cases c with
  | add name origin fields =>
    intro t ht
    rcases List.mem_append.mp ht with ht | ht
    · exact h t ht
    · rw [List.mem_singleton.mp ht]
      exact Traced.isSettled_build name origin fields
  | insert index key type =>
    intro t ht
    obtain ⟨j, hj⟩ := List.mem_iff_getElem?.mp ht
    rw [traceStep, List.getElem?_modify] at hj
    obtain ⟨u, hu, rfl⟩ := Option.map_eq_some_iff.mp hj
    have hsettled := h u (List.mem_of_getElem? hu)
    split_ifs
    · exact hsettled.insert key type
    · exact hsettled
  | collect name origin attributes =>
    intro t ht
    rw [traceStep] at ht
    cases hf : attributes.mapM Declaration.fieldOf with
    | error e =>
      rw [hf] at ht
      exact h t ht
    | ok fields =>
      rw [hf] at ht
      rcases List.mem_append.mp ht with ht | ht
      · exact h t ht
      · rw [List.mem_singleton.mp ht]
        exact Traced.isSettled_build name origin fields
  | resolve policy =>
    intro t ht
    obtain ⟨p, hp, rfl⟩ := List.mem_map.mp ht
    exact h _ (List.fst_mem_of_mem_zipIdx (List.mem_of_mem_filter hp))

theorem isSettled_trace (cs : List Change) : ∀ t ∈ trace cs, t.IsSettled := by
  induction cs using List.reverseRecOn with
  | nil => simp [trace]
  | append_singleton cs c ih =>
    rw [trace, List.foldl_concat]
    exact isSettled_traceStep ih c

/-! ### What a change leaves alone -/

variable {ds : List Declaration}

theorem getElem?_step_insert {index : Option Nat} {j : Nat}
    (hj : j ≠ index.getD (ds.length - 1)) (key type : String) :
    (step ds (.insert index key type))[j]? = ds[j]? := by
  rw [step, apply]
  split_ifs
  · rw [List.getElem?_modify]
    simp [Ne.symm hj]
  · rfl

theorem step_of_error {c : Change} {e : Failure} (h : apply ds c = .error e) : step ds c = ds := by
  rw [step, h]

/-- After any changes every declaration starts with the field `id` and has no field twice. A field
stands where it was first inserted and has the type that was inserted last, so `id` is a number
until a type is inserted for it. An insertion into one declaration leaves all others as they are,
and a change that fails leaves the whole list. -/
theorem session_keeps_insertions (cs : List Change) :
    (trace cs).map (·.declaration) = run cs ∧
      (∀ t ∈ trace cs, (Table.keys t.declaration.fields).Nodup ∧
        (Table.keys t.declaration.fields).head? = some "id" ∧ t.IsSettled ∧
        ("id" ∉ Table.keys t.insertions →
          Table.get? "id" t.declaration.fields = some "number")) ∧
      (∀ index key type j, j ≠ index.getD ((run cs).length - 1) →
        (run (cs ++ [Change.insert index key type]))[j]? = (run cs)[j]?) ∧
      ∀ c e, apply (run cs) c = .error e → run (cs ++ [c]) = run cs := by
  have hrun : ∀ c, run (cs ++ [c]) = step (run cs) c := fun c => List.foldl_concat ..
  refine ⟨map_declaration_trace cs, ?fields, ?others, ?failed⟩
  case fields =>
    intro t ht
    have hsettled := isSettled_trace cs t ht
    exact ⟨hsettled.nodup_keys, hsettled.head?_keys, hsettled, hsettled.get?_head⟩
  case others =>
    intro index key type j hj
    rw [hrun]
    exact getElem?_step_insert hj key type
  case failed =>
    intro c e h
    rw [hrun]
    exact step_of_error h

/-! ### Two declarations of one name -/

/-- The second insertion of `title` finds the field in place. -/
def pageChanges : List Change :=
  [.add "APIPage" .entity [("title", "string"), ("views", "number")],
    .insert none "title" "JSON", .add "APIPage" .component []]

def pageTrace : List Traced :=
  [⟨⟨"APIPage", .entity, [("id", "number"), ("title", "JSON"), ("views", "number")]⟩,
      [("title", "string"), ("views", "number"), ("title", "JSON")]⟩,
    ⟨.new "APIPage" .component, []⟩]

theorem pageChanges_settled :
    trace pageChanges = pageTrace ∧ (∀ t ∈ pageTrace, t.IsSettled) ∧
      (run (pageChanges ++ [Change.insert (some 0) "id" "string"]))[1]?
        = some (.new "APIPage" .component) ∧
      apply (run pageChanges) (.resolve .error) = .error (.collision ⟨"APIPage"⟩) ∧
      run (pageChanges ++ [Change.resolve .error]) = pageTrace.map (·.declaration) := by
  obtain ⟨hmap, hfields, hothers, hfailed⟩ := session_keeps_insertions pageChanges
  have htrace : trace pageChanges = pageTrace := rfl
  rw [htrace] at hmap hfields
  have hrefused : apply (run pageChanges) (.resolve .error)
      = .error (.collision ⟨"APIPage"⟩) := by
    rw [← hmap]
    rfl
  refine ⟨htrace, fun t ht => (hfields t ht).2.2.1, ?_, hrefused, ?_⟩
  · rw [hothers (some 0) "id" "string" 1 (by simp), ← hmap]
    rfl
  · rw [hfailed _ _ hrefused, hmap]

end Session
end ContentTypes
