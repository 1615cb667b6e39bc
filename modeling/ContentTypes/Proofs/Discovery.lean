import ContentTypes.Proofs.Listing
import Mathlib
/-!
What a discovery makes of a listing: units of its entries, and reports of its errors. In a tree
without links the only thing to report is a group that cannot be opened because its path is too
long.
-/

namespace ContentTypes

variable {fs fs' : FileSystem} {dir : Path} {loc : Location} {name : Name}

namespace Discovery

variable {origin : Origin} {maxDepth : Nat} {α : Type} {unit? : Entry → Option α} {units : List α}

/-! ### Units and reports -/

def gathered (unit? : Entry → Option α) (items : List (Except ListError Entry)) : List α :=
  items.filterMap fun item => item.toOption.bind unit?

def reported (origin : Origin) (items : List (Except ListError Entry)) : List Diagnostic :=
  items.filterMap (diagnostic? origin)

@[simp] theorem gathered_nil : gathered unit? [] = [] := rfl

@[simp] theorem reported_nil : reported origin [] = [] := rfl

theorem gathered_cons_ok (e : Entry) (items : List (Except ListError Entry)) :
    gathered unit? (.ok e :: items) = (unit? e).toList ++ gathered unit? items := by
  rw [gathered, List.filterMap_cons, Except.toOption, Option.bind_some]
  cases unit? e <;> rfl

@[simp] theorem gathered_cons_error (e : ListError) (items : List (Except ListError Entry)) :
    gathered unit? (.error e :: items) = gathered unit? items := rfl

@[simp] theorem reported_cons_ok (e : Entry) (items : List (Except ListError Entry)) :
    reported origin (.ok e :: items) = reported origin items := rfl

@[simp] theorem reported_cons_error (e : ListError) (items : List (Except ListError Entry)) :
    reported origin (.error e :: items)
      = ⟨origin, e.path.display, .listing e⟩ :: reported origin items := rfl

theorem gathered_append (items items' : List (Except ListError Entry)) :
    gathered unit? (items ++ items') = gathered unit? items ++ gathered unit? items' :=
  List.filterMap_append

theorem reported_append (items items' : List (Except ListError Entry)) :
    reported origin (items ++ items') = reported origin items ++ reported origin items' :=
  List.filterMap_append

theorem discover_congr (h : Listing.list fs' dir maxDepth = Listing.list fs dir maxDepth) :
    discover origin maxDepth unit? fs' dir = discover origin maxDepth unit? fs dir := by
  rw [discover, discover, h]

theorem discover_of_list {listed : List (Except ListError Entry)}
    (h : Listing.list fs dir maxDepth = .ok listed) :
    discover origin maxDepth unit? fs dir
      = .ok ⟨gathered unit? listed, reported origin listed⟩ := by
  rw [discover, h]
  rfl

/-- One more error in a listing is one more thing to report, in its place, and nothing else. -/
theorem discover_of_oneMore {listed listed' : List (Except ListError Entry)} {e : ListError}
    (hold : Listing.list fs dir maxDepth = .ok listed)
    (hnew : Listing.list fs' dir maxDepth = .ok listed')
    (hmore : Listing.OneMore (.error e) listed listed') {diagnostics : List Diagnostic}
    (h : discover origin maxDepth unit? fs dir = .ok ⟨units, diagnostics⟩) :
    ∃ before after, diagnostics = before ++ after ∧
      discover origin maxDepth unit? fs' dir
        = .ok ⟨units, before ++ ⟨origin, e.path.display, .listing e⟩ :: after⟩ := by
  obtain ⟨front, back, rfl, rfl⟩ := hmore
  rw [discover_of_list hold, Except.ok.injEq, Discovered.mk.injEq, gathered_append,
    reported_append] at h
  obtain ⟨rfl, rfl⟩ := h
  refine ⟨reported origin front, reported origin back, rfl, ?_⟩
  rw [discover_of_list hnew, gathered_append, reported_append, gathered_cons_error,
    reported_cons_error]

/-! ### One name after another -/

section
variable (levels depth : Nat) (parent : Name) (here : Listing.Ancestor)
  (outer : List Listing.Ancestor)

theorem gathered_entries : gathered unit? (Listing.entries fs levels depth parent here outer)
    = (fs.children here.location).flatMap fun n =>
        gathered unit? (Listing.items fs levels depth parent here outer n) := by
  rw [Listing.entries_eq, gathered, List.filterMap_flatMap]
  rfl

theorem reported_entries : reported origin (Listing.entries fs levels depth parent here outer)
    = (fs.children here.location).flatMap fun n =>
        reported origin (Listing.items fs levels depth parent here outer n) := by
  rw [Listing.entries_eq, reported, List.filterMap_flatMap]
  rfl

end

/-- Where nothing is listed below a name, nothing is reported. -/
theorem reported_entries_zero {depth : Nat} {parent : Name} {here : Listing.Ancestor}
    {outer : List Listing.Ancestor} (hfree : fs.LinkFree here.location) :
    reported origin (Listing.entries fs 0 depth parent here outer) = [] := by
  rw [reported_entries, List.flatMap_eq_nil_iff]
  intro n hn
  obtain ⟨o, ho⟩ := FileSystem.mem_children_iff.mp hn
  cases o with
  | directory =>
    rw [Listing.items_of_directory ho, Listing.itemsBelow]
    split_ifs <;> rfl
  | file content =>
    rw [Listing.items_of_file ho]
    split_ifs <;> rfl
  | link t => exact absurd ho (hfree _ (List.prefix_append _ _) t)

/-- The groups of a directory that cannot be opened because their paths are too long. -/
def overlongGroups (fs : FileSystem) (dir : Path) (loc : Location) : List Name :=
  (fs.children loc).filter fun g => fs.get? (loc ++ [g]) = some .directory ∧
    ¬ Listing.isHidden g ∧ FileSystem.pathLimit < (dir.join ⟨g⟩).bytes.length

/-- The report of a place whose path is too long. -/
def overlong (origin : Origin) (path : Path) : Diagnostic :=
  ⟨origin, path.display, .listing (.os path .nameTooLong)⟩

theorem flatMap_ite_singleton {β γ : Type} (p : β → Prop) [DecidablePred p] (f : β → γ)
    (l : List β) : (l.flatMap fun b => if p b then [f b] else []) = (l.filter (p ·)).map f := by
  induction l with
  | nil => rfl
  | cons b l ih => by_cases hb : p b <;> simp [hb, ih]

theorem reported_entries_one (hdir : fs.find true dir = .ok (loc, .directory))
    (hfree : fs.LinkFree loc) :
    reported origin (Listing.entries fs 1 1 [] ⟨dir, loc⟩ [])
      = (overlongGroups fs dir loc).map fun g => overlong origin (dir.join ⟨g⟩) := by
  have hopen : Listing.Ancestor.IsOpen fs ⟨dir, loc⟩ := hdir
  rw [overlongGroups, ← flatMap_ite_singleton, reported_entries]
  apply List.flatMap_congr
  intro n hn
  obtain ⟨o, ho⟩ := FileSystem.mem_children_iff.mp hn
  rw [ho]
  cases o with
  | directory =>
    have hbelow : reported origin (Listing.entries fs 0 2 n ⟨dir.join ⟨n⟩, loc ++ [n]⟩ [⟨dir, loc⟩])
        = [] :=
      reported_entries_zero (hfree.below (List.prefix_append loc [n]))
    rw [Listing.items_of_directory ho, Listing.itemsBelow_succ hopen ho]
    by_cases hhidden : Listing.isHidden n
    · simp [Listing.isKept, hhidden]
    · by_cases hlimit : FileSystem.pathLimit < (dir.join ⟨n⟩).bytes.length
      · simp [Listing.isKept, hhidden, hlimit, overlong, ListError.path]
      · simp [Listing.isKept, hhidden, hlimit, hbelow]
  | file content =>
    simp only [Option.some.injEq, reduceCtorEq, false_and, if_false]
    rw [Listing.items_of_file ho]
    split_ifs <;> rfl
  | link t => exact absurd ho (hfree _ (List.prefix_append _ _) t)

end Discovery

section
variable (hdir : fs.find true dir = .ok (loc, .directory)) (hfree : fs.LinkFree loc)
include hdir hfree

/-- Discovering entities opens no directory but the listed one, so there is nothing to report. -/
theorem discoverEntities_of_linkFree : discoverEntities fs dir = .ok
    ⟨(fs.children loc).flatMap fun n => Discovery.gathered (Discovery.entityUnit? dir)
      (Listing.items fs 0 1 [] ⟨dir, loc⟩ [] n), []⟩ := by
  rw [discoverEntities, Discovery.discover_of_list (Listing.list_of_directory hdir 0),
    Discovery.gathered_entries, Discovery.reported_entries_zero hfree]

theorem discoverComponents_of_linkFree : discoverComponents fs dir = .ok
    ⟨(fs.children loc).flatMap fun n => Discovery.gathered Discovery.componentUnit?
      (Listing.items fs 1 1 [] ⟨dir, loc⟩ [] n),
    (Discovery.overlongGroups fs dir loc).map fun g =>
      Discovery.overlong .component (dir.join ⟨g⟩)⟩ := by
  rw [discoverComponents, Discovery.discover_of_list (Listing.list_of_directory hdir 1),
    Discovery.gathered_entries, Discovery.reported_entries_one hdir hfree]

end
end ContentTypes
