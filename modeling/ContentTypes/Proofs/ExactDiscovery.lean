import ContentTypes.Proofs.Discovery
import Mathlib
/-!
What a discovery finds in a tree without links: every directory that is not hidden is an entity,
and every file `<group>/<stem>.json` in a group that is not hidden a component, each once and in
the order of the names. A group whose path is too long is reported instead, and has no components.
-/

namespace ContentTypes

/-- A name in UTF-8. -/
def IsTextName (n : Name) : Prop :=
  ∃ s : String, utf8 s = n

/-- A location with nothing but directories and files below it, under names in UTF-8. -/
structure FileSystem.IsPlainTree (fs : FileSystem) (loc : Location) : Prop where
  linkFree : fs.LinkFree loc
  isTextName : ∀ dir, loc <+: dir → ∀ n ∈ fs.children dir, IsTextName n

variable {fs fs' : FileSystem} {dir : Path} {loc : Location} {name : Name}

namespace Discovery

variable {α : Type} {unit? : Entry → Option α}

/-! ### Names in the listed directory -/

/-- The units of a directory in the listed one: its own, and those of the names in it. -/
def gatheredBelow (unit? : Entry → Option α) (fs : FileSystem) (dir : Path) (loc : Location)
    (levels : Nat) (name : Name) : List α :=
  (unit? ⟨dir.join ⟨name⟩, name, [], 1, true⟩).toList
    ++ gathered unit? (Listing.itemsBelow fs levels 1 ⟨dir, loc⟩ [] name)

/-- A file has no unit in the listed directory itself. -/
def IgnoresTopFiles (unit? : Entry → Option α) : Prop :=
  ∀ path name parent, unit? ⟨path, name, parent, 1, false⟩ = none

/-- Only directories that are not hidden count in the listed one. -/
theorem gathered_items_top (hunit : IgnoresTopFiles unit?) {o : Object} (levels : Nat)
    (hfree : fs.LinkFree (loc ++ [name])) (ho : fs.get? (loc ++ [name]) = some o) :
    gathered unit? (Listing.items fs levels 1 [] ⟨dir, loc⟩ [] name)
      = if o = .directory ∧ ¬ Listing.isHidden name then
          gatheredBelow unit? fs dir loc levels name
        else [] := by
  cases o with
  | directory =>
    rw [Listing.items_of_directory ho]
    by_cases hn : Listing.isHidden name
    · simp [Listing.isKept, hn]
    · simp [Listing.isKept, hn, gathered_cons_ok, gatheredBelow]
  | file content =>
    rw [Listing.items_of_file ho]
    by_cases hn : Listing.isHidden name
    · simp [Listing.isKept, hn]
    · simp [Listing.isKept, hn, gathered_cons_ok, hunit _ _ _]
  | link t => exact absurd ho (hfree _ (List.prefix_refl _) t)

theorem mem_gathered_top_iff (hunit : IgnoresTopFiles unit?) {levels : Nat}
    (hfree : fs.LinkFree loc) (hname : name ∈ fs.children loc) {u : α} :
    u ∈ gathered unit? (Listing.items fs levels 1 [] ⟨dir, loc⟩ [] name) ↔
      fs.get? (loc ++ [name]) = some .directory ∧ ¬ Listing.isHidden name ∧
        u ∈ gatheredBelow unit? fs dir loc levels name := by
  obtain ⟨o, ho⟩ := FileSystem.mem_children_iff.mp hname
  rw [gathered_items_top hunit levels (hfree.below (List.prefix_append _ _)) ho, ho,
    Option.some.injEq]
  split_ifs with h
  · simp [h]
  · simp only [List.not_mem_nil, false_iff]
    rintro ⟨hd, hn, -⟩
    exact h ⟨hd, hn⟩

/-- Units in order below each name, and in order from name to name, are in order altogether. -/
theorem pairwise_gathered_top (hunit : IgnoresTopFiles unit?) {levels : Nat}
    (hfree : fs.LinkFree loc) {before : α → α → Prop}
    (hbelow : ∀ n, fs.get? (loc ++ [n]) = some .directory →
      (gatheredBelow unit? fs dir loc levels n).Pairwise before)
    (hlt : ∀ n m, fs.get? (loc ++ [n]) = some .directory →
      fs.get? (loc ++ [m]) = some .directory → n < m →
      ∀ u ∈ gatheredBelow unit? fs dir loc levels n,
        ∀ v ∈ gatheredBelow unit? fs dir loc levels m, before u v) :
    ((fs.children loc).flatMap fun n =>
      gathered unit? (Listing.items fs levels 1 [] ⟨dir, loc⟩ [] n)).Pairwise before := by
  rw [List.pairwise_flatMap]
  constructor
  · intro n hn
    obtain ⟨o, ho⟩ := FileSystem.mem_children_iff.mp hn
    rw [gathered_items_top hunit levels (hfree.below (List.prefix_append _ _)) ho]
    split_ifs with htop
    · exact hbelow n (htop.1 ▸ ho)
    · exact List.Pairwise.nil
  · refine (FileSystem.pairwise_children fs loc).imp_of_mem fun {n m} hn hm hnm u hu v hv => ?_
    obtain ⟨hget, -, hu⟩ := (mem_gathered_top_iff hunit hfree hn).mp hu
    obtain ⟨hget', -, hv⟩ := (mem_gathered_top_iff hunit hfree hm).mp hv
    exact hlt n m hget hget' hnm u hu v hv

theorem ignoresTopFiles_entityUnit? (dir : Path) : IgnoresTopFiles (entityUnit? dir) :=
  fun _ _ _ => rfl

theorem ignoresTopFiles_componentUnit? : IgnoresTopFiles componentUnit? :=
  fun _ _ _ => rfl

theorem gatheredBelow_entity (fs : FileSystem) (dir : Path) (loc : Location) (name : Name) :
    gatheredBelow (entityUnit? dir) fs dir loc 0 name = [.new dir (displayBytes name)] := rfl

/-! ### Names in a group -/

theorem jsonStem?_eq_some_iff {fileName stem : String} :
    jsonStem? fileName = some stem ↔ fileName = stem ++ ".json" ∧ '.' ∉ stem.toList := by
  rw [jsonStem?]
  constructor
  · intro h
    split_ifs at h with hjson
    obtain rfl := Option.some.inj h
    constructor
    · rw [← String.toList_inj, String.toList_append, String.toList_ofList, ← hjson,
        List.takeWhile_append_dropWhile]
    · intro hdot
      rw [String.toList_ofList] at hdot
      simpa using List.mem_takeWhile_imp hdot
  · rintro ⟨rfl, hstem⟩
    have hhead : ∀ d ∈ ".json".toList.head?, d = '.' := by simp [eq_comm]
    rw [String.toList_append, if_pos (dropWhile_ne_append hstem hhead),
      takeWhile_ne_append hstem hhead, String.ofList_toList]

theorem gathered_items_file {group : Name} {here : Listing.Ancestor}
    {outer : List Listing.Ancestor} {o : Object} (hfree : fs.LinkFree (here.location ++ [name]))
    (ho : fs.get? (here.location ++ [name]) = some o) :
    gathered componentUnit? (Listing.items fs 0 2 group here outer name)
      = if o = .directory then []
        else ((jsonStem? (displayBytes name)).map fun stem =>
          ⟨displayBytes group, stem, here.path.join ⟨name⟩⟩).toList := by
  cases o with
  | directory =>
    simp [Listing.items_of_directory ho, Listing.itemsBelow, Listing.isKept, gathered_cons_ok,
      componentUnit?]
  | file content =>
    simp [Listing.items_of_file ho, Listing.isKept, gathered_cons_ok, componentUnit?]
  | link t => exact absurd ho (hfree _ (List.prefix_refl _) t)

theorem mem_gathered_file_iff {group : Name} {here : Listing.Ancestor}
    {outer : List Listing.Ancestor} (hfree : fs.LinkFree here.location)
    (hname : name ∈ fs.children here.location) {u : ComponentUnit} :
    u ∈ gathered componentUnit? (Listing.items fs 0 2 group here outer name) ↔
      (∃ content, fs.get? (here.location ++ [name]) = some (.file content)) ∧
        ∃ stem, jsonStem? (displayBytes name) = some stem ∧
          u = ⟨displayBytes group, stem, here.path.join ⟨name⟩⟩ := by
  obtain ⟨o, ho⟩ := FileSystem.mem_children_iff.mp hname
  have hfree' := hfree.below (List.prefix_append _ [name])
  rw [gathered_items_file hfree' ho, ho]
  cases o with
  | directory => simp
  | file content => simp [eq_comm]
  | link t => exact absurd ho (hfree' _ (List.prefix_refl _) t)

end Discovery

/-! ### Names in UTF-8 -/

theorem isHidden_utf8_iff {s : String} : Listing.isHidden (utf8 s) ↔ s.toList.head? = some '.' := by
  rw [Listing.isHidden, decide_eq_true_eq]
  exact head?_utf8_iff (by decide) (by decide)

theorem utf8_displayBytes {n : Name} (h : IsTextName n) : utf8 (displayBytes n) = n := by
  obtain ⟨s, rfl⟩ := h
  rw [displayBytes_utf8]

/-- A text that is a name is not empty and has no slashes. -/
theorem FileSystem.IsName.of_utf8 {s : String} (h : IsName (utf8 s)) :
    s ≠ "" ∧ '/' ∉ s.toList := by
  constructor
  · rintro rfl
    exact h.ne_nil rfl
  · rw [← mem_utf8_iff (c := '/') (b := Path.slash) (by decide) (by decide)]
    exact h.noSlash

theorem bytes_ne_nil_of_find {r : Location × Object} (h : fs.find true dir = .ok r) :
    dir.bytes ≠ [] := by
  obtain ⟨stop, hwalk, -⟩ := FileSystem.exists_walk_of_find h
  exact (FileSystem.walk_eq_ok_iff.mp hwalk).2.1

theorem schemaPath_new {s : String} (hdir : dir.bytes ≠ []) (hs : FileSystem.IsName (utf8 s)) :
    (EntityUnit.new dir s).schemaPath
      = dir.below (s ++ "/content-types/" ++ s ++ "/schema.json") := by
  obtain ⟨hne, hslash⟩ := hs.of_utf8
  have hhead : s.toList.head? ≠ some '/' := fun h => hslash (List.mem_of_head? h)
  have hlast : s.toList.getLast? ≠ some '/' := fun h => hslash (List.mem_of_getLast? h)
  have hchars : s.toList ≠ [] := by simpa using hne
  rw [EntityUnit.new, Path.child_eq_below hdir hhead, Path.below_child hne hlast (by simp),
    Path.below_child (by simp) (by simp) hhead, Path.below_child (by simp) ?_ (by simp)]
  · simp [String.append_assoc]
  · rwa [String.toList_append, List.getLast?_append_of_ne_nil _ hchars]

theorem join_eq_below {group : String} (hdir : dir.bytes ≠ [])
    (hgroup : FileSystem.IsName (utf8 group)) : dir.join ⟨utf8 group⟩ = dir.below group :=
  Path.child_eq_below hdir fun h => hgroup.of_utf8.2 (List.mem_of_head? h)

theorem join_join_eq_below {group file : String} (hdir : dir.bytes ≠ [])
    (hgroup : FileSystem.IsName (utf8 group)) (hfile : FileSystem.IsName (utf8 file)) :
    (dir.join ⟨utf8 group⟩).join ⟨utf8 file⟩ = dir.below (group ++ "/" ++ file) := by
  obtain ⟨hne, hslash⟩ := hgroup.of_utf8
  obtain ⟨-, hslash'⟩ := hfile.of_utf8
  rw [join_eq_below hdir hgroup, ← Path.below_child hne (fun h => hslash (List.mem_of_getLast? h))
    fun h => hslash' (List.mem_of_head? h)]
  rfl

/-! ### What is found, exactly -/

/-- An entity stands for a directory that is not hidden, and has its schema in the usual place
below it. -/
structure EntityUnit.StandsIn (u : EntityUnit) (fs : FileSystem) (dir : Path) (loc : Location) :
    Prop where
  directory : fs.get? (loc ++ [utf8 u.name]) = some .directory
  visible : u.name.toList.head? ≠ some '.'
  schemaPath : u.schemaPath
    = dir.below (u.name ++ "/content-types/" ++ u.name ++ "/schema.json")

/-- A component stands for a file right below a directory that is not hidden and has a path that
can be opened; its name has one point, in front of `json`. -/
structure ComponentUnit.StandsIn (u : ComponentUnit) (fs : FileSystem) (dir : Path)
    (loc : Location) : Prop where
  group : fs.get? (loc ++ [utf8 u.group]) = some .directory
  visible : u.group.toList.head? ≠ some '.'
  fits : (dir.below u.group).bytes.length ≤ FileSystem.pathLimit
  file : ∃ content,
    fs.get? (loc ++ [utf8 u.group, utf8 (u.stem ++ ".json")]) = some (.file content)
  dotFree : '.' ∉ u.stem.toList
  path : u.path = dir.below (u.group ++ "/" ++ u.stem ++ ".json")

/-- Components come in the order of their groups, those of one group in the order of their file
names. -/
def ComponentUnit.place (u : ComponentUnit) : Name ×ₗ Name :=
  toLex (utf8 u.group, utf8 (u.stem ++ ".json"))

namespace Discovery

theorem mem_gathered_entity_iff_standsIn (hdir : dir.bytes ≠ []) (htree : fs.IsPlainTree loc)
    {u : EntityUnit} :
    (u ∈ (fs.children loc).flatMap fun n =>
        gathered (entityUnit? dir) (Listing.items fs 0 1 [] ⟨dir, loc⟩ [] n)) ↔
      u.StandsIn fs dir loc := by
  rw [List.mem_flatMap]
  constructor
  · rintro ⟨n, hn, hu⟩
    obtain ⟨s, rfl⟩ := htree.isTextName loc (List.prefix_refl _) n hn
    obtain ⟨hget, hvisible, hu⟩ :=
      (mem_gathered_top_iff (ignoresTopFiles_entityUnit? dir) htree.linkFree hn).mp hu
    rw [gatheredBelow_entity, List.mem_singleton, displayBytes_utf8] at hu
    rw [isHidden_utf8_iff] at hvisible
    rw [hu]
    exact ⟨hget, hvisible, schemaPath_new hdir (FileSystem.parent hget).2⟩
  · intro hu
    have hn : utf8 u.name ∈ fs.children loc := FileSystem.mem_children_iff.mpr ⟨_, hu.directory⟩
    refine ⟨utf8 u.name, hn,
      (mem_gathered_top_iff (ignoresTopFiles_entityUnit? dir) htree.linkFree hn).mpr
        ⟨hu.directory, isHidden_utf8_iff.not.mpr hu.visible, ?_⟩⟩
    rw [gatheredBelow_entity, List.mem_singleton, displayBytes_utf8]
    calc
      u = ⟨u.name, u.schemaPath⟩ := rfl
      _ = .new dir u.name := by
        rw [hu.schemaPath, ← schemaPath_new hdir (FileSystem.parent hu.directory).2]
        rfl

theorem pairwise_entities (dir : Path) (htree : fs.IsPlainTree loc) :
    ((fs.children loc).flatMap fun n =>
      gathered (entityUnit? dir) (Listing.items fs 0 1 [] ⟨dir, loc⟩ [] n)).Pairwise
        fun u v => utf8 u.name < utf8 v.name := by
  have hname {n : Name} (hget : fs.get? (loc ++ [n]) = some .directory) :
      utf8 (displayBytes n) = n :=
    utf8_displayBytes (htree.isTextName loc (List.prefix_refl _) n
      (FileSystem.mem_children_iff.mpr ⟨_, hget⟩))
  apply pairwise_gathered_top (ignoresTopFiles_entityUnit? dir) htree.linkFree
  · intro n _
    rw [gatheredBelow_entity]
    exact List.pairwise_singleton _ _
  · intro n m hn hm hnm u hu v hv
    rw [gatheredBelow_entity, List.mem_singleton] at hu hv
    rw [hu, hv]
    change utf8 (displayBytes n) < utf8 (displayBytes m)
    rwa [hname hn, hname hm]

/-! ### Components, exactly -/

variable {group : Name}

/-- A unit of a group and its file name give back the names that it stands for. -/
theorem place_of_mem (htree : fs.IsPlainTree loc)
    (hgroup : fs.get? (loc ++ [group]) = some .directory)
    (hname : name ∈ fs.children (loc ++ [group])) {u : ComponentUnit}
    (hu : u ∈ gathered componentUnit? (Listing.items fs 0 2 group
      ⟨dir.join ⟨group⟩, loc ++ [group]⟩ [⟨dir, loc⟩] name)) : u.place = toLex (group, name) := by
  have hfree := htree.linkFree.below (List.prefix_append _ [group])
  have hmem := FileSystem.mem_children_iff.mpr ⟨_, hgroup⟩
  obtain ⟨-, stem, hstem, rfl⟩ := (mem_gathered_file_iff hfree hname).mp hu
  rw [ComponentUnit.place, ← (jsonStem?_eq_some_iff.mp hstem).1,
    utf8_displayBytes (htree.isTextName loc (List.prefix_refl _) group hmem),
    utf8_displayBytes (htree.isTextName _ (List.prefix_append _ _) name hname)]

section
variable (hdir : fs.find true dir = .ok (loc, .directory))
include hdir

/-- A group has the units of the names in it, unless its path is too long. -/
theorem gatheredBelow_component (hgroup : fs.get? (loc ++ [group]) = some .directory) :
    gatheredBelow componentUnit? fs dir loc 1 group
      = if FileSystem.pathLimit < (dir.join ⟨group⟩).bytes.length then []
        else (fs.children (loc ++ [group])).flatMap fun n =>
          gathered componentUnit? (Listing.items fs 0 2 group ⟨dir.join ⟨group⟩, loc ++ [group]⟩
            [⟨dir, loc⟩] n) := by
  have hopen : Listing.Ancestor.IsOpen fs ⟨dir, loc⟩ := hdir
  rw [gatheredBelow, Listing.itemsBelow_succ hopen hgroup]
  split_ifs
  · rfl
  · rw [gathered_entries]
    rfl

theorem mem_gatheredBelow_component_iff (hgroup : fs.get? (loc ++ [group]) = some .directory)
    {u : ComponentUnit} : u ∈ gatheredBelow componentUnit? fs dir loc 1 group ↔
      (dir.join ⟨group⟩).bytes.length ≤ FileSystem.pathLimit ∧
        ∃ n ∈ fs.children (loc ++ [group]), u ∈ gathered componentUnit? (Listing.items fs 0 2 group
          ⟨dir.join ⟨group⟩, loc ++ [group]⟩ [⟨dir, loc⟩] n) := by
  rw [gatheredBelow_component hdir hgroup]
  split_ifs with hlimit
  · simp [hlimit]
  · rw [List.mem_flatMap, and_iff_right (Nat.le_of_not_lt hlimit)]

theorem pairwise_gatheredBelow (htree : fs.IsPlainTree loc)
    (hgroup : fs.get? (loc ++ [group]) = some .directory) :
    (gatheredBelow componentUnit? fs dir loc 1 group).Pairwise fun u v => u.place < v.place := by
  rw [gatheredBelow_component hdir hgroup]
  split_ifs
  · exact List.Pairwise.nil
  rw [List.pairwise_flatMap]
  constructor
  · intro n hn
    obtain ⟨o, ho⟩ := FileSystem.mem_children_iff.mp hn
    have hfree := (htree.linkFree.below (List.prefix_append _ [group])).below
      (List.prefix_append _ [n])
    rw [gathered_items_file hfree ho]
    split_ifs
    · exact List.Pairwise.nil
    · cases jsonStem? (displayBytes n) with
      | none => exact List.Pairwise.nil
      | some stem => exact List.pairwise_singleton _ _
  · refine (FileSystem.pairwise_children fs _).imp_of_mem fun {a b} ha hb hab u hu v hv => ?_
    rw [place_of_mem htree hgroup ha hu, place_of_mem htree hgroup hb hv]
    exact Prod.Lex.toLex_lt_toLex.mpr (.inr ⟨rfl, hab⟩)

theorem pairwise_components (htree : fs.IsPlainTree loc) :
    ((fs.children loc).flatMap fun n =>
      gathered componentUnit? (Listing.items fs 1 1 [] ⟨dir, loc⟩ [] n)).Pairwise
        fun u v => u.place < v.place := by
  have hplace : ∀ g, fs.get? (loc ++ [g]) = some .directory →
      ∀ u ∈ gatheredBelow componentUnit? fs dir loc 1 g, ∃ n, u.place = toLex (g, n) := by
    intro g hg u hu
    obtain ⟨-, n, hn, hu⟩ := (mem_gatheredBelow_component_iff hdir hg).mp hu
    exact ⟨n, place_of_mem htree hg hn hu⟩
  apply pairwise_gathered_top ignoresTopFiles_componentUnit? htree.linkFree
  · exact fun g hg => pairwise_gatheredBelow hdir htree hg
  · intro a b ha hb hab u hu v hv
    obtain ⟨n, hn⟩ := hplace a ha u hu
    obtain ⟨m, hm⟩ := hplace b hb v hv
    rw [hn, hm]
    exact Prod.Lex.toLex_lt_toLex.mpr (.inl hab)

theorem mem_components_iff_standsIn (htree : fs.IsPlainTree loc) {u : ComponentUnit} :
    (u ∈ (fs.children loc).flatMap fun n =>
        gathered componentUnit? (Listing.items fs 1 1 [] ⟨dir, loc⟩ [] n)) ↔
      u.StandsIn fs dir loc := by
  have hbytes := bytes_ne_nil_of_find hdir
  rw [List.mem_flatMap]
  constructor
  · rintro ⟨g, hg, hu⟩
    obtain ⟨hget, hvisible, hmem⟩ :=
      (mem_gathered_top_iff ignoresTopFiles_componentUnit? htree.linkFree hg).mp hu
    obtain ⟨hfits, n, hn, hu⟩ := (mem_gatheredBelow_component_iff hdir hget).mp hmem
    have hfree := htree.linkFree.below (List.prefix_append _ [g])
    obtain ⟨s, rfl⟩ := htree.isTextName loc (List.prefix_refl _) g hg
    obtain ⟨t, rfl⟩ := htree.isTextName _ (List.prefix_append _ _) n hn
    obtain ⟨⟨content, hcontent⟩, stem, hstem, rfl⟩ := (mem_gathered_file_iff hfree hn).mp hu
    have hgroup := (FileSystem.parent hget).2
    have hfile := (FileSystem.parent hcontent).2
    rw [displayBytes_utf8] at hstem
    obtain ⟨rfl, hdot⟩ := jsonStem?_eq_some_iff.mp hstem
    rw [isHidden_utf8_iff] at hvisible
    rw [displayBytes_utf8, join_join_eq_below hbytes hgroup hfile]
    rw [join_eq_below hbytes hgroup] at hfits
    rw [List.append_assoc] at hcontent
    exact ⟨hget, hvisible, hfits, ⟨content, hcontent⟩, hdot, by simp [String.append_assoc]⟩
  · intro hu
    obtain ⟨content, hcontent⟩ := hu.file
    rw [List.append_cons] at hcontent
    have hg : utf8 u.group ∈ fs.children loc := FileSystem.mem_children_iff.mpr ⟨_, hu.group⟩
    have hn : utf8 (u.stem ++ ".json") ∈ fs.children (loc ++ [utf8 u.group]) :=
      FileSystem.mem_children_iff.mpr ⟨_, hcontent⟩
    have hgroup := (FileSystem.parent hu.group).2
    have hfile := (FileSystem.parent hcontent).2
    have hfree := htree.linkFree.below (List.prefix_append _ [utf8 u.group])
    refine ⟨_, hg,
      (mem_gathered_top_iff ignoresTopFiles_componentUnit? htree.linkFree hg).mpr
        ⟨hu.group, isHidden_utf8_iff.not.mpr hu.visible, ?_⟩⟩
    refine (mem_gatheredBelow_component_iff hdir hu.group).mpr ⟨?_, _, hn,
      (mem_gathered_file_iff hfree hn).mpr ⟨⟨content, hcontent⟩, u.stem, ?_, ?_⟩⟩
    · rw [join_eq_below hbytes hgroup]
      exact hu.fits
    · rw [displayBytes_utf8]
      exact jsonStem?_eq_some_iff.mpr ⟨rfl, hu.dotFree⟩
    · rw [displayBytes_utf8, join_join_eq_below hbytes hgroup hfile, ← String.append_assoc,
        ← hu.path]

end

end Discovery

/-- In a tree without links and with names in UTF-8 only, the entities of a schema directory that
is there are the directories in it that are not hidden, and its components the files
`<group>/<stem>.json` in those directories, each exactly once and in the order of the bytes of their
names. There is nothing to report but the groups that cannot be opened because their paths are too
long, each once and in the same order. -/
theorem discovery_exact (hdir : fs.find true dir = .ok (loc, .directory))
    (htree : fs.IsPlainTree loc) :
    (∃ units, discoverEntities fs dir = .ok ⟨units, []⟩ ∧
      (units.Pairwise fun u v => utf8 u.name < utf8 v.name) ∧
      ∀ u, u ∈ units ↔ u.StandsIn fs dir loc) ∧
    ∃ units, discoverComponents fs dir
        = .ok ⟨units, (Discovery.overlongGroups fs dir loc).map fun g =>
            Discovery.overlong .component (dir.join ⟨g⟩)⟩ ∧
      (units.Pairwise fun u v => u.place < v.place) ∧
      ∀ u, u ∈ units ↔ u.StandsIn fs dir loc := by
  have hbytes := bytes_ne_nil_of_find hdir
  constructor
  · exact ⟨_, discoverEntities_of_linkFree hdir htree.linkFree,
      Discovery.pairwise_entities dir htree,
      fun _ => Discovery.mem_gathered_entity_iff_standsIn hbytes htree⟩
  · exact ⟨_, discoverComponents_of_linkFree hdir htree.linkFree,
      Discovery.pairwise_components hdir htree,
      fun _ => Discovery.mem_components_iff_standsIn hdir htree⟩

/-! ### A tree with hidden and with unfit names -/

/-- A file system without links, and with names in UTF-8 only, is a plain tree everywhere. -/
theorem FileSystem.isPlainTree_of_objects
    (h : ∀ e ∈ fs.objects, (∀ t, e.2 ≠ .link t) ∧ ∀ n ∈ e.1, IsTextName n) (loc : Location) :
    fs.IsPlainTree loc where
  linkFree := linkFree_of_objects (fun e he => (h e he).1) loc
  isTextName := by
    intro l _ n hn
    obtain ⟨o, ho⟩ := FileSystem.mem_children_iff.mp hn
    rw [FileSystem.get?, FileSystem.objectAt, if_neg (by simp)] at ho
    exact (h _ (Table.mem_of_get? ho)).2 n (by simp)

/-- Two directories, one of them hidden, and two files, one with a second point in its name. -/
def FileSystem.twoHeroes : FileSystem :=
  ofObjects
    [([utf8 "api"], .directory), ([utf8 "api", utf8 ".git"], .directory),
      ([utf8 "api", utf8 "post"], .directory),
      ([utf8 "api", utf8 "post", utf8 "hero.json"], .file .empty),
      ([utf8 "api", utf8 "post", utf8 "hero.old.json"], .file .empty)]
    (by decide) (by decide)

theorem isPlainTree_twoHeroes (loc : Location) : FileSystem.twoHeroes.IsPlainTree loc := by
  apply FileSystem.isPlainTree_of_objects
  simp [FileSystem.twoHeroes, FileSystem.ofObjects, IsTextName]

/-- By a short path every group can be opened. -/
theorem overlongGroups_twoHeroes :
    Discovery.overlongGroups .twoHeroes (.ofString "/api") [utf8 "api"] = [] := by
  cbv

theorem discovery_twoHeroes :
    FileSystem.twoHeroes.find true (.ofString "/api") = .ok ([utf8 "api"], .directory) ∧
      FileSystem.twoHeroes.IsPlainTree [utf8 "api"] ∧
      (∃ units, discoverEntities .twoHeroes (.ofString "/api") = .ok ⟨units, []⟩ ∧
        ⟨"post", .ofString "/api/post/content-types/post/schema.json"⟩ ∈ units ∧
        ∀ u ∈ units, u.name ≠ ".git") ∧
      ∃ units, discoverComponents .twoHeroes (.ofString "/api") = .ok ⟨units, []⟩ ∧
        ⟨"post", "hero", .ofString "/api/post/hero.json"⟩ ∈ units ∧
        ∀ u ∈ units, u.stem ≠ "hero.old" := by
  have hdir : FileSystem.twoHeroes.find true (.ofString "/api")
      = .ok ([utf8 "api"], .directory) := by
    cbv
  have htree := isPlainTree_twoHeroes [utf8 "api"]
  obtain ⟨⟨entities, hentities, -, hentity⟩, components, hcomponents, -, hcomponent⟩ :=
    discovery_exact hdir htree
  rw [overlongGroups_twoHeroes, List.map_nil] at hcomponents
  refine ⟨hdir, htree, ⟨entities, hentities, (hentity _).mpr ?_, ?_⟩, components, hcomponents,
    (hcomponent _).mpr ?_, ?_⟩
  · exact ⟨by decide, by decide, by decide⟩
  · intro u hu hname
    exact ((hentity u).mp hu).visible (by simp [hname])
  · exact ⟨by decide, by decide, by decide, ⟨.empty, by decide⟩, by decide, by decide⟩
  · intro u hu hstem
    exact ((hcomponent u).mp hu).dotFree (by simp [hstem])

/-! ### The same tree by a long path -/

/-- The directory with as many slashes behind it as a path can have. -/
def longApi : Path :=
  ⟨utf8 "/api" ++ List.replicate 4091 Path.slash⟩

theorem length_bytes_longApi : longApi.bytes.length = FileSystem.pathLimit := by
  rw [longApi, List.length_append, List.length_replicate]
  rfl

/-- No name has room behind it. -/
theorem pathLimit_lt_join_longApi {n : Name} (hn : FileSystem.IsName n) :
    FileSystem.pathLimit < (longApi.join ⟨n⟩).bytes.length := by
  have hslash : longApi.bytes.getLast? = some Path.slash := by
    rw [longApi, List.getLast?_append, List.getLast?_replicate]
    rfl
  rw [Path.join, if_neg (Path.not_isAbsolute_of_notMem hn.noSlash), if_pos (.inr hslash),
    List.length_append, length_bytes_longApi]
  exact Nat.lt_add_of_pos_right (List.length_pos_iff.mpr hn.ne_nil)

theorem find_longApi :
    FileSystem.twoHeroes.find true longApi = .ok ([utf8 "api"], .directory) := by
  have hdir : FileSystem.twoHeroes.find true (.ofString "/api")
      = .ok ([utf8 "api"], .directory) := by
    cbv
  exact FileSystem.find_append_slashes hdir (by decide)

/-- The group of the hero cannot be opened, so it is reported and the hero is not found. -/
theorem longApi_reported :
    FileSystem.twoHeroes.find true longApi = .ok ([utf8 "api"], .directory) ∧
      FileSystem.twoHeroes.IsPlainTree [utf8 "api"] ∧
      FileSystem.twoHeroes.get? [utf8 "api", utf8 "post", utf8 "hero.json"]
        = some (.file .empty) ∧
      discoverComponents .twoHeroes longApi
        = .ok ⟨[], [Discovery.overlong .component (longApi.join ⟨utf8 "post"⟩)]⟩ := by
  have htree := isPlainTree_twoHeroes [utf8 "api"]
  refine ⟨find_longApi, htree, by decide, ?_⟩
  have hchildren : FileSystem.twoHeroes.children [utf8 "api"] = [utf8 ".git", utf8 "post"] := by
    cbv
  have hhidden : Listing.isHidden (utf8 ".git") := by decide
  have hpost : FileSystem.twoHeroes.get? ([utf8 "api"] ++ [utf8 "post"]) = some .directory := by
    decide
  have hvisible : ¬ Listing.isHidden (utf8 "post") := by decide
  have hgroups : Discovery.overlongGroups .twoHeroes longApi [utf8 "api"] = [utf8 "post"] := by
    have hlong := pathLimit_lt_join_longApi (FileSystem.parent hpost).2
    rw [Discovery.overlongGroups, hchildren]
    simp only [List.filter_cons, hhidden, hpost, hvisible, hlong, List.filter_nil]
    rfl
  have hunits : (FileSystem.twoHeroes.children [utf8 "api"]).flatMap (fun n =>
      Discovery.gathered Discovery.componentUnit?
        (Listing.items .twoHeroes 1 1 [] ⟨longApi, [utf8 "api"]⟩ [] n)) = [] := by
    rw [List.eq_nil_iff_forall_not_mem]
    intro u hu
    have hstands := (Discovery.mem_components_iff_standsIn find_longApi htree).mp hu
    have hname := (FileSystem.parent hstands.group).2
    have hlong := pathLimit_lt_join_longApi hname
    rw [join_eq_below (bytes_ne_nil_of_find find_longApi) hname] at hlong
    exact absurd hstands.fits (Nat.not_le.mpr hlong)
  rw [discoverComponents_of_linkFree find_longApi htree.linkFree, hunits, hgroups]
  rfl

end ContentTypes
