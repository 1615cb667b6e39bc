import ContentTypes.Path
import ContentTypes.Table
/-!
File systems as values. Every directory, file and symbolic link stands at a location, the list
of names that leads to it from the root, which is a directory and needs no entry; and it stands
there in a directory, so that there are no file systems with holes. There are no hard links, so two
paths lead to the same thing exactly if they resolve to the same location, and no permissions, so
whatever is there can be read and written.
-/

namespace ContentTypes

abbrev Name := List UInt8

abbrev Location := List Name

-- Contents are compared as core does it, whatever other instance is in scope.
instance (priority := high) contentDecidableEq : DecidableEq ByteArray :=
  ByteArray.instDecidableEq

inductive Object where
  | directory
  | file (content : ByteArray)
  | link (target : Path)
  deriving DecidableEq

/-- A link has a target that can be followed. -/
def Object.IsSound : Object → Prop
  | .link target => target.bytes ≠ [] ∧ 0 ∉ target.bytes
  | _ => True

instance : DecidablePred Object.IsSound
  | .directory => isTrue trivial
  | .file _ => isTrue trivial
  | .link _ => inferInstanceAs (Decidable (_ ∧ _))

namespace FileSystem

def nameLimit : Nat := 255

def dots : Name := [Path.dot, Path.dot]

/-- Something in a directory can have this name. -/
structure IsName (n : Name) : Prop where
  ne_nil : n ≠ []
  ne_dot : n ≠ [Path.dot]
  ne_dots : n ≠ dots
  noSlash : Path.slash ∉ n
  noZero : 0 ∉ n
  length_le : n.length ≤ nameLimit

instance : DecidablePred IsName := fun n =>
  decidable_of_iff (n ≠ [] ∧ n ≠ [Path.dot] ∧ n ≠ dots ∧ Path.slash ∉ n ∧ 0 ∉ n ∧
      n.length ≤ nameLimit)
    ⟨fun ⟨h1, h2, h3, h4, h5, h6⟩ => ⟨h1, h2, h3, h4, h5, h6⟩,
      fun ⟨h1, h2, h3, h4, h5, h6⟩ => ⟨h1, h2, h3, h4, h5, h6⟩⟩

def objectAt (objects : List (Location × Object)) (loc : Location) : Option Object :=
  if loc = [] then some .directory else Table.get? loc objects

/-- A location is a name in a directory. -/
def IsPlace (objects : List (Location × Object)) (loc : Location) : Prop :=
  objectAt objects loc.dropLast = some .directory ∧
    (loc.getLast?.any fun n => decide (IsName n)) = true

instance (objects : List (Location × Object)) (loc : Location) : Decidable (IsPlace objects loc) :=
  inferInstanceAs (Decidable (_ ∧ _))

theorem isPlace_append_iff {objects : List (Location × Object)} {dir : Location} {n : Name} :
    IsPlace objects (dir ++ [n]) ↔ objectAt objects dir = some .directory ∧ IsName n := by
  simp [IsPlace]

theorem IsPlace.ne_nil {objects : List (Location × Object)} {loc : Location}
    (h : IsPlace objects loc) : loc ≠ [] := by
  rintro rfl
  simp [IsPlace] at h

theorem IsPlace.mono {objects objects' : List (Location × Object)} {loc : Location}
    (h : IsPlace objects loc) (hstays : ∀ l, objectAt objects l = some .directory →
      objectAt objects' l = some .directory) : IsPlace objects' loc :=
  ⟨hstays _ h.1, h.2⟩

end FileSystem

structure FileSystem where
  objects : List (Location × Object)
  /-- Where relative paths start. A directory on the way that has been removed keeps its place, but
  under the empty name, which nothing else can have. -/
  workingDirectory : Location
  distinct : (Table.keys objects).Nodup
  placed : ∀ e ∈ objects, FileSystem.IsPlace objects e.1
  sound : ∀ e ∈ objects, e.2.IsSound
  working : FileSystem.objectAt objects workingDirectory = some .directory ∨ [] ∈ workingDirectory

/-- Why an operation on files fails. -/
inductive OsError where
  | notFound
  | alreadyExists
  | notDirectory
  | isDirectory
  | nameTooLong
  | tooManyLinks
  /-- A path holds the byte zero, which no name can hold. -/
  | zeroByte
  deriving DecidableEq, Repr

def OsError.message : OsError → String
  | .notFound => "No such file or directory (os error 2)"
  | .alreadyExists => "File exists (os error 17)"
  | .notDirectory => "Not a directory (os error 20)"
  | .isDirectory => "Is a directory (os error 21)"
  | .nameTooLong => "File name too long (os error 36)"
  | .tooManyLinks => "Too many levels of symbolic links (os error 40)"
  | .zeroByte => "file name contained an unexpected NUL byte"

namespace FileSystem

/-- These objects, seen from the root. -/
def ofObjects (objects : List (Location × Object)) (distinct : (Table.keys objects).Nodup)
    (fit : ∀ e ∈ objects, IsPlace objects e.1 ∧ e.2.IsSound) : FileSystem :=
  ⟨objects, [], distinct, fun e he => (fit e he).1, fun e he => (fit e he).2, .inl rfl⟩

/-- Nothing but the root. -/
def empty : FileSystem :=
  ofObjects [] List.nodup_nil (by simp)

/-- Nothing but the root, seen from a directory that has been removed. -/
def stranded : FileSystem :=
  ⟨[], [[]], List.nodup_nil, by simp, by simp, .inr List.mem_cons_self⟩

def get? (fs : FileSystem) (loc : Location) : Option Object :=
  objectAt fs.objects loc

/-- Everything but the root stands in a directory, under a name. -/
theorem parent {fs : FileSystem} {dir : Location} {n : Name} {o : Object}
    (h : fs.get? (dir ++ [n]) = some o) : fs.get? dir = some .directory ∧ IsName n := by
  rw [get?, objectAt, if_neg (by simp)] at h
  exact isPlace_append_iff.1 (fs.placed _ (Table.mem_of_get? h))

/-- The same from another working directory. -/
def enter (fs : FileSystem) (dir : Location) (h : fs.get? dir = some .directory) : FileSystem :=
  { fs with
    workingDirectory := dir
    working := .inl h }

/-- The working directory as an absolute path, if it has not been removed. -/
def workingPath (fs : FileSystem) : Except OsError Path :=
  if fs.get? fs.workingDirectory = some .directory then
    match fs.workingDirectory with
    | [] => .ok ⟨[Path.slash]⟩
    | names => .ok ⟨names.flatMap fun n => Path.slash :: n⟩
  else .error .notFound

/-- An object can come to a location: into a directory, and not in the place of another one. -/
structure Admits (fs : FileSystem) (loc : Location) (o : Object) : Prop where
  isPlace : IsPlace fs.objects loc
  isSound : o.IsSound
  keeps : fs.get? loc = some .directory → o = .directory

instance (fs : FileSystem) (loc : Location) (o : Object) : Decidable (fs.Admits loc o) :=
  decidable_of_iff
    (IsPlace fs.objects loc ∧ o.IsSound ∧ (fs.get? loc = some .directory → o = .directory))
    ⟨fun ⟨h1, h2, h3⟩ => ⟨h1, h2, h3⟩, fun ⟨h1, h2, h3⟩ => ⟨h1, h2, h3⟩⟩

theorem objectAt_put {objects : List (Location × Object)} {loc : Location} (h : loc ≠ [])
    (o : Object) (l : Location) :
    objectAt (Table.put loc o objects) l = if l = loc then some o else objectAt objects l := by
  rw [objectAt, objectAt]
  split
  · next hl => rw [if_neg (by rw [hl]; exact h.symm)]
  · split
    · next heq => rw [heq, Table.get?_put_self]
    · next hne => rw [Table.get?_put_of_ne hne]

/-- A directory stays one. -/
theorem Admits.directory {fs : FileSystem} {loc : Location} {o : Object} (h : fs.Admits loc o)
    {l : Location} (hl : fs.get? l = some .directory) :
    objectAt (Table.put loc o fs.objects) l = some .directory := by
  rw [objectAt_put h.isPlace.ne_nil]
  split
  · next heq => rw [h.keeps (heq ▸ hl)]
  · exact hl

def put (fs : FileSystem) (loc : Location) (o : Object) (h : fs.Admits loc o) : FileSystem where
  objects := Table.put loc o fs.objects
  workingDirectory := fs.workingDirectory
  distinct := Table.nodup_keys_put fs.distinct o
  placed := by
    intro e he
    rcases Table.mem_of_mem_put fs.distinct he with he | rfl
    · exact (fs.placed e he).mono fun _ => h.directory
    · exact h.isPlace.mono fun _ => h.directory
  sound := by
    intro e he
    rcases Table.mem_of_mem_put fs.distinct he with he | rfl
    · exact fs.sound e he
    · exact h.isSound
  working := fs.working.imp_left h.directory

theorem get?_put {fs : FileSystem} {loc : Location} {o : Object} (h : fs.Admits loc o)
    (l : Location) : (fs.put loc o h).get? l = if l = loc then some o else fs.get? l :=
  objectAt_put h.isPlace.ne_nil o l

theorem get?_put_self {fs : FileSystem} {loc : Location} {o : Object} (h : fs.Admits loc o) :
    (fs.put loc o h).get? loc = some o := by
  rw [get?_put, if_pos rfl]

theorem get?_put_of_ne {fs : FileSystem} {loc l : Location} {o : Object} (h : fs.Admits loc o)
    (hne : l ≠ loc) : (fs.put loc o h).get? l = fs.get? l := by
  rw [get?_put, if_neg hne]

/-- Puts an object at a location, if there is a directory for it. -/
def place (fs : FileSystem) (loc : Location) (o : Object) : Except OsError FileSystem :=
  if h : fs.Admits loc o then .ok (fs.put loc o h) else .error .notFound

theorem place_eq_ok_iff {fs fs' : FileSystem} {loc : Location} {o : Object} :
    fs.place loc o = .ok fs' ↔ ∃ h, fs' = fs.put loc o h := by
  rw [place]
  split
  · next h =>
    simp only [Except.ok.injEq]
    exact ⟨fun heq => ⟨h, heq.symm⟩, fun ⟨_, heq⟩ => heq.symm⟩
  · next h => exact ⟨nofun, fun ⟨h', _⟩ => absurd h' h⟩

/-- The name of `loc` in the directory `dir`, if it stands directly in there. -/
def nameIn? (dir loc : Location) : Option Name :=
  if loc.dropLast = dir then loc.getLast? else none

theorem nameIn?_eq_some_iff {dir loc : Location} {n : Name} :
    nameIn? dir loc = some n ↔ loc = dir ++ [n] := by
  unfold nameIn?
  constructor
  · intro h
    split at h
    · next hd =>
      obtain ⟨l, rfl⟩ := List.getLast?_eq_some_iff.1 h
      simpa using hd
    · simp at h
  · rintro rfl
    simp

/-- The names in a directory, in the order of their bytes. -/
def children (fs : FileSystem) (dir : Location) : List Name :=
  (fs.objects.filterMap fun e => nameIn? dir e.1).mergeSort fun a b => decide (a ≤ b)

theorem mem_children_iff {fs : FileSystem} {dir : Location} {n : Name} :
    n ∈ fs.children dir ↔ ∃ o, fs.get? (dir ++ [n]) = some o := by
  simp only [children, List.mem_mergeSort, List.mem_filterMap, nameIn?_eq_some_iff, get?, objectAt,
    List.append_eq_nil_iff, List.cons_ne_self, and_false, if_false, ← Table.mem_keys_iff,
    Table.keys, List.mem_map]

end FileSystem
end ContentTypes
