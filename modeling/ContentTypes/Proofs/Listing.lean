import ContentTypes.Discovery
import ContentTypes.Proofs.FileSystem.Directories
import Mathlib
/-!
What a listing shows, name by name. In a tree without links every name is shown as an entry, and it
is shown in the same way as long as nothing changes below it. So one more name in the listed
directory adds what is shown for it, in its place among the others, and changes nothing else.
-/

namespace ContentTypes

/-- No link stands at a location or below it. -/
def FileSystem.LinkFree (fs : FileSystem) (loc : Location) : Prop :=
  ∀ l, loc <+: l → ∀ t, fs.get? l ≠ some (.link t)

/-- Where no object is a link, no link stands anywhere. -/
theorem FileSystem.linkFree_of_objects {fs : FileSystem} (h : ∀ e ∈ fs.objects, ∀ t, e.2 ≠ .link t)
    (loc : Location) : fs.LinkFree loc := by
  intro l _ t hlink
  rw [get?, objectAt] at hlink
  split_ifs at hlink
  · cases hlink
  · exact h _ (Table.mem_of_get? hlink) t rfl

theorem FileSystem.LinkFree.below {fs : FileSystem} {loc l : Location} (h : fs.LinkFree loc)
    (hl : loc <+: l) : fs.LinkFree l :=
  fun _ hl' => h _ (hl.trans hl')

namespace Listing

variable {fs fs' : FileSystem} {ancestors : List Ancestor} {path : Path} {loc : Location}

/-- The path of a listed directory leads to its location. -/
def Ancestor.IsOpen (fs : FileSystem) (a : Ancestor) : Prop :=
  fs.find true a.path = .ok (a.location, .directory)

theorem Ancestor.IsOpen.of_extends {a : Ancestor} (h : a.IsOpen fs) (hextends : fs.Extends fs') :
    a.IsOpen fs' :=
  FileSystem.find_of_extends hextends h

/-- A directory in an open one is open unless its path is too long. -/
theorem Ancestor.IsOpen.below {a : Ancestor} {n : Name} (h : a.IsOpen fs)
    (hget : fs.get? (a.location ++ [n]) = some .directory)
    (hfits : ¬ FileSystem.pathLimit < (a.path.join ⟨n⟩).bytes.length) :
    Ancestor.IsOpen fs ⟨a.path.join ⟨n⟩, a.location ++ [n]⟩ := by
  rw [IsOpen, FileSystem.find_join_directory h hget, if_neg hfits]

/-! ### What a name stands for -/

theorem path_of_follow_error {e : ListError} (h : follow fs ancestors path loc = .error e) :
    e.path = path := by
  rw [follow] at h
  split at h
  · cases h
  · cases h
  · cases h
    rfl
  · split at h
    · cases h
      rfl
    · split at h
      · cases h
        rfl
      · cases h
    · cases h

theorem follow_congr (h : fs.LinkFree loc) (hsame : fs'.get? loc = fs.get? loc) :
    follow fs' ancestors path loc = follow fs ancestors path loc := by
  rw [follow, follow, hsame]
  cases ho : fs.get? loc with
  | none => rfl
  | some o =>
    cases o with
    | directory => rfl
    | file content => rfl
    | link t => exact absurd ho (h loc (List.prefix_refl _) t)

/-! ### Items of a name -/

section
variable (fs : FileSystem) (levels depth : Nat) (parent : Name) (here : Ancestor)
  (outer : List Ancestor)

/-- What is listed below a directory in the innermost ancestor. -/
def itemsBelow (name : Name) : List (Except ListError Entry) :=
  let path := here.path.join ⟨name⟩
  match levels with
  | 0 => []
  | levels + 1 =>
    match fs.directoryAt path with
    | .error e => [.error (.os path e)]
    | .ok loc => entries fs levels (depth + 1) name ⟨path, loc⟩ (here :: outer)

/-- What is listed for one name in the innermost ancestor, with what is below it. -/
def items (name : Name) : List (Except ListError Entry) :=
  let path := here.path.join ⟨name⟩
  match follow fs (here :: outer) path (here.location ++ [name]) with
  | .error e => [.error e]
  | .ok isDirectory =>
    let e : Entry := ⟨path, name, parent, depth, isDirectory⟩
    if isKept e then
      .ok e :: if isDirectory then itemsBelow fs levels depth here outer name else []
    else []

theorem entries_eq : entries fs levels depth parent here outer
    = (fs.children here.location).flatMap (items fs levels depth parent here outer) := by
  rw [entries]
  apply List.flatMap_congr
  intro name _
  dsimp only
  rw [items]
  cases follow fs (here :: outer) (here.path.join ⟨name⟩) (here.location ++ [name]) with
  | error e => rfl
  | ok isDirectory => cases levels <;> cases isDirectory <;> rfl

end

variable {levels depth : Nat} {parent : Name} {here : Ancestor} {outer : List Ancestor}
  {name : Name}

theorem items_of_error {e : ListError}
    (h : follow fs (here :: outer) (here.path.join ⟨name⟩) (here.location ++ [name])
      = .error e) : items fs levels depth parent here outer name = [.error e] := by
  rw [items, h]

/-- A name that starts with a point is passed over right below the listed directory, but only if it
can be followed. -/
theorem items_of_isHidden (hn : isHidden name) {isDirectory : Bool}
    (h : follow fs (here :: outer) (here.path.join ⟨name⟩) (here.location ++ [name])
      = .ok isDirectory) : items fs levels 1 parent here outer name = [] := by
  rw [items, h]
  simp [isKept, hn]

theorem items_of_file {content : ByteArray}
    (h : fs.get? (here.location ++ [name]) = some (.file content)) :
    items fs levels depth parent here outer name
      = if isKept ⟨here.path.join ⟨name⟩, name, parent, depth, false⟩ then
          [.ok ⟨here.path.join ⟨name⟩, name, parent, depth, false⟩]
        else [] := by
  rw [items, follow, h]
  rfl

theorem items_of_directory (h : fs.get? (here.location ++ [name]) = some .directory) :
    items fs levels depth parent here outer name
      = if isKept ⟨here.path.join ⟨name⟩, name, parent, depth, true⟩ then
          .ok ⟨here.path.join ⟨name⟩, name, parent, depth, true⟩ ::
            itemsBelow fs levels depth here outer name
        else [] := by
  rw [items, follow, h]
  rfl

/-- A directory is listed by its path, or else the path is too long. -/
theorem itemsBelow_succ (hhere : here.IsOpen fs)
    (h : fs.get? (here.location ++ [name]) = some .directory) :
    itemsBelow fs (levels + 1) depth here outer name
      = if FileSystem.pathLimit < (here.path.join ⟨name⟩).bytes.length then
          [.error (.os (here.path.join ⟨name⟩) .nameTooLong)]
        else entries fs levels (depth + 1) name
          ⟨here.path.join ⟨name⟩, here.location ++ [name]⟩ (here :: outer) := by
  simp only [itemsBelow, FileSystem.directoryAt_join hhere h]
  split_ifs <;> rfl

/-- A directory is listed in the same way if the same names are in it, each with the same items. -/
theorem entries_congr_of_items
    (hsame : ∀ n, fs'.get? (here.location ++ [n]) = fs.get? (here.location ++ [n]))
    (hitems : ∀ n, items fs' levels depth parent here outer n
      = items fs levels depth parent here outer n) :
    entries fs' levels depth parent here outer = entries fs levels depth parent here outer := by
  have hchildren : fs'.children here.location = fs.children here.location := by
    apply FileSystem.children_congr
    intro n
    rw [FileSystem.mem_children_iff, FileSystem.mem_children_iff, hsame]
  rw [entries_eq, entries_eq, hchildren]
  exact List.flatMap_congr fun n _ => hitems n

/-- Nothing is listed differently for a name below which nothing has changed. -/
theorem items_congr (hhere : here.IsOpen fs) (hhere' : here.IsOpen fs')
    (hfree : fs.LinkFree (here.location ++ [name]))
    (hsame : ∀ l, here.location ++ [name] <+: l → fs'.get? l = fs.get? l) :
    items fs' levels depth parent here outer name
      = items fs levels depth parent here outer name := by
  have hself := hsame _ (List.prefix_refl _)
  induction levels generalizing depth parent here outer name with
  | zero => rw [items, items, follow_congr hfree hself, itemsBelow, itemsBelow]
  | succ levels ih =>
    cases hget : fs.get? (here.location ++ [name]) with
    | none => rw [items, items, follow_congr hfree hself, follow, hget]
    | some o =>
      have hget' := hself.trans hget
      cases o with
      | file content => rw [items_of_file hget, items_of_file hget']
      | link t => exact absurd hget (hfree _ (List.prefix_refl _) t)
      | directory =>
        rw [items_of_directory hget, items_of_directory hget', itemsBelow_succ hhere hget,
          itemsBelow_succ hhere' hget']
        split_ifs with hkept hlimit
        · rfl
        · -- the directory is open in both, so that the names in it are listed alike
          have hopen := hhere.below hget hlimit
          have hopen' := hhere'.below hget' hlimit
          congr 1
          refine entries_congr_of_items (fun m => hsame _ (List.prefix_append _ _)) fun m => ?_
          have hm := List.prefix_append (here.location ++ [name]) [m]
          exact ih hopen hopen' (hfree.below hm) (fun l hl => hsame l (hm.trans hl)) (hsame _ hm)
        · rfl

/-- Nor for a directory in which nothing has changed. -/
theorem entries_congr (hhere : here.IsOpen fs) (hhere' : here.IsOpen fs')
    (hfree : fs.LinkFree here.location)
    (hsame : ∀ l, here.location <+: l → fs'.get? l = fs.get? l) :
    entries fs' levels depth parent here outer = entries fs levels depth parent here outer := by
  refine entries_congr_of_items (fun n => hsame _ (List.prefix_append _ _)) fun n => ?_
  have hn : here.location <+: here.location ++ [n] := List.prefix_append _ _
  exact items_congr hhere hhere' (hfree.below hn) fun l hl => hsame l (hn.trans hl)

/-! ### One more name -/

theorem exists_entries_of_addsAt (hhere : here.IsOpen fs)
    (hadd : fs.AddsAt fs' (here.location ++ [name])) (hfree : fs.LinkFree here.location)
    (levels depth : Nat) (parent : Name) (outer : List Ancestor) :
    ∃ front back, entries fs levels depth parent here outer = front ++ back ∧
      entries fs' levels depth parent here outer
        = front ++ (items fs' levels depth parent here outer name ++ back) := by
  obtain ⟨front, back, hold, hnew, hname⟩ := hadd.exists_children
  have hhere' := hhere.of_extends hadd.extends
  have hsame : ∀ m ∈ front ++ back, items fs' levels depth parent here outer m
      = items fs levels depth parent here outer m := by
    intro m hm
    apply items_congr hhere hhere' (hfree.below (List.prefix_append _ [m]))
    intro l hl
    apply hadd.same
    intro hl'
    exact hname (FileSystem.eq_of_both_above hl' hl ▸ hm)
  refine ⟨_, _, by rw [entries_eq, hold, List.flatMap_append], ?_⟩
  rw [entries_eq, hnew, List.flatMap_append, List.flatMap_cons]
  congr 1
  · exact List.flatMap_congr fun m hm => hsame m (List.mem_append_left _ hm)
  · congr 1
    exact List.flatMap_congr fun m hm => hsame m (List.mem_append_right _ hm)

/-- The second listing is the first with one more item in it. -/
def OneMore (item : Except ListError Entry) (listed listed' : List (Except ListError Entry)) :
    Prop :=
  ∃ front back, listed = front ++ back ∧ listed' = front ++ item :: back

/-- A name that cannot be followed is listed as its error. -/
theorem oneMore_entries_of_error (hhere : here.IsOpen fs) {e : ListError}
    (hadd : fs.AddsAt fs' (here.location ++ [name])) (hfree : fs.LinkFree here.location)
    (h : follow fs' (here :: outer) (here.path.join ⟨name⟩) (here.location ++ [name])
      = .error e) (levels depth : Nat) (parent : Name) :
    OneMore (.error e) (entries fs levels depth parent here outer)
      (entries fs' levels depth parent here outer) := by
  obtain ⟨front, back, hold, hnew⟩ := exists_entries_of_addsAt hhere hadd hfree levels depth parent
    outer
  rw [items_of_error h] at hnew
  exact ⟨front, back, hold, hnew⟩

theorem list_of_directory {dir : Path} (hdir : fs.find true dir = .ok (loc, .directory))
    (levels : Nat) : list fs dir (levels + 1) = .ok (entries fs levels 1 [] ⟨dir, loc⟩ []) := by
  simp only [list, hdir]

end Listing
end ContentTypes
