import ContentTypes.FileSystem.Resolve
import Mathlib
/-!
File systems that grow. A path that leads somewhere leads to the same place in every larger file
system, whatever its files hold there, because a resolution that succeeds never asks for anything
that is not there. The names in a directory are in order, so a new one comes between two parts of
the old list.
-/

namespace ContentTypes

/-- What may stand in the place of an object when only contents of files change, and these only as
`R` says. -/
inductive Object.Becomes (R : ByteArray → ByteArray → Prop) : Object → Object → Prop
  | directory : Becomes R .directory .directory
  | file {c c' : ByteArray} (h : R c c') : Becomes R (.file c) (.file c')
  | link (t : Path) : Becomes R (.link t) (.link t)

theorem Object.becomes_eq_iff {o o' : Object} : o.Becomes Eq o' ↔ o' = o := by
  constructor
  · rintro (_ | h | _)
    · rfl
    · rw [h]
    · rfl
  · rintro rfl
    cases o' with
    | directory => exact .directory
    | file c => exact .file rfl
    | link t => exact .link t

namespace FileSystem

/-- Everything in `fs` is in `fs'` as well, files perhaps with other contents. -/
structure Covers (R : ByteArray → ByteArray → Prop) (fs fs' : FileSystem) : Prop where
  workingDirectory : fs'.workingDirectory = fs.workingDirectory
  get? : ∀ loc o, fs.get? loc = some o → ∃ o', fs'.get? loc = some o' ∧ o.Becomes R o'

/-- Everything in `fs` is in `fs'` as well. -/
structure Extends (fs fs' : FileSystem) : Prop where
  workingDirectory : fs'.workingDirectory = fs.workingDirectory
  get? : ∀ loc o, fs.get? loc = some o → fs'.get? loc = some o

theorem Extends.covers {fs fs' : FileSystem} (h : Extends fs fs') : Covers Eq fs fs' where
  workingDirectory := h.workingDirectory
  get? := fun loc o ho => ⟨o, h.get? loc o ho, Object.becomes_eq_iff.mpr rfl⟩

/-- An object of any kind, with all that is below it, comes to a place where nothing was. -/
structure AddsAt (fs fs' : FileSystem) (loc : Location) : Prop where
  workingDirectory : fs'.workingDirectory = fs.workingDirectory
  absent : ∀ l, loc <+: l → fs.get? l = none
  present : ∃ o, fs'.get? loc = some o
  same : ∀ l, ¬ loc <+: l → fs'.get? l = fs.get? l

theorem AddsAt.extends {fs fs' : FileSystem} {loc : Location} (h : AddsAt fs fs' loc) :
    Extends fs fs' where
  workingDirectory := h.workingDirectory
  get? := by
    intro l o hl
    by_cases hloc : loc <+: l
    · rw [h.absent l hloc] at hl
      cases hl
    · rw [h.same l hloc, hl]

/-! ### Paths that lead somewhere -/

variable {fs fs' : FileSystem} {R : ByteArray → ByteArray → Prop}

theorem lookup_of_covers (h : Covers R fs fs') {dir : Location} {n : Name} {o : Object}
    (ho : fs.lookup dir n = .ok (some o)) :
    ∃ o', fs'.lookup dir n = .ok (some o') ∧ o.Becomes R o' := by
  rw [lookup] at ho ⊢
  split_ifs at ho ⊢ with hn
  obtain ⟨o', ho', hbecomes⟩ := h.get? _ _ (Except.ok.inj ho)
  exact ⟨o', by rw [ho'], hbecomes⟩

theorem lookup_directory_of_covers (h : Covers R fs fs') {dir : Location} {n : Name}
    (ho : fs.lookup dir n = .ok (some .directory)) :
    fs'.lookup dir n = .ok (some .directory) := by
  obtain ⟨_, ho', ⟨⟩⟩ := lookup_of_covers h ho
  exact ho'

theorem lookup_link_of_covers (h : Covers R fs fs') {dir : Location} {n : Name} {t : Path}
    (ho : fs.lookup dir n = .ok (some (.link t))) :
    fs'.lookup dir n = .ok (some (.link t)) := by
  obtain ⟨_, ho', ⟨⟩⟩ := lookup_of_covers h ho
  exact ho'

theorem descend_of_covers (h : Covers R fs fs') {links : Nat} {dir : Location}
    {parts : List Name} {s : Stop} (hs : fs.descend links dir parts = .ok s) :
    fs'.descend links dir parts = .ok s := by
  fun_induction descend fs links dir parts with
  | case1 =>
    rw [descend]
    exact hs
  | case2 _ _ _ ih =>
    rw [descend, if_pos rfl]
    exact ih hs
  | case3 _ _ _ hdot ih =>
    rw [descend, if_neg hdot, if_pos rfl]
    exact ih hs
  | case4 _ _ _ hdot hdots =>
    rw [descend, if_neg hdot, if_neg hdots, if_pos rfl]
    exact hs
  | case5 => cases hs
  | case6 => cases hs
  | case7 => cases hs
  | case8 _ _ _ _ hdot hdots hrest hlookup ih =>
    rw [descend, if_neg hdot, if_neg hdots, if_neg hrest, lookup_directory_of_covers h hlookup]
    exact ih hs
  | case9 => cases hs
  | case10 _ _ _ hdot hdots hrest _ hlookup _ ih =>
    rw [descend, if_neg hdot, if_neg hdots, if_neg hrest, lookup_link_of_covers h hlookup]
    exact ih hs

theorem settle_eq_of_link {follow mustBeDirectory : Bool} {s s' : Stop} {n : Name} {t : Path}
    {links : Nat} (hentry : s.entry = some n)
    (hlookup : fs.lookup s.directory n = .ok (some (.link t)))
    (hfollow : (follow || mustBeDirectory) = true) (hlinks : s.links = links + 1)
    (hdescend : fs.descend links (start s.directory t) t.parts = .ok s') :
    fs.settle follow mustBeDirectory s
      = fs.settle follow (mustBeDirectory || t.endsInSlash) s' := by
  obtain ⟨dir, entry, l⟩ := s
  subst hentry
  subst hlinks
  rw [settle]
  simp only [hlookup, hfollow, if_true]
  split
  · next e he =>
    rw [hdescend] at he
    cases he
  · next s'' he =>
    rw [hdescend] at he
    cases he
    rfl

/-- A path that ends in a link leads to where its target does. -/
theorem find_eq_of_link {p t : Path} {s s' : Stop} {n : Name} {links : Nat}
    (hwalk : fs.walk p = .ok s) (hentry : s.entry = some n)
    (hlookup : fs.lookup s.directory n = .ok (some (.link t))) (hlinks : s.links = links + 1)
    (hdescend : fs.descend links (start s.directory t) t.parts = .ok s') :
    fs.find true p = fs.settle true (p.endsInSlash || t.endsInSlash) s' := by
  rw [find, hwalk]
  exact settle_eq_of_link hentry hlookup rfl hlinks hdescend

theorem settle_of_covers (h : Covers R fs fs') {follow mustBeDirectory : Bool} {s : Stop}
    {loc : Location} {o : Object} (hr : fs.settle follow mustBeDirectory s = .ok (loc, o)) :
    ∃ o', fs'.settle follow mustBeDirectory s = .ok (loc, o') ∧ o.Becomes R o' := by
  fun_induction settle fs follow mustBeDirectory s with
  | case1 _ _ hentry =>
    cases hr
    exact ⟨.directory, by rw [settle, hentry], .directory⟩
  | case2 => cases hr
  | case3 => cases hr
  | case4 _ _ _ hentry hlookup =>
    cases hr
    refine ⟨.directory, ?_, .directory⟩
    rw [settle, hentry]
    simp only [lookup_directory_of_covers h hlookup]
  | case5 => cases hr
  | case6 _ _ _ hentry _ hlookup hmust =>
    cases hr
    obtain ⟨_, hlookup', hbecomes⟩ := lookup_of_covers h hlookup
    refine ⟨_, ?_, hbecomes⟩
    cases hbecomes
    rw [settle, hentry]
    simp only [hlookup', if_neg hmust]
  | case7 => cases hr
  | case8 => cases hr
  | case9 _ _ _ hentry _ hlookup hfollow _ hlinks _ hdescend ih =>
    rw [settle_eq_of_link hentry (lookup_link_of_covers h hlookup) hfollow hlinks
      (descend_of_covers h hdescend)]
    exact ih hr
  | case10 _ _ _ hentry _ hlookup hfollow =>
    cases hr
    refine ⟨_, ?_, .link _⟩
    rw [settle, hentry]
    simp only [lookup_link_of_covers h hlookup, if_neg hfollow]

theorem walk_of_covers (h : Covers R fs fs') {p : Path} {s : Stop} (hs : fs.walk p = .ok s) :
    fs'.walk p = .ok s := by
  rw [walk] at hs ⊢
  rw [h.workingDirectory]
  split_ifs at hs ⊢
  exact descend_of_covers h hs

theorem find_of_covers (h : Covers R fs fs') {follow : Bool} {p : Path} {loc : Location}
    {o : Object} (hr : fs.find follow p = .ok (loc, o)) :
    ∃ o', fs'.find follow p = .ok (loc, o') ∧ o.Becomes R o' := by
  rw [find] at hr ⊢
  cases hs : fs.walk p with
  | error e =>
    rw [hs] at hr
    cases hr
  | ok s =>
    rw [hs] at hr
    rw [walk_of_covers h hs]
    exact settle_of_covers h hr

theorem find_of_extends (h : Extends fs fs') {follow : Bool} {p : Path} {r : Location × Object}
    (hr : fs.find follow p = .ok r) : fs'.find follow p = .ok r := by
  obtain ⟨o', ho', hbecomes⟩ := find_of_covers h.covers hr
  rw [ho', Object.becomes_eq_iff.mp hbecomes]

/-! ### Names in a directory -/

variable {dir : Location}

theorem nodup_children (fs : FileSystem) (dir : Location) : (fs.children dir).Nodup := by
  have hkeys : fs.objects.filterMap (fun e => nameIn? dir e.1)
      = (Table.keys fs.objects).filterMap (nameIn? dir) := by
    rw [Table.keys, List.filterMap_map]
    rfl
  rw [children, (List.mergeSort_perm _ _).nodup_iff, hkeys]
  apply fs.distinct.filterMap
  intro l l' n hl hl'
  rw [nameIn?_eq_some_iff.mp hl, nameIn?_eq_some_iff.mp hl']

/-- The names in a directory stand in the order of their bytes. -/
theorem pairwise_children (fs : FileSystem) (dir : Location) :
    (fs.children dir).Pairwise (· < ·) := by
  have hle : (fs.children dir).Pairwise (· ≤ ·) :=
    List.pairwise_mergeSort' (· ≤ ·) _
  refine (hle.and (nodup_children fs dir)).imp ?_
  rintro a b ⟨hab, hne⟩
  exact List.not_le.mp fun hba => hne (List.le_antisymm hab hba)

/-- A directory lists the same names wherever the same names are in it. -/
theorem children_congr {dir' : Location}
    (h : ∀ n, n ∈ fs'.children dir' ↔ n ∈ fs.children dir) :
    fs'.children dir' = fs.children dir :=
  (pairwise_children fs' dir').eq_of_mem_iff (pairwise_children fs dir) h

/-- Of two locations right below one directory only one leads on to a third. -/
theorem eq_of_both_above {n m : Name} {l : Location} (hn : dir ++ [n] <+: l)
    (hm : dir ++ [m] <+: l) : n = m := by
  have h := List.prefix_of_prefix_length_le hn hm (by simp)
  simpa using h

theorem AddsAt.exists_children {n : Name} (h : AddsAt fs fs' (dir ++ [n])) :
    ∃ front back, fs.children dir = front ++ back ∧ fs'.children dir = front ++ n :: back ∧
      n ∉ front ++ back := by
  obtain ⟨front, back, hsplit⟩ := List.append_of_mem (mem_children_iff.mpr h.present)
  have hsorted := pairwise_children fs' dir
  have hnodup := nodup_children fs' dir
  rw [hsplit] at hsorted hnodup
  have hn : n ∉ front ++ back := (List.nodup_middle.mp hnodup).notMem
  refine ⟨front, back, ?_, hsplit, hn⟩
  have hsub : (front ++ back).Sublist (front ++ n :: back) :=
    (List.sublist_cons_self n back).append_left front
  apply (pairwise_children fs dir).eq_of_mem_iff (hsorted.sublist hsub)
  intro m
  by_cases hm : m = n
  · have habsent : n ∉ fs.children dir := by
      rw [mem_children_iff, h.absent _ (List.prefix_refl _)]
      simp
    rw [hm]
    exact iff_of_false habsent hn
  · have hget : fs'.get? (dir ++ [m]) = fs.get? (dir ++ [m]) :=
      h.same _ fun hl => hm (eq_of_both_above (List.prefix_refl _) hl)
    have hmem : m ∈ fs'.children dir ↔ m ∈ front ++ back := by
      rw [hsplit]
      simp [hm]
    rw [← hmem, mem_children_iff, mem_children_iff, hget]

/-- Nothing is below a place where nothing is. -/
theorem get?_eq_none_of_prefix {loc l : Location} (hnone : fs.get? loc = none) (hl : loc <+: l) :
    fs.get? l = none := by
  obtain ⟨more, rfl⟩ := hl
  induction more using List.reverseRecOn with
  | nil => rwa [List.append_nil]
  | append_singleton more n ih =>
    cases ho : fs.get? (loc ++ (more ++ [n])) with
    | none => rfl
    | some o =>
      rw [← List.append_assoc] at ho
      cases ih.symm.trans (parent ho).1

theorem addsAt_put {loc : Location} {o : Object} (h : fs.Admits loc o)
    (hnone : fs.get? loc = none) : AddsAt fs (fs.put loc o h) loc where
  workingDirectory := rfl
  absent := fun _ => get?_eq_none_of_prefix hnone
  present := ⟨o, get?_put_self h⟩
  same := by
    intro l hl
    apply get?_put_of_ne
    rintro rfl
    exact hl (List.prefix_refl _)

end FileSystem
end ContentTypes
