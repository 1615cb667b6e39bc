import ContentTypes.Proofs.ExactDiscovery
import ContentTypes.Proofs.HiddenEntries
import Mathlib
/-!
Links that cannot be followed. One of them, in a listed directory or in a group below it that can be
opened, is one more item of the listing, in its place among the others. So it is reported once, and
all units are found as they are without it. In a group that cannot be opened it is not seen.
-/

namespace ContentTypes

variable {fs fs' : FileSystem} {dir : Path} {loc : Location} {group name : Name}

/-! ### Something new in a group -/

section
variable (h : fs.AddsAt fs' (loc ++ [group] ++ [name]))
include h

/-- The names beside the group stay what they are, and so does the group. -/
theorem FileSystem.AddsAt.get?_beside (m : Name) :
    fs'.get? (loc ++ [m]) = fs.get? (loc ++ [m]) := by
  apply h.same
  intro hl
  simpa using hl.length_le

theorem FileSystem.AddsAt.get?_below {m : Name} (hm : m ≠ group) {l : Location}
    (hl : loc ++ [m] <+: l) : fs'.get? l = fs.get? l := by
  apply h.same
  intro hl'
  exact hm (FileSystem.eq_of_both_above hl ((List.prefix_append _ [name]).trans hl'))

end

namespace Listing

variable {item : Except ListError Entry} {levels depth : Nat} {parent : Name} {here : Ancestor}
  {outer : List Ancestor}

/-- Where only one name is listed with one more item, so are all names together. -/
theorem OneMore.flatMap {names : List Name} {f f' : Name → List (Except ListError Entry)}
    (hnodup : names.Nodup) (hname : name ∈ names) (hothers : ∀ m, m ≠ name → f' m = f m)
    (h : OneMore item (f name) (f' name)) : OneMore item (names.flatMap f) (names.flatMap f') := by
  obtain ⟨before, after, rfl⟩ := List.append_of_mem hname
  obtain ⟨front, back, hold, hnew⟩ := h
  have hnotMem := (List.nodup_middle.mp hnodup).notMem
  have hbefore : before.flatMap f' = before.flatMap f :=
    List.flatMap_congr fun m hm => hothers m fun heq => hnotMem (by simp [← heq, hm])
  have hafter : after.flatMap f' = after.flatMap f :=
    List.flatMap_congr fun m hm => hothers m fun heq => hnotMem (by simp [← heq, hm])
  refine ⟨before.flatMap f ++ front, back ++ after.flatMap f, ?_, ?_⟩
  · simp [hold]
  · simp [hnew, hbefore, hafter]

section
variable (hhere : here.IsOpen fs) (hfree : fs.LinkFree here.location)
  (hadd : fs.AddsAt fs' (here.location ++ [group] ++ [name]))
include hhere hfree hadd

theorem items_of_ne {m : Name} (hm : m ≠ group) : items fs' levels depth parent here outer m
    = items fs levels depth parent here outer m :=
  items_congr hhere (hhere.of_extends hadd.extends) (hfree.below (List.prefix_append _ [m]))
    fun _ hl => hadd.get?_below hm hl

variable (hgroup : fs.get? (here.location ++ [group]) = some .directory)
include hgroup

/-- What a directory in the innermost ancestor is listed with is listed there as well, if this
directory can be opened. -/
theorem oneMore_entries_of_below
    (hkept : isKept ⟨here.path.join ⟨group⟩, group, parent, depth, true⟩)
    (hfits : (here.path.join ⟨group⟩).bytes.length ≤ FileSystem.pathLimit)
    (h : OneMore item
      (entries fs levels (depth + 1) group ⟨here.path.join ⟨group⟩, here.location ++ [group]⟩
        (here :: outer))
      (entries fs' levels (depth + 1) group ⟨here.path.join ⟨group⟩, here.location ++ [group]⟩
        (here :: outer))) :
    OneMore item (entries fs (levels + 1) depth parent here outer)
      (entries fs' (levels + 1) depth parent here outer) := by
  have hhere' := hhere.of_extends hadd.extends
  have hgroup' : fs'.get? (here.location ++ [group]) = some .directory :=
    (hadd.get?_beside group).trans hgroup
  have hchildren : fs'.children here.location = fs.children here.location := by
    apply FileSystem.children_congr
    intro m
    rw [FileSystem.mem_children_iff, FileSystem.mem_children_iff, hadd.get?_beside]
  have hmem : group ∈ fs.children here.location := FileSystem.mem_children_iff.mpr ⟨_, hgroup⟩
  rw [entries_eq, entries_eq, hchildren]
  refine OneMore.flatMap (FileSystem.nodup_children fs _) hmem
    (fun m hm => items_of_ne hhere hfree hadd hm) ?_
  obtain ⟨front, back, hold, hnew⟩ := h
  rw [items_of_directory hgroup, items_of_directory hgroup', if_pos hkept, if_pos hkept,
    itemsBelow_succ hhere hgroup, itemsBelow_succ hhere' hgroup', if_neg (Nat.not_lt.mpr hfits),
    if_neg (Nat.not_lt.mpr hfits), hold, hnew]
  exact ⟨_ :: front, back, rfl, rfl⟩

/-- Nothing in a directory is listed if this directory cannot be opened. -/
theorem entries_of_overlong
    (hlong : FileSystem.pathLimit < (here.path.join ⟨group⟩).bytes.length) :
    entries fs' (levels + 1) depth parent here outer
      = entries fs (levels + 1) depth parent here outer := by
  have hhere' := hhere.of_extends hadd.extends
  have hgroup' : fs'.get? (here.location ++ [group]) = some .directory :=
    (hadd.get?_beside group).trans hgroup
  refine entries_congr_of_items hadd.get?_beside fun m => ?_
  by_cases hm : m = group
  · rw [hm, items_of_directory hgroup, items_of_directory hgroup', itemsBelow_succ hhere hgroup,
      itemsBelow_succ hhere' hgroup', if_pos hlong, if_pos hlong]
  · exact items_of_ne hhere hfree hadd hm

end
end Listing

namespace Discovery

variable (hdir : fs.find true dir = .ok (loc, .directory)) (hfree : fs.LinkFree loc)
include hdir hfree

/-- A bad link in a group that can be opened is one more error of a listing that goes as deep. -/
theorem exists_error_of_link_in_group (hgroup : fs.get? (loc ++ [group]) = some .directory)
    (hvisible : ¬ Listing.isHidden group)
    (hfits : (dir.join ⟨group⟩).bytes.length ≤ FileSystem.pathLimit)
    (hadd : fs.AddsAt fs' (loc ++ [group] ++ [name]))
    (hbad : fs'.IsBadLinkBelow [loc ++ [group], loc] ((dir.join ⟨group⟩).join ⟨name⟩)
      (loc ++ [group] ++ [name])) :
    ∃ e : ListError, e.path = (dir.join ⟨group⟩).join ⟨name⟩ ∧ ∀ {α : Type} {origin : Origin}
      {levels : Nat} {unit? : Entry → Option α} {units : List α} {diagnostics : List Diagnostic},
      discover origin (levels + 2) unit? fs dir = .ok ⟨units, diagnostics⟩ →
      ∃ before after, diagnostics = before ++ after ∧
        discover origin (levels + 2) unit? fs' dir
          = .ok ⟨units, before ++ ⟨origin, e.path.display, .listing e⟩ :: after⟩ := by
  obtain ⟨o, ho⟩ := hadd.present
  obtain ⟨e, he⟩ :=
    (Listing.follow_error_iff [⟨dir.join ⟨group⟩, loc ++ [group]⟩, ⟨dir, loc⟩] ho).mpr hbad
  have hopen : Listing.Ancestor.IsOpen fs ⟨dir, loc⟩ := hdir
  have hopenGroup := hopen.below hgroup (Nat.not_lt.mpr hfits)
  have hkept : Listing.isKept ⟨dir.join ⟨group⟩, group, [], 1, true⟩ := by
    simpa [Listing.isKept] using hvisible
  refine ⟨e, Listing.path_of_follow_error he, ?_⟩
  intro α origin levels unit? units diagnostics hfound
  have hbelow := Listing.oneMore_entries_of_error hopenGroup hadd
    (hfree.below (List.prefix_append _ [group])) he levels 2 group
  exact discover_of_oneMore (Listing.list_of_directory hdir (levels + 1))
    (Listing.list_of_directory (FileSystem.find_of_extends hadd.extends hdir) (levels + 1))
    (Listing.oneMore_entries_of_below hopen hfree hadd hgroup hkept hfits hbelow) hfound

end Discovery

section
variable (hdir : fs.find true dir = .ok (loc, .directory)) (hfree : fs.LinkFree loc)
include hdir hfree

/-- What is new in a group that cannot be opened is not noticed. -/
theorem discoverComponents_of_overlong (hgroup : fs.get? (loc ++ [group]) = some .directory)
    (hlong : FileSystem.pathLimit < (dir.join ⟨group⟩).bytes.length)
    (hadd : fs.AddsAt fs' (loc ++ [group] ++ [name])) :
    discoverComponents fs' dir = discoverComponents fs dir := by
  have hopen : Listing.Ancestor.IsOpen fs ⟨dir, loc⟩ := hdir
  have hlist : Listing.list fs' dir 2 = Listing.list fs dir 2 := by
    rw [Listing.list_of_directory hdir,
      Listing.list_of_directory (FileSystem.find_of_extends hadd.extends hdir),
      Listing.entries_of_overlong hopen hfree hadd hgroup hlong]
  exact Discovery.discover_congr hlist

/-- In a tree without links, one more link that cannot be followed, or that leads back to a
directory above it, is reported once by each discovery that lists it, whatever its name is; only in
a group whose path is too long it is not listed. All units are found as without it and in the same
order, and all else is reported as without it. -/
theorem bad_link_costs_only_itself :
    ∃ entities components diagnostics, discoverEntities fs dir = .ok ⟨entities, []⟩ ∧
      discoverComponents fs dir = .ok ⟨components, diagnostics⟩ ∧
      (∀ n fs', fs.AddsAt fs' (loc ++ [n]) →
        fs'.IsBadLinkBelow [loc] (dir.join ⟨n⟩) (loc ++ [n]) →
        ∃ (e : ListError) (before after : List Diagnostic), e.path = dir.join ⟨n⟩ ∧
          diagnostics = before ++ after ∧
          discoverEntities fs' dir
            = .ok ⟨entities, [⟨.entity, e.path.display, .listing e⟩]⟩ ∧
          discoverComponents fs' dir
            = .ok ⟨components, before ++ ⟨.component, e.path.display, .listing e⟩ :: after⟩) ∧
      ∀ g n fs', fs.get? (loc ++ [g]) = some .directory → ¬ Listing.isHidden g →
        (dir.join ⟨g⟩).bytes.length ≤ FileSystem.pathLimit →
        fs.AddsAt fs' (loc ++ [g] ++ [n]) →
        fs'.IsBadLinkBelow [loc ++ [g], loc] ((dir.join ⟨g⟩).join ⟨n⟩) (loc ++ [g] ++ [n]) →
        ∃ (e : ListError) (before after : List Diagnostic),
          e.path = (dir.join ⟨g⟩).join ⟨n⟩ ∧ diagnostics = before ++ after ∧
          discoverComponents fs' dir
            = .ok ⟨components, before ++ ⟨.component, e.path.display, .listing e⟩ :: after⟩ := by
  have hentities := discoverEntities_of_linkFree hdir hfree
  have hcomponents := discoverComponents_of_linkFree hdir hfree
  refine ⟨_, _, _, hentities, hcomponents, ?_, ?_⟩
  · intro n fs' hadd hbad
    obtain ⟨o, ho⟩ := hadd.present
    obtain ⟨e, he⟩ := (Listing.follow_error_iff [⟨dir, loc⟩] ho).mpr hbad
    obtain ⟨before, after, hsplit, hmore⟩ :=
      Discovery.exists_discover_of_error hdir hfree hadd he hcomponents
    exact ⟨e, before, after, Listing.path_of_follow_error he, hsplit,
      discoverEntities_of_error hdir hfree hadd he hentities, hmore⟩
  · intro g n fs' hgroup hvisible hfits hadd hbad
    obtain ⟨e, hpath, hreport⟩ :=
      Discovery.exists_error_of_link_in_group hdir hfree hgroup hvisible hfits hadd hbad
    obtain ⟨before, after, hsplit, hmore⟩ := hreport hcomponents
    exact ⟨e, before, after, hpath, hsplit, hmore⟩

end

/-! ### Links beside and below an entity -/

/-- A link beside the entity, which leads to a name that is not there. -/
def FileSystem.heroesAndDraft : FileSystem :=
  twoHeroes.put [utf8 "api", utf8 "draft"] (.link (.ofString "gone")) (by decide)

/-- A link in the group, which leads back to the listed directory. -/
def FileSystem.heroesAndLoop : FileSystem :=
  twoHeroes.put [utf8 "api", utf8 "post", utf8 "up"] (.link (.ofString "..")) (by decide)

theorem addsAt_heroesAndDraft :
    FileSystem.twoHeroes.AddsAt .heroesAndDraft [utf8 "api", utf8 "draft"] :=
  FileSystem.addsAt_put _ (by decide)

theorem addsAt_heroesAndLoop :
    FileSystem.twoHeroes.AddsAt .heroesAndLoop [utf8 "api", utf8 "post", utf8 "up"] :=
  FileSystem.addsAt_put _ (by decide)

theorem isBadLinkBelow_draft : FileSystem.heroesAndDraft.IsBadLinkBelow [[utf8 "api"]]
    (.ofString "/api/draft") [utf8 "api", utf8 "draft"] := by
  have hwalk : FileSystem.heroesAndDraft.walk (.ofString "/api/draft")
      = .ok ⟨[utf8 "api"], some (utf8 "draft"), 40⟩ := by
    cbv
  have hlink : FileSystem.heroesAndDraft.lookup [utf8 "api"] (utf8 "draft")
      = .ok (some (.link (.ofString "gone"))) := by
    cbv
  have hdescend : FileSystem.heroesAndDraft.descend 39
      (FileSystem.start [utf8 "api"] (.ofString "gone")) (Path.ofString "gone").parts
      = .ok ⟨[utf8 "api"], some (utf8 "gone"), 39⟩ := by
    cbv
  have hfind : FileSystem.heroesAndDraft.find true (.ofString "/api/draft")
      = .error .notFound := by
    refine (FileSystem.find_eq_of_link hwalk rfl hlink rfl hdescend).trans ?_
    cbv
  refine ⟨⟨.ofString "gone", by cbv⟩, ?_⟩
  rw [hfind]
  rintro r ⟨⟩

theorem isBadLinkBelow_loop :
    FileSystem.heroesAndLoop.IsBadLinkBelow [[utf8 "api", utf8 "post"], [utf8 "api"]]
      (.ofString "/api/post/up") [utf8 "api", utf8 "post", utf8 "up"] := by
  have hwalk : FileSystem.heroesAndLoop.walk (.ofString "/api/post/up")
      = .ok ⟨[utf8 "api", utf8 "post"], some (utf8 "up"), 40⟩ := by
    cbv
  have hlink : FileSystem.heroesAndLoop.lookup [utf8 "api", utf8 "post"] (utf8 "up")
      = .ok (some (.link (.ofString ".."))) := by
    cbv
  have hdescend : FileSystem.heroesAndLoop.descend 39
      (FileSystem.start [utf8 "api", utf8 "post"] (.ofString "..")) (Path.ofString "..").parts
      = .ok ⟨[utf8 "api"], none, 39⟩ := by
    cbv
  have hfind : FileSystem.heroesAndLoop.find true (.ofString "/api/post/up")
      = .ok ([utf8 "api"], .directory) := by
    refine (FileSystem.find_eq_of_link hwalk rfl hlink rfl hdescend).trans ?_
    cbv
  refine ⟨⟨.ofString "..", by cbv⟩, ?_⟩
  rw [hfind]
  rintro r ⟨⟩
  exact ⟨[utf8 "api"], by simp, rfl⟩

/-- The one is reported by both discoveries, the other by that of components; the post and its hero
are found all the same. -/
theorem bad_links_beside_heroes :
    FileSystem.twoHeroes.find true (.ofString "/api") = .ok ([utf8 "api"], .directory) ∧
      FileSystem.twoHeroes.LinkFree [utf8 "api"] ∧
      FileSystem.twoHeroes.AddsAt .heroesAndDraft [utf8 "api", utf8 "draft"] ∧
      FileSystem.heroesAndDraft.IsBadLinkBelow [[utf8 "api"]] (.ofString "/api/draft")
        [utf8 "api", utf8 "draft"] ∧
      FileSystem.twoHeroes.get? [utf8 "api", utf8 "post"] = some .directory ∧
      ¬ Listing.isHidden (utf8 "post") ∧
      ((Path.ofString "/api").join ⟨utf8 "post"⟩).bytes.length ≤ FileSystem.pathLimit ∧
      FileSystem.twoHeroes.AddsAt .heroesAndLoop [utf8 "api", utf8 "post", utf8 "up"] ∧
      FileSystem.heroesAndLoop.IsBadLinkBelow [[utf8 "api", utf8 "post"], [utf8 "api"]]
        (.ofString "/api/post/up") [utf8 "api", utf8 "post", utf8 "up"] ∧
      ∃ entities components e e',
        discoverEntities .twoHeroes (.ofString "/api") = .ok ⟨entities, []⟩ ∧
        discoverComponents .twoHeroes (.ofString "/api") = .ok ⟨components, []⟩ ∧
        discoverEntities .heroesAndDraft (.ofString "/api")
          = .ok ⟨entities, [⟨.entity, "/api/draft", .listing e⟩]⟩ ∧
        discoverComponents .heroesAndDraft (.ofString "/api")
          = .ok ⟨components, [⟨.component, "/api/draft", .listing e⟩]⟩ ∧
        discoverComponents .heroesAndLoop (.ofString "/api")
          = .ok ⟨components, [⟨.component, "/api/post/up", .listing e'⟩]⟩ := by
  have hdir : FileSystem.twoHeroes.find true (.ofString "/api")
      = .ok ([utf8 "api"], .directory) := by
    cbv
  have hfree := (isPlainTree_twoHeroes [utf8 "api"]).linkFree
  have hgroup : FileSystem.twoHeroes.get? [utf8 "api", utf8 "post"] = some .directory := by decide
  have hshown : ¬ Listing.isHidden (utf8 "post") := by decide
  have hdraft : (Path.ofString "/api").join ⟨utf8 "draft"⟩ = .ofString "/api/draft" := by cbv
  have hup : ((Path.ofString "/api").join ⟨utf8 "post"⟩).join ⟨utf8 "up"⟩
      = .ofString "/api/post/up" := by
    cbv
  have hdisplay : (Path.ofString "/api/draft").display = "/api/draft" := displayBytes_utf8 _
  have hdisplay' : (Path.ofString "/api/post/up").display = "/api/post/up" := displayBytes_utf8 _
  obtain ⟨entities, components, diagnostics, hentities, hcomponents, htop, hbelow⟩ :=
    bad_link_costs_only_itself hdir hfree
  have hnone : diagnostics = [] := by
    rw [discoverComponents_of_linkFree hdir hfree, overlongGroups_twoHeroes, List.map_nil,
      Except.ok.injEq, Discovered.mk.injEq] at hcomponents
    exact hcomponents.2.symm
  obtain ⟨e, before, after, he, hsplit, htopEntities, htopComponents⟩ := htop (utf8 "draft")
    .heroesAndDraft addsAt_heroesAndDraft (by rw [hdraft]; exact isBadLinkBelow_draft)
  obtain ⟨e', before', after', he', hsplit', hbelowComponents⟩ := hbelow (utf8 "post") (utf8 "up")
    .heroesAndLoop hgroup hshown (by decide) addsAt_heroesAndLoop
    (by rw [hup]; exact isBadLinkBelow_loop)
  obtain ⟨rfl, rfl⟩ := List.append_eq_nil_iff.mp (hsplit.symm.trans hnone)
  obtain ⟨rfl, rfl⟩ := List.append_eq_nil_iff.mp (hsplit'.symm.trans hnone)
  rw [he, hdraft, hdisplay] at htopEntities htopComponents
  rw [he', hup, hdisplay'] at hbelowComponents
  rw [hnone] at hcomponents
  exact ⟨hdir, hfree, addsAt_heroesAndDraft, isBadLinkBelow_draft, hgroup, hshown, by decide,
    addsAt_heroesAndLoop, isBadLinkBelow_loop, entities, components, e, e', hentities, hcomponents,
    htopEntities, htopComponents, hbelowComponents⟩

/-! ### The link in the group by a long path -/

theorem Path.length_le_join {p q : Path} (hq : ¬ q.isAbsolute) :
    p.bytes.length ≤ (p.join q).bytes.length := by
  rw [join, if_neg hq]
  split_ifs <;> simp

theorem FileSystem.length_le_of_find {p : Path} {r : Location × Object}
    (h : fs.find true p = .ok r) : p.bytes.length ≤ pathLimit := by
  obtain ⟨stop, hwalk, -⟩ := exists_walk_of_find h
  exact (walk_eq_ok_iff.mp hwalk).2.2.1

/-- The link that leads back cannot be followed from there, and nothing is reported for it. -/
theorem loop_below_longApi_not_reported :
    FileSystem.twoHeroes.find true longApi = .ok ([utf8 "api"], .directory) ∧
      FileSystem.twoHeroes.LinkFree [utf8 "api"] ∧
      FileSystem.twoHeroes.get? [utf8 "api", utf8 "post"] = some .directory ∧
      ¬ Listing.isHidden (utf8 "post") ∧
      FileSystem.twoHeroes.AddsAt .heroesAndLoop [utf8 "api", utf8 "post", utf8 "up"] ∧
      FileSystem.heroesAndLoop.IsBadLinkBelow [[utf8 "api", utf8 "post"], [utf8 "api"]]
        ((longApi.join ⟨utf8 "post"⟩).join ⟨utf8 "up"⟩) [utf8 "api", utf8 "post", utf8 "up"] ∧
      ∃ found, discoverComponents .twoHeroes longApi = .ok found ∧
        discoverComponents .heroesAndLoop longApi = .ok found := by
  have hfree := (isPlainTree_twoHeroes [utf8 "api"]).linkFree
  have hgroup : FileSystem.twoHeroes.get? ([utf8 "api"] ++ [utf8 "post"]) = some .directory := by
    decide
  have hshown : ¬ Listing.isHidden (utf8 "post") := by decide
  have hlong := pathLimit_lt_join_longApi (FileSystem.parent hgroup).2
  have hup : ¬ (⟨utf8 "up"⟩ : Path).isAbsolute := by decide
  have hbad : FileSystem.heroesAndLoop.IsBadLinkBelow [[utf8 "api", utf8 "post"], [utf8 "api"]]
      ((longApi.join ⟨utf8 "post"⟩).join ⟨utf8 "up"⟩) [utf8 "api", utf8 "post", utf8 "up"] := by
    refine ⟨isBadLinkBelow_loop.1, fun r hr => ?_⟩
    have hshort := FileSystem.length_le_of_find hr
    exact absurd (hlong.trans_le (Path.length_le_join hup)) (Nat.not_lt.mpr hshort)
  have hfound := discoverComponents_of_linkFree find_longApi hfree
  refine ⟨find_longApi, hfree, hgroup, hshown, addsAt_heroesAndLoop, hbad, _, hfound, ?_⟩
  rw [discoverComponents_of_overlong find_longApi hfree hgroup hlong addsAt_heroesAndLoop, hfound]

end ContentTypes
