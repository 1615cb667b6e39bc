import ContentTypes.Proofs.Discovery
import Mathlib
/-!
Hidden entries. A name that starts with a point, right below a schema directory, adds nothing to
what is found there. It is still followed first, so a hidden link that leads nowhere, or back to
the directory, is reported like any other.
-/

namespace ContentTypes

/-- Whether a name in a directory is a link that cannot be followed, or that leads back to the
directory; `dir` is a path to it and `loc` its location. -/
def FileSystem.IsBadLink (fs : FileSystem) (dir : Path) (loc : Location) (n : Name) : Prop :=
  (∃ t, fs.get? (loc ++ [n]) = some (.link t)) ∧
    ∀ r, fs.find true (dir.join ⟨n⟩) = .ok r → r = (loc, .directory)

variable {fs fs' : FileSystem} {dir : Path} {loc : Location} {n : Name}

/-- Whether a link stands at a location that cannot be followed, or that leads to one of the
directories `above` it; `path` is a path to the link. -/
def FileSystem.IsBadLinkBelow (fs : FileSystem) (above : List Location) (path : Path)
    (loc : Location) : Prop :=
  (∃ t, fs.get? loc = some (.link t)) ∧
    ∀ r, fs.find true path = .ok r → ∃ l ∈ above, r = (l, .directory)

theorem FileSystem.isBadLinkBelow_singleton_iff :
    fs.IsBadLinkBelow [loc] (dir.join ⟨n⟩) (loc ++ [n]) ↔ fs.IsBadLink dir loc n := by
  simp [IsBadLinkBelow, IsBadLink]

/-- What is there fails to be followed exactly if it is such a link. -/
theorem Listing.follow_error_iff (ancestors : List Ancestor) {path : Path} {o : Object}
    (ho : fs.get? loc = some o) : (∃ e, follow fs ancestors path loc = .error e) ↔
      fs.IsBadLinkBelow (ancestors.map (·.location)) path loc := by
  rw [follow, FileSystem.IsBadLinkBelow, ho]
  cases o with
  | directory => simp
  | file content => simp
  | link t =>
    cases hfind : fs.find true path with
    | error e => simp
    | ok r =>
      obtain ⟨loc', o'⟩ := r
      cases o' with
      | directory =>
        dsimp only
        cases hfound : ancestors.find? (·.location = loc') with
        | none =>
          have hnone : ∀ a ∈ ancestors, a.location ≠ loc' := by simpa using hfound
          simpa [eq_comm] using hnone
        | some a =>
          have hloc : a.location = loc' := by simpa using List.find?_some hfound
          simpa using ⟨a, List.mem_of_find?_eq_some hfound, hloc.symm⟩
      | file content => simp
      | link t => simp

theorem Listing.exists_follow_error_iff (dir : Path) {o : Object}
    (ho : fs.get? (loc ++ [n]) = some o) :
    (∃ e, follow fs [⟨dir, loc⟩] (dir.join ⟨n⟩) (loc ++ [n]) = .error e)
      ↔ fs.IsBadLink dir loc n :=
  (follow_error_iff _ ho).trans FileSystem.isBadLinkBelow_singleton_iff

section
variable (hdir : fs.find true dir = .ok (loc, .directory)) (hfree : fs.LinkFree loc)
  (hadd : fs.AddsAt fs' (loc ++ [n]))
include hdir hfree hadd

/-- One more name that is hidden changes no listing, if it can be followed. -/
theorem Listing.list_of_isHidden (hn : isHidden n) {isDirectory : Bool}
    (h : follow fs' [⟨dir, loc⟩] (dir.join ⟨n⟩) (loc ++ [n]) = .ok isDirectory) (levels : Nat) :
    list fs' dir (levels + 1) = list fs dir (levels + 1) := by
  have hopen : Ancestor.IsOpen fs ⟨dir, loc⟩ := hdir
  obtain ⟨front, back, hold, hnew⟩ := exists_entries_of_addsAt hopen hadd hfree levels 1 [] []
  rw [list_of_directory hdir, list_of_directory (FileSystem.find_of_extends hadd.extends hdir),
    hold, hnew, items_of_isHidden hn h, List.nil_append]

/-- One more name that cannot be followed, hidden or not, is one more thing that every discovery
reports. -/
theorem Discovery.exists_discover_of_error {e : ListError}
    (h : Listing.follow fs' [⟨dir, loc⟩] (dir.join ⟨n⟩) (loc ++ [n]) = .error e)
    {origin : Origin} {levels : Nat} {α : Type} {unit? : Entry → Option α} {units : List α}
    {diagnostics : List Diagnostic}
    (hfound : discover origin (levels + 1) unit? fs dir = .ok ⟨units, diagnostics⟩) :
    ∃ before after, diagnostics = before ++ after ∧
      discover origin (levels + 1) unit? fs' dir
        = .ok ⟨units, before ++ ⟨origin, e.path.display, .listing e⟩ :: after⟩ := by
  have hopen : Listing.Ancestor.IsOpen fs ⟨dir, loc⟩ := hdir
  have hdir' := FileSystem.find_of_extends hadd.extends hdir
  exact discover_of_oneMore (Listing.list_of_directory hdir levels)
    (Listing.list_of_directory hdir' levels)
    (Listing.oneMore_entries_of_error hopen hadd hfree h levels 1 []) hfound

/-- Entities are discovered without anything to report, so that this is all that is reported. -/
theorem discoverEntities_of_error {e : ListError}
    (h : Listing.follow fs' [⟨dir, loc⟩] (dir.join ⟨n⟩) (loc ++ [n]) = .error e)
    {entities : List EntityUnit} (hfound : discoverEntities fs dir = .ok ⟨entities, []⟩) :
    discoverEntities fs' dir = .ok ⟨entities, [⟨.entity, e.path.display, .listing e⟩]⟩ := by
  obtain ⟨before, after, hsplit, hnew⟩ :=
    Discovery.exists_discover_of_error hdir hfree hadd h hfound
  obtain ⟨rfl, rfl⟩ := List.append_eq_nil_iff.mp hsplit.symm
  exact hnew

end

/-- In a tree without links, one more hidden name in the listed directory never changes the units
that are found. It changes what is reported exactly if it is a link that cannot be followed or that
leads back to the directory: that link is then reported once more by each discovery. -/
theorem hidden_entry_reported_iff_isBadLink (hdir : fs.find true dir = .ok (loc, .directory))
    (hfree : fs.LinkFree loc) (hadd : fs.AddsAt fs' (loc ++ [n]))
    (hn : Listing.isHidden n) :
    (discoverEntities fs' dir = discoverEntities fs dir ∧
      discoverComponents fs' dir = discoverComponents fs dir ↔ ¬ fs'.IsBadLink dir loc n) ∧
    ∃ entities components diagnostics, discoverEntities fs dir = .ok ⟨entities, []⟩ ∧
      discoverComponents fs dir = .ok ⟨components, diagnostics⟩ ∧
      (fs'.IsBadLink dir loc n → ∃ e before after, e.path = dir.join ⟨n⟩ ∧
        diagnostics = before ++ after ∧
        discoverEntities fs' dir
          = .ok ⟨entities, [⟨.entity, e.path.display, .listing e⟩]⟩ ∧
        discoverComponents fs' dir
          = .ok ⟨components, before ++ ⟨.component, e.path.display, .listing e⟩ :: after⟩) := by
  obtain ⟨o, ho⟩ := hadd.present
  have hentities := discoverEntities_of_linkFree hdir hfree
  have hcomponents := discoverComponents_of_linkFree hdir hfree
  have hbad := Listing.exists_follow_error_iff dir ho
  cases hfollow : Listing.follow fs' [⟨dir, loc⟩] (dir.join ⟨n⟩) (loc ++ [n]) with
  | ok isDirectory =>
    have hgood : ¬ fs'.IsBadLink dir loc n := by
      rw [← hbad]
      rintro ⟨e, he⟩
      rw [hfollow] at he
      cases he
    have hlist (levels : Nat) := Listing.list_of_isHidden hdir hfree hadd hn hfollow levels
    have hsame : discoverEntities fs' dir = discoverEntities fs dir :=
      Discovery.discover_congr (hlist 0)
    have hsame' : discoverComponents fs' dir = discoverComponents fs dir :=
      Discovery.discover_congr (hlist 1)
    exact ⟨iff_of_true ⟨hsame, hsame'⟩ hgood, _, _, _, hentities, hcomponents,
      fun hlink => absurd hlink hgood⟩
  | error e =>
    have hlink : fs'.IsBadLink dir loc n := hbad.mp ⟨e, hfollow⟩
    have hmore := discoverEntities_of_error hdir hfree hadd hfollow hentities
    obtain ⟨before, after, hsplit, hmore'⟩ :=
      Discovery.exists_discover_of_error hdir hfree hadd hfollow hcomponents
    refine ⟨iff_of_false ?_ (not_not_intro hlink), _, _, _, hentities, hcomponents,
      fun _ => ⟨e, before, after, Listing.path_of_follow_error hfollow, hsplit, hmore, hmore'⟩⟩
    rintro ⟨hsame, -⟩
    have hdiagnostics := (hmore.symm.trans hsame).trans hentities
    cases hdiagnostics

/-! ### Hidden names beside one entity -/

/-- One entity without a schema. -/
def FileSystem.onePost : FileSystem :=
  ofObjects [([utf8 "api"], .directory), ([utf8 "api", utf8 "post"], .directory)] (by decide)
    (by decide)

theorem linkFree_onePost (loc : Location) : FileSystem.onePost.LinkFree loc := by
  apply FileSystem.linkFree_of_objects
  simp [FileSystem.onePost, FileSystem.ofObjects]

/-- A hidden directory beside the entity. -/
def FileSystem.onePostAndGit : FileSystem :=
  onePost.put [utf8 "api", utf8 ".git"] .directory (by decide)

theorem hidden_directory_not_reported :
    FileSystem.onePost.find true (.ofString "/api") = .ok ([utf8 "api"], .directory) ∧
      FileSystem.onePost.LinkFree [utf8 "api"] ∧
      FileSystem.onePost.AddsAt .onePostAndGit [utf8 "api", utf8 ".git"] ∧
      Listing.isHidden (utf8 ".git") ∧
      discoverEntities .onePostAndGit (.ofString "/api")
        = discoverEntities .onePost (.ofString "/api") ∧
      discoverComponents .onePostAndGit (.ofString "/api")
        = discoverComponents .onePost (.ofString "/api") := by
  have hdir : FileSystem.onePost.find true (.ofString "/api") = .ok ([utf8 "api"], .directory) := by
    cbv
  have hfree := linkFree_onePost [utf8 "api"]
  have hadd : FileSystem.onePost.AddsAt .onePostAndGit [utf8 "api", utf8 ".git"] :=
    FileSystem.addsAt_put _ (by decide)
  have hn : Listing.isHidden (utf8 ".git") := by decide
  obtain ⟨hiff, -⟩ := hidden_entry_reported_iff_isBadLink hdir hfree hadd hn
  refine ⟨hdir, hfree, hadd, hn, hiff.mpr ?_⟩
  rintro ⟨⟨t, ht⟩, -⟩
  have hget : FileSystem.onePostAndGit.get? [utf8 "api", utf8 ".git"] = some .directory :=
    FileSystem.get?_put_self _
  cases hget.symm.trans ht

/-- A hidden link beside the entity, which leads to a name that is not there. -/
def FileSystem.onePostAndLink : FileSystem :=
  onePost.put [utf8 "api", utf8 ".old"] (.link (.ofString "gone")) (by decide)

theorem find_onePostAndLink :
    FileSystem.onePostAndLink.find true (.ofString "/api/.old") = .error .notFound := by
  have hwalk : FileSystem.onePostAndLink.walk (.ofString "/api/.old")
      = .ok ⟨[utf8 "api"], some (utf8 ".old"), 40⟩ := by
    cbv
  have hlink : FileSystem.onePostAndLink.lookup [utf8 "api"] (utf8 ".old")
      = .ok (some (.link (.ofString "gone"))) := by
    cbv
  have hdescend : FileSystem.onePostAndLink.descend 39
      (FileSystem.start [utf8 "api"] (.ofString "gone")) (Path.ofString "gone").parts
      = .ok ⟨[utf8 "api"], some (utf8 "gone"), 39⟩ := by
    cbv
  -- the settling of a link does not evaluate by itself: its equation is used once, by hand
  refine (FileSystem.find_eq_of_link hwalk rfl hlink rfl hdescend).trans ?_
  cbv

/-- A hidden link that leads nowhere is reported. -/
theorem hidden_link_reported :
    FileSystem.onePost.LinkFree [utf8 "api"] ∧
      FileSystem.onePost.find true (.ofString "/api") = .ok ([utf8 "api"], .directory) ∧
      FileSystem.onePost.AddsAt FileSystem.onePostAndLink [utf8 "api", utf8 ".old"] ∧
      Listing.isHidden (utf8 ".old") ∧
      discoverEntities .onePost (.ofString "/api")
        = .ok ⟨[.new (.ofString "/api") "post"], []⟩ ∧
      discoverEntities .onePostAndLink (.ofString "/api")
        = .ok ⟨[.new (.ofString "/api") "post"], [⟨.entity, "/api/.old",
            .listing (.os (.ofString "/api/.old") .notFound)⟩]⟩ := by
  have hfree := linkFree_onePost [utf8 "api"]
  have hdir : FileSystem.onePost.find true (.ofString "/api") = .ok ([utf8 "api"], .directory) := by
    cbv
  have hadd : FileSystem.onePost.AddsAt .onePostAndLink [utf8 "api", utf8 ".old"] :=
    FileSystem.addsAt_put _ (by decide)
  have hn : Listing.isHidden (utf8 ".old") := by decide
  have hold : discoverEntities .onePost (.ofString "/api")
      = .ok ⟨[.new (.ofString "/api") "post"], []⟩ := by
    cbv
  refine ⟨hfree, hdir, hadd, hn, hold, ?_⟩
  have hget : FileSystem.onePostAndLink.get? [utf8 "api", utf8 ".old"]
      = some (.link (.ofString "gone")) := by
    cbv
  have hfollow : Listing.follow .onePostAndLink [⟨.ofString "/api", [utf8 "api"]⟩]
      ((Path.ofString "/api").join ⟨utf8 ".old"⟩) [utf8 "api", utf8 ".old"]
      = .error (.os (.ofString "/api/.old") .notFound) := by
    have hpath : (Path.ofString "/api").join ⟨utf8 ".old"⟩ = .ofString "/api/.old" := by cbv
    rw [Listing.follow, hget, hpath]
    simp only [find_onePostAndLink]
  have hdisplay : (Path.ofString "/api/.old").display = "/api/.old" := displayBytes_utf8 _
  have hmore := discoverEntities_of_error hdir hfree hadd hfollow hold
  rwa [ListError.path, hdisplay] at hmore

end ContentTypes
