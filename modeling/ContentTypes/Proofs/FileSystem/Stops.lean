import ContentTypes.Proofs.FileSystem.Writing
import Mathlib
/-!
Where paths stop. From a working directory that is there, a path is taken up to its last part in
directories only, links on the way included, and what is left of it is a name unless it is too long.
So whatever a path makes or writes finds a directory to be put in.
-/

namespace ContentTypes

namespace Path

theorem mem_of_mem_split {bytes part : List UInt8} {b : UInt8} (hpart : part ∈ split bytes)
    (hb : b ∈ part) : b ∈ bytes ∧ b ≠ slash := by
  induction bytes generalizing part with
  | nil =>
    rw [List.mem_singleton.mp hpart] at hb
    cases hb
  | cons c bytes ih =>
    rw [split_cons] at hpart
    obtain ⟨first, others, hsplit⟩ := List.exists_cons_of_ne_nil (split_ne_nil bytes)
    rw [hsplit] at hpart ih
    split_ifs at hpart with hc
    · rcases List.mem_cons.mp hpart with rfl | hpart
      · cases hb
      · exact (ih hpart hb).imp_left (List.mem_cons_of_mem c)
    · rcases List.mem_cons.mp hpart with rfl | hpart
      · rcases List.mem_cons.mp hb with rfl | hb
        · exact ⟨List.mem_cons_self, hc⟩
        · exact (ih List.mem_cons_self hb).imp_left (List.mem_cons_of_mem c)
      · exact (ih (List.mem_cons_of_mem _ hpart) hb).imp_left (List.mem_cons_of_mem c)

end Path

namespace FileSystem

variable {fs : FileSystem} {dir loc : Location} {n : Name} {p : Path} {s : Stop}
  {content : ByteArray} {mustBeDirectory : Bool}

/-- What stands between two slashes of a path can be a name, as far as its bytes go. -/
structure IsPart (n : Name) : Prop where
  ne_nil : n ≠ []
  noSlash : Path.slash ∉ n
  noZero : 0 ∉ n

theorem isPart_of_mem_parts (hp : 0 ∉ p.bytes) (hn : n ∈ p.parts) : IsPart n := by
  rw [Path.parts, List.mem_filter, decide_eq_true_eq] at hn
  obtain ⟨hsplit, hne⟩ := hn
  exact ⟨hne, fun h => (Path.mem_of_mem_split hsplit h).2 rfl,
    fun h => hp (Path.mem_of_mem_split hsplit h).1⟩

/-- A stop in a directory, in front of a name if this is not too long. -/
structure Stop.IsSound (fs : FileSystem) (s : Stop) : Prop where
  directory : fs.get? s.directory = some .directory
  isName : ∀ n ∈ s.entry, n.length ≤ nameLimit → IsName n

/-! ### Taking a path -/

theorem get?_dropLast (h : fs.get? dir = some .directory) :
    fs.get? dir.dropLast = some .directory := by
  rcases List.eq_nil_or_concat dir with rfl | ⟨l, n, rfl⟩
  · exact h
  · rw [List.concat_eq_append] at h ⊢
    rw [List.dropLast_concat]
    exact (parent h).1

theorem get?_start (h : fs.get? dir = some .directory) (p : Path) :
    fs.get? (start dir p) = some .directory := by
  rw [start]
  split_ifs
  · rfl
  · exact h

/-- Every link can be followed, as far as its target goes. -/
theorem zero_notMem_of_link {t : Path} (h : fs.get? loc = some (.link t)) : 0 ∉ t.bytes := by
  rw [get?, objectAt] at h
  split_ifs at h
  · cases h
  · exact (fs.sound _ (Table.mem_of_get? h)).2

theorem isPart_of_link {t : Path} (h : fs.get? loc = some (.link t)) (hn : n ∈ t.parts) :
    IsPart n :=
  isPart_of_mem_parts (zero_notMem_of_link h) hn

theorem isSound_of_descend {links : Nat} {parts : List Name}
    (hdir : fs.get? dir = some .directory) (hparts : ∀ n ∈ parts, IsPart n)
    (hs : fs.descend links dir parts = .ok s) : s.IsSound fs := by
  fun_induction descend fs links dir parts with
  | case1 =>
    cases hs
    exact ⟨hdir, by simp⟩
  | case2 _ _ _ ih => exact ih hdir (fun n hn => hparts n (List.mem_cons_of_mem _ hn)) hs
  | case3 _ _ _ _ ih =>
    exact ih (get?_dropLast hdir) (fun n hn => hparts n (List.mem_cons_of_mem _ hn)) hs
  | case4 _ _ n hdot hdots =>
    cases hs
    refine ⟨hdir, ?_⟩
    rintro _ ⟨⟩ hlength
    obtain ⟨hne, hslash, hzero⟩ := hparts n List.mem_cons_self
    exact ⟨hne, hdot, hdots, hslash, hzero, hlength⟩
  | case5 | case6 | case7 | case9 => cases hs
  | case8 _ _ _ _ _ _ _ hlookup ih =>
    exact ih (get?_of_lookup hlookup) (fun n hn => hparts n (List.mem_cons_of_mem _ hn)) hs
  | case10 _ _ _ _ _ _ t hlookup _ ih =>
    refine ih (get?_start hdir t) ?_ hs
    intro n hn
    rcases List.mem_append.mp hn with hn | hn
    · exact isPart_of_link (get?_of_lookup hlookup) hn
    · exact hparts n (List.mem_cons_of_mem _ hn)

theorem isSound_of_walk (hworking : fs.get? fs.workingDirectory = some .directory)
    (hs : fs.walk p = .ok s) : s.IsSound fs := by
  obtain ⟨hzero, -, -, hdescend⟩ := walk_eq_ok_iff.mp hs
  exact isSound_of_descend (get?_start hworking p) (fun _ => isPart_of_mem_parts hzero) hdescend

/-! ### Room for what is made or written -/

theorem Stop.IsSound.isPlace (h : s.IsSound fs) (hn : n ∈ s.entry) {o : Option Object}
    (hlookup : fs.lookup s.directory n = .ok o) : IsPlace fs.objects (s.directory ++ [n]) := by
  rw [lookup] at hlookup
  split_ifs at hlookup with hlength
  exact isPlace_append_iff.mpr ⟨h.directory, h.isName n hn (Nat.le_of_not_lt hlength)⟩

theorem isPlace_of_landing (hsound : s.IsSound fs) (h : fs.landing mustBeDirectory s = .ok loc) :
    IsPlace fs.objects loc := by
  fun_induction landing fs mustBeDirectory s with
  | case1 | case2 | case3 | case5 | case7 | case8 => cases h
  | case4 _ _ _ hn _ hlookup | case6 _ _ _ hn _ _ hlookup =>
    cases h
    exact hsound.isPlace hn hlookup
  | case9 _ _ _ hn _ t hlookup _ _ _ hdescend ih =>
    have hpart := fun n (hn : n ∈ t.parts) => isPart_of_link (get?_of_lookup hlookup) hn
    exact ih (isSound_of_descend (get?_start hsound.directory t) hpart hdescend) h

variable (hworking : fs.get? fs.workingDirectory = some .directory)
include hworking

/-- A directory can be made wherever a path ends in a name that is free. -/
theorem exists_makeDirectory_iff : (∃ fs', fs.makeDirectory p = .ok fs') ↔
    ∃ s n, fs.walk p = .ok s ∧ s.entry = some n ∧ fs.lookup s.directory n = .ok none := by
  constructor
  · rintro ⟨fs', h⟩
    obtain ⟨s, n, hs, hn, hnone, -⟩ := makeDirectory_eq_ok_iff.mp h
    exact ⟨s, n, hs, hn, hnone⟩
  · rintro ⟨s, n, hs, hn, hnone⟩
    have hadmits : fs.Admits (s.directory ++ [n]) .directory :=
      ⟨(isSound_of_walk hworking hs).isPlace hn hnone, trivial, fun _ => rfl⟩
    exact ⟨_, makeDirectory_eq_ok_iff.mpr
      ⟨s, n, hs, hn, hnone, place_eq_ok_iff.mpr ⟨hadmits, rfl⟩⟩⟩

/-- A file can be written wherever a path lands. -/
theorem exists_writeFile_iff : (∃ fs', fs.writeFile p content = .ok fs') ↔
    ∃ s loc, fs.walk p = .ok s ∧ fs.landing p.endsInSlash s = .ok loc := by
  constructor
  · rintro ⟨fs', h⟩
    obtain ⟨s, loc, hs, hloc, -⟩ := writeFile_eq_ok_iff.mp h
    exact ⟨s, loc, hs, hloc⟩
  · rintro ⟨s, loc, hs, hloc⟩
    have hadmits : fs.Admits loc (.file content) := by
      refine ⟨isPlace_of_landing (isSound_of_walk hworking hs) hloc, trivial, fun hdir => ?_⟩
      rcases get?_of_landing hloc with hnone | ⟨c, hfile⟩
      · cases hnone.symm.trans hdir
      · cases hfile.symm.trans hdir
    exact ⟨_, writeFile_eq_ok_iff.mpr ⟨s, loc, hs, hloc, place_eq_ok_iff.mpr ⟨hadmits, rfl⟩⟩⟩

end FileSystem
end ContentTypes
