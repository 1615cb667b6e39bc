import ContentTypes.Proofs.Casing.Letters
import ContentTypes.Proofs.Text
import Mathlib
/-!
Separators. A symbol that is neither letter nor digit ends what stands in front of it as the end of
the text would, and the cut starts afresh behind it. So the segments of a text are those of its
parts between separators, and its name is made of theirs.
-/

namespace ContentTypes.Casing

section Cut

variable {α : Type} {gs hs : List (List α)}

/-! ### Segments by their marks -/

theorem isChain_marked (g : List α) : (marked g).IsChain fun _ m => !m.2 := by
  cases g with
  | nil => exact .nil
  | cons a g =>
    have htail : ∀ m ∈ g.map fun b => (b, false), m.2 = false := by simp
    apply List.Pairwise.isChain
    rw [marked, List.pairwise_cons]
    constructor
    · intro m hm
      simp [htail m hm]
    · apply List.pairwise_of_forall_mem_list
      intro _ _ m hm
      simp [htail m hm]

theorem marked_ne_nil {g : List α} (h : g ≠ []) : marked g ≠ [] := by
  cases g with
  | nil => exact absurd rfl h
  | cons a g => simp [marked]

theorem head_marked {g : List α} (h : marked g ≠ []) : ((marked g).head h).2 = true := by
  cases g with
  | nil => exact absurd rfl h
  | cons a g => rfl

/-- Segments that are not empty can be read off their marks: each is a run that starts at a symbol
that opens a segment. -/
theorem splitBy_flatMap_marked (h : ∀ g ∈ gs, g ≠ []) :
    (gs.flatMap marked).splitBy (fun _ m => !m.2) = gs.map marked := by
  have hne : [] ∉ gs.map marked := by
    rw [List.mem_map]
    rintro ⟨g, hg, hnil⟩
    exact marked_ne_nil (h g hg) hnil
  have hborders : (gs.map marked).IsChain fun a b =>
      ∃ (_ : a ≠ []) (hb : b ≠ []), (!(b.head hb).2) = false := by
    apply List.Pairwise.isChain
    apply List.pairwise_of_forall_mem_list
    intro a ha b hb
    obtain ⟨g, hg, rfl⟩ := List.mem_map.mp ha
    obtain ⟨g', hg', rfl⟩ := List.mem_map.mp hb
    refine ⟨marked_ne_nil (h g hg), marked_ne_nil (h g' hg'), ?_⟩
    rw [head_marked]
    rfl
  rw [List.flatMap_def]
  apply List.splitBy_flatten hne _ hborders
  intro m hm
  obtain ⟨g, -, rfl⟩ := List.mem_map.mp hm
  exact isChain_marked g

theorem map_fst_marked (g : List α) : (marked g).map Prod.fst = g := by
  cases g with
  | nil => rfl
  | cons a g => simp [marked, Function.comp_def]

theorem eq_of_flatMap_marked (hg : ∀ g ∈ gs, g ≠ []) (hh : ∀ g ∈ hs, g ≠ [])
    (h : gs.flatMap marked = hs.flatMap marked) : gs = hs := by
  have hmap : gs.map marked = hs.map marked := by
    rw [← splitBy_flatMap_marked hg, ← splitBy_flatMap_marked hh, h]
  have hfst : Function.Injective (marked (α := α)) :=
    Function.LeftInverse.injective map_fst_marked
  exact hfst.list_map hmap

/-! ### Cuts at separators -/

variable (letter : α → Letter)

theorem segments_append_separator {c : α} (hc : letter c = .other) (a b : List α) :
    segments letter (a ++ c :: b) = segments letter a ++ segments letter b := by
  have hne : ∀ l, ∀ g ∈ segments letter l, g ≠ [] :=
    fun l g hg => ne_nil_of_mem_segments letter hg
  apply eq_of_flatMap_marked (hne _)
  · intro g hg
    rcases List.mem_append.mp hg with hg | hg
    · exact hne a g hg
    · exact hne b g hg
  · rw [← marks_eq, marks_append_separator letter hc, marks_eq, marks_eq, List.flatMap_append]

/-- Any number of separators in a row, but at least one, cut like a single one. -/
theorem segments_append_separators {m : List α} (hm : ∀ x ∈ m, letter x = .other) (hne : m ≠ [])
    (a b : List α) :
    segments letter (a ++ (m ++ b)) = segments letter a ++ segments letter b := by
  induction m generalizing a with
  | nil => exact absurd rfl hne
  | cons c m ih =>
    have hc : letter c = .other := hm c List.mem_cons_self
    rw [List.cons_append, segments_append_separator letter hc]
    by_cases hnil : m = []
    · rw [hnil, List.nil_append]
    · have hrest := ih (fun x hx => hm x (List.mem_cons_of_mem c hx)) hnil []
      rw [List.nil_append] at hrest
      rw [hrest, segments, List.nil_append]

end Cut

/-! ### Separators in texts -/

theorem ofCode_eq_other_of_le {n : Nat} (h : 128 ≤ n) : Letter.ofCode n = .other := by
  have hcapital : ¬ ('A'.toNat ≤ n ∧ n ≤ 'Z'.toNat) := by simp only [Char.reduceToNat]; omega
  have hsmall : ¬ ('a'.toNat ≤ n ∧ n ≤ 'z'.toNat) := by simp only [Char.reduceToNat]; omega
  have hdigit : ¬ ('0'.toNat ≤ n ∧ n ≤ '9'.toNat) := by simp only [Char.reduceToNat]; omega
  rw [Letter.ofCode, if_neg hcapital, if_neg hsmall, if_neg hdigit]

theorem ofChar_eq_other {c : Char} (hc : ¬ c.isAlphanum) : Letter.ofChar c = .other := by
  by_contra h
  exact hc (ofChar_ne_other_iff.mp h)

/-- Every byte of a separator separates, also one in the middle of a longer character. -/
theorem ofByte_eq_other {c : Char} (hc : ¬ c.isAlphanum) :
    ∀ b ∈ String.utf8EncodeChar c, Letter.ofByte b = .other := by
  intro b hb
  by_cases hascii : b < 128
  · rw [Letter.ofByte, ← toNat_eq_of_mem_utf8EncodeChar hascii hb]
    exact ofChar_eq_other hc
  · have hle : 128 ≤ b.toNat := by
      have hnot : ¬ b.toNat < 128 := hascii
      omega
    exact ofCode_eq_other_of_le hle

/-- The name of a text, and nothing for one without a name. -/
def nameOrEmpty (s : String) : String :=
  (caseName s).toOption.getD ""

theorem toList_nameOrEmpty (s : String) : (nameOrEmpty s).toList = spelling s.toList := by
  rw [nameOrEmpty, caseName_eq]
  by_cases h : spelling s.toList = []
  · rw [if_pos h, h]
    rfl
  · rw [if_neg h]
    exact String.toList_ofList

theorem exists_caseName_error_iff {s : String} :
    (∃ e, caseName s = .error e) ↔ spelling s.toList = [] := by
  rw [caseName_eq]
  by_cases h : spelling s.toList = []
  · simp [h]
  · simp [h]

/-- Around a character that is neither letter nor digit of ASCII a text falls in two. Its segments,
cut by characters or by the bytes that the text is stored in, are those of the part in front and
those of the part behind; its name is the names of the two, and only where neither has one it has
none. -/
theorem caseName_local_to_separators {c : Char} (hc : ¬ c.isAlphanum) (a b : String) :
    segments Letter.ofChar (a ++ String.singleton c ++ b).toList
        = segments Letter.ofChar a.toList ++ segments Letter.ofChar b.toList ∧
      segments Letter.ofByte (utf8 (a ++ String.singleton c ++ b))
        = segments Letter.ofByte (utf8 a) ++ segments Letter.ofByte (utf8 b) ∧
      nameOrEmpty (a ++ String.singleton c ++ b) = nameOrEmpty a ++ nameOrEmpty b ∧
      ((∃ e, caseName (a ++ String.singleton c ++ b) = .error e)
        ↔ (∃ e, caseName a = .error e) ∧ ∃ e, caseName b = .error e) := by
  have hother : Letter.ofChar c = .other := ofChar_eq_other hc
  have hchars : (a ++ String.singleton c ++ b).toList = a.toList ++ c :: b.toList := by
    simp [String.toList_append]
  have hspelling : spelling (a ++ String.singleton c ++ b).toList
      = spelling a.toList ++ spelling b.toList := by
    rw [hchars, spelling_append_separator hother]
  refine ⟨?characters, ?bytes, ?name, ?unnamed⟩
  case characters =>
    rw [hchars, segments_append_separator Letter.ofChar hother]
  case bytes =>
    have hbytes : utf8 (a ++ String.singleton c ++ b)
        = utf8 a ++ (String.utf8EncodeChar c ++ utf8 b) := by
      rw [utf8, hchars, List.flatMap_append, List.flatMap_cons]
      rfl
    rw [hbytes, segments_append_separators Letter.ofByte (ofByte_eq_other hc)
      String.utf8EncodeChar_ne_nil]
  case name =>
    rw [← String.toList_inj, String.toList_append, toList_nameOrEmpty, toList_nameOrEmpty,
      toList_nameOrEmpty, hspelling]
  case unnamed =>
    rw [exists_caseName_error_iff, exists_caseName_error_iff, exists_caseName_error_iff, hspelling,
      List.append_eq_nil_iff]

/-- An acronym that is cut by a letter outside ASCII, and a part without a name. -/
theorem caseName_local_to_separators_of_accent :
    ¬ 'é'.isAlphanum ∧
      segments Letter.ofChar "blogHTMLéPost2".toList
        = segments Letter.ofChar "blogHTML".toList ++ segments Letter.ofChar "Post2".toList ∧
      segments Letter.ofByte (utf8 "blogHTMLéPost2")
        = segments Letter.ofByte (utf8 "blogHTML") ++ segments Letter.ofByte (utf8 "Post2") ∧
      nameOrEmpty "blogHTMLéPost2" = "BlogHtml" ++ "Post2" := by
  have hc : ¬ 'é'.isAlphanum := by decide
  obtain ⟨hchars, hbytes, hname, -⟩ := caseName_local_to_separators hc "blogHTML" "Post2"
  have htext : "blogHTML" ++ String.singleton 'é' ++ "Post2" = "blogHTMLéPost2" := by decide
  have hfront : nameOrEmpty "blogHTML" = "BlogHtml" := by cbv
  have hback : nameOrEmpty "Post2" = "Post2" := by cbv
  rw [htext] at hchars hbytes hname
  rw [hfront, hback] at hname
  exact ⟨hc, hchars, hbytes, hname⟩

end ContentTypes.Casing
