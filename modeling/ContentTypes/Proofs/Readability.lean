import ContentTypes.Proofs.Layout
import ContentTypes.Proofs.Text
import Mathlib
/-!
Reading the pretty layout back. Line feeds tell its lines and empty lines its declarations, and in a
line the first colon ends the key, so every name, key and type is read back, whatever else these
hold. Only a line feed, a colon in a key, or a single quote in a type, where it is left out, can
mislead a reader.
-/

namespace ContentTypes

/-! ### Readers against printers -/

/-- A reader gives back what a printer was given, if that is fit to be printed, and reads nothing
that is not printed so. -/
structure ReadsBack {α β : Type} (read : α → Option β) (print : β → α) (fit : β → Prop) :
    Prop where
  iff : ∀ a b, read a = some b ↔ fit b ∧ print b = a

section
variable {α β γ : Type} {read : α → Option β} {print : β → α} {fit : β → Prop}

theorem ReadsBack.eq_of_print {b c : β} (h : ReadsBack read print fit) (hb : fit b) (hc : fit c)
    (hbc : print b = print c) : b = c := by
  have hread : read (print c) = some b := (h.iff _ _).mpr ⟨hb, hbc⟩
  exact Option.some.inj (hread.symm.trans ((h.iff _ _).mpr ⟨hc, rfl⟩))

/-- What is printed inside what is printed. -/
theorem ReadsBack.bind {read' : β → Option γ} {print' : γ → β} {fit' : γ → Prop}
    (h : ReadsBack read print fit) (h' : ReadsBack read' print' fit') :
    ReadsBack (fun a => (read a).bind read') (fun c => print (print' c))
      (fun c => fit' c ∧ fit (print' c)) where
  iff a c := by
    simp only [Option.bind_eq_some_iff, h.iff, h'.iff]
    constructor
    · rintro ⟨_, ⟨hfit, rfl⟩, hfit', rfl⟩
      exact ⟨⟨hfit', hfit⟩, rfl⟩
    · rintro ⟨⟨hfit', hfit⟩, rfl⟩
      exact ⟨print' c, ⟨hfit, rfl⟩, hfit', rfl⟩

theorem ReadsBack.fit_iff {fit' : β → Prop} (h : ReadsBack read print fit)
    (hfit : ∀ b, fit b ↔ fit' b) : ReadsBack read print fit' where
  iff a b := by rw [h.iff, hfit]

theorem ReadsBack.mapM (h : ReadsBack read print fit) :
    ReadsBack (fun l : List α => l.mapM read) (fun m => m.map print) (fun m => ∀ b ∈ m, fit b) where
  iff l m := by
    induction l generalizing m with
    | nil => cases m <;> simp
    | cons a l ih =>
      simp only [List.mapM_cons, Option.bind_eq_bind, Option.bind_eq_some_iff, h.iff, ih,
        Option.pure_def, Option.some.injEq]
      constructor
      · rintro ⟨b, ⟨hb, rfl⟩, m, ⟨hm, rfl⟩, rfl⟩
        exact ⟨List.forall_mem_cons.mpr ⟨hb, hm⟩, rfl⟩
      · rintro ⟨hfit, hprint⟩
        cases m with
        | nil => cases hprint
        | cons b m =>
          obtain ⟨hb, hm⟩ := List.forall_mem_cons.mp hfit
          obtain ⟨rfl, rfl⟩ := List.cons.inj hprint
          exact ⟨b, ⟨hb, rfl⟩, m, ⟨hm, rfl⟩, rfl⟩

end

/-! ### Pieces of lists -/

section
variable {α : Type} [DecidableEq α]

/-- What stands between a front and a back, if a list has both. -/
def between? (front back l : List α) : Option (List α) :=
  let middle := (l.drop front.length).take (l.length - front.length - back.length)
  if front ++ middle ++ back = l then some middle else none

theorem readsBack_between? (front back : List α) :
    ReadsBack (between? front back) (fun m => front ++ m ++ back) (fun _ => True) where
  iff l m := by
    rw [between?, true_and]
    constructor
    · intro h
      split_ifs at h with hl
      cases h
      exact hl
    · rintro rfl
      simp

/-- The pieces of a list that are ended by a mark each. -/
def pieces? (mark : α) : List α → Option (List (List α))
  | [] => some []
  | a :: l =>
    match pieces? mark l with
    | none => none
    | some ps =>
      if a = mark then some ([] :: ps)
      else
        match ps with
        | [] => none
        | p :: ps => some ((a :: p) :: ps)

variable {mark : α} {l : List α} {ps : List (List α)}

theorem eq_of_pieces? (h : pieces? mark l = some ps) :
    (∀ p ∈ ps, mark ∉ p) ∧ ps.flatMap (· ++ [mark]) = l := by
  fun_induction pieces? mark l generalizing ps with
  | case1 =>
    cases h
    simp
  | case2 => cases h
  | case3 l qs hqs ih =>
    cases h
    obtain ⟨hmark, hl⟩ := ih hqs
    exact ⟨List.forall_mem_cons.mpr ⟨List.not_mem_nil, hmark⟩, by simp [hl]⟩
  | case4 => cases h
  | case5 a l ha q qs hqs ih =>
    cases h
    obtain ⟨hmark, hl⟩ := ih hqs
    rw [List.forall_mem_cons] at hmark ⊢
    refine ⟨⟨?_, hmark.2⟩, by simp [← hl]⟩
    simpa [Ne.symm ha] using hmark.1

theorem pieces?_of_eq (hmark : ∀ p ∈ ps, mark ∉ p) (hl : ps.flatMap (· ++ [mark]) = l) :
    pieces? mark l = some ps := by
  induction l generalizing ps with
  | nil =>
    cases ps with
    | nil => rfl
    | cons p ps => simp at hl
  | cons a l ih =>
    cases ps with
    | nil => cases hl
    | cons p ps =>
      obtain ⟨hp, hps⟩ := List.forall_mem_cons.mp hmark
      cases p with
      | nil =>
        simp only [List.flatMap_cons, List.nil_append, List.singleton_append,
          List.cons.injEq] at hl
        obtain ⟨rfl, hl⟩ := hl
        simp [pieces?, ih hps hl]
      | cons b p =>
        simp only [List.flatMap_cons, List.cons_append, List.cons.injEq] at hl
        obtain ⟨rfl, hl⟩ := hl
        rw [List.mem_cons, not_or] at hp
        have hrest : pieces? mark l = some (p :: ps) :=
          ih (List.forall_mem_cons.mpr ⟨hp.2, hps⟩) hl
        simp [pieces?, hrest, Ne.symm hp.1]

/-- Pieces without the mark that ends them can be put together in one way only. -/
theorem readsBack_pieces? (mark : α) :
    ReadsBack (pieces? mark) (fun ps => ps.flatMap (· ++ [mark]))
      (fun ps => ∀ p ∈ ps, mark ∉ p) where
  iff _ _ := ⟨eq_of_pieces?, fun h => pieces?_of_eq h.1 h.2⟩

end

/-! ### Lines of a declaration -/

namespace Layout

/-- What a declaration shows of itself: its name and its fields. -/
def shown (d : Declaration) : String × List (String × String) :=
  (d.name, d.fields)

/-- What the first line of a declaration starts with. -/
def opening : List Char := "export interface ".toList

def nameLine (name : String) : List Char :=
  opening ++ name.toList ++ [' ', '\x7b']

def fieldLine (f : String × String) : List Char :=
  [' ', ' '] ++ (f.1.toList ++ ':' :: ' ' :: f.2.toList) ++ [';']

def lines (s : String × List (String × String)) : List (List Char) :=
  nameLine s.1 :: (s.2.map fieldLine ++ [['\x7d']])

/-- The name in the first line of a declaration. -/
def name? (line : List Char) : Option String :=
  (between? opening [' ', '\x7b'] line).bind fun l => some (String.ofList l)

/-- The key in front of the first colon of a text, and the type behind it. -/
def keyAndType? (l : List Char) : Option (String × String) :=
  match l.dropWhile (· ≠ ':') with
  | ':' :: ' ' :: type =>
    if '\x27' ∈ type then none
    else some (String.ofList (l.takeWhile (· ≠ ':')), String.ofList type)
  | _ => none

def field? (line : List Char) : Option (String × String) :=
  (between? [' ', ' '] [';'] line).bind keyAndType?

/-- The declaration in a group of lines. -/
def declaration? : List (List Char) → Option (String × List (String × String))
  | [] => none
  | first :: rest =>
    (name? first).bind fun name =>
      ((between? [] [['\x7d']] rest).bind (·.mapM field?)).map fun fields => (name, fields)

/-- The declarations in a pretty text, as they show themselves. -/
def read? (text : String) : Option (List (String × List (String × String))) :=
  (between? [] SupportingType.allText text.toList).bind fun body =>
    (pieces? '\n' body).bind fun ls => (pieces? [] ls).bind (·.mapM declaration?)

theorem readsBack_ofList :
    ReadsBack (fun l => some (String.ofList l)) String.toList (fun _ => True) where
  iff l s := by
    rw [Option.some.injEq, true_and, ← String.toList_inj, String.toList_ofList, eq_comm]

theorem readsBack_name? : ReadsBack name? nameLine (fun _ => True) :=
  ((readsBack_between? _ _).bind readsBack_ofList).fit_iff (by simp)

/-- A key without a colon, and a type that is written as it is. -/
def FieldIsPlain (f : String × String) : Prop :=
  ':' ∉ f.1.toList ∧ '\x27' ∉ f.2.toList

theorem readsBack_keyAndType? : ReadsBack keyAndType?
    (fun f => f.1.toList ++ ':' :: ' ' :: f.2.toList) FieldIsPlain where
  iff l f := by
    obtain ⟨key, type⟩ := f
    constructor
    · intro h
      rw [keyAndType?] at h
      split at h
      case h_1 t hdrop =>
        split_ifs at h with hquote
        obtain ⟨rfl, rfl⟩ := Prod.mk.inj (Option.some.inj h)
        refine ⟨⟨fun hmem => ?_, ?_⟩, ?_⟩
        · rw [String.toList_ofList] at hmem
          simpa using List.mem_takeWhile_imp hmem
        · rwa [String.toList_ofList]
        · rw [String.toList_ofList, String.toList_ofList, ← hdrop]
          exact List.takeWhile_append_dropWhile
      case h_2 => cases h
    · rintro ⟨⟨hcolon, hquote⟩, rfl⟩
      have hhead : ∀ c ∈ (':' :: ' ' :: type.toList).head?, c = ':' := by simp
      rw [keyAndType?, dropWhile_ne_append hcolon hhead, takeWhile_ne_append hcolon hhead]
      simp [hquote]

theorem readsBack_field? : ReadsBack field? fieldLine FieldIsPlain :=
  ((readsBack_between? _ _).bind readsBack_keyAndType?).fit_iff (by simp)

theorem readsBack_fieldLines : ReadsBack
    (fun ls => (between? [] [['\x7d']] ls).bind (·.mapM field?))
    (fun fields => fields.map fieldLine ++ [['\x7d']])
    (fun fields => ∀ f ∈ fields, FieldIsPlain f) :=
  ((readsBack_between? [] [['\x7d']]).bind readsBack_field?.mapM).fit_iff (by simp)

theorem readsBack_declaration? :
    ReadsBack declaration? lines (fun s => ∀ f ∈ s.2, FieldIsPlain f) where
  iff group s := by
    cases group with
    | nil => simp [declaration?, lines]
    | cons first rest =>
      obtain ⟨name, fields⟩ := s
      simp only [declaration?, Option.bind_eq_some_iff, Option.map_eq_some_iff,
        readsBack_name?.iff, readsBack_fieldLines.iff, lines, Prod.mk.injEq, List.cons.injEq]
      constructor
      · rintro ⟨_, ⟨-, rfl⟩, _, ⟨hplain, rfl⟩, rfl, rfl⟩
        exact ⟨hplain, rfl, rfl⟩
      · rintro ⟨hplain, rfl, rfl⟩
        exact ⟨name, ⟨trivial, rfl⟩, fields, ⟨hplain, rfl⟩, rfl, rfl⟩

/-! ### Lines of a text -/

/-- The pretty text of what declarations show of themselves, line by line. -/
def textOf (ss : List (String × List (String × String))) : String :=
  String.ofList (((ss.map lines).flatMap (· ++ [[]])).flatMap (· ++ ['\n'])
    ++ SupportingType.allText)

theorem nil_notMem_lines (s : String × List (String × String)) : [] ∉ lines s := by
  simp [lines, nameLine, fieldLine]

/-- Lines that are lines of the text as well, with fields that can be read. -/
def LinesArePlain (s : String × List (String × String)) : Prop :=
  (∀ f ∈ s.2, FieldIsPlain f) ∧ ∀ line ∈ lines s, '\n' ∉ line

theorem readsBack_read? : ReadsBack read? textOf (fun ss => ∀ s ∈ ss, LinesArePlain s) where
  iff t ss := by
    have hgroups := (readsBack_pieces? ([] : List Char)).bind readsBack_declaration?.mapM
    have hbody := (readsBack_between? [] SupportingType.allText).bind
      ((readsBack_pieces? '\n').bind hgroups)
    refine (hbody.iff t.toList ss).trans ?_
    have htext : textOf ss = t ↔ ((ss.map lines).flatMap (· ++ [[]])).flatMap (· ++ ['\n'])
        ++ SupportingType.allText = t.toList := by
      rw [← String.toList_inj, textOf, String.toList_ofList]
    rw [htext, List.nil_append, and_true]
    simp only [List.forall_mem_map, List.forall_mem_flatMap, List.forall_mem_append,
      List.forall_mem_singleton, nil_notMem_lines, List.not_mem_nil, not_false_eq_true,
      implies_true, and_true, LinesArePlain, forall₂_and]

/-! ### Declarations that are read back -/

/-- A declaration that keeps to its lines, with keys and types that can be told apart. -/
structure IsLegible (d : Declaration) : Prop where
  name : '\n' ∉ d.name.toList
  key : ∀ f ∈ d.fields, '\n' ∉ f.1.toList ∧ ':' ∉ f.1.toList
  type : ∀ f ∈ d.fields, '\n' ∉ f.2.toList ∧ '\x27' ∉ f.2.toList

/-- A type with a line feed in it may be written like two fields. -/
example : pretty.fieldText ("id", "number;\n  name: string")
    = [("id", "number"), ("name", "string")].flatMap pretty.fieldText := by
  decide

theorem newline_notMem_opening : '\n' ∉ opening := by
  unfold opening
  simp

theorem newline_notMem_nameLine_iff {name : String} :
    '\n' ∉ nameLine name ↔ '\n' ∉ name.toList := by
  simp [nameLine, newline_notMem_opening]

theorem newline_notMem_fieldLine_iff {f : String × String} :
    '\n' ∉ fieldLine f ↔ '\n' ∉ f.1.toList ∧ '\n' ∉ f.2.toList := by
  simp [fieldLine]

theorem isLegible_iff {d : Declaration} : IsLegible d ↔ LinesArePlain (shown d) := by
  simp only [LinesArePlain, lines, shown, List.forall_mem_cons, List.forall_mem_append,
    List.forall_mem_map, newline_notMem_nameLine_iff, newline_notMem_fieldLine_iff]
  constructor
  · intro h
    refine ⟨fun f hf => ⟨(h.key f hf).2, (h.type f hf).2⟩, h.name,
      fun f hf => ⟨(h.key f hf).1, (h.type f hf).1⟩, by simp⟩
  · rintro ⟨hplain, hname, hlines, -⟩
    exact ⟨hname, fun f hf => ⟨(hlines f hf).1, (hplain f hf).1⟩,
      fun f hf => ⟨(hlines f hf).2, (hplain f hf).2⟩⟩

/-- A line feed in front of every piece and one behind all of them end every piece, after a first
line feed. -/
theorem flatMap_ended {β : Type} (g : β → List Char) (l : List β) :
    l.flatMap (fun b => '\n' :: g b) ++ ['\n']
      = '\n' :: l.flatMap (fun b => g b ++ ['\n']) := by
  induction l with
  | nil => rfl
  | cons b l ih => simp [ih]

theorem fieldText_eq {f : String × String} (h : '\x27' ∉ f.2.toList) :
    pretty.fieldText f = '\n' :: fieldLine f := by
  have htype : typeText f.2 = f.2.toList :=
    List.filter_eq_self.mpr fun c hc => by simpa using ne_of_mem_of_not_mem hc h
  simp [fieldText, fieldLine, htype, beforeField]

theorem block_eq_lines {d : Declaration} (h : ∀ f ∈ d.fields, '\x27' ∉ f.2.toList) :
    pretty.block d = (lines (shown d) ++ [[]]).flatMap (· ++ ['\n']) := by
  have hfields : d.fields.flatMap pretty.fieldText
      = d.fields.flatMap fun f => '\n' :: fieldLine f :=
    List.flatMap_congr fun f hf => fieldText_eq (h f hf)
  have hfirst : "export interface ".toList ++ d.name.toList ++ [' ', '\x7b'] = nameLine d.name := by
    unfold nameLine opening
    rfl
  have hclose : pretty.beforeClose = ['\n'] := rfl
  unfold block
  rw [hfirst, hfields, hclose, List.append_assoc (nameLine d.name), flatMap_ended]
  simp [lines, shown, List.flatMap_map]

theorem textOf_shown {ds : List Declaration} (h : ∀ d ∈ ds, IsLegible d) :
    textOf (ds.map shown) = pretty.text ds := by
  have hblocks : pretty.blocks ds
      = ds.flatMap fun d => (lines (shown d) ++ [[]]).flatMap (· ++ ['\n']) :=
    List.flatMap_congr fun d hd => block_eq_lines fun f hf => ((h d hd).type f hf).2
  rw [textOf, text, hblocks, List.map_map, List.flatMap_map, List.flatMap_assoc]
  rfl

/-- The declarations of a pretty text can be read back from it as they were given, and nothing else
is read, if no name, key or type has a line feed in it, no key a colon and no type a single quote.
So two lists of such declarations have one text only if they have the same names with the same
fields in the same order, whatever else their types look like. -/
theorem pretty_text_readable :
    (∀ t ss, read? t = some ss ↔
      ∃ ds, (∀ d ∈ ds, IsLegible d) ∧ ds.map shown = ss ∧ pretty.text ds = t) ∧
    ∀ ds es, (∀ d ∈ ds, IsLegible d) → (∀ e ∈ es, IsLegible e) →
      pretty.text ds = pretty.text es →
        ds.length = es.length ∧
          List.Forall₂ (fun d e => d.name = e.name ∧ d.fields = e.fields) ds es := by
  refine ⟨fun t ss => ⟨fun h => ?read, ?printed⟩, fun ds es hds hes htext => ?unique⟩
  case read =>
    obtain ⟨hplain, htext⟩ := (readsBack_read?.iff t ss).mp h
    have hshown : (ss.map fun s => (⟨s.1, .entity, s.2⟩ : Declaration)).map shown = ss := by
      rw [List.map_map]
      exact List.map_id ss
    have hlegible : ∀ d ∈ ss.map fun s => (⟨s.1, .entity, s.2⟩ : Declaration), IsLegible d := by
      rw [List.forall_mem_map]
      exact fun s hs => isLegible_iff.mpr (hplain s hs)
    exact ⟨_, hlegible, hshown, by rw [← textOf_shown hlegible, hshown, htext]⟩
  case printed =>
    rintro ⟨ds, hlegible, rfl, rfl⟩
    rw [readsBack_read?.iff, List.forall_mem_map]
    exact ⟨fun d hd => isLegible_iff.mp (hlegible d hd), textOf_shown hlegible⟩
  case unique =>
    have hshown : ds.map shown = es.map shown := by
      apply readsBack_read?.eq_of_print
      · exact List.forall_mem_map.mpr fun d hd => isLegible_iff.mp (hds d hd)
      · exact List.forall_mem_map.mpr fun e he => isLegible_iff.mp (hes e he)
      · rw [textOf_shown hds, textOf_shown hes, htext]
    have hpairs : List.Forall₂ Eq (ds.map shown) (es.map shown) := by
      rw [hshown]
      exact List.forall₂_refl _
    rw [List.forall₂_map_left_iff, List.forall₂_map_right_iff] at hpairs
    exact ⟨hpairs.length_eq, hpairs.imp fun _ _ h => Prod.mk.inj h⟩

/-! ### Types that look like more -/

/-- The type of its second field looks like the end of a declaration and another one behind it. -/
def misleadingPage : Declaration :=
  ⟨"APIPage", .entity,
    [("id", "number"), ("kind", "any;\x7d export interface APITag \x7b  id: number")]⟩

theorem misleadingPage_read :
    IsLegible misleadingPage ∧
      read? (pretty.text [misleadingPage]) = some [("APIPage", misleadingPage.fields)] ∧
      ∀ es, (∀ e ∈ es, IsLegible e) → pretty.text [misleadingPage] = pretty.text es →
        es.length = 1 := by
  have hlegible : IsLegible misleadingPage := by
    unfold misleadingPage
    exact ⟨by simp, by simp, by simp⟩
  have hall : ∀ d ∈ [misleadingPage], IsLegible d := List.forall_mem_singleton.mpr hlegible
  obtain ⟨hread, hunique⟩ := pretty_text_readable
  refine ⟨hlegible, (hread _ _).mpr ⟨_, hall, rfl, rfl⟩, fun es hes htext => ?_⟩
  exact (hunique _ es hall hes htext).1.symm

end Layout
end ContentTypes
