import ContentTypes.Layout
import ContentTypes.Text.Blank
import Mathlib
/-!
Two layouts of one text. The pretty layout is the compact one with white space put in, so both say
the same to a reader who passes over white space, whatever the names and types hold themselves. In
either layout the declarations of a list stand one block after another.
-/

namespace ContentTypes.Layout

/-! ### White space -/

/-- What is left of a text without its white space. -/
def visible (l : List Char) : List Char :=
  l.filter (!Text.isBlank ·)

@[simp] theorem visible_append (l m : List Char) : visible (l ++ m) = visible l ++ visible m :=
  List.filter_append ..

theorem visible_flatMap {α : Type} (g : α → List Char) (l : List α) :
    visible (l.flatMap g) = l.flatMap fun a => visible (g a) :=
  List.filter_flatMap ..

/-- What a layout puts around fields is white space. -/
@[simp] theorem visible_beforeField (l : Layout) : visible l.beforeField = [] := by
  cases l <;> rfl

@[simp] theorem visible_beforeClose (l : Layout) : visible l.beforeClose = [] := by
  cases l <;> rfl

theorem visible_fieldText (l : Layout) (f : String × String) :
    visible (l.fieldText f) = visible (compact.fieldText f) := by
  simp [fieldText]

theorem visible_block (l : Layout) (d : Declaration) :
    visible (l.block d) = visible (compact.block d) := by
  unfold block
  simp only [visible_append, visible_flatMap, visible_fieldText l, visible_beforeClose]

theorem visible_blocks (l : Layout) (ds : List Declaration) :
    visible (l.blocks ds) = visible (compact.blocks ds) := by
  simp only [blocks, visible_flatMap, visible_block l]

/-! ### The compact text within another -/

theorem flatMap_sublist {α β : Type} {g h : α → List β} (hsub : ∀ a, (g a).Sublist (h a))
    (l : List α) : (l.flatMap g).Sublist (l.flatMap h) := by
  induction l with
  | nil => exact List.Sublist.refl _
  | cons a l ih =>
    rw [List.flatMap_cons, List.flatMap_cons]
    exact (hsub a).append ih

theorem fieldText_sublist (l : Layout) (f : String × String) :
    (compact.fieldText f).Sublist (l.fieldText f) := by
  rw [fieldText, fieldText]
  iterate 4 apply List.Sublist.append_right
  exact List.nil_sublist _

theorem block_sublist (l : Layout) (d : Declaration) : (compact.block d).Sublist (l.block d) := by
  unfold block
  have hfields := flatMap_sublist (fieldText_sublist l) d.fields
  have hclose : compact.beforeClose.Sublist l.beforeClose := List.nil_sublist _
  exact ((hfields.append_left _).append hclose).append_right _

theorem blocks_sublist (l : Layout) (ds : List Declaration) :
    (compact.blocks ds).Sublist (l.blocks ds) :=
  flatMap_sublist (block_sublist l) ds

/-! ### Blocks -/

theorem toList_text (l : Layout) (ds : List Declaration) :
    (l.text ds).toList = l.blocks ds ++ SupportingType.allText :=
  String.toList_ofList

theorem toList_join_declarationText (l : Layout) (ds : List Declaration) :
    (String.join (ds.map l.declarationText)).toList = l.blocks ds := by
  simp [declarationText, blocks, List.flatMap_map]

/-- The compact text is the pretty text with some of its white space left out, and without any
white space the two are the same. In both layouts, what is declared first stands in front, block by
block, and the text of the rest follows unchanged. -/
theorem layouts_differ_in_white_space :
    (∀ ds, (compact.text ds).toList.Sublist (pretty.text ds).toList ∧
      visible (compact.text ds).toList = visible (pretty.text ds).toList) ∧
    ∀ (l : Layout) (ds es : List Declaration),
      l.text (ds ++ es) = String.join (ds.map l.declarationText) ++ l.text es := by
  refine ⟨fun ds => ⟨?inserted, ?same⟩, fun l ds es => ?blocks⟩
  case inserted =>
    rw [toList_text, toList_text]
    exact (blocks_sublist pretty ds).append_right _
  case same =>
    rw [toList_text, toList_text, visible_append, visible_append, visible_blocks pretty]
  case blocks =>
    rw [← String.toList_inj, String.toList_append, toList_text, toList_text,
      toList_join_declarationText, blocks_append, List.append_assoc]

end ContentTypes.Layout
