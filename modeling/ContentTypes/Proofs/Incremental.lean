import ContentTypes.Proofs.Deduplication
import ContentTypes.Session
import Mathlib
/-!
Resolutions in parts. A list that grows and is resolved on the way comes to what one resolution of
all of it comes to: under `first-wins` because a name once kept stays, under `last-wins` because a
declaration dropped early would have lost its name later as well.
-/

namespace ContentTypes.Collision

variable {policy : CollisionPolicy} {seen : List String} {ds : List Declaration}

theorem mem_names_firsts {n : String} :
    n ∈ names (firsts seen ds).kept ↔ n ∈ names ds ∧ n ∉ seen :=
  mem_names_kept_markFirst seen ds

theorem firsts_kept (seen : List String) (ds : List Declaration) :
    firsts [] (firsts seen ds).kept = ⟨(firsts seen ds).kept, []⟩ :=
  firsts_eq_self (by simp) (nodup_names_kept_markFirst seen ds)

/-! ### One list behind another -/

/-- A list resolved before gives the names that it was resolved from. -/
theorem firsts_kept_append (xs ys : List Declaration) :
    firsts [] ((firsts [] xs).kept ++ ys)
      = ⟨(firsts [] (xs ++ ys)).kept, (firsts (names xs).reverse ys).diagnostics⟩ := by
  have hnames : firsts ((names (firsts [] xs).kept).reverse ++ []) ys
      = firsts (names xs).reverse ys := by
    apply firsts_congr
    intro n _
    simp [mem_names_firsts]
  rw [firsts_append, firsts_append, hnames, firsts_kept, List.append_nil]
  rfl

theorem diagnostics_firsts_append (xs ys : List Declaration) :
    (firsts [] (xs ++ ys)).diagnostics
      = (firsts [] xs).diagnostics ++ (firsts (names xs).reverse ys).diagnostics := by
  rw [firsts_append, List.append_nil]
  rfl

/-- Where `many` names have come before, nothing is lost by a resolution with only some of them
before: what that one drops would be dropped as well. -/
theorem firsts_firsts {few many : List String} (h : few ⊆ many) (ds : List Declaration) :
    (firsts many (firsts few ds).kept).kept = (firsts many ds).kept ∧
      ((firsts few ds).diagnostics ++ (firsts many (firsts few ds).kept).diagnostics).Perm
        (firsts many ds).diagnostics := by
  induction ds generalizing few many with
  | nil => exact ⟨rfl, List.Perm.refl _⟩
  | cons d ds ih =>
    by_cases hfew : d.name ∈ few
    · -- Dropped in the first pass already.
      have hmany : d.name ∈ many := h hfew
      have hsame : firsts (d.name :: many) ds = firsts many ds := by
        apply firsts_congr
        intro n _
        simp only [List.mem_cons, or_iff_right_iff_imp]
        rintro rfl
        exact hmany
      obtain ⟨hkept, hperm⟩ := ih (List.cons_subset.mpr ⟨hmany, h⟩ : d.name :: few ⊆ many)
      rw [firsts_cons_of_mem hfew, firsts_cons_of_mem hmany, hsame]
      exact ⟨hkept, hperm.cons _⟩
    · obtain ⟨hkept, hperm⟩ := ih (List.cons_subset_cons d.name h)
      rw [firsts_cons_of_notMem hfew]
      by_cases hmany : d.name ∈ many
      · rw [firsts_cons_of_mem hmany, firsts_cons_of_mem hmany]
        exact ⟨hkept, List.perm_middle.trans (hperm.cons _)⟩
      · rw [firsts_cons_of_notMem hmany, firsts_cons_of_notMem hmany]
        exact ⟨congrArg (d :: ·) hkept, hperm⟩

theorem exists_resolve_firstWins (xs ys : List Declaration) : ∃ first second whole,
    resolve .firstWins xs = .ok first ∧ resolve .firstWins (first.kept ++ ys) = .ok second ∧
      resolve .firstWins (xs ++ ys) = .ok whole ∧ second.kept = whole.kept ∧
      first.diagnostics ++ second.diagnostics = whole.diagnostics := by
  refine ⟨_, _, _, resolve_firstWins _, resolve_firstWins _, resolve_firstWins _, ?_, ?_⟩
  · rw [firsts_kept_append]
  · rw [firsts_kept_append, diagnostics_firsts_append]

theorem exists_resolve_lastWins (xs ys : List Declaration) : ∃ first second whole,
    resolve .lastWins xs = .ok first ∧ resolve .lastWins (first.kept ++ ys) = .ok second ∧
      resolve .lastWins (xs ++ ys) = .ok whole ∧ second.kept = whole.kept ∧
      (first.diagnostics ++ second.diagnostics).Perm whole.diagnostics := by
  refine ⟨_, _, _, resolve_lastWins _, resolve_lastWins _, resolve_lastWins _, ?_⟩
  obtain ⟨hkept, hperm⟩ := firsts_firsts
    (List.nil_subset ((names ys.reverse).reverse ++ [])) xs.reverse
  simp only [List.reverse_append, Resolution.reverse_kept, List.reverse_reverse, firsts_append,
    Resolution.reverse_diagnostics, Resolution.append_kept, Resolution.append_diagnostics]
  refine ⟨by rw [hkept], ?_⟩
  rw [← List.append_assoc]
  apply List.Perm.append_right
  exact ((List.reverse_perm _).append (List.reverse_perm _)).trans
    (hperm.trans (List.reverse_perm _).symm)

/-! ### Sessions -/

/-- What a resolution leaves of a list; one that is refused leaves it as it is. -/
def left (policy : CollisionPolicy) (ds : List Declaration) : List Declaration :=
  match resolve policy ds with
  | .ok r => r.kept
  | .error _ => ds

theorem left_of_resolve {r : Resolution} (h : resolve policy ds = .ok r) :
    left policy ds = r.kept := by
  rw [left, h]

/-- A list resolved before may stand for the one that it was resolved from. -/
theorem left_left_append (hp : policy = .firstWins ∨ policy = .lastWins)
    (xs ys : List Declaration) : left policy (left policy xs ++ ys) = left policy (xs ++ ys) := by
  rcases hp with rfl | rfl
  · obtain ⟨first, second, whole, hfirst, hsecond, hwhole, hkept, -⟩ :=
      exists_resolve_firstWins xs ys
    rw [left_of_resolve hfirst, left_of_resolve hsecond, left_of_resolve hwhole, hkept]
  · obtain ⟨first, second, whole, hfirst, hsecond, hwhole, hkept, -⟩ :=
      exists_resolve_lastWins xs ys
    rw [left_of_resolve hfirst, left_of_resolve hsecond, left_of_resolve hwhole, hkept]

/-- What a session under one policy does: it puts a batch at the end, or resolves. -/
inductive Move where
  | append (batch : List Declaration)
  | resolve

namespace Move

def batch : Move → List Declaration
  | .append batch => batch
  | .resolve => []

def apply (policy : CollisionPolicy) (ds : List Declaration) : Move → List Declaration
  | .append batch => ds ++ batch
  | .resolve => left policy ds

end Move

def play (policy : CollisionPolicy) (ds : List Declaration) (moves : List Move) :
    List Declaration :=
  moves.foldl (Move.apply policy) ds

/-- A move counts for its batch alone in what is left in the end. -/
theorem left_apply_append (hp : policy = .firstWins ∨ policy = .lastWins) (m : Move)
    (ds rest : List Declaration) :
    left policy (m.apply policy ds ++ rest) = left policy (ds ++ (m.batch ++ rest)) := by
  cases m with
  | append batch => rw [Move.apply, Move.batch, List.append_assoc]
  | resolve => exact left_left_append hp ds rest

theorem left_play_append (hp : policy = .firstWins ∨ policy = .lastWins) (moves : List Move)
    (ds rest : List Declaration) :
    left policy (play policy ds moves ++ rest)
      = left policy (ds ++ (moves.flatMap Move.batch ++ rest)) := by
  induction moves generalizing ds with
  | nil => rfl
  | cons m moves ih =>
    calc left policy (play policy (m.apply policy ds) moves ++ rest)
        = left policy (m.apply policy ds ++ (moves.flatMap Move.batch ++ rest)) := ih _
      _ = left policy (ds ++ (m.batch ++ (moves.flatMap Move.batch ++ rest))) :=
        left_apply_append hp m ds _
      _ = _ := by rw [List.flatMap_cons, List.append_assoc]

/-- A session that ends in a resolution comes to what is left of all its batches at once. -/
theorem play_resolve (hp : policy = .firstWins ∨ policy = .lastWins) (moves : List Move)
    (ds : List Declaration) :
    play policy ds (moves ++ [Move.resolve]) = left policy (ds ++ moves.flatMap Move.batch) := by
  have h := left_play_append hp moves ds []
  rw [List.append_nil, List.append_nil] at h
  rw [play, List.foldl_append]
  exact h

end ContentTypes.Collision

namespace ContentTypes.Session
open Collision

variable {policy : CollisionPolicy}

/-- The move that a change is under a policy. A change within a declaration is none, and neither is
a resolution under another policy. -/
def Change.move? (policy : CollisionPolicy) : Change → Option Move
  | .add name origin fields => some (.append [build name origin fields])
  | .insert .. => none
  | .collect name origin attributes =>
    some (.append (Declaration.collect name origin attributes).toOption.toList)
  | .resolve p => if p = policy then some .resolve else none

theorem step_eq_apply {c : Change} {m : Move} (h : c.move? policy = some m)
    (ds : List Declaration) : step ds c = m.apply policy ds := by
  cases c with
  | add name origin fields =>
    cases h
    rfl
  | insert index key type => cases h
  | collect name origin attributes =>
    cases h
    rw [step, apply, Move.apply]
    cases Declaration.collect name origin attributes with
    | ok d => rfl
    | error e => exact (List.append_nil ds).symm
  | resolve p =>
    rw [Change.move?] at h
    split_ifs at h with hp
    cases h
    rw [step, apply, Move.apply, left, hp]
    cases Collision.resolve policy ds <;> rfl

theorem foldl_step_eq_play {cs : List Change} {moves : List Move}
    (h : List.Forall₂ (fun c m => c.move? policy = some m) cs moves) (ds : List Declaration) :
    cs.foldl step ds = play policy ds moves := by
  induction h generalizing ds with
  | nil => rfl
  | cons hc _ ih => rw [List.foldl_cons, step_eq_apply hc, ih, play, play, List.foldl_cons]

end ContentTypes.Session

namespace ContentTypes.Collision

variable {policy : CollisionPolicy}

/-- Resolving in two parts keeps what one resolution of the whole keeps and reports the same, under
`first-wins` in the same order. A session of appended batches and resolutions that ends in a
resolution comes to what one resolution of all batches keeps, wherever the others stood, and no
policy finds anything in it to resolve again. -/
theorem resolve_in_parts (hp : policy = .firstWins ∨ policy = .lastWins) :
    (∀ xs ys, ∃ first second whole,
      resolve policy xs = .ok first ∧ resolve policy (first.kept ++ ys) = .ok second ∧
        resolve policy (xs ++ ys) = .ok whole ∧ second.kept = whole.kept ∧
        (first.diagnostics ++ second.diagnostics).Perm whole.diagnostics ∧
        (policy = .firstWins → first.diagnostics ++ second.diagnostics = whole.diagnostics)) ∧
    (∀ ds moves, ∃ whole, resolve policy (ds ++ moves.flatMap Move.batch) = .ok whole ∧
      play policy ds (moves ++ [Move.resolve]) = whole.kept ∧
      ∀ other, resolve other whole.kept = .ok ⟨whole.kept, []⟩) ∧
    ∀ cs moves, List.Forall₂ (fun c m => Session.Change.move? policy c = some m) cs moves →
      Session.run (cs ++ [Session.Change.resolve policy])
        = play policy [] (moves ++ [Move.resolve]) := by
  refine ⟨?parts, ?moves, ?changes⟩
  case parts =>
    intro xs ys
    rcases hp with rfl | rfl
    · obtain ⟨first, second, whole, hfirst, hsecond, hwhole, hkept, hdiagnostics⟩ :=
        exists_resolve_firstWins xs ys
      exact ⟨first, second, whole, hfirst, hsecond, hwhole, hkept,
        List.Perm.of_eq hdiagnostics, fun _ => hdiagnostics⟩
    · obtain ⟨first, second, whole, hfirst, hsecond, hwhole, hkept, hperm⟩ :=
        exists_resolve_lastWins xs ys
      exact ⟨first, second, whole, hfirst, hsecond, hwhole, hkept, hperm, nofun⟩
  case moves =>
    intro ds moves
    have hne : policy ≠ .error ∧ policy ≠ .keep := by rcases hp with rfl | rfl <;> decide
    obtain ⟨whole, hwhole⟩ := exists_resolve hne.1 (ds ++ moves.flatMap Move.batch)
    refine ⟨whole, hwhole, ?_, ?_⟩
    · rw [play_resolve hp, left_of_resolve hwhole]
    · intro other
      exact resolve_of_nodup other (nodup_names_resolve hne.2 hwhole)
  case changes =>
    intro cs moves h
    have hlast : Session.Change.move? policy (.resolve policy) = some .resolve := if_pos rfl
    exact Session.foldl_step_eq_play (List.rel_append h (.cons hlast .nil)) []

/-! ### Three declarations of one name -/

def articleChanges : List Session.Change :=
  [.add "APIArticle" .entity [], .add "APIArticle" .entity [("title", "string")],
    .resolve .lastWins, .add "APIArticle" .component []]

def articleMoves : List Move :=
  [.append [.new "APIArticle" .entity],
    .append [(Declaration.new "APIArticle" .entity).insert "title" "string"],
    .resolve, .append [.new "APIArticle" .component]]

/-- The first resolution keeps the second of the three, and the last one takes its place. -/
theorem run_article :
    play .lastWins [] (articleMoves ++ [Move.resolve]) = [.new "APIArticle" .component] ∧
      Session.run (articleChanges ++ [Session.Change.resolve .lastWins])
        = [.new "APIArticle" .component] := by
  obtain ⟨-, hmoves, hchanges⟩ := resolve_in_parts
    (.inr rfl : CollisionPolicy.lastWins = .firstWins ∨ CollisionPolicy.lastWins = .lastWins)
  have hrun := hchanges articleChanges articleMoves
    (.cons rfl (.cons rfl (.cons rfl (.cons rfl .nil))))
  obtain ⟨whole, hwhole, hplay, -⟩ := hmoves [] articleMoves
  have hkept : left .lastWins (articleMoves.flatMap Move.batch)
      = [.new "APIArticle" .component] := by
    decide
  have hleft : whole.kept = [.new "APIArticle" .component] :=
    (left_of_resolve hwhole).symm.trans hkept
  rw [hrun, hplay]
  exact ⟨hleft, hleft⟩

end ContentTypes.Collision
