import ContentTypes.Proofs.Json.Outline
import Mathlib
/-!
Readers as functions of the outline. What a value says decides what each reader comes to and where
it stops: the pass over a value always stops behind it, and the reader of values gives the value of
the outline or none.
-/

namespace ContentTypes.Json

/-! ### Results -/

namespace Gives

variable {α β : Type} {p q : List Char → Prop} {result : Except Fault (α × { r // p r })}
  {u r : List Char} {x : Option α}

theorem map (h : Gives result r x) (f : α → β) {g : { r // p r } → { r // q r }}
    (hg : ∀ a, (g a).1 = a.1) : Gives (result.map fun v => (f v.1, g v.2)) r (x.map f) := by
  cases x with
  | none =>
    obtain ⟨e, rfl⟩ := h
    exact ⟨e, rfl⟩
  | some v =>
    obtain ⟨hr, rfl⟩ := h
    have hq := (g ⟨r, hr⟩).2
    rw [hg] at hq
    have hrest : g ⟨r, hr⟩ = ⟨r, hq⟩ := Subtype.ext (hg _)
    exact ⟨hq, congrArg (fun a => Except.ok (f v, a)) hrest⟩

theorem bind {next : α × { r // p r } → Except Fault (β × { r // q r })} {y : α → Option β}
    (h : Gives result u x) (hnext : ∀ v hu, Gives (next (v, ⟨u, hu⟩)) r (y v)) :
    Gives (result >>= next) r (x.bind y) := by
  cases x with
  | none =>
    obtain ⟨e, rfl⟩ := h
    exact ⟨e, rfl⟩
  | some v =>
    obtain ⟨hu, rfl⟩ := h
    exact hnext v hu

end Gives

theorem head?_eq_some {s t : List Char} {c : Char} (h : skipBlank s = c :: t) :
    ∃ ht, head? s = some (c, ⟨t, ht⟩) := by
  have ht := length_skipBlank_le s
  rw [h] at ht
  rw [head?]
  split
  · next hs =>
    rw [hs] at h
    cases h
  · next hs =>
    rw [hs] at h
    cases h
    exact ⟨ht, rfl⟩

theorem readChar_eq {s t : List Char} {c : Char} (h : skipBlank s = c :: t) :
    ∃ ht, readChar c s = .ok ((), ⟨t, ht⟩) := by
  obtain ⟨ht, hs⟩ := head?_eq_some h
  rw [readChar, hs]
  exact ⟨ht, if_pos rfl⟩

theorem readChar_error {s t : List Char} {c d : Char} (h : skipBlank s = d :: t) (hd : d ≠ c) :
    ∃ e, readChar c s = .error e := by
  obtain ⟨ht, hs⟩ := head?_eq_some h
  rw [readChar, hs]
  exact ⟨_, if_neg hd⟩

theorem gives_afterColon {α : Type} {value : Reader α} {s t r : List Char} {x : Option α}
    (h : skipBlank s = ':' :: t) (hvalue : Gives (value t) r x) :
    Gives (afterColon value s) r x := by
  obtain ⟨ht, hs⟩ := readChar_eq h
  rw [afterColon, hs, ← Option.bind_fun_some x]
  exact hvalue.bind fun v hu => ⟨_, rfl⟩

/-! ### Arrays and objects -/

section
variable {α β : Type} {element : List Char → β → List Char → Prop} {item : Reader α}
  {f : β → Option α} {s r : List Char} {xs : List β}

theorem map_mapM_cons (f : β → Option α) (x : β) (xs : List β) (acc : List α) :
    ((x :: xs).mapM f).map (acc.reverse ++ ·)
      = (f x).bind fun v => (xs.mapM f).map ((v :: acc).reverse ++ ·) := by
  rw [List.mapM_cons]
  cases f x with
  | none => rfl
  | some v => cases xs.mapM f <;> simp

theorem gives_readMoreItems (hitem : ∀ s x r, element s x r → Gives (item s) r (f x))
    (h : Series element ']' s xs r) (n : Nat) (acc : List α) (hs : s.length < n) :
    Gives (readMoreItems item n acc s hs) r ((xs.mapM f).map (acc.reverse ++ ·)) := by
  induction h generalizing acc with
  | stop h =>
    obtain ⟨ht, hhead⟩ := head?_eq_some h
    rw [readMoreItems, hhead]
    exact ⟨Nat.lt_trans ht hs, by simp⟩
  | more h first rest ih =>
    obtain ⟨ht, hhead⟩ := head?_eq_some h
    rw [readMoreItems, hhead, map_mapM_cons]
    exact (hitem _ _ _ first).bind fun v hu => ih (v :: acc) _

theorem gives_readItems (hitem : ∀ s x r, element s x r → Gives (item s) r (f x))
    (h : Bracketed element ']' s xs r) : Gives (readItems item s) r (xs.mapM f) := by
  cases h with
  | empty h =>
    obtain ⟨ht, hhead⟩ := head?_eq_some h
    rw [readItems, hhead]
    exact ⟨ht, rfl⟩
  | @items t u _ c x xs h hc first rest =>
    obtain ⟨ht, hhead⟩ := head?_eq_some h
    have hfirst := map_mapM_cons f x xs []
    simp only [List.reverse_nil, List.nil_append, Option.map_id'] at hfirst
    rw [readItems, hhead, hfirst]
    simp only [if_neg hc]
    exact (hitem _ _ _ first).bind fun v hu => gives_readMoreItems hitem rest _ _ _

end

section
variable {σ : Type} {element : List Char → Outline → List Char → Prop} {field : FieldReader σ}
  {step : String → σ → Outline → Option σ} {s r : List Char} {fs : List Outline.Field}

theorem gives_readMoreFields (hfield : ∀ name st s t x r, skipBlank s = ':' :: t →
      element t x r → Gives (field name st s) r (step name st x))
    (h : Series (Member element) '\x7d' s fs r) (n : Nat) (st : σ) (hs : s.length < n) :
    Gives (readMoreFields field n st s hs) r (Outline.gather step st fs) := by
  induction h generalizing st with
  | stop h =>
    obtain ⟨ht, hhead⟩ := head?_eq_some h
    rw [readMoreFields, hhead]
    exact ⟨Nat.lt_trans ht hs, rfl⟩
  | more h first rest ih =>
    obtain ⟨ht, hhead⟩ := head?_eq_some h
    obtain ⟨_, _, hname, hcolon, hvalue⟩ := first
    rw [readMoreFields, hhead, Outline.gather_cons, Outline.take, Option.bind_assoc]
    refine hname.read.bind fun name _ => ?_
    exact (hfield name st _ _ _ _ hcolon hvalue).bind fun st' _ => ih st' _

theorem gives_readFields (hfield : ∀ name st s t x r, skipBlank s = ':' :: t →
      element t x r → Gives (field name st s) r (step name st x))
    (h : Bracketed (Member element) '\x7d' s fs r) (st : σ) :
    Gives (readFields field st s) r (Outline.gather step st fs) := by
  cases h with
  | empty h =>
    obtain ⟨ht, hhead⟩ := head?_eq_some h
    rw [readFields, hhead]
    exact ⟨ht, rfl⟩
  | items h hc first rest =>
    obtain ⟨ht, hhead⟩ := head?_eq_some h
    obtain ⟨_, _, hname, hcolon, hvalue⟩ := first
    rw [readFields, hhead, Outline.gather_cons, Outline.take, Option.bind_assoc]
    simp only [if_neg hc]
    refine hname.read.bind fun name _ => ?_
    exact (hfield name st _ _ _ _ hcolon hvalue).bind fun st' _ =>
      gives_readMoreFields hfield rest _ st' _

end

/-! ### Whole values -/

variable {s r : List Char} {o : Outline} {depth : Nat}

theorem passOver_scalar {c : Char} {t : List Char} {value : Option Json}
    (h : skipBlank s = c :: t) (hscalar : Scalar c t value r) (n : Nat) (opened : List Bracket)
    (hs : s.length ≤ n) :
    ∃ hr, passOver n opened ⟨s, hs⟩ = passRest n opened ⟨r, hr⟩ := by
  obtain ⟨ht, hhead⟩ := head?_eq_some h
  obtain ⟨hr, hpass⟩ := hscalar.pass
  rw [passOver]
  simp only [hhead, if_neg hscalar.ne_square, if_neg hscalar.ne_curly, hpass]
  exact ⟨by omega, rfl⟩

/-- The pass over such an element comes to what follows it, whatever brackets are open. -/
def IsPassed (element : List Char → Outline → List Char → Prop) (n : Nat) : Prop :=
  ∀ s x r, element s x r → ∀ opened hs,
    ∃ hr, passOver n opened ⟨s, hs⟩ = passRest n opened ⟨r, hr⟩

section
variable {element : List Char → Outline → List Char → Prop} {n : Nat}

theorem passRest_items (helement : IsPassed element n) {xs : List Outline}
    (h : Series element ']' s xs r) (opened : List Bracket) (hs : s.length < n) :
    ∃ hr, passRest n (.square :: opened) ⟨s, hs⟩ = passRest n opened ⟨r, hr⟩ := by
  induction h with
  | stop h =>
    obtain ⟨ht, hhead⟩ := head?_eq_some h
    rw [passRest.eq_def]
    simp only [hhead]
    exact ⟨Nat.lt_trans ht hs, rfl⟩
  | more h first rest ih =>
    obtain ⟨ht, hhead⟩ := head?_eq_some h
    rw [passRest.eq_def]
    simp only [hhead]
    obtain ⟨hu, heq⟩ := helement _ _ _ first (.square :: opened) (by omega)
    obtain ⟨hr, hrest⟩ := ih hu
    exact ⟨hr, heq.trans hrest⟩

theorem passOver_array (helement : IsPassed element n) {t : List Char} {xs : List Outline}
    (hopen : skipBlank s = '[' :: t) (h : Bracketed element ']' t xs r) (opened : List Bracket)
    (hs : s.length ≤ n) : ∃ hr, passOver n opened ⟨s, hs⟩ = passRest n opened ⟨r, hr⟩ := by
  obtain ⟨ht, hhead⟩ := head?_eq_some hopen
  rw [passOver.eq_def]
  simp only [hhead, if_true]
  cases h with
  | empty h =>
    obtain ⟨hr, hclose⟩ := head?_eq_some h
    simp only [hclose]
    exact ⟨by omega, rfl⟩
  | items h hc first rest =>
    obtain ⟨hu, hfirst⟩ := head?_eq_some h
    obtain ⟨hu', heq⟩ := helement _ _ _ first (.square :: opened) (by omega)
    obtain ⟨hr, hrest⟩ := passRest_items helement rest opened hu'
    refine ⟨hr, Eq.trans ?_ (heq.trans hrest)⟩
    rw [hfirst]
    split
    · next hd =>
      cases hd
      exact absurd rfl hc
    · rfl

theorem passNameColon_eq {f : Outline.Field} (h : Member element s f r) :
    ∃ t ht, passNameColon s = .ok ((), ⟨t, ht⟩) ∧ element t f.2 r := by
  obtain ⟨t, u, hname, hcolon, hvalue⟩ := h
  obtain ⟨ht, hpass⟩ := hname.pass
  obtain ⟨hu, hchar⟩ := readChar_eq hcolon
  refine ⟨u, Nat.lt_trans hu ht, ?_, hvalue⟩
  rw [passNameColon, hpass]
  change readChar ':' t >>= _ = _
  rw [hchar]
  rfl

theorem passRest_fields (helement : IsPassed element n) {fs : List Outline.Field}
    (h : Series (Member element) '\x7d' s fs r) (opened : List Bracket) (hs : s.length < n) :
    ∃ hr, passRest n (.curly :: opened) ⟨s, hs⟩ = passRest n opened ⟨r, hr⟩ := by
  induction h with
  | stop h =>
    obtain ⟨ht, hhead⟩ := head?_eq_some h
    rw [passRest.eq_def]
    simp only [hhead]
    exact ⟨Nat.lt_trans ht hs, rfl⟩
  | more h first rest ih =>
    obtain ⟨ht, hhead⟩ := head?_eq_some h
    obtain ⟨t', ht', hname, hvalue⟩ := passNameColon_eq first
    rw [passRest.eq_def]
    simp only [hhead, hname]
    obtain ⟨hu, heq⟩ := helement _ _ _ hvalue (.curly :: opened) (by omega)
    obtain ⟨hr, hrest⟩ := ih hu
    exact ⟨hr, heq.trans hrest⟩

theorem passOver_object (helement : IsPassed element n) {t : List Char}
    {fs : List Outline.Field} (hopen : skipBlank s = '\x7b' :: t)
    (h : Bracketed (Member element) '\x7d' t fs r) (opened : List Bracket) (hs : s.length ≤ n) :
    ∃ hr, passOver n opened ⟨s, hs⟩ = passRest n opened ⟨r, hr⟩ := by
  obtain ⟨ht, hhead⟩ := head?_eq_some hopen
  have hne : '\x7b' ≠ '[' := by decide
  rw [passOver.eq_def]
  simp only [hhead, if_neg hne, if_true]
  cases h with
  | empty h =>
    obtain ⟨hr, hclose⟩ := head?_eq_some h
    simp only [hclose]
    exact ⟨by omega, rfl⟩
  | items h hc first rest =>
    obtain ⟨hu, hfirst⟩ := head?_eq_some h
    obtain ⟨v, hv, hname, hvalue⟩ := passNameColon_eq first
    obtain ⟨hu', heq⟩ := helement _ _ _ hvalue (.curly :: opened) (by omega)
    obtain ⟨hr, hrest⟩ := passRest_fields helement rest opened hu'
    refine ⟨hr, Eq.trans ?_ (heq.trans hrest)⟩
    rw [hfirst, hname]
    split
    · next hd =>
      cases hd
      exact absurd rfl hc
    · rfl

end

theorem isPassed_spells (depth n : Nat) : IsPassed (Spells depth) n := by
  induction depth with
  | zero =>
    intro s o r h opened hs
    cases o with
    | scalar value =>
      obtain ⟨c, t, hc, hscalar⟩ := h
      exact passOver_scalar hc hscalar n opened hs
    | array items => exact h.elim
    | object fields => exact h.elim
  | succ depth ih =>
    intro s o r h opened hs
    cases o with
    | scalar value =>
      obtain ⟨c, t, hc, hscalar⟩ := h
      exact passOver_scalar hc hscalar n opened hs
    | array items =>
      obtain ⟨t, hopen, hitems⟩ := h
      exact passOver_array ih hopen hitems opened hs
    | object fields =>
      obtain ⟨t, hopen, hfields⟩ := h
      exact passOver_object ih hopen hfields opened hs

theorem gives_passValue (h : Spells depth s o r) : Gives (passValue s) r (some ()) := by
  obtain ⟨hr, heq⟩ := isPassed_spells depth s.length s o r h [] (length_le_self s)
  refine ⟨hr, ?_⟩
  rw [passValue, UpTo.all, heq, passRest]
  rfl

theorem gives_keepField {α : Type} {element : List Char → Outline → List Char → Prop}
    {value : Reader α} {value? : Outline → Option α}
    (hvalue : ∀ s o r, element s o r → Gives (value s) r (value? o)) (name : String)
    (table : List (String × α)) (s t : List Char) (o : Outline) (r : List Char)
    (hcolon : skipBlank s = ':' :: t) (ho : element t o r) :
    Gives (keepField value name table s) r (Outline.keepStep value? name table o) :=
  (gives_afterColon hcolon (hvalue t o r ho)).map (Table.put name · table) fun _ => rfl

theorem gives_readScalar {c : Char} {t : List Char} {value : Option Json}
    (hscalar : Scalar c t value r) (ht : t.length < s.length) :
    Gives ((readScalar c t).map fun v =>
      (v.1, (Before.transUpTo ⟨t, ht⟩ v.2 : Before s.length))) r value := by
  have hid : value = value.map id := by simp
  rw [hid]
  exact hscalar.read.map id fun _ => rfl

/-- The reader of values gives what the outline has within the depth, and fails beyond. -/
theorem gives_readValue (h : Spells depth s o r) (limit : Nat) :
    Gives (readValue limit s) r (o.value? limit) := by
  induction limit generalizing depth s o r with
  | zero =>
    cases o with
    | scalar value =>
      obtain ⟨c, t, hc, hscalar⟩ := h.exists_scalar
      obtain ⟨ht, hhead⟩ := head?_eq_some hc
      rw [readValue, hhead]
      simp only [hscalar.ne_square, hscalar.ne_curly, or_self, if_false]
      exact gives_readScalar hscalar ht
    | array items =>
      obtain ⟨_, t, hopen, -⟩ := h.exists_array
      obtain ⟨ht, hhead⟩ := head?_eq_some hopen
      rw [readValue, hhead]
      exact ⟨_, rfl⟩
    | object fields =>
      obtain ⟨_, t, hopen, -⟩ := h.exists_object
      obtain ⟨ht, hhead⟩ := head?_eq_some hopen
      rw [readValue, hhead]
      exact ⟨_, rfl⟩
  | succ limit ih =>
    cases o with
    | scalar value =>
      obtain ⟨c, t, hc, hscalar⟩ := h.exists_scalar
      obtain ⟨ht, hhead⟩ := head?_eq_some hc
      rw [readValue, hhead]
      simp only [hscalar.ne_square, hscalar.ne_curly, if_false]
      exact gives_readScalar hscalar ht
    | array items =>
      obtain ⟨below, t, hopen, hitems⟩ := h.exists_array
      obtain ⟨ht, hhead⟩ := head?_eq_some hopen
      rw [readValue, hhead]
      exact (gives_readItems (fun _ _ _ hx => ih hx) hitems).map Json.array fun _ => rfl
    | object fields =>
      obtain ⟨below, t, hopen, hfields⟩ := h.exists_object
      obtain ⟨ht, hhead⟩ := head?_eq_some hopen
      rw [readValue, hhead]
      exact (gives_readFields (gives_keepField fun _ _ _ hx => ih hx) hfields []).map Json.object
        fun _ => rfl

end ContentTypes.Json
