import Mathlib

/-! Texts that are taken apart at the first or the last place of a separator. -/

set_option autoImplicit false

namespace TextParts

variable {α : Type*} [DecidableEq α]

/-- What stands in front of the first `c`, and what behind it. -/
def splitFirst (c : α) (text : List α) : Option (List α × List α) :=
  match text.dropWhile (· ≠ c) with
  | [] => none
  | _ :: rest => some (text.takeWhile (· ≠ c), rest)

def splitLast (c : α) (text : List α) : Option (List α × List α) :=
  (splitFirst c text.reverse).map fun x => (x.2.reverse, x.1.reverse)

variable {c : α} {x y text : List α}

theorem splitFirst_eq_none (h : c ∉ text) : splitFirst c text = none := by
  have hall : ∀ a ∈ text, decide (a ≠ c) = true := fun a ha =>
    decide_eq_true fun heq => h (heq ▸ ha)
  rw [splitFirst, List.dropWhile_eq_nil_iff.mpr hall]

theorem splitFirst_append (h : c ∉ x) : splitFirst c (x ++ c :: y) = some (x, y) := by
  have hall : ∀ a ∈ x, decide (a ≠ c) = true := fun a ha =>
    decide_eq_true fun heq => h (heq ▸ ha)
  rw [splitFirst, List.takeWhile_append_of_pos hall, List.dropWhile_append_of_pos hall]
  simp

theorem splitLast_eq_none (h : c ∉ text) : splitLast c text = none := by
  rw [splitLast, splitFirst_eq_none (by simpa using h), Option.map_none]

theorem splitLast_append (h : c ∉ y) : splitLast c (x ++ c :: y) = some (x, y) := by
  have hreverse : (x ++ c :: y).reverse = y.reverse ++ c :: x.reverse := by simp
  rw [splitLast, hreverse, splitFirst_append (by simpa using h)]
  simp

omit [DecidableEq α] in
theorem exists_splitLast (h : c ∈ text) : ∃ x y, text = x ++ c :: y ∧ c ∉ y := by
  obtain ⟨y, x, htext, hy⟩ := List.eq_append_cons_of_mem (List.mem_reverse.mpr h)
  refine ⟨x.reverse, y.reverse, ?_, by simpa using hy⟩
  have hreverse := congrArg List.reverse htext
  simpa using hreverse

/-- The last of the parts between the separators is what stands behind the last one. -/
theorem getLast?_splitOn (c : α) (text : List α) :
    (text.splitOn c).getLast? = some (((splitLast c text).map Prod.snd).getD text) := by
  by_cases h : c ∈ text
  · obtain ⟨x, y, rfl, hy⟩ := exists_splitLast h
    rw [splitLast_append hy, List.splitOn_append_cons_self, List.splitOn_eq_singleton hy,
      List.getLast?_append]
    rfl
  · rw [splitLast_eq_none h, List.splitOn_eq_singleton h]
    rfl

/-! ### Parts that are joined by a separator -/

variable {a b r x' y' : List α} {parts : List (List α)}

theorem append_cons_inj (hx : c ∉ x) (hx' : c ∉ x') :
    x ++ c :: y = x' ++ c :: y' ↔ x = x' ∧ y = y' := by
  constructor
  · intro h
    have hsplit := congrArg (splitFirst c) h
    rw [splitFirst_append hx, splitFirst_append hx'] at hsplit
    simpa using hsplit
  · rintro ⟨rfl, rfl⟩
    rfl

omit [DecidableEq α] in
theorem infix_separated {part : List α} (hc : c ∉ part) :
    part <:+: x ++ c :: y ↔ part <:+: x ∨ part <:+: y := by
  have hempty : ∀ u : List α, u ⊆ part → u <+: c :: y → u = [] := by
    intro u hu hpre
    rcases List.prefix_cons_iff.mp hpre with hnil | ⟨v, hv, _⟩
    · exact hnil
    · exact absurd (hu (by simp [hv])) hc
  constructor
  · intro h
    rcases List.infix_append_iff.mp h with hx | hy | ⟨u, v, hpart, hu, hv⟩
    · exact .inl hx
    · rcases List.infix_cons_iff.mp hy with hpre | hy
      · rw [hempty part (fun _ => id) hpre]
        exact .inl List.nil_infix
      · exact .inr hy
    · have hnil := hempty v (by simp [hpart]) hv
      rw [hpart, hnil, List.append_nil]
      exact .inl hu.isInfix
  · rintro (hx | hy)
    · exact List.infix_append_of_infix_left hx
    · exact List.infix_append_of_infix_right (List.infix_cons hy)

omit [DecidableEq α] in
theorem prefix_append_cons (hy : c ∉ y) : y <+: b ++ c :: r ↔ y <+: b := by
  constructor
  · rintro ⟨t, ht⟩
    rcases List.append_eq_append_iff.mp ht with ⟨u, rfl, _⟩ | ⟨u, rfl, hu⟩
    · exact List.prefix_append _ _
    · cases u with
      | nil => simp
      | cons d u =>
        have hd : c = d := (List.cons.inj hu).1
        exact absurd (by simp [hd]) hy
  · intro h
    exact h.trans (List.prefix_append _ _)

theorem infix_append_cons (hx : c ∉ x) (ha : c ∉ a) :
    x ++ c :: y <:+: a ++ c :: r ↔ (x <:+ a ∧ y <+: r) ∨ x ++ c :: y <:+: r := by
  constructor
  · rintro ⟨s, t, h⟩
    by_cases hs : c ∈ s
    · obtain ⟨s₁, s₂, rfl, hs₁⟩ := List.eq_append_cons_of_mem hs
      have h' : s₁ ++ c :: (s₂ ++ (x ++ c :: y) ++ t) = a ++ c :: r := by simpa using h
      exact .inr ⟨s₂, t, ((append_cons_inj hs₁ ha).mp h').2⟩
    · have h' : (s ++ x) ++ c :: (y ++ t) = a ++ c :: r := by simpa using h
      obtain ⟨rfl, rfl⟩ := (append_cons_inj (by simp [hs, hx]) ha).mp h'
      exact .inl ⟨List.suffix_append _ _, List.prefix_append _ _⟩
  · rintro (⟨⟨s, rfl⟩, ⟨t, rfl⟩⟩ | h)
    · exact ⟨s, t, by simp⟩
    · exact List.infix_append_of_infix_right (List.infix_cons h)

theorem infix_intercalate (hx : c ∉ x) (hy : c ∉ y) (h : ∀ part ∈ parts, c ∉ part) :
    x ++ c :: y <:+: [c].intercalate parts ↔
      ∃ pre a b post, parts = pre ++ a :: b :: post ∧ x <:+ a ∧ y <+: b := by
  have hnone : ∀ part : List α, c ∉ part → ¬ x ++ c :: y <:+: part := fun part hpart hwhole =>
    hpart (hwhole.subset (by simp))
  induction parts with
  | nil =>
    refine iff_of_false (hnone _ (by simp)) ?_
    rintro ⟨pre, a, b, post, hparts, _⟩
    simp at hparts
  | cons a parts ih =>
    cases parts with
    | nil =>
      refine iff_of_false ?_ ?_
      · rw [List.intercalate_singleton]
        exact hnone _ (h a List.mem_cons_self)
      · rintro ⟨pre, a, b, post, hparts, _⟩
        have hlength := congrArg List.length hparts
        simp at hlength
        omega
    | cons b parts =>
      have hhead : y <+: [c].intercalate (b :: parts) ↔ y <+: b := by
        cases parts with
        | nil => rw [List.intercalate_singleton]
        | cons b' parts =>
          rw [List.intercalate_cons_cons, List.append_assoc, List.singleton_append,
            prefix_append_cons hy]
      have hrest : x ++ c :: y <:+: [c].intercalate (b :: parts) ↔
          ∃ pre a b' post, b :: parts = pre ++ a :: b' :: post ∧ x <:+ a ∧ y <+: b' :=
        ih fun part hpart => h part (List.mem_cons_of_mem _ hpart)
      rw [List.intercalate_cons_cons, List.append_assoc, List.singleton_append,
        infix_append_cons hx (h a List.mem_cons_self), hhead, hrest]
      constructor
      · rintro (⟨hxa, hyb⟩ | ⟨pre, a', b', post, hparts, hxa, hyb⟩)
        · exact ⟨[], a, b, parts, rfl, hxa, hyb⟩
        · exact ⟨a :: pre, a', b', post, by rw [hparts]; rfl, hxa, hyb⟩
      · rintro ⟨pre, a', b', post, hparts, hxa, hyb⟩
        cases pre with
        | nil =>
          cases hparts
          exact .inl ⟨hxa, hyb⟩
        | cons d pre => exact .inr ⟨pre, a', b', post, (List.cons.inj hparts).2, hxa, hyb⟩

end TextParts
