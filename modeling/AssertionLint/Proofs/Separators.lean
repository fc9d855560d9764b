import Mathlib.Data.List.Infix

/-!
# Texts with separators

Where parts of a text end can be seen from what stands between them: a part ends at
the first occurrence of a character that it does not have, and the items of a list end
where a separator or the end of the list begins. So the parts are determined by the
whole, if each item is determined by a text that it begins.
-/

namespace AssertionLint.Text

/-- Two texts that go on with the same character, which they do not have
themselves, end where it first occurs. -/
theorem append_cons_inj {c : Char} {xs ys us vs : List Char} (hx : c ∉ xs) (hy : c ∉ ys)
    (h : xs ++ c :: us = ys ++ c :: vs) : xs = ys ∧ us = vs := by
  induction xs generalizing ys with
  | nil =>
    cases ys with
    | nil => exact ⟨rfl, (List.cons.inj h).2⟩
    | cons y ys => exact absurd ((List.cons.inj h).1 ▸ List.mem_cons_self) hy
  | cons x xs ih =>
    cases ys with
    | nil => exact absurd ((List.cons.inj h).1 ▸ List.mem_cons_self) hx
    | cons y ys =>
      obtain ⟨rfl, htail⟩ := List.cons.inj h
      obtain ⟨rfl, hrest⟩ := ih (fun hm => hx (List.mem_cons_of_mem x hm))
        (fun hm => hy (List.mem_cons_of_mem x hm)) htail
      exact ⟨rfl, hrest⟩

theorem isDigit_of_mem_decimal {n : ℕ} {c : Char} (h : c ∈ (toString n).toList) :
    c.isDigit = true := by
  rw [Nat.toString_eq_ofList_toDigits, String.toList_ofList] at h
  exact Nat.isDigit_of_mem_toDigits (by decide) (by decide) h

theorem notMem_decimal {c : Char} (hc : c.isDigit = false) (n : ℕ) :
    c ∉ (toString n).toList := by
  intro hm
  rw [isDigit_of_mem_decimal hm] at hc
  cases hc

theorem decimal_inj {m n : ℕ} (h : (toString m).toList = (toString n).toList) : m = n := by
  rw [Nat.toString_eq_ofList_toDigits, Nat.toString_eq_ofList_toDigits, String.toList_ofList,
    String.toList_ofList] at h
  simpa using congrArg (Nat.ofDigitChars 10 · 0) h

/-! ## Lists -/

/-- The items with the separator before each. -/
def behind (sep : List Char) (items : List (List Char)) : List Char :=
  items.flatMap (sep ++ ·)

theorem intercalate_cons (sep item : List Char) (items : List (List Char)) :
    sep.intercalate (item :: items) = item ++ behind sep items := by
  induction items generalizing item with
  | nil => simp [behind]
  | cons next items ih =>
    rw [List.intercalate_cons_cons, ih]
    simp [behind]

section Items

variable {α β : Type} {E : List Char → Prop} {text : α → List Char} {view : α → β}

/-- If `E` holds of what stands behind them, the texts of two items can be told from
what stands behind them, and show whether the items are alike. -/
def ToldApart (E : List Char → Prop) (text : α → List Char) (view : α → β) (a b : α) : Prop :=
  ∀ r r', E r → E r' → text a ++ r = text b ++ r' → view a = view b ∧ r = r'

variable {sep : List Char} {as bs : List α} {r r' : List Char}

theorem holds_behind (hsep : ∀ s, E (sep ++ s)) (items : List (List Char)) (hr : E r) :
    E (behind sep items ++ r) := by
  cases items with
  | nil => exact hr
  | cons item items =>
    rw [behind, List.flatMap_cons, List.append_assoc, List.append_assoc]
    exact hsep _

theorem behind_inj (hitem : ∀ a ∈ as, ∀ b ∈ bs, ToldApart E text view a b)
    (hsep : ∀ s, E (sep ++ s)) (hr : E r) (hr' : E r') (hstop : ¬ sep.IsPrefix r)
    (hstop' : ¬ sep.IsPrefix r')
    (h : behind sep (as.map text) ++ r = behind sep (bs.map text) ++ r') :
    as.map view = bs.map view ∧ r = r' := by
  induction as generalizing bs with
  | nil =>
    cases bs with
    | nil => exact ⟨rfl, h⟩
    | cons b bs =>
      refine absurd ⟨text b ++ (behind sep (bs.map text) ++ r'), ?_⟩ hstop
      simpa [behind] using h.symm
  | cons a as ih =>
    cases bs with
    | nil =>
      refine absurd ⟨text a ++ (behind sep (as.map text) ++ r), ?_⟩ hstop'
      simpa [behind] using h
    | cons b bs =>
      simp only [List.map_cons, behind, List.flatMap_cons, List.append_assoc,
        List.append_cancel_left_eq] at h
      obtain ⟨hab, htail⟩ := hitem a List.mem_cons_self b List.mem_cons_self _ _
        (holds_behind hsep _ hr) (holds_behind hsep _ hr') h
      obtain ⟨hrest, hend⟩ := ih (fun x hx y hy =>
        hitem x (List.mem_cons_of_mem a hx) y (List.mem_cons_of_mem b hy)) htail
      rw [List.map_cons, List.map_cons, hab, hrest]
      exact ⟨rfl, hend⟩

/-- Lists are determined by their texts if no item looks like the end of the list. -/
theorem intercalate_inj (hitem : ∀ a ∈ as, ∀ b ∈ bs, ToldApart E text view a b)
    (hsep : ∀ s, E (sep ++ s)) (hr : E r) (hr' : E r') (hstop : ¬ sep.IsPrefix r)
    (hstop' : ¬ sep.IsPrefix r') (hend : ∀ b ∈ bs, ¬ (text b).IsPrefix r)
    (hend' : ∀ a ∈ as, ¬ (text a).IsPrefix r')
    (h : sep.intercalate (as.map text) ++ r = sep.intercalate (bs.map text) ++ r') :
    as.map view = bs.map view ∧ r = r' := by
  cases as with
  | nil =>
    cases bs with
    | nil => exact ⟨rfl, h⟩
    | cons b bs =>
      rw [List.map_cons, intercalate_cons, List.append_assoc] at h
      exact absurd ⟨_, h.symm⟩ (hend b List.mem_cons_self)
  | cons a as =>
    cases bs with
    | nil =>
      rw [List.map_cons, intercalate_cons, List.append_assoc] at h
      exact absurd ⟨_, h⟩ (hend' a List.mem_cons_self)
    | cons b bs =>
      -- With a separator before the first items too it is the case of `behind`.
      apply behind_inj hitem hsep hr hr' hstop hstop'
      rw [List.map_cons, List.map_cons, intercalate_cons, intercalate_cons] at h
      simpa [behind] using h

end Items

end AssertionLint.Text
