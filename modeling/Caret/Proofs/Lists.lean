import Mathlib.Data.List.Forall2
/-!
# `Caret.Proofs.Lists` — lists item by item

What the other modules need of lists and the library does not state. A function on lists that is written out by
recursion, as it has to be inside a mutual block, is the map of its function on items. Two lists whose items are
related one by one have related items at equal indexes.

## Contents
- **Maps written out.** `eq_map_of_cons`, `eq_mapM_of_cons`, `mapM_eq_ok_map`.
- **Related lists.** `forall₂_comp`, `forall₂_getElem?_left`, `forall₂_mem_left`, `map_eq_of_forall₂`, …
-/

namespace Caret

variable {α β γ : Type}

/-! ## Maps written out -/

/-- A function that goes through a list item by item is `map`. -/
theorem eq_map_of_cons {f : α → β} {g : List α → List β} (hnil : g [] = [])
    (hcons : ∀ a as, g (a :: as) = f a :: g as) (as : List α) : g as = as.map f := by
  induction as with
  | nil => exact hnil
  | cons a as ih => rw [hcons, ih, List.map_cons]

/-- The same for steps that may fail. -/
theorem eq_mapM_of_cons {m : Type → Type} [Monad m] [LawfulMonad m] {f : α → m β} {g : List α → m (List β)}
    (hnil : g [] = pure []) (hcons : ∀ a as, g (a :: as) = f a >>= fun b => g as >>= fun bs => pure (b :: bs))
    (as : List α) : g as = as.mapM f := by
  induction as with
  | nil => rw [hnil, List.mapM_nil]
  | cons a as ih => rw [hcons, ih, List.mapM_cons]

/-- A step that never fails is a map. -/
theorem mapM_eq_ok_map {ε : Type} {f : α → Except ε β} {g : α → β} {as : List α} (h : ∀ a ∈ as, f a = .ok (g a)) :
    as.mapM f = .ok (as.map g) := by
  induction as with
  | nil => rfl
  | cons a as ih =>
    rw [List.mapM_cons, h a List.mem_cons_self, ih fun b hb => h b (List.mem_cons_of_mem a hb)]
    rfl

/-! ## Related lists -/

section Related

variable {R : α → β → Prop} {as : List α} {bs : List β}

/-- What relates one list to a second and the second to a third relates the first to the third. -/
theorem forall₂_comp {S : β → γ → Prop} {cs : List γ} (hab : List.Forall₂ R as bs) (hbc : List.Forall₂ S bs cs) :
    List.Forall₂ (fun a c => ∃ b, R a b ∧ S b c) as cs := by
  induction hab generalizing cs with
  | nil =>
    cases hbc
    exact .nil
  | cons h _ ih =>
    cases hbc with
    | cons h' hrest => exact .cons ⟨_, h, h'⟩ (ih hrest)

/-- Each entry of one list has a partner at the same place of the other. -/
theorem forall₂_getElem?_right (h : List.Forall₂ R as bs) {i : Nat} {b : β} (hb : bs[i]? = some b) :
    ∃ a, as[i]? = some a ∧ R a b := by
  induction h generalizing i with
  | nil => contradiction
  | @cons a b' _ _ hab _ ih =>
    cases i with
    | zero =>
      obtain rfl := Option.some.inj hb
      exact ⟨a, rfl, hab⟩
    | succ i => exact ih hb

theorem forall₂_getElem?_left (h : List.Forall₂ R as bs) {i : Nat} {a : α} (ha : as[i]? = some a) :
    ∃ b, bs[i]? = some b ∧ R a b :=
  forall₂_getElem?_right (R := flip R) h.flip ha

/-- Each entry has a partner, wherever it stands. -/
theorem forall₂_mem_left (h : List.Forall₂ R as bs) {a : α} (ha : a ∈ as) : ∃ b ∈ bs, R a b := by
  obtain ⟨i, hi⟩ := List.getElem?_of_mem ha
  obtain ⟨b, hb, hab⟩ := forall₂_getElem?_left h hi
  exact ⟨b, List.mem_of_getElem? hb, hab⟩

theorem forall₂_mem_right (h : List.Forall₂ R as bs) {b : β} (hb : b ∈ bs) : ∃ a ∈ as, R a b :=
  forall₂_mem_left (R := flip R) h.flip hb

/-- Related items that look alike make lists that look alike. -/
theorem map_eq_of_forall₂ {f : α → γ} {g : β → γ} (h : List.Forall₂ R as bs)
    (heq : ∀ a, ∀ b ∈ bs, R a b → f a = g b) : as.map f = bs.map g := by
  induction h with
  | nil => rfl
  | @cons a b as bs hab _ ih =>
    rw [List.map_cons, List.map_cons, heq a b (List.mem_cons_self) hab,
      ih fun a c hc => heq a c (List.mem_cons_of_mem b hc)]

end Related
end Caret
