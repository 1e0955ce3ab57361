import Mathlib.Data.List.Nodup

/-!
Lists without what occurs again. `List.eraseDups` keeps the first of equal items, so in a list of
uses, the last ones in front, it leaves the order of last use. The lemmas say how that order changes
when something is used (`eraseDups_cons_eq`), what stands in front of an item
(`takeWhile_eraseDups`), and that cutting the list after some items and using an item again go
together (`take_erase_take`).
-/

namespace RespCache.Distinct

universe u v

variable {α : Type u} [BEq α]

/-- Taking all occurrences of the first item off a list makes it shorter. -/
theorem induction {motive : List α → Prop} (nil : motive [])
    (cons : ∀ a l, motive (l.filter fun b => !b == a) → motive (a :: l)) : ∀ l, motive l
  | [] => nil
  | a :: l => cons a l (induction nil cons _)
termination_by l => l.length
decreasing_by exact Nat.lt_succ_of_le (List.length_filter_le _ l)

/-- Names that tell items apart as `==` does may be given before or after. -/
theorem eraseDups_map {β : Type v} [BEq β] {f : α → β} (hf : ∀ a b, (f a == f b) = (a == b))
    (l : List α) : (l.map f).eraseDups = l.eraseDups.map f := by
  induction l using induction with
  | nil => rfl
  | cons a l ih =>
      have hnames : (fun b => !b == f a) ∘ f = fun b => !b == a := by
        funext b
        rw [Function.comp_apply, hf]
      rw [List.map_cons, List.eraseDups_cons, List.eraseDups_cons, List.filter_map, hnames, ih,
        List.map_cons]

variable [LawfulBEq α]

theorem nodup_eraseDups (l : List α) : l.eraseDups.Nodup := by
  induction l using induction with
  | nil => exact List.nodup_nil
  | cons a l ih =>
      rw [List.eraseDups_cons]
      refine List.nodup_cons.mpr ⟨fun hmem => ?_, ih⟩
      simp at hmem

theorem eraseDups_filter (p : α → Bool) (l : List α) :
    (l.filter p).eraseDups = l.eraseDups.filter p := by
  induction l using induction with
  | nil => rfl
  | cons a l ih =>
      rw [List.eraseDups_cons]
      by_cases ha : p a = true
      · rw [List.filter_cons_of_pos ha, List.filter_cons_of_pos ha, List.eraseDups_cons, ← ih,
          List.filter_comm]
      · rw [List.filter_cons_of_neg ha, List.filter_cons_of_neg ha, ← ih, List.filter_filter]
        refine congrArg _ (List.filter_congr fun b _ => ?_)
        by_cases hb : b = a
        · simp [hb, ha]
        · simp [hb]

/-- The item put in front is the only one that moves. -/
theorem eraseDups_cons_eq (a : α) (l : List α) :
    (a :: l).eraseDups = a :: l.eraseDups.erase a := by
  rw [List.eraseDups_cons, eraseDups_filter, (nodup_eraseDups l).erase_eq_filter]
  rfl

theorem takeWhile_eraseDups (a : α) (l : List α) :
    (l.takeWhile fun b => !b == a).eraseDups = l.eraseDups.takeWhile fun b => !b == a := by
  induction l using induction with
  | nil => rfl
  | cons b l ih =>
      rw [List.eraseDups_cons]
      by_cases hb : b = a
      · simp [hb]
      · have hnot : (!b == a) = true := by simp [hb]
        simp only [List.takeWhile_cons, hnot, if_true]
        rw [List.eraseDups_cons, ← ih, List.takeWhile_filter]
        -- in front of `a`, other items than `b` are left out or not, which `a` is not asked about
        have hsame : (fun x => !(!x == b) || (!x == a)) = fun x : α => !x == a := by
          funext x
          by_cases hx : x = b
          · simp [hx, hb]
          · simp [hx]
        rw [hsame]

theorem takeWhile_append_of_mem {a : α} {l : List α} (ha : a ∈ l) (m : List α) :
    ((l ++ m).takeWhile fun b => !b == a) = l.takeWhile fun b => !b == a := by
  induction l with
  | nil => cases ha
  | cons b l ih =>
      by_cases hb : b = a
      · simp [hb]
      · have hmem : a ∈ l := (List.mem_cons.mp ha).resolve_left (Ne.symm hb)
        simp [hb, ih hmem]

/-- An item is among the first ones if less than their number stand in front of it. -/
theorem mem_take_iff {a : α} {l : List α} {n : Nat} :
    a ∈ l.take n ↔ a ∈ l ∧ (l.takeWhile fun b => !b == a).length < n := by
  induction l generalizing n with
  | nil => simp
  | cons b l ih =>
      cases n with
      | zero => simp
      | succ n =>
          by_cases hb : b = a
          · simp [hb]
          · simp [hb, Ne.symm hb, ih]

/-- Of the first items, an item may be taken out before or after the rest is cut off. -/
theorem take_erase_take (a : α) (l : List α) (n : Nat) :
    ((l.take (n + 1)).erase a).take n = (l.erase a).take n := by
  induction l generalizing n with
  | nil => rfl
  | cons b l ih =>
      rw [List.take_succ_cons]
      by_cases hb : b = a
      · simp [hb, List.take_take]
      · have hnot : (b == a) = false := beq_eq_false_iff_ne.mpr hb
        rw [List.erase_cons_tail (by simp [hnot]), List.erase_cons_tail (by simp [hnot])]
        cases n with
        | zero => rfl
        | succ n => rw [List.take_succ_cons, List.take_succ_cons, ih]

end RespCache.Distinct
