import RespCache.Resp.Value

/-!
Which values the format can carry. The rule is said of each value that lies in the whole, with the
number of arrays around it; it passes from an array to its items (`wellFormedAt_array_iff`).
-/

namespace RespCache.Resp.Value

/-- The value lies in another one, inside so many of its arrays. A value lies in itself. -/
inductive Within (u : Value) : Nat → Value → Prop where
  | self : Within u 0 u
  | item {d : Nat} {v : Value} {items : List Value} :
      v ∈ items → Within u d v → Within u (d + 1) (.array items)

/-- A value may stand inside `depth` arrays, whatever its items are. -/
def Allowed (depth : Nat) : Value → Prop
  | .simple text => ¬['\r', '\n'] <:+: text.toList
  | .error text => ¬['\r', '\n'] <:+: text.toList
  | .integer _ => True
  | .bulk data => data.length ≤ 512 * 1024 * 1024
  | .nullBulk => True
  | .array items => depth ≤ 31 ∧ items.length ≤ 1024 * 1024
  | .nullArray => depth ≤ 31

/-- Every value that lies in this one may stand where it does. -/
def WellFormed (v : Value) : Prop := ∀ (d : Nat) (u : Value), u.Within d v → u.Allowed d

/-- The value is well formed inside `depth` more arrays. -/
def WellFormedAt (depth : Nat) (v : Value) : Prop :=
  ∀ (d : Nat) (u : Value), u.Within d v → u.Allowed (depth + d)

theorem wellFormedAt_zero_iff {v : Value} : v.WellFormedAt 0 ↔ v.WellFormed := by
  simp only [WellFormedAt, WellFormed, Nat.zero_add]

theorem wellFormedAt_array_iff {depth : Nat} {items : List Value} :
    (array items).WellFormedAt depth ↔
      (array items).Allowed depth ∧ ∀ v ∈ items, v.WellFormedAt (depth + 1) := by
  constructor
  · intro h
    refine ⟨h 0 _ .self, fun v hv d u hu => ?_⟩
    rw [Nat.add_right_comm]
    exact h (d + 1) u (.item hv hu)
  · rintro ⟨hself, hitems⟩ d u hu
    cases hu with
    | self => exact hself
    | item hv hu =>
        rw [← Nat.add_assoc, Nat.add_right_comm]
        exact hitems _ hv _ u hu

/-- Nothing else lies in a value that is no array. -/
theorem wellFormedAt_iff_allowed {depth : Nat} {v : Value} (hv : ∀ items, v ≠ .array items) :
    v.WellFormedAt depth ↔ v.Allowed depth := by
  constructor
  · exact fun h => h 0 v .self
  · intro h d u hu
    cases hu with
    | self => exact h
    | item => exact absurd rfl (hv _)

theorem wellFormed_iff_allowed {v : Value} (hv : ∀ items, v ≠ .array items) :
    v.WellFormed ↔ v.Allowed 0 := by
  rw [← wellFormedAt_zero_iff, wellFormedAt_iff_allowed hv]

theorem wellFormed_array_nil : (array []).WellFormed := by
  refine wellFormedAt_zero_iff.mp (wellFormedAt_array_iff.mpr ⟨?_, List.forall_mem_nil _⟩)
  exact ⟨Nat.zero_le _, Nat.zero_le _⟩

theorem Allowed.mono {d e : Nat} (h : d ≤ e) {v : Value} (hv : v.Allowed e) : v.Allowed d := by
  cases v with
  | array items => exact ⟨Nat.le_trans h hv.1, hv.2⟩
  | nullArray => exact Nat.le_trans h hv
  | simple | error | integer | bulk | nullBulk => exact hv

/-- What lies in an array may stand on its own as well. -/
theorem WellFormed.item {items : List Value} (h : (array items).WellFormed) {v : Value}
    (hv : v ∈ items) : v.WellFormed :=
  fun d u hu => (h (d + 1) u (.item hv hu)).mono (Nat.le_succ d)

end RespCache.Resp.Value
