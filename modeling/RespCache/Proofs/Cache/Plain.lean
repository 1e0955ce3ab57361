import RespCache.Cache

/-!
The rule of least recent use on a plain list. `PlainCache` keeps pairs of keys and values with the
ones used last in front and has no index, no handles and no links; it says what a cache answers
(`PlainCache.step`). The operations of both kinds of caches are the constructors of `Cache.Op`, and
a trace gives what every operation of a run leads to.
-/

namespace RespCache

universe u v

inductive Cache.Op (κ : Type u) (ν : Type v) where
  | set (key : κ) (value : ν)
  | get (key : κ)
  | contains (key : κ)
  | size
  | isEmpty
  | clear

inductive Cache.Answer (ν : Type v) where
  | flag (flag : Bool)
  | value (value : Option ν)
  | count (n : Nat)
  | done

/-- Pairs of keys and values, the ones used last in front, and the greatest number of them. -/
structure PlainCache (κ : Type u) (ν : Type v) where
  capacity : Nat
  entries : List (κ × ν)

namespace PlainCache

variable {κ : Type u} {ν : Type v} [BEq κ]

/-- Whether a key is present; the order of use stays as it is. -/
def contains (c : PlainCache κ ν) (key : κ) : Bool := c.entries.any fun p => p.1 == key

/-- The value of a key, whose pair moves to the front. -/
def get (c : PlainCache κ ν) (key : κ) : Option ν × PlainCache κ ν :=
  match c.entries.find? fun p => p.1 == key with
  | some p => (some p.2, { c with entries := p :: c.entries.eraseP fun p => p.1 == key })
  | none => (none, c)

/-- Puts a pair in front. The pair that the key had goes; if it had none and the list is full, the
last pair goes. -/
def set (c : PlainCache κ ν) (key : κ) (value : ν) : Bool × PlainCache κ ν :=
  if c.contains key then
    (true, { c with entries := (key, value) :: c.entries.eraseP fun p => p.1 == key })
  else if c.entries.length = c.capacity then
    (false, { c with entries := (key, value) :: c.entries.dropLast })
  else (false, { c with entries := (key, value) :: c.entries })

def step (c : PlainCache κ ν) : Cache.Op κ ν → Cache.Answer ν × PlainCache κ ν
  | .set key value => (.flag (c.set key value).1, (c.set key value).2)
  | .get key => (.value (c.get key).1, (c.get key).2)
  | .contains key => (.flag (c.contains key), c)
  | .size => (.count c.entries.length, c)
  | .isEmpty => (.flag c.entries.isEmpty, c)
  | .clear => (.done, { c with entries := [] })

/-- Carries out operations one after the other: the answer of each and the cache after it. -/
def trace (c : PlainCache κ ν) : List (Cache.Op κ ν) → List (Cache.Answer ν × PlainCache κ ν)
  | [] => []
  | op :: ops => c.step op :: (c.step op).2.trace ops

theorem capacity_step (c : PlainCache κ ν) (op : Cache.Op κ ν) :
    (c.step op).2.capacity = c.capacity := by
  cases op with
  | set key value =>
      simp only [step, set]
      split
      · rfl
      split <;> rfl
  | get key =>
      simp only [step, get]
      split <;> rfl
  | contains | size | isEmpty | clear => rfl

theorem capacity_of_mem_trace {c : PlainCache κ ν} {ops : List (Cache.Op κ ν)}
    {p : Cache.Answer ν × PlainCache κ ν} (hp : p ∈ c.trace ops) : p.2.capacity = c.capacity := by
  induction ops generalizing c with
  | nil => cases hp
  | cons op ops ih =>
      rcases List.mem_cons.mp hp with rfl | hp
      · exact c.capacity_step op
      · exact (ih hp).trans (c.capacity_step op)

/-- What holds of all values in a cache holds of the value that is found, and of all values after it
has been found. -/
theorem forall_get {P : ν → Prop} {c : PlainCache κ ν} (hc : ∀ p ∈ c.entries, P p.2) (key : κ) :
    (∀ value, (c.get key).1 = some value → P value) ∧ ∀ p ∈ (c.get key).2.entries, P p.2 := by
  rw [get]
  split
  case h_1 p hfind =>
      have hp := hc p (List.mem_of_find?_eq_some hfind)
      refine ⟨fun value h => ?_, ?_⟩
      · cases h
        exact hp
      · exact List.forall_mem_cons.mpr ⟨hp, fun q hq => hc q (List.mem_of_mem_eraseP hq)⟩
  case h_2 => exact ⟨nofun, hc⟩

theorem forall_set {P : ν → Prop} {c : PlainCache κ ν} (hc : ∀ p ∈ c.entries, P p.2) (key : κ)
    {value : ν} (hvalue : P value) : ∀ p ∈ (c.set key value).2.entries, P p.2 := by
  rw [set]
  split
  · exact List.forall_mem_cons.mpr ⟨hvalue, fun q hq => hc q (List.mem_of_mem_eraseP hq)⟩
  split
  · exact List.forall_mem_cons.mpr ⟨hvalue, fun q hq => hc q (List.dropLast_subset _ hq)⟩
  · exact List.forall_mem_cons.mpr ⟨hvalue, hc⟩

/-! ### A key that stands at a known place -/

variable [LawfulBEq κ] {c : PlainCache κ ν} {s t : List (κ × ν)} {key : κ} {value : ν}

theorem contains_iff : c.contains key = true ↔ key ∈ c.entries.map Prod.fst := by
  simp [contains]

theorem beq_eq_false_of_not_mem (hs : key ∉ s.map Prod.fst) {p : κ × ν} (hp : p ∈ s) :
    (p.1 == key) = false :=
  beq_eq_false_iff_ne.mpr fun heq => hs (heq ▸ List.mem_map_of_mem hp)

theorem find?_key (hs : key ∉ s.map Prod.fst) :
    ((s ++ (key, value) :: t).find? fun p => p.1 == key) = some (key, value) := by
  have hnone : (s.find? fun p => p.1 == key) = none :=
    List.find?_eq_none.mpr fun p hp => by simp [beq_eq_false_of_not_mem hs hp]
  rw [List.find?_append, hnone]
  simp

theorem eraseP_key (hs : key ∉ s.map Prod.fst) :
    ((s ++ (key, value) :: t).eraseP fun p => p.1 == key) = s ++ t := by
  rw [List.eraseP_append_right _ fun p hp => by simp [beq_eq_false_of_not_mem hs hp]]
  simp

theorem get_of_entries (hc : c.entries = s ++ (key, value) :: t) (hs : key ∉ s.map Prod.fst) :
    c.get key = (some value, { c with entries := (key, value) :: (s ++ t) }) := by
  rw [get, hc, find?_key hs, eraseP_key hs]

theorem get_of_not_mem (hkey : key ∉ c.entries.map Prod.fst) : c.get key = (none, c) := by
  have hfind : (c.entries.find? fun p => p.1 == key) = none :=
    List.find?_eq_none.mpr fun p hp => by simp [beq_eq_false_of_not_mem hkey hp]
  rw [get, hfind]

theorem set_of_entries (hc : c.entries = s ++ (key, value) :: t) (hs : key ∉ s.map Prod.fst)
    (value' : ν) : c.set key value' = (true, { c with entries := (key, value') :: (s ++ t) }) := by
  have hcontains : c.contains key = true := contains_iff.mpr (by simp [hc])
  rw [set, if_pos hcontains, hc, eraseP_key hs]

theorem set_of_not_mem (hkey : key ∉ c.entries.map Prod.fst) :
    c.set key value =
      (false, { c with entries := (key, value) ::
        if c.entries.length = c.capacity then c.entries.dropLast else c.entries }) := by
  have hcontains : c.contains key ≠ true := fun h => hkey (contains_iff.mp h)
  rw [set, if_neg hcontains]
  split <;> rfl

end PlainCache

end RespCache
