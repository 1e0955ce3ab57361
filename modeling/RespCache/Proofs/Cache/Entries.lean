import RespCache.Cache
import RespCache.Proofs.Chain.Nodes

/-!
Index and chain of a cache describe the same entries. `Cache.Keeps c s` says that the chain of `c`
consists of the nodes `s` and that the index leads from each of their keys to their handle, and from
nowhere else. Keys that count as equal need not be the same: an entry keeps the key that it came in
with, and is found by every key equal to it. No operation on such a cache finds index and chain
apart: each of the lemmas below gives the answer, the reported events and the nodes afterwards, and
`Keeps.get_cases` and `Keeps.set_cases` say all that a read and a write can do.
-/

namespace RespCache.Cache

universe u v

variable {κ : Type u} {ν : Type v}

/-- Handles and keys of entries, in order. -/
def places (s : Segment (Entry κ ν)) : List (Handle × κ) := s.map fun p => (p.1, p.2.key)

@[simp] theorem places_append (s t : Segment (Entry κ ν)) :
    places (s ++ t) = places s ++ places t :=
  List.map_append

@[simp] theorem places_cons (h : Handle) (entry : Entry κ ν) (s : Segment (Entry κ ν)) :
    places ((h, entry) :: s) = (h, entry.key) :: places s := rfl

@[simp] theorem places_nil : places ([] : Segment (Entry κ ν)) = [] := rfl

variable [BEq κ]

/-- One of the entries has this key, or one that counts as equal. -/
def Has (s : Segment (Entry κ ν)) (key : κ) : Prop := ∃ p ∈ places s, (p.2 == key) = true

theorem has_append {s t : Segment (Entry κ ν)} {key : κ} :
    Has (s ++ t) key ↔ Has s key ∨ Has t key := by
  simp only [Has, places_append, List.mem_append, or_and_right, exists_or]

/-- A key that occurs among entries cuts them in two. -/
theorem exists_append_of_has {s : Segment (Entry κ ν)} {key : κ} (hkey : Has s key) :
    ∃ t h entry u, s = t ++ (h, entry) :: u ∧ (entry.key == key) = true := by
  obtain ⟨place, hplace, hsame⟩ := hkey
  obtain ⟨⟨h, entry⟩, hp, rfl⟩ := List.mem_map.mp hplace
  obtain ⟨t, u, rfl⟩ := List.append_of_mem hp
  exact ⟨t, h, entry, u, rfl, hsame⟩

variable [Hashable κ]

/-- The chain consists of the nodes `s`, and the index leads to them and nowhere else. -/
structure Keeps (c : Cache κ ν) (s : Segment (Entry κ ν)) : Prop where
  order : c.order.Holds s []
  index : ∀ key h, c.index[key]? = some h ↔ ∃ key', (h, key') ∈ places s ∧ (key' == key) = true
  distinct : (places s).Pairwise fun p q => (p.2 == q.2) = false
  size : c.index.size = s.length
  length_le : s.length ≤ c.capacity

theorem keeps_empty (capacity : Nat) :
    (⟨∅, .empty, capacity⟩ : Cache κ ν).Keeps [] where
  order := Chain.holds_empty
  index key h := by simp
  distinct := .nil
  size := Std.HashMap.size_empty
  length_le := Nat.zero_le _

theorem keeps_clear (c : Cache κ ν) : c.clear.cache.Keeps [] where
  order := Chain.holds_clear _
  index key h := by simp [clear]
  distinct := .nil
  size := Std.HashMap.size_empty
  length_le := Nat.zero_le _

namespace Keeps

variable {c : Cache κ ν} {s t : Segment (Entry κ ν)} {h : Handle} {entry : Entry κ ν} {key : κ}

theorem toList_eq (hc : c.Keeps s) : c.toList = s.map fun p => (p.2.key, p.2.value) := by
  rw [Cache.toList, Chain.toList, hc.order.nodes_eq, List.map_map]
  rfl

theorem index_node (hc : c.Keeps (s ++ (h, entry) :: t)) (hkey : (entry.key == key) = true) :
    c.index[key]? = some h :=
  (hc.index key h).mpr ⟨entry.key, by simp, hkey⟩

theorem index_eq_none_iff (hc : c.Keeps s) : c.index[key]? = none ↔ ¬Has s key := by
  rw [Option.eq_none_iff_forall_ne_some]
  constructor
  · rintro hnone ⟨⟨h, key'⟩, hplace, hsame⟩
    exact hnone h ((hc.index key h).mpr ⟨key', hplace, hsame⟩)
  · intro hkey h hindex
    obtain ⟨key', hplace, hsame⟩ := (hc.index key h).mp hindex
    exact hkey ⟨(h, key'), hplace, hsame⟩

variable [EquivBEq κ]

/-- No other entry in front of a key's own has a key equal to it. -/
theorem not_has_before (hc : c.Keeps (s ++ (h, entry) :: t)) (hkey : (entry.key == key) = true) :
    ¬Has s key := by
  rintro ⟨place, hplace, hsame⟩
  have hdistinct := hc.distinct
  rw [places_append, List.pairwise_append] at hdistinct
  have hother : (place.2 == entry.key) = false := hdistinct.2.2 place hplace _ List.mem_cons_self
  rw [BEq.trans hsame (BEq.symm hkey)] at hother
  cases hother

/-- The nodes may change their order and their values. -/
theorem reorder {index : Std.HashMap κ Handle} {order order' : Chain (Entry κ ν)} {capacity : Nat}
    (hc : (⟨index, order, capacity⟩ : Cache κ ν).Keeps s) (horder : order'.Holds t [])
    (hplaces : (places t).Perm (places s)) :
    (⟨index, order', capacity⟩ : Cache κ ν).Keeps t := by
  have hlength : t.length = s.length := by simpa [places] using hplaces.length_eq
  constructor
  case order => exact horder
  case index =>
    intro key h
    rw [hc.index key h]
    apply exists_congr
    intro key'
    rw [hplaces.mem_iff]
  case distinct => exact (hplaces.pairwise_iff BEq.symm_false).mpr hc.distinct
  case size => exact hc.size.trans hlength.symm
  case length_le => exact Nat.le_trans (Nat.le_of_eq hlength) hc.length_le

/-! ### A key that is present -/

theorem get_node (hc : c.Keeps (s ++ (h, entry) :: t)) (hkey : (entry.key == key) = true) :
    ∃ c', c.get key = .ok (some entry.value, c') ∧ c'.Keeps ((h, entry) :: (s ++ t)) ∧
      c'.capacity = c.capacity := by
  have hindex := hc.index_node hkey
  obtain ⟨order, hmove, horder⟩ := hc.order.moveToFront
  obtain ⟨index, order', capacity⟩ := c
  have hentry : order.get? h = some entry := horder.get?_eq_some_iff.mpr List.mem_cons_self
  refine ⟨⟨index, order, capacity⟩, ?_, hc.reorder horder ?_, rfl⟩
  · simp only at hindex hmove
    simp only [Cache.get, hindex, hmove, hentry]
  · simpa using List.perm_middle.symm

theorem set_node (hc : c.Keeps (s ++ (h, entry) :: t)) (hkey : (entry.key == key) = true)
    (value : ν) : ∃ c', c.set key value = .ok ⟨true, c', []⟩ ∧
      c'.Keeps ((h, { entry with value }) :: (s ++ t)) ∧ c'.capacity = c.capacity := by
  have hindex := hc.index_node hkey
  obtain ⟨moved, hmove, hmoved⟩ := hc.order.moveToFront
  obtain ⟨order, hmodify, horder⟩ :=
    Chain.Holds.modify? (s := []) hmoved fun entry => { entry with value }
  obtain ⟨index, order', capacity⟩ := c
  refine ⟨⟨index, order, capacity⟩, ?_, hc.reorder horder ?_, rfl⟩
  · simp only at hindex hmove
    simp only [Cache.set, hindex, hmove, hmodify]
  · simpa using List.perm_middle.symm

/-! ### A key that is absent -/

omit [EquivBEq κ] in
theorem get_of_not_has (hc : c.Keeps s) (hkey : ¬Has s key) : c.get key = .ok (none, c) := by
  have hindex := hc.index_eq_none_iff.mpr hkey
  obtain ⟨index, order, capacity⟩ := c
  simp only at hindex
  simp only [Cache.get, hindex]

variable [LawfulHashable κ]

theorem contains_eq (hc : c.Keeps s) : c.contains key = true ↔ Has s key := by
  rw [Cache.contains, Std.HashMap.contains_eq_isSome_getElem?, Option.isSome_iff_ne_none, ne_eq,
    hc.index_eq_none_iff, not_not]

theorem insertNew (hc : c.Keeps s) (hkey : ¬Has s key) (hroom : s.length < c.capacity) (value : ν) :
    ∃ h, (c.insertNew key value).Keeps ((h, ⟨key, value⟩) :: s) ∧
      (c.insertNew key value).capacity = c.capacity := by
  have hindex := hc.index_eq_none_iff.mpr hkey
  obtain ⟨index, order, capacity⟩ := c
  simp only at hindex
  refine ⟨(order.pushFront ⟨key, value⟩).1, ?_, rfl⟩
  constructor
  case order => exact hc.order.pushFront _
  case index =>
    intro key' h
    simp only [Cache.insertNew, Std.HashMap.getElem?_insert, places_cons, List.mem_cons,
      Prod.mk.injEq]
    by_cases hsame : (key == key') = true
    · rw [if_pos hsame]
      constructor
      · intro hnew
        exact ⟨key, .inl ⟨(Option.some.inj hnew).symm, rfl⟩, hsame⟩
      · rintro ⟨other, ⟨rfl, rfl⟩ | hplace, hother⟩
        · rfl
        · exact absurd ⟨_, hplace, BEq.trans hother (BEq.symm hsame)⟩ hkey
    · rw [if_neg hsame, hc.index key' h]
      apply exists_congr
      intro other
      apply and_congr_left
      intro hother
      -- the new key is not the one looked for, so an entry found for it was there before
      apply (or_iff_right _).symm
      rintro ⟨-, rfl⟩
      exact hsame hother
  case distinct =>
    apply List.pairwise_cons.mpr
    refine ⟨fun place hplace => ?_, hc.distinct⟩
    apply Bool.eq_false_iff.mpr
    intro hsame
    exact hkey ⟨place, hplace, BEq.symm hsame⟩
  case size =>
    have hnotMem : key ∉ index := by simpa using hindex
    simp only [Cache.insertNew, Std.HashMap.size_insert, if_neg hnotMem]
    exact congrArg (· + 1) hc.size
  case length_le => exact hroom

theorem evict (hc : c.Keeps (s ++ [(h, entry)])) :
    ∃ c', c.evict = .ok c' ∧ c'.Keeps s ∧ c'.capacity = c.capacity := by
  have hindex := hc.index_node BEq.rfl
  obtain ⟨order, hpop, horder⟩ := hc.order.popBack
  obtain ⟨index, order', capacity⟩ := c
  simp only at hindex hpop
  have hmem : entry.key ∈ index := by
    rw [Std.HashMap.mem_iff_isSome_getElem?, hindex]
    rfl
  refine ⟨⟨index.erase entry.key, order, capacity⟩, ?_, ?_, rfl⟩
  · simp only [Cache.evict, hpop, Std.HashMap.contains_iff_mem.mpr hmem, if_true]
  constructor
  case order => exact horder
  case index =>
    intro key' g
    have hold := hc.index key' g
    simp only [places_append, places_cons, places_nil, List.mem_append, List.mem_singleton,
      Prod.mk.injEq] at hold
    rw [Std.HashMap.getElem?_erase]
    by_cases hsame : (entry.key == key') = true
    · rw [if_pos hsame]
      refine iff_of_false nofun ?_
      rintro ⟨other, hplace, hother⟩
      exact hc.not_has_before hsame ⟨_, hplace, hother⟩
    · rw [if_neg hsame, hold]
      apply exists_congr
      intro other
      apply and_congr_left
      intro hother
      apply or_iff_left
      rintro ⟨-, rfl⟩
      exact hsame hother
  case distinct =>
    have hdistinct := hc.distinct
    rw [places_append, List.pairwise_append] at hdistinct
    exact hdistinct.1
  case size =>
    have hsize := hc.size
    simp only [List.length_append, List.length_singleton] at hsize
    simp [Std.HashMap.size_erase, hmem, hsize]
  case length_le => exact Nat.le_of_succ_le (by simpa using hc.length_le)

theorem set_of_room (hc : c.Keeps s) (hkey : ¬Has s key) (hroom : s.length < c.capacity)
    (value : ν) : ∃ h c', c.set key value = .ok ⟨false, c', []⟩ ∧
      c'.Keeps ((h, ⟨key, value⟩) :: s) ∧ c'.capacity = c.capacity := by
  obtain ⟨h, hinsert, hcapacity⟩ := hc.insertNew hkey hroom value
  have hnotFull : ¬c.capacity ≤ c.order.length := by
    rw [hc.order.length]
    exact Nat.not_le_of_lt hroom
  refine ⟨h, _, ?_, hinsert, hcapacity⟩
  simp only [Cache.set, hc.index_eq_none_iff.mpr hkey, if_neg hnotFull]

theorem set_of_full (hc : c.Keeps (s ++ [(h, entry)])) (hkey : ¬Has (s ++ [(h, entry)]) key)
    (hfull : (s ++ [(h, entry)]).length = c.capacity) (value : ν) :
    ∃ g c', c.set key value = .ok ⟨false, c', [.evicted c.capacity]⟩ ∧
      c'.Keeps ((g, ⟨key, value⟩) :: s) ∧ c'.capacity = c.capacity := by
  obtain ⟨evicted, hevict, hevicted, hcapacity⟩ := hc.evict
  have hkey' : ¬Has s key := fun hmem => hkey (has_append.mpr (.inl hmem))
  have hroom : s.length < evicted.capacity := by
    rw [hcapacity, ← hfull]
    simp
  obtain ⟨g, hinsert, hcapacity'⟩ := hevicted.insertNew hkey' hroom value
  have hlength : c.capacity ≤ c.order.length := Nat.le_of_eq (by rw [hc.order.length, hfull])
  refine ⟨g, _, ?_, hinsert, hcapacity'.trans hcapacity⟩
  simp only [Cache.set, hc.index_eq_none_iff.mpr hkey, if_pos hlength, hevict]

/-! ### What a read and a write do -/

omit [LawfulHashable κ] in
/-- A read finds the entry of the key and puts it in front, or it finds nothing. -/
theorem get_cases (hc : c.Keeps s) (key : κ) :
    (∃ t h entry u c', s = t ++ (h, entry) :: u ∧ (entry.key == key) = true ∧
      c.get key = .ok (some entry.value, c') ∧ c'.Keeps ((h, entry) :: (t ++ u)) ∧
      c'.capacity = c.capacity) ∨
    (¬Has s key ∧ c.get key = .ok (none, c)) := by
  by_cases hkey : Has s key
  · obtain ⟨t, h, entry, u, rfl, hsame⟩ := exists_append_of_has hkey
    obtain ⟨c', hget, hkeeps, hcapacity⟩ := hc.get_node hsame
    exact .inl ⟨t, h, entry, u, c', rfl, hsame, hget, hkeeps, hcapacity⟩
  · exact .inr ⟨hkey, hc.get_of_not_has hkey⟩

/-- A write gives the entry of the key its value and puts it in front, or a new entry comes in front
and the last one goes, or there is room for the new one. -/
theorem set_cases (hc : c.Keeps s) (hpos : 0 < c.capacity) (key : κ) (value : ν) :
    (∃ t h entry u c', s = t ++ (h, entry) :: u ∧ (entry.key == key) = true ∧
      c.set key value = .ok ⟨true, c', []⟩ ∧ c'.Keeps ((h, { entry with value }) :: (t ++ u)) ∧
      c'.capacity = c.capacity) ∨
    (∃ t last g c', s = t ++ [last] ∧ ¬Has s key ∧ s.length = c.capacity ∧
      c.set key value = .ok ⟨false, c', [.evicted c.capacity]⟩ ∧
      c'.Keeps ((g, ⟨key, value⟩) :: t) ∧ c'.capacity = c.capacity) ∨
    (∃ g c', ¬Has s key ∧ s.length < c.capacity ∧ c.set key value = .ok ⟨false, c', []⟩ ∧
      c'.Keeps ((g, ⟨key, value⟩) :: s) ∧ c'.capacity = c.capacity) := by
  by_cases hkey : Has s key
  · obtain ⟨t, h, entry, u, rfl, hsame⟩ := exists_append_of_has hkey
    obtain ⟨c', hset, hkeeps, hcapacity⟩ := hc.set_node hsame value
    exact .inl ⟨t, h, entry, u, c', rfl, hsame, hset, hkeeps, hcapacity⟩
  refine .inr ?_
  by_cases hfull : s.length = c.capacity
  · -- a full cache has a last entry, as its capacity is positive
    rcases List.eq_nil_or_concat s with rfl | ⟨t, last, rfl⟩
    · exact absurd hfull (Nat.ne_of_lt hpos)
    · rw [List.concat_eq_append] at hc hkey hfull
      obtain ⟨g, c', hset, hkeeps, hcapacity⟩ := hc.set_of_full hkey hfull value
      exact .inl ⟨t, last, g, c', by simp, by simpa using hkey, by simpa using hfull, hset, hkeeps,
        hcapacity⟩
  · have hroom : s.length < c.capacity := Nat.lt_of_le_of_ne hc.length_le hfull
    obtain ⟨g, c', hset, hkeeps, hcapacity⟩ := hc.set_of_room hkey hroom value
    exact .inr ⟨g, c', hkey, hroom, hset, hkeeps, hcapacity⟩

end Keeps

end RespCache.Cache
