import Mathlib.Data.List.Nodup
import RespCache.Proofs.Cache.Plain

/-!
Using a pair is the one thing that reads and writes do to a plain list: what was there for the key
goes, the pair stands in front, and what exceeds the capacity drops off at the end
(`PlainCache.use`). On a list with one pair for each key and no more pairs than the capacity
(`PlainCache.Tidy`), a write is a use (`Tidy.set_eq_use`), and so is a read that finds something
(`Tidy.get_eq_use`).
-/

namespace RespCache

universe u v

namespace PlainCache

variable {κ : Type u} {ν : Type v}

/-- There is room for a pair, no more pairs are there than have room, and no two for one key. -/
structure Tidy (c : PlainCache κ ν) : Prop where
  pos : 0 < c.capacity
  length_le : c.entries.length ≤ c.capacity
  nodup : (c.entries.map Prod.fst).Nodup

theorem tidy_empty {capacity : Nat} (hpos : 0 < capacity) :
    (⟨capacity, []⟩ : PlainCache κ ν).Tidy where
  pos := hpos
  length_le := Nat.zero_le _
  nodup := List.nodup_nil

theorem exists_mem_of_mem_keys {l : List (κ × ν)} {key : κ} (hkey : key ∈ l.map Prod.fst) :
    ∃ value, (key, value) ∈ l := by
  obtain ⟨p, hp, rfl⟩ := List.mem_map.mp hkey
  exact ⟨p.2, hp⟩

variable [BEq κ]

/-- The pairs of the other keys, in order of use. -/
def others (c : PlainCache κ ν) (key : κ) : List (κ × ν) := c.entries.eraseP fun p => p.1 == key

/-- Puts a pair in front of the pairs of the other keys and drops what there is no room for. -/
def use (c : PlainCache κ ν) (key : κ) (value : ν) : PlainCache κ ν :=
  { c with entries := ((key, value) :: c.others key).take c.capacity }

theorem others_sublist (c : PlainCache κ ν) (key : κ) : (c.others key).Sublist c.entries :=
  List.eraseP_sublist

theorem map_fst_others (c : PlainCache κ ν) (key : κ) :
    (c.others key).map Prod.fst = (c.entries.map Prod.fst).erase key := by
  rw [List.erase_eq_eraseP', List.eraseP_map]
  rfl

variable [LawfulBEq κ] {c : PlainCache κ ν} {key : κ} {value : ν}

theorem others_of_not_mem (hkey : key ∉ c.entries.map Prod.fst) : c.others key = c.entries :=
  List.eraseP_of_forall_not fun p hp => by simp [beq_eq_false_of_not_mem hkey hp]

namespace Tidy

theorem not_mem_others (hc : c.Tidy) : key ∉ (c.others key).map Prod.fst := by
  rw [map_fst_others]
  exact hc.nodup.not_mem_erase

/-- A key that has a pair needs no more room. -/
theorem entries_use_of_mem (hc : c.Tidy) (hkey : key ∈ c.entries.map Prod.fst) :
    (c.use key value).entries = (key, value) :: c.others key := by
  have hothers : (c.others key).length = c.entries.length - 1 := by
    rw [← List.length_map Prod.fst, map_fst_others, List.length_erase_of_mem hkey, List.length_map]
  have hpos := hc.pos
  have hle := hc.length_le
  refine List.take_of_length_le ?_
  rw [List.length_cons, hothers]
  omega

theorem set_eq_use (hc : c.Tidy) (key : κ) (value : ν) :
    c.set key value = (c.contains key, c.use key value) := by
  by_cases hkey : key ∈ c.entries.map Prod.fst
  · have hcontains : c.contains key = true := contains_iff.mpr hkey
    rw [set, if_pos hcontains, hcontains]
    exact congrArg (fun entries => (true, { c with entries })) (hc.entries_use_of_mem hkey).symm
  · have hcontains : c.contains key = false :=
      Bool.eq_false_iff.mpr fun h => hkey (contains_iff.mp h)
    rw [set_of_not_mem hkey, use, others_of_not_mem hkey, hcontains]
    split
    case isTrue hfull =>
        have hfront : c.entries.dropLast = c.entries.take (c.capacity - 1) := by
          rw [List.dropLast_eq_take, hfull]
        rw [hfront, List.take_cons hc.pos]
    case isFalse hroom =>
        have hlt : c.entries.length < c.capacity := Nat.lt_of_le_of_ne hc.length_le hroom
        rw [List.take_of_length_le hlt]

/-- A pair is found by its key. -/
theorem find?_of_mem (hc : c.Tidy) (hmem : (key, value) ∈ c.entries) :
    (c.entries.find? fun p => p.1 == key) = some (key, value) := by
  obtain ⟨s, t, hentries⟩ := List.append_of_mem hmem
  have hs : key ∉ s.map Prod.fst := by
    have hnodup := hc.nodup
    rw [hentries, List.map_append] at hnodup
    exact fun hmem => List.disjoint_of_nodup_append hnodup hmem (by simp)
  rw [hentries, find?_key hs]

theorem get_eq_use (hc : c.Tidy) (hmem : (key, value) ∈ c.entries) :
    c.get key = (some value, c.use key value) := by
  rw [get, hc.find?_of_mem hmem]
  exact congrArg (fun entries => (some value, { c with entries }))
    (hc.entries_use_of_mem (List.mem_map_of_mem hmem)).symm

theorem use (hc : c.Tidy) (key : κ) (value : ν) : (c.use key value).Tidy where
  pos := hc.pos
  length_le := List.length_take_le _ _
  nodup := by
    have hothers : ((c.others key).map Prod.fst).Nodup :=
      hc.nodup.sublist ((c.others_sublist key).map _)
    have hnodup : (((key, value) :: c.others key).map Prod.fst).Nodup :=
      List.nodup_cons.mpr ⟨hc.not_mem_others, hothers⟩
    exact hnodup.sublist ((List.take_sublist _ _).map _)

end Tidy

end PlainCache

end RespCache
