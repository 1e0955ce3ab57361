import RespCache.Proofs.Cache.Run
import RespCache.Proofs.Cache.Use

/-!
More room never loses an entry. Whatever the operations are, the entries of a cache of smaller
capacity are, in order of use, among those of a larger one that makes the same run, and what is found
in the smaller one is found in the larger one (`sublist_trace_ofCapacity`). A read that finds nothing
in the smaller cache can still move an entry of the larger one, so the smaller list need not be the
front of the larger one. The invariant (`PlainCache.Within`) is that it is a sublist, and the same
list until it is full. It is told with names for the keys, as an entry that the smaller cache lost in
between may come back to it with a key that only counts as equal.
-/

namespace RespCache

universe u v w

variable {κ : Type u} {ν : Type v}

/-- What one cache finds, the other one finds as well, with the same value. -/
def Cache.Answer.Kept (a b : Cache.Answer ν) : Prop :=
  (∀ value, a = .value (some value) → b = .value (some value)) ∧ (a = .flag true → b = .flag true)

namespace Cache.Answer.Kept

theorem flag {a b : Bool} (h : a = true → b = true) :
    (Cache.Answer.flag a : Cache.Answer ν).Kept (.flag b) := by
  refine ⟨nofun, fun hflag => ?_⟩
  cases hflag
  rw [h rfl]

theorem value {a b : Option ν} (h : ∀ value, a = some value → b = some value) :
    (Cache.Answer.value a).Kept (.value b) := by
  refine ⟨fun value hvalue => ?_, nofun⟩
  cases hvalue
  rw [h value rfl]

theorem count (m n : Nat) : (Cache.Answer.count m : Cache.Answer ν).Kept (.count n) :=
  ⟨by simp, by simp⟩

theorem done : (Cache.Answer.done : Cache.Answer ν).Kept .done :=
  ⟨by simp, by simp⟩

end Cache.Answer.Kept

namespace PlainCache

/-- The first cache has less room. Its pairs are among those of the second one, in the same order, and
are the same as those unless it is full. -/
structure Within (c d : PlainCache κ ν) : Prop where
  tidy : c.Tidy
  tidy' : d.Tidy
  capacity_le : c.capacity ≤ d.capacity
  sublist : c.entries.Sublist d.entries
  eq_of_room : c.entries.length < c.capacity → c.entries = d.entries

theorem within_empty {small large : Nat} (hpos : 0 < small) (hle : small ≤ large) :
    (⟨small, []⟩ : PlainCache κ ν).Within ⟨large, []⟩ where
  tidy := tidy_empty hpos
  tidy' := tidy_empty (Nat.lt_of_lt_of_le hpos hle)
  capacity_le := hle
  sublist := List.Sublist.refl _
  eq_of_room _ := rfl

theorem sublist_dropLast {α : Type u} {l m : List α} (h : l.Sublist m) :
    l.dropLast.Sublist m.dropLast := by
  rw [← l.reverse_reverse, ← m.reverse_reverse, List.dropLast_reverse, List.dropLast_reverse]
  exact h.reverse.tail.reverse

variable [BEq κ] [LawfulBEq κ] {c d : PlainCache κ ν}

namespace Within

omit [BEq κ] [LawfulBEq κ] in
theorem mem_keys (h : c.Within d) {key : κ} (hkey : key ∈ c.entries.map Prod.fst) :
    key ∈ d.entries.map Prod.fst :=
  (h.sublist.map _).subset hkey

theorem contains (h : c.Within d) {key : κ} (hkey : c.contains key = true) :
    d.contains key = true :=
  contains_iff.mpr (h.mem_keys (contains_iff.mp hkey))

omit [LawfulBEq κ] in
theorem others (h : c.Within d) (key : κ) : (c.others key).Sublist (d.others key) :=
  h.sublist.eraseP

/-- If putting a key in front makes the larger list lose a pair, the smaller one loses one too. -/
theorem full (h : c.Within d) {key : κ} (hfull : d.capacity ≤ (d.others key).length) :
    (c.others key).length = c.capacity ∧ (d.others key).length = d.capacity := by
  have hothers := (d.others_sublist key).length_le
  have hle := h.tidy'.length_le
  have hentries : d.others key = d.entries :=
    (d.others_sublist key).eq_of_length_le (Nat.le_trans hle hfull)
  have hkey : key ∉ c.entries.map Prod.fst := by
    intro hmem
    have hnot : key ∉ (d.others key).map Prod.fst := h.tidy'.not_mem_others
    rw [hentries] at hnot
    exact hnot (h.mem_keys hmem)
  rw [others_of_not_mem hkey, hentries]
  refine ⟨Nat.le_antisymm h.tidy.length_le ?_, by omega⟩
  by_contra hroom
  have hsame := congrArg List.length (h.eq_of_room (by omega))
  have hcapacity := h.capacity_le
  rw [hentries] at hfull
  omega

theorem use (h : c.Within d) (key : κ) (value : ν) : (c.use key value).Within (d.use key value) where
  tidy := h.tidy.use key value
  tidy' := h.tidy'.use key value
  capacity_le := h.capacity_le
  sublist := by
    have hothers := (h.others key).cons_cons (key, value)
    show (List.take _ _).Sublist (List.take _ _)
    by_cases hroom : (d.others key).length < d.capacity
    · rw [List.take_of_length_le (l := (key, value) :: d.others key) hroom]
      exact (List.take_sublist _ _).trans hothers
    · obtain ⟨hsmall, hlarge⟩ := h.full (Nat.le_of_not_lt hroom)
      have hdrop := sublist_dropLast hothers
      rw [List.dropLast_eq_take, List.dropLast_eq_take, List.length_cons, List.length_cons, hsmall,
        hlarge] at hdrop
      exact hdrop
  eq_of_room hroom := by
    have hothers : c.entries.length - 1 ≤ (c.others key).length := List.le_length_eraseP
    have hcapacity := h.capacity_le
    simp only [PlainCache.use, List.length_take, List.length_cons] at hroom
    have hsame : c.entries = d.entries := h.eq_of_room (by omega)
    show List.take _ _ = List.take _ _
    rw [List.take_of_length_le (by rw [List.length_cons]; omega), PlainCache.others, hsame]
    refine (List.take_of_length_le ?_).symm
    rw [List.length_cons, ← hsame]
    show (c.others key).length + 1 ≤ d.capacity
    omega

/-- A key that only the larger list has. -/
theorem use_right (h : c.Within d) {key : κ} (hkey : key ∉ c.entries.map Prod.fst)
    (hmem : key ∈ d.entries.map Prod.fst) (value : ν) : c.Within (d.use key value) where
  tidy := h.tidy
  tidy' := h.tidy'.use key value
  capacity_le := h.capacity_le
  sublist := by
    have hothers := h.others key
    rw [others_of_not_mem hkey] at hothers
    rw [h.tidy'.entries_use_of_mem hmem]
    exact hothers.cons _
  eq_of_room hroom := by
    rw [← h.eq_of_room hroom] at hmem
    exact absurd hmem hkey

theorem get (h : c.Within d) (key : κ) :
    (∀ value, (c.get key).1 = some value → (d.get key).1 = some value) ∧
      (c.get key).2.Within (d.get key).2 := by
  by_cases hkey : key ∈ c.entries.map Prod.fst
  · obtain ⟨value, hmem⟩ := exists_mem_of_mem_keys hkey
    rw [h.tidy.get_eq_use hmem, h.tidy'.get_eq_use (h.sublist.subset hmem)]
    exact ⟨fun _ => id, h.use key value⟩
  · rw [get_of_not_mem hkey]
    refine ⟨nofun, ?_⟩
    by_cases hkey' : key ∈ d.entries.map Prod.fst
    · obtain ⟨value, hmem⟩ := exists_mem_of_mem_keys hkey'
      rw [h.tidy'.get_eq_use hmem]
      exact h.use_right hkey hkey' value
    · rw [get_of_not_mem hkey']
      exact h

omit [BEq κ] [LawfulBEq κ] in
theorem isEmpty (h : c.Within d) (hempty : c.entries.isEmpty = true) :
    d.entries.isEmpty = true := by
  -- there is room in an empty list, so the larger one is empty too
  have hnil := List.isEmpty_iff.mp hempty
  have hsame := h.eq_of_room (by rw [hnil]; exact h.tidy.pos)
  rw [← hsame, hempty]

/-- Both caches carry out an operation. -/
theorem step (h : c.Within d) (op : Cache.Op κ ν) :
    (c.step op).1.Kept (d.step op).1 ∧ (c.step op).2.Within (d.step op).2 := by
  cases op with
  | set key value =>
      simp only [PlainCache.step, h.tidy.set_eq_use, h.tidy'.set_eq_use]
      exact ⟨.flag h.contains, h.use key value⟩
  | get key => exact ⟨.value (h.get key).1, (h.get key).2⟩
  | contains key => exact ⟨.flag h.contains, h⟩
  | size => exact ⟨.count _ _, h⟩
  | isEmpty => exact ⟨.flag h.isEmpty, h⟩
  | clear => exact ⟨.done, within_empty h.tidy.pos h.capacity_le⟩

theorem trace (h : c.Within d) (ops : List (Cache.Op κ ν)) :
    List.Forall₂ (fun p q => p.1.Kept q.1 ∧ p.2.entries.Sublist q.2.entries)
      (c.trace ops) (d.trace ops) := by
  induction ops generalizing c d with
  | nil => exact .nil
  | cons op ops ih =>
      obtain ⟨hkept, hnext⟩ := h.step op
      exact .cons ⟨hkept, hnext.sublist⟩ (ih hnext)

end Within

end PlainCache

namespace Cache

variable [BEq κ]

/-- Two pairs with equal keys and the same value. -/
def SamePair (p q : κ × ν) : Prop := (p.1 == q.1) = true ∧ p.2 = q.2

theorem sublistForall₂_of_names {κ' : Type w} [BEq κ'] [LawfulBEq κ'] {f : κ → κ'}
    (hf : Faithful f) {l m : List (κ × ν)}
    (h : (l.map (Prod.map f id)).Sublist (m.map (Prod.map f id))) :
    List.SublistForall₂ SamePair l m := by
  have hsame : List.SublistForall₂ Eq (l.map (Prod.map f id)) (m.map (Prod.map f id)) :=
    h.sublistForall₂
  rw [List.sublistForall₂_map_left_iff, List.sublistForall₂_map_right_iff,
    List.sublistForall₂_iff] at hsame
  obtain ⟨k, hk, hsublist⟩ := hsame
  apply List.sublistForall₂_iff.mpr
  refine ⟨k, ?_, hsublist⟩
  apply hk.imp
  intro p q hpq
  have hnames : f p.1 = f q.1 := congrArg Prod.fst hpq
  have hvalues : p.2 = q.2 := congrArg (fun pair : κ' × ν => pair.2) hpq
  exact ⟨hf.eq_iff.mp hnames, hvalues⟩

/-- Where equal keys are the same, so are pairs. -/
theorem sublist_of_sublistForall₂ (heq : ∀ a b : κ, (a == b) = true → a = b)
    {l m : List (κ × ν)} (h : List.SublistForall₂ SamePair l m) : l.Sublist m := by
  obtain ⟨k, hk, hsublist⟩ := List.sublistForall₂_iff.mp h
  have hsame : List.Forall₂ Eq l k := by
    apply hk.imp
    intro p q hpq
    exact Prod.ext (heq _ _ hpq.1) hpq.2
  rw [List.forall₂_eq_eq_eq] at hsame
  exact hsame ▸ hsublist

variable [Hashable κ] [EquivBEq κ] [LawfulHashable κ]

theorem Sound.trace_within {κ' : Type w} [BEq κ'] [LawfulBEq κ'] {f : κ → κ'} (hf : Faithful f)
    {c d : Cache κ ν} (hc : c.Sound) (hd : d.Sound) (h : (c.view f).Within (d.view f))
    (ops : List (Op κ ν)) :
    ∃ os os', c.trace ops = .ok os ∧ d.trace ops = .ok os' ∧
      List.Forall₂ (fun o o' => o.value.Kept o'.value ∧
        (o.cache.view f).entries.Sublist (o'.cache.view f).entries) os os' := by
  obtain ⟨os, htrace, -, hview⟩ := hc.trace_view hf ops
  obtain ⟨os', htrace', -, hview'⟩ := hd.trace_view hf ops
  have hall := h.trace (ops.map (Op.rename f))
  rw [hview, hview', List.forall₂_map_left_iff, List.forall₂_map_right_iff] at hall
  exact ⟨os, os', htrace, htrace', hall⟩

/-- The same run on a new cache and on one with more room: after each operation the entries of the
first, in order of use, are among those of the second, up to keys that count as equal, and a sublist
of them where equal keys are the same. What a read finds in the first, it finds in the second, and a
key that the first reports as present is present in the second. -/
theorem sublist_trace_ofCapacity {small large : Nat} (hpos : 0 < small) (hle : small ≤ large)
    (ops : List (Op κ ν)) :
    ∃ created created' outcomes outcomes', ofCapacity small = .ok created ∧
      ofCapacity large = .ok created' ∧ created.cache.trace ops = .ok outcomes ∧
      created'.cache.trace ops = .ok outcomes' ∧
      List.Forall₂ (fun o o' => List.SublistForall₂ SamePair o.cache.toList o'.cache.toList ∧
          ((∀ a b : κ, (a == b) = true → a = b) → o.cache.toList.Sublist o'.cache.toList) ∧
          (∀ value, o.value = .value (some value) → o'.value = .value (some value)) ∧
          (o.value = .flag true → o'.value = .flag true))
        outcomes outcomes' := by
  have hpos' : 0 < large := Nat.lt_of_lt_of_le hpos hle
  have hwithin : ((⟨∅, .empty, small⟩ : Cache κ ν).view KeyClass.of).Within
      ((⟨∅, .empty, large⟩ : Cache κ ν).view KeyClass.of) := by
    rw [view_empty, view_empty]
    exact PlainCache.within_empty hpos hle
  obtain ⟨outcomes, outcomes', htrace, htrace', hall⟩ :=
    (sound_empty hpos).trace_within KeyClass.faithful_of (sound_empty hpos') hwithin ops
  refine ⟨_, _, outcomes, outcomes', if_neg (Nat.ne_of_gt hpos), if_neg (Nat.ne_of_gt hpos'),
    htrace, htrace', ?_⟩
  apply hall.imp
  intro o o' h
  have hentries := sublistForall₂_of_names KeyClass.faithful_of h.2
  exact ⟨hentries, fun heq => sublist_of_sublistForall₂ heq hentries, h.1⟩

/-- With room for two keys the read of the first one finds nothing, so the run with room for three
goes on with another order of use. -/
theorem sublist_trace_ofCapacity_two_three : 0 < 2 ∧ 2 ≤ 3 ∧
    let ops : List (Op Nat Nat) :=
      [.set 1 10, .set 2 20, .set 3 30, .get 1, .set 4 40, .get 3, .clear]
    ∃ created created' outcomes outcomes', ofCapacity 2 = .ok created ∧
      ofCapacity 3 = .ok created' ∧ created.cache.trace ops = .ok outcomes ∧
      created'.cache.trace ops = .ok outcomes' ∧
      outcomes.map (fun o => (o.value, o.cache.toList)) =
        [(.flag false, [(1, 10)]), (.flag false, [(2, 20), (1, 10)]),
          (.flag false, [(3, 30), (2, 20)]), (.value none, [(3, 30), (2, 20)]),
          (.flag false, [(4, 40), (3, 30)]), (.value (some 30), [(3, 30), (4, 40)]),
          (.done, [])] ∧
      outcomes'.map (fun o => (o.value, o.cache.toList)) =
        [(.flag false, [(1, 10)]), (.flag false, [(2, 20), (1, 10)]),
          (.flag false, [(3, 30), (2, 20), (1, 10)]),
          (.value (some 10), [(1, 10), (3, 30), (2, 20)]),
          (.flag false, [(4, 40), (1, 10), (3, 30)]),
          (.value (some 30), [(3, 30), (4, 40), (1, 10)]), (.done, [])] ∧
      List.Forall₂ (fun o o' => o.cache.toList.Sublist o'.cache.toList) outcomes outcomes' := by
  refine ⟨by decide, by decide, ?_⟩
  intro ops
  obtain ⟨created, created', outcomes, outcomes', hmade, hmade', htrace, htrace', hall⟩ :=
    sublist_trace_ofCapacity (by decide : 0 < 2) (by decide : 2 ≤ 3) ops
  refine ⟨created, created', outcomes, outcomes', hmade, hmade', htrace, htrace',
    toList_of_trace hmade htrace, toList_of_trace hmade' htrace', ?_⟩
  exact hall.imp fun o o' h => h.2.1 fun _ _ => eq_of_beq

end Cache

end RespCache
