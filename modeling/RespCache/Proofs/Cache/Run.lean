import RespCache.Proofs.Cache.Entries
import RespCache.Proofs.Cache.Keys

/-!
Runs of a cache. Whatever the operations are, a cache made for a positive capacity answers each of
them, and the answers and the entries in order of use are those of the plain list. The step lemma
`Sound.step_view` carries this: a plain list, of the names of keys and of values, is what a sound
cache looks like from outside, and both make the same steps. Any names will do that tell keys apart
as the cache does: the keys themselves where equal keys are the same, the classes of equal keys
otherwise.
-/

namespace RespCache.Cache

universe u v w

variable {κ : Type u} {ν : Type v} [BEq κ] [Hashable κ]

def step (c : Cache κ ν) : Op κ ν → Except Fault (Outcome κ ν (Answer ν))
  | .set key value =>
    match c.set key value with
    | .error fault => .error fault
    | .ok ⟨present, c, events⟩ => .ok ⟨.flag present, c, events⟩
  | .get key =>
    match c.get key with
    | .error fault => .error fault
    | .ok (value, c) => .ok ⟨.value value, c, []⟩
  | .contains key => .ok ⟨.flag (c.contains key), c, []⟩
  | .size => .ok ⟨.count c.size, c, []⟩
  | .isEmpty => .ok ⟨.flag c.isEmpty, c, []⟩
  | .clear =>
    match c.clear with
    | ⟨(), c, events⟩ => .ok ⟨.done, c, events⟩

theorem of_step_set {c : Cache κ ν} {key : κ} {value : ν} {o : Outcome κ ν (Answer ν)}
    (h : c.step (.set key value) = .ok o) :
    ∃ p, c.set key value = .ok p ∧ o = ⟨.flag p.value, p.cache, p.events⟩ := by
  unfold step at h
  cases hset : c.set key value with
  | error fault => simp [hset] at h
  | ok p =>
      simp only [hset] at h
      cases h
      exact ⟨p, rfl, rfl⟩

theorem of_step_get {c : Cache κ ν} {key : κ} {o : Outcome κ ν (Answer ν)}
    (h : c.step (.get key) = .ok o) :
    ∃ found, c.get key = .ok found ∧ o = ⟨.value found.1, found.2, []⟩ := by
  unfold step at h
  cases hget : c.get key with
  | error fault => simp [hget] at h
  | ok found =>
      simp only [hget] at h
      cases h
      exact ⟨found, rfl, rfl⟩

/-- Carries out operations one after the other: what each of them leads to. -/
def trace (c : Cache κ ν) : List (Op κ ν) → Except Fault (List (Outcome κ ν (Answer ν)))
  | [] => .ok []
  | op :: ops =>
    match c.step op with
    | .error fault => .error fault
    | .ok o =>
      match o.cache.trace ops with
      | .error fault => .error fault
      | .ok os => .ok (o :: os)

/-- The cache after the last of the operations that led to `outcomes`. -/
def final (c : Cache κ ν) : List (Outcome κ ν (Answer ν)) → Cache κ ν
  | [] => c
  | o :: os => o.cache.final os

/-- What a cache looks like from outside. -/
def plain (c : Cache κ ν) : PlainCache κ ν := ⟨c.capacity, c.toList⟩

/-- What a cache looks like from outside when its keys are called by names. -/
def view {κ' : Type w} (f : κ → κ') (c : Cache κ ν) : PlainCache κ' ν :=
  ⟨c.capacity, c.toList.map (Prod.map f id)⟩

/-- There is room for an entry, and index and chain describe the same entries. -/
def Sound (c : Cache κ ν) : Prop := 0 < c.capacity ∧ ∃ s, c.Keeps s

theorem Sound.clear_sound {c : Cache κ ν} (hc : c.Sound) : c.clear.cache.Sound :=
  ⟨hc.1, [], keeps_clear c⟩

theorem view_id (c : Cache κ ν) : c.view id = c.plain := by
  rw [view, Prod.map_id, List.map_id]
  rfl

theorem sound_empty {capacity : Nat} (hpos : 0 < capacity) :
    (⟨∅, .empty, capacity⟩ : Cache κ ν).Sound :=
  ⟨hpos, [], keeps_empty capacity⟩

theorem plain_empty (capacity : Nat) :
    (⟨∅, .empty, capacity⟩ : Cache κ ν).plain = ⟨capacity, []⟩ := by
  rw [plain, (keeps_empty capacity).toList_eq]
  rfl

theorem plain_clear (c : Cache κ ν) : c.clear.cache.plain = ⟨c.capacity, []⟩ := by
  rw [plain, (keeps_clear c).toList_eq]
  rfl

/-! ### Steps, with names for the keys -/

section View

variable {κ' : Type w} {f : κ → κ'} {s t : Segment (Entry κ ν)}

/-- Names of keys, and values, of entries, in order. -/
def pairs (f : κ → κ') (s : Segment (Entry κ ν)) : List (κ' × ν) :=
  s.map fun p => (f p.2.key, p.2.value)

omit [BEq κ] [Hashable κ] in
@[simp] theorem pairs_cons (h : Handle) (entry : Entry κ ν) :
    pairs f ((h, entry) :: s) = (f entry.key, entry.value) :: pairs f s := rfl

omit [BEq κ] [Hashable κ] in
@[simp] theorem pairs_append : pairs f (s ++ t) = pairs f s ++ pairs f t := List.map_append

omit [BEq κ] [Hashable κ] in
@[simp] theorem length_pairs : (pairs f s).length = s.length := List.length_map _

theorem Keeps.view_eq {c : Cache κ ν} (hc : c.Keeps s) : c.view f = ⟨c.capacity, pairs f s⟩ := by
  rw [view, hc.toList_eq, List.map_map]
  rfl

theorem view_empty (capacity : Nat) :
    (⟨∅, .empty, capacity⟩ : Cache κ ν).view f = ⟨capacity, []⟩ :=
  (keeps_empty capacity).view_eq

variable [BEq κ'] [LawfulBEq κ'] (hf : Faithful f)

include hf

omit [Hashable κ] in
theorem mem_map_fst_pairs {key : κ} : f key ∈ (pairs f s).map Prod.fst ↔ Has s key := by
  simp only [pairs, Has, places, List.map_map, List.mem_map, exists_exists_and_eq_and,
    Function.comp_apply, hf.eq_iff]

namespace Sound

variable [EquivBEq κ] [LawfulHashable κ] {c : Cache κ ν}

theorem set_view (hc : c.Sound) (key : κ) (value : ν) :
    ∃ o, c.set key value = .ok o ∧ o.cache.Sound ∧
      (c.view f).set (f key) value = (o.value, o.cache.view f) := by
  obtain ⟨hpos, s, hs⟩ := hc
  have habsent (hkey : ¬Has s key) : f key ∉ (c.view f).entries.map Prod.fst := by
    rw [hs.view_eq]
    exact (mem_map_fst_pairs hf).not.mpr hkey
  rcases hs.set_cases hpos key value with
    ⟨t, h, entry, u, c', rfl, hsame, hset, hkeeps, hcapacity⟩ |
    ⟨t, last, g, c', rfl, hkey, hfull, hset, hkeeps, hcapacity⟩ |
    ⟨g, c', hkey, hroom, hset, hkeeps, hcapacity⟩
  · refine ⟨_, hset, ⟨hcapacity ▸ hpos, _, hkeeps⟩, ?_⟩
    have hname : f entry.key = f key := hf.eq_iff.mpr hsame
    have hentries : (c.view f).entries = pairs f t ++ (f key, entry.value) :: pairs f u := by
      simp [hs.view_eq, hname]
    have hbefore : f key ∉ (pairs f t).map Prod.fst :=
      (mem_map_fst_pairs hf).not.mpr (hs.not_has_before hsame)
    rw [PlainCache.set_of_entries hentries hbefore value, hkeeps.view_eq, hcapacity, pairs_cons,
      pairs_append, hname]
    rfl
  · refine ⟨_, hset, ⟨hcapacity ▸ hpos, _, hkeeps⟩, ?_⟩
    rw [PlainCache.set_of_not_mem (habsent hkey), hs.view_eq, hkeeps.view_eq, hcapacity,
      if_pos (by rw [length_pairs, hfull])]
    simp [pairs]
  · refine ⟨_, hset, ⟨hcapacity ▸ hpos, _, hkeeps⟩, ?_⟩
    rw [PlainCache.set_of_not_mem (habsent hkey), hs.view_eq, hkeeps.view_eq, hcapacity,
      if_neg (by rw [length_pairs]; exact Nat.ne_of_lt hroom)]
    simp

omit [LawfulHashable κ] in
theorem get_view (hc : c.Sound) (key : κ) :
    ∃ value c', c.get key = .ok (value, c') ∧ c'.Sound ∧
      (c.view f).get (f key) = (value, c'.view f) := by
  obtain ⟨hpos, s, hs⟩ := hc
  rcases hs.get_cases key with
    ⟨t, h, entry, u, c', rfl, hsame, hget, hkeeps, hcapacity⟩ | ⟨hkey, hget⟩
  · refine ⟨_, _, hget, ⟨hcapacity ▸ hpos, _, hkeeps⟩, ?_⟩
    have hname : f entry.key = f key := hf.eq_iff.mpr hsame
    have hentries : (c.view f).entries = pairs f t ++ (f key, entry.value) :: pairs f u := by
      simp [hs.view_eq, hname]
    have hbefore : f key ∉ (pairs f t).map Prod.fst :=
      (mem_map_fst_pairs hf).not.mpr (hs.not_has_before hsame)
    rw [PlainCache.get_of_entries hentries hbefore, hkeeps.view_eq, hcapacity, pairs_cons,
      pairs_append, hname]
    rfl
  · refine ⟨_, _, hget, ⟨hpos, s, hs⟩, ?_⟩
    apply PlainCache.get_of_not_mem
    rw [hs.view_eq]
    exact (mem_map_fst_pairs hf).not.mpr hkey

theorem contains_view (hc : c.Sound) (key : κ) : (c.view f).contains (f key) = c.contains key := by
  obtain ⟨-, s, hs⟩ := hc
  rw [Bool.eq_iff_iff, PlainCache.contains_iff, hs.contains_eq, hs.view_eq]
  exact mem_map_fst_pairs hf

omit [BEq κ'] [LawfulBEq κ'] [EquivBEq κ] [LawfulHashable κ] hf in
theorem length_view (hc : c.Sound) : (c.view f).entries.length = c.size := by
  obtain ⟨-, s, hs⟩ := hc
  rw [hs.view_eq, length_pairs, size, hs.size]

/-- A sound cache does what the plain one does, and stays sound. -/
theorem step_view (hc : c.Sound) (op : Op κ ν) :
    ∃ o, c.step op = .ok o ∧ o.cache.Sound ∧
      (c.view f).step (op.rename f) = (o.value, o.cache.view f) := by
  cases op with
  | set key value =>
      obtain ⟨⟨present, c', events⟩, hset, hsound, hview⟩ := hc.set_view hf key value
      exact ⟨⟨.flag present, c', events⟩, by simp only [step, hset], hsound,
        by simp only [Op.rename, PlainCache.step, hview]⟩
  | get key =>
      obtain ⟨value, c', hget, hsound, hview⟩ := hc.get_view hf key
      exact ⟨⟨.value value, c', []⟩, by simp only [step, hget], hsound,
        by simp only [Op.rename, PlainCache.step, hview]⟩
  | contains key =>
      exact ⟨_, rfl, hc, by rw [Op.rename, PlainCache.step, hc.contains_view hf]⟩
  | size => exact ⟨_, rfl, hc, by rw [Op.rename, PlainCache.step, hc.length_view]⟩
  | isEmpty =>
      refine ⟨_, rfl, hc, ?_⟩
      rw [Op.rename, PlainCache.step, Cache.isEmpty, ← hc.length_view (f := f)]
      cases (c.view f).entries <;> rfl
  | clear =>
      refine ⟨_, rfl, hc.clear_sound, ?_⟩
      exact congrArg (Prod.mk Answer.done) (keeps_clear c).view_eq.symm

theorem trace_view (hc : c.Sound) (ops : List (Op κ ν)) :
    ∃ os, c.trace ops = .ok os ∧ (∀ o ∈ os, o.cache.Sound) ∧
      (c.view f).trace (ops.map (Op.rename f)) = os.map fun o => (o.value, o.cache.view f) := by
  induction ops generalizing c with
  | nil => exact ⟨[], rfl, by simp, rfl⟩
  | cons op ops ih =>
      obtain ⟨o, hstep, hsound, hview⟩ := hc.step_view hf op
      obtain ⟨os, htrace, hsounds, hviews⟩ := ih hsound
      refine ⟨o :: os, by simp only [trace, hstep, htrace], ?_, ?_⟩
      · exact List.forall_mem_cons.mpr ⟨hsound, hsounds⟩
      · rw [List.map_cons, PlainCache.trace, hview, hviews, List.map_cons]

end Sound

end View

/-! ### Steps, whatever the keys -/

section Steps

variable [EquivBEq κ] [LawfulHashable κ] {c : Cache κ ν}

/-- No operation faults, and none changes the capacity. -/
theorem Sound.exists_step (hc : c.Sound) (op : Op κ ν) :
    ∃ o, c.step op = .ok o ∧ o.cache.Sound ∧ o.cache.capacity = c.capacity := by
  obtain ⟨o, hstep, hsound, hview⟩ := hc.step_view KeyClass.faithful_of op
  have hcapacity := (c.view KeyClass.of).capacity_step (op.rename KeyClass.of)
  rw [hview] at hcapacity
  exact ⟨o, hstep, hsound, hcapacity⟩

theorem Sound.of_step (hc : c.Sound) {op : Op κ ν} {o : Outcome κ ν (Answer ν)}
    (h : c.step op = .ok o) : o.cache.Sound ∧ o.cache.capacity = c.capacity := by
  obtain ⟨o', hstep, hsound⟩ := hc.exists_step op
  cases h.symm.trans hstep
  exact hsound

theorem Sound.exists_trace (hc : c.Sound) (ops : List (Op κ ν)) :
    ∃ os, c.trace ops = .ok os ∧ ∀ o ∈ os, o.cache.Sound ∧ o.cache.capacity = c.capacity := by
  obtain ⟨os, htrace, hsounds, hview⟩ := hc.trace_view KeyClass.faithful_of ops
  refine ⟨os, htrace, fun o ho => ⟨hsounds o ho, ?_⟩⟩
  have hmem : (o.value, o.cache.view KeyClass.of) ∈
      (c.view KeyClass.of).trace (ops.map (Op.rename KeyClass.of)) := by
    rw [hview]
    exact List.mem_map_of_mem ho
  exact PlainCache.capacity_of_mem_trace hmem

end Steps

/-! ### Keys that are equal only to themselves -/

namespace Sound

variable [LawfulBEq κ] {c : Cache κ ν}

theorem set_plain (hc : c.Sound) (key : κ) (value : ν) :
    ∃ o, c.set key value = .ok o ∧ o.cache.Sound ∧
      c.plain.set key value = (o.value, o.cache.plain) := by
  simpa only [view_id, id_eq] using hc.set_view faithful_id key value

theorem get_plain (hc : c.Sound) (key : κ) :
    ∃ value c', c.get key = .ok (value, c') ∧ c'.Sound ∧
      c.plain.get key = (value, c'.plain) := by
  simpa only [view_id, id_eq] using hc.get_view faithful_id key

theorem contains_plain (hc : c.Sound) (key : κ) : c.plain.contains key = c.contains key := by
  simpa only [view_id, id_eq] using hc.contains_view faithful_id key

omit [LawfulBEq κ] in
theorem size_plain (hc : c.Sound) : c.plain.entries.length = c.size := by
  simpa only [view_id] using hc.length_view (f := id)

theorem step_plain (hc : c.Sound) (op : Op κ ν) :
    ∃ o, c.step op = .ok o ∧ o.cache.Sound ∧ c.plain.step op = (o.value, o.cache.plain) := by
  simpa only [view_id, Op.rename_id] using hc.step_view faithful_id op

theorem trace_plain (hc : c.Sound) (ops : List (Op κ ν)) :
    ∃ os, c.trace ops = .ok os ∧
      c.plain.trace ops = os.map fun o => (o.value, o.cache.plain) := by
  obtain ⟨os, htrace, -, hview⟩ := hc.trace_view faithful_id ops
  simp only [view_id, List.map_id'' Op.rename_id] at hview
  exact ⟨os, htrace, hview⟩

end Sound

/-! ### Runs from a new cache on -/

theorem created_eq {capacity : Nat} {created : Outcome κ ν Unit}
    (h : ofCapacity capacity = .ok created) :
    0 < capacity ∧ created = ⟨(), ⟨∅, .empty, capacity⟩, [.created capacity]⟩ := by
  unfold ofCapacity at h
  split at h
  case isTrue => cases h
  case isFalse hpos =>
    cases h
    exact ⟨Nat.pos_of_ne_zero hpos, rfl⟩

/-- The caches that operations lead to from a new one. -/
inductive Reachable : Cache κ ν → Prop where
  | made {capacity : Nat} {o : Outcome κ ν Unit} : ofCapacity capacity = .ok o → Reachable o.cache
  | step {c : Cache κ ν} {op : Op κ ν} {o : Outcome κ ν (Answer ν)} :
      Reachable c → c.step op = .ok o → Reachable o.cache

theorem Reachable.sound [EquivBEq κ] [LawfulHashable κ] {c : Cache κ ν} (hc : c.Reachable) :
    c.Sound := by
  induction hc with
  | made hmade =>
      obtain ⟨hpos, rfl⟩ := created_eq hmade
      exact sound_empty hpos
  | step _ hstep hsound => exact (hsound.of_step hstep).1

section Made

variable [LawfulBEq κ] {capacity : Nat} {created : Outcome κ ν Unit} {ops : List (Op κ ν)}
  {outcomes : List (Outcome κ ν (Answer ν))}

theorem toList_of_trace (hmade : ofCapacity capacity = .ok created)
    (htrace : created.cache.trace ops = .ok outcomes) :
    outcomes.map (fun o => (o.value, o.cache.toList)) =
      ((⟨capacity, []⟩ : PlainCache κ ν).trace ops).map fun p => (p.1, p.2.entries) := by
  obtain ⟨hpos, rfl⟩ := created_eq hmade
  have hsound : (⟨∅, .empty, capacity⟩ : Cache κ ν).Sound := sound_empty hpos
  obtain ⟨outcomes', htrace', hplain⟩ := hsound.trace_plain ops
  cases htrace.symm.trans htrace'
  rw [← plain_empty capacity, hplain, List.map_map]
  rfl

end Made

/-- A cache made for a positive capacity never faults; every operation answers what the plain list
answers, and the entries in order of use after it are those of the plain list. -/
theorem trace_ofCapacity [LawfulBEq κ] {capacity : Nat} (hpos : 0 < capacity) (ops : List (Op κ ν)) :
    ∃ created outcomes, ofCapacity capacity = .ok created ∧ created.cache.trace ops = .ok outcomes ∧
      outcomes.map (fun o => (o.value, o.cache.toList)) =
        ((⟨capacity, []⟩ : PlainCache κ ν).trace ops).map fun p => (p.1, p.2.entries) := by
  have hmade : ofCapacity capacity = .ok (⟨(), ⟨∅, .empty, capacity⟩, [.created capacity]⟩ :
      Outcome κ ν Unit) := if_neg (Nat.ne_of_gt hpos)
  obtain ⟨outcomes, htrace, -⟩ := (sound_empty hpos).exists_trace ops
  exact ⟨_, outcomes, hmade, htrace, toList_of_trace hmade htrace⟩

/-- With room for two keys, reading one of them makes the other the one to go. -/
theorem trace_ofCapacity_two : 0 < 2 ∧
    ∃ (created : Outcome Nat Nat Unit) (outcomes : List (Outcome Nat Nat (Answer Nat))),
      ofCapacity 2 = .ok created ∧
      created.cache.trace [.set 1 10, .set 2 20, .get 1, .set 3 30, .get 2, .clear, .size] =
        .ok outcomes ∧
      outcomes.map (fun o => (o.value, o.cache.toList)) =
        [(.flag false, [(1, 10)]), (.flag false, [(2, 20), (1, 10)]),
          (.value (some 10), [(1, 10), (2, 20)]), (.flag false, [(3, 30), (1, 10)]),
          (.value none, [(3, 30), (1, 10)]), (.done, []), (.count 0, [])] :=
  ⟨by decide, trace_ofCapacity (by decide) _⟩

end RespCache.Cache
