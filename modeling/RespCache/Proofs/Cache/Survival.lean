import RespCache.Proofs.Cache.Distinct
import RespCache.Proofs.Cache.Run
import RespCache.Proofs.Cache.Use

/-!
Which keys a cache holds, told from its history alone. A key is held if it was set after the last
time that all entries were dropped and fewer other keys than the capacity were used since its own
last use, and not otherwise; its value is the one that it was set to last
(`contains_final_iff`). Whether a read is a use depends on what was held, so the history records the
answers. The invariant (`History.Explains`) is that the keys held are the first ones, as many as the
capacity, in the order of last use. It is kept by the plain list, where a key is one name; keys that
count as equal are given one name for it, and the history is told with names as well
(`History.rename`).
-/

namespace RespCache.Cache

universe u v w

variable {κ : Type u} {ν : Type v}

/-- An operation and what it answered. -/
structure Call (κ : Type u) (ν : Type v) where
  op : Op κ ν
  answer : Answer ν

namespace Call

/-- The key that a call uses. A read that finds nothing is no use. -/
def used? : Call κ ν → Option κ
  | ⟨.set key _, _⟩ => some key
  | ⟨.get key, .value (some _)⟩ => some key
  | _ => none

/-- The value that a call sets a key to. -/
def put? [BEq κ] (key : κ) : Call κ ν → Option ν
  | ⟨.set key' value, _⟩ => if key' == key then some value else none
  | _ => none

def isClear : Call κ ν → Bool
  | ⟨.clear, _⟩ => true
  | _ => false

end Call

/-- Calls, the last one in front. -/
abbrev History (κ : Type u) (ν : Type v) := List (Call κ ν)

namespace History

def ofRun [BEq κ] [Hashable κ] (ops : List (Op κ ν)) (outcomes : List (Outcome κ ν (Answer ν))) :
    History κ ν :=
  (List.zipWith (fun op o => ⟨op, o.value⟩) ops outcomes).reverse

theorem ofRun_of_trace [BEq κ] [LawfulBEq κ] [Hashable κ] {capacity : Nat}
    {created : Outcome κ ν Unit} {ops : List (Op κ ν)} {outcomes : List (Outcome κ ν (Answer ν))}
    (hmade : ofCapacity capacity = .ok created)
    (htrace : created.cache.trace ops = .ok outcomes) :
    ofRun ops outcomes = (List.zipWith Call.mk ops
      (((⟨capacity, []⟩ : PlainCache κ ν).trace ops).map Prod.fst)).reverse := by
  have hvalues := congrArg (List.map Prod.fst) (toList_of_trace hmade htrace)
  simp only [List.map_map, Function.comp_def] at hvalues
  rw [← hvalues, List.zipWith_map_right]
  rfl

/-- The calls after the last one that dropped all entries. -/
def sinceClear (h : History κ ν) : History κ ν := h.takeWhile fun call => !call.isClear

/-- The keys used, the last one in front, each as often as it was used. -/
def uses (h : History κ ν) : List κ := h.filterMap Call.used?

variable [BEq κ]

/-- The keys used since the last use of `key`. -/
def usesSince (h : History κ ν) (key : κ) : List κ := h.uses.takeWhile fun used => !used == key

/-- The value that a key was set to last. -/
def lastPut? (h : History κ ν) (key : κ) : Option ν := h.findSome? (Call.put? key)

variable [LawfulBEq κ] {h recent : History κ ν} {key : κ} {value : ν} {call : Call κ ν}
  {c : PlainCache κ ν}

/-! ### What happened since all entries were dropped -/

omit [BEq κ] [LawfulBEq κ] in
theorem exists_append_sinceClear (h : History κ ν) : ∃ old, h.sinceClear ++ old = h :=
  ⟨_, List.takeWhile_append_dropWhile⟩

omit [LawfulBEq κ] in
theorem lastPut?_of_sinceClear (hput : h.sinceClear.lastPut? key = some value) :
    h.lastPut? key = some value := by
  obtain ⟨old, hold⟩ := h.exists_append_sinceClear
  rw [← hold, lastPut?, List.findSome?_append, ← lastPut?, hput]
  rfl

theorem usesSince_of_sinceClear (huse : key ∈ h.sinceClear.uses) :
    h.usesSince key = h.sinceClear.usesSince key := by
  obtain ⟨old, hold⟩ := h.exists_append_sinceClear
  have huses : h.uses = h.sinceClear.uses ++ uses old := by
    rw [uses, uses, uses, ← List.filterMap_append, hold]
  rw [usesSince, huses, Distinct.takeWhile_append_of_mem huse]
  rfl

omit [BEq κ] [LawfulBEq κ] in
theorem uses_cons (hused : call.used? = some key) : uses (call :: recent) = key :: recent.uses := by
  rw [uses, List.filterMap_cons_some hused]
  rfl

omit [BEq κ] [LawfulBEq κ] in
theorem uses_cons_of_none (hused : call.used? = none) : uses (call :: recent) = recent.uses := by
  rw [uses, List.filterMap_cons_none hused]
  rfl

omit [LawfulBEq κ] in
theorem lastPut?_cons (call : Call κ ν) (recent : History κ ν) (key : κ) :
    lastPut? (call :: recent) key = (call.put? key).or (recent.lastPut? key) := by
  rw [lastPut?, List.findSome?_cons]
  cases call.put? key <;> rfl

/-- A key that was set was used. -/
theorem mem_uses_of_lastPut? (hput : recent.lastPut? key = some value) : key ∈ recent.uses := by
  obtain ⟨call, hmem, hcall⟩ := List.exists_of_findSome?_eq_some hput
  refine List.mem_filterMap.mpr ⟨call, hmem, ?_⟩
  unfold Call.put? at hcall
  split at hcall
  case h_1 key' value' answer =>
      split at hcall
      case isTrue hkey => rw [Call.used?, eq_of_beq hkey]
      case isFalse => cases hcall
  case h_2 => cases hcall

/-! ### What the history says about the list -/

/-- The calls since all entries were dropped explain what the cache holds: the keys used last, as many
as there is room for, with the values that they were set to last. -/
structure Explains (recent : History κ ν) (c : PlainCache κ ν) : Prop where
  tidy : c.Tidy
  keys : c.entries.map Prod.fst = recent.uses.eraseDups.take c.capacity
  values : ∀ p ∈ c.entries, recent.lastPut? p.1 = some p.2
  put : ∀ key ∈ recent.uses, (recent.lastPut? key).isSome

omit [LawfulBEq κ] in
theorem explains_empty {capacity : Nat} (hpos : 0 < capacity) :
    Explains ([] : History κ ν) ⟨capacity, []⟩ where
  tidy := PlainCache.tidy_empty hpos
  keys := by rw [List.map_nil, uses, List.filterMap_nil, List.eraseDups_nil, List.take_nil]
  values := List.forall_mem_nil _
  put := List.forall_mem_nil _

namespace Explains

theorem use (he : recent.Explains c) (hused : call.used? = some key)
    (hput : lastPut? (call :: recent) key = some value)
    (hothers : ∀ other, other ≠ key → lastPut? (call :: recent) other = recent.lastPut? other) :
    Explains (call :: recent) (c.use key value) where
  tidy := he.tidy.use key value
  keys := by
    obtain ⟨room, hroom⟩ := Nat.exists_eq_add_one.mpr he.tidy.pos
    calc (c.use key value).entries.map Prod.fst
        = ((key :: (c.others key).map Prod.fst)).take c.capacity := List.map_take
      _ = key :: ((recent.uses.eraseDups.take c.capacity).erase key).take room := by
          rw [PlainCache.map_fst_others, he.keys, hroom, List.take_succ_cons]
      _ = key :: (recent.uses.eraseDups.erase key).take room := by
          rw [hroom, Distinct.take_erase_take]
      _ = (uses (call :: recent)).eraseDups.take c.capacity := by
          rw [uses_cons hused, Distinct.eraseDups_cons_eq, hroom, List.take_succ_cons]
  values := by
    intro p hp
    rcases List.mem_cons.mp (List.mem_of_mem_take hp) with rfl | hp
    · exact hput
    · have hne : p.1 ≠ key := fun h =>
        he.tidy.not_mem_others (h ▸ List.mem_map_of_mem (f := Prod.fst) hp)
      rw [hothers p.1 hne]
      exact he.values p ((c.others_sublist key).subset hp)
  put := by
    intro other hother
    by_cases hne : other = key
    · rw [hne, hput]
      rfl
    · rw [uses_cons hused] at hother
      rw [hothers other hne]
      exact he.put other ((List.mem_cons.mp hother).resolve_left hne)

omit [LawfulBEq κ] in
/-- A call that neither uses nor sets a key. -/
theorem idle (he : recent.Explains c) (hused : call.used? = none)
    (hput : ∀ key, call.put? key = none) : Explains (call :: recent) c where
  tidy := he.tidy
  keys := by rw [uses_cons_of_none hused, he.keys]
  values p hp := by rw [lastPut?_cons, hput, Option.none_or, he.values p hp]
  put key hkey := by
    rw [uses_cons_of_none hused] at hkey
    rw [lastPut?_cons, hput, Option.none_or]
    exact he.put key hkey

theorem step (he : h.sinceClear.Explains c) (op : Op κ ν) :
    (sinceClear (⟨op, (c.step op).1⟩ :: h)).Explains (c.step op).2 := by
  cases op with
  | set key value =>
      simp only [PlainCache.step, he.tidy.set_eq_use]
      refine he.use rfl ?_ fun other hother => ?_
      · rw [lastPut?_cons, Call.put?, if_pos (beq_self_eq_true key)]
        rfl
      · rw [lastPut?_cons, Call.put?, if_neg (by simpa using Ne.symm hother)]
        rfl
  | get key =>
      by_cases hkey : key ∈ c.entries.map Prod.fst
      · obtain ⟨value, hmem⟩ := PlainCache.exists_mem_of_mem_keys hkey
        simp only [PlainCache.step, he.tidy.get_eq_use hmem]
        exact he.use rfl (he.values _ hmem) fun _ _ => rfl
      · simp only [PlainCache.step, PlainCache.get_of_not_mem hkey]
        exact he.idle rfl fun _ => rfl
  | contains key => exact he.idle rfl fun _ => rfl
  | size => exact he.idle rfl fun _ => rfl
  | isEmpty => exact he.idle rfl fun _ => rfl
  | clear => exact explains_empty he.tidy.pos

/-- The rule of survival. -/
theorem mem_keys_iff (he : h.sinceClear.Explains c) :
    key ∈ c.entries.map Prod.fst ↔
      (h.sinceClear.lastPut? key).isSome ∧ (h.usesSince key).eraseDups.length < c.capacity := by
  rw [he.keys, Distinct.mem_take_iff, List.mem_eraseDups, ← Distinct.takeWhile_eraseDups]
  constructor
  · rintro ⟨huse, hlength⟩
    rw [usesSince_of_sinceClear huse]
    exact ⟨he.put key huse, hlength⟩
  · rintro ⟨hput, hlength⟩
    obtain ⟨value, hvalue⟩ := Option.isSome_iff_exists.mp hput
    have huse := mem_uses_of_lastPut? hvalue
    rw [usesSince_of_sinceClear huse] at hlength
    exact ⟨huse, hlength⟩

end Explains

end History

/-! ### Other names for the keys -/

section Rename

variable {κ' : Type w} (f : κ → κ')

def Call.rename (call : Call κ ν) : Call κ' ν := ⟨call.op.rename f, call.answer⟩

def History.rename (h : History κ ν) : History κ' ν := h.map (Call.rename f)

variable (call : Call κ ν) (h : History κ ν)

theorem Call.used?_rename : (call.rename f).used? = call.used?.map f := by
  rcases call with ⟨op, answer⟩
  cases op with
  | get key =>
      cases answer with
      | value found => cases found <;> rfl
      | flag | count | done => rfl
  | set | contains | size | isEmpty | clear => rfl

theorem Call.isClear_rename : (call.rename f).isClear = call.isClear := by
  rcases call with ⟨op, answer⟩
  cases op <;> rfl

theorem History.sinceClear_rename :
    History.sinceClear (h.rename f) = History.rename f h.sinceClear := by
  have hclear : (fun call => !Call.isClear call) ∘ Call.rename f =
      fun call : Call κ ν => !call.isClear := by
    funext call
    rw [Function.comp_apply, Call.isClear_rename]
  rw [sinceClear, rename, List.takeWhile_map, hclear]
  rfl

theorem History.uses_rename : History.uses (h.rename f) = h.uses.map f := by
  have hused : Call.used? ∘ Call.rename f = fun call : Call κ ν => call.used?.map f :=
    funext (Call.used?_rename f)
  rw [uses, rename, List.filterMap_map, hused, uses, List.map_filterMap]

variable [BEq κ] [BEq κ'] {f} (hf : Faithful f) (key : κ)

include hf

theorem Call.put?_rename : (call.rename f).put? (f key) = call.put? key := by
  rcases call with ⟨op, answer⟩
  cases op with
  | set key' value =>
      show (if f key' == f key then some value else none) = if key' == key then some value else none
      rw [hf key' key]
  | get | contains | size | isEmpty | clear => rfl

theorem History.usesSince_rename :
    History.usesSince (h.rename f) (f key) = (h.usesSince key).map f := by
  have hother : (fun used => !used == f key) ∘ f = fun used => !used == key := by
    funext used
    rw [Function.comp_apply, hf]
  rw [usesSince, uses_rename, List.takeWhile_map, hother, usesSince]

theorem History.lastPut?_rename : History.lastPut? (h.rename f) (f key) = h.lastPut? key := by
  have hput : Call.put? (f key) ∘ Call.rename f = fun call : Call κ ν => call.put? key :=
    funext fun call => Call.put?_rename call hf key
  rw [lastPut?, rename, List.findSome?_map, hput]
  rfl

end Rename

/-! ### The survival of a key -/

variable [BEq κ] [Hashable κ] [EquivBEq κ] [LawfulHashable κ]

/-- What the history explains before a run, it explains after the run. -/
theorem Sound.trace_explains {κ' : Type w} [BEq κ'] [LawfulBEq κ'] {f : κ → κ'} (hf : Faithful f)
    {c : Cache κ ν} (hc : c.Sound) {h : History κ ν}
    (he : (History.sinceClear (h.rename f)).Explains (c.view f)) (ops : List (Op κ ν)) :
    ∃ os, c.trace ops = .ok os ∧ (c.final os).Sound ∧ (c.final os).capacity = c.capacity ∧
      (History.sinceClear (History.rename f (.ofRun ops os ++ h))).Explains
        ((c.final os).view f) := by
  induction ops generalizing c h with
  | nil => exact ⟨[], rfl, hc, rfl, he⟩
  | cons op ops ih =>
      obtain ⟨o, hstep, hsound, hview⟩ := hc.step_view hf op
      have hnext := he.step (op.rename f)
      rw [hview] at hnext
      have hnext' : (History.sinceClear (History.rename f (⟨op, o.value⟩ :: h))).Explains
          (o.cache.view f) := hnext
      obtain ⟨os, htrace, hfinal, hcapacity, hexplains⟩ := ih hsound hnext'
      refine ⟨o :: os, by simp only [trace, hstep, htrace], hfinal,
        hcapacity.trans (hc.of_step hstep).2, ?_⟩
      rw [History.ofRun, List.zipWith_cons_cons, List.reverse_cons, List.append_assoc]
      exact hexplains

/-- After a run from a new cache on, a key is held if it was set since all entries were dropped last
and fewer other keys than the capacity were used since its own last use, and not otherwise. A key that
is held has the value that it was set to last. -/
theorem contains_final_iff {capacity : Nat} (hpos : 0 < capacity) (ops : List (Op κ ν)) (key : κ) :
    ∃ created outcomes, ofCapacity capacity = .ok created ∧ created.cache.trace ops = .ok outcomes ∧
      ((created.cache.final outcomes).contains key = true ↔
        ((History.ofRun ops outcomes).sinceClear.lastPut? key).isSome ∧
          ((History.ofRun ops outcomes).usesSince key).eraseDups.length < capacity) ∧
      ((created.cache.final outcomes).contains key = true →
        ∃ value c, (created.cache.final outcomes).get key = .ok (some value, c) ∧
          (History.ofRun ops outcomes).lastPut? key = some value) := by
  have hnames : Faithful (KeyClass.of : κ → KeyClass κ) := KeyClass.faithful_of
  have hsound : (⟨∅, .empty, capacity⟩ : Cache κ ν).Sound := sound_empty hpos
  have hempty : (History.sinceClear (History.rename KeyClass.of [])).Explains
      ((⟨∅, .empty, capacity⟩ : Cache κ ν).view KeyClass.of) := by
    rw [view_empty]
    exact History.explains_empty hpos
  obtain ⟨outcomes, htrace, hfinal, hcapacity, hexplains⟩ :=
    hsound.trace_explains hnames hempty ops
  rw [List.append_nil] at hexplains
  have hcontains := hfinal.contains_view hnames key
  refine ⟨_, outcomes, if_neg (Nat.ne_of_gt hpos), htrace, ?_, fun hheld => ?_⟩
  · rw [← hcontains, PlainCache.contains_iff, hexplains.mem_keys_iff, History.sinceClear_rename,
      History.lastPut?_rename _ hnames, History.usesSince_rename _ hnames,
      Distinct.eraseDups_map hnames, List.length_map]
    exact iff_of_eq (by rw [view, hcapacity])
  · rw [← hcontains, PlainCache.contains_iff] at hheld
    obtain ⟨value, hmem⟩ := PlainCache.exists_mem_of_mem_keys hheld
    obtain ⟨found, c, hget, -, hview⟩ := hfinal.get_view hnames key
    have hfound : some value = found := by
      rw [hexplains.tidy.get_eq_use hmem] at hview
      exact congrArg Prod.fst hview
    rw [← hfound] at hget
    have hput := History.lastPut?_of_sinceClear (hexplains.values _ hmem)
    rw [History.lastPut?_rename _ hnames] at hput
    exact ⟨value, c, hget, hput⟩

/-- The read of the first key saves it from the third one; the read of the second key comes too late. -/
theorem contains_final_iff_two : 0 < 2 ∧
    let ops : List (Op Nat Nat) := [.set 1 10, .set 2 20, .get 1, .set 3 30, .get 2]
    ∃ created outcomes, ofCapacity 2 = .ok created ∧ created.cache.trace ops = .ok outcomes ∧
      (History.ofRun ops outcomes).usesSince 1 = [3] ∧
      (History.ofRun ops outcomes).usesSince 2 = [3, 1] ∧
      (created.cache.final outcomes).contains 1 = true ∧
      (created.cache.final outcomes).contains 2 = false ∧
      ∃ c, (created.cache.final outcomes).get 1 = .ok (some 10, c) := by
  refine ⟨by decide, ?_⟩
  intro ops
  obtain ⟨created, outcomes, hmade, htrace, hfirst, hvalue⟩ :=
    contains_final_iff (by decide : 0 < 2) ops 1
  obtain ⟨created', outcomes', hmade', htrace', hsecond, -⟩ :=
    contains_final_iff (by decide : 0 < 2) ops 2
  cases hmade.symm.trans hmade'
  cases htrace.symm.trans htrace'
  have hhistory : History.ofRun ops outcomes = [⟨.get 2, .value none⟩, ⟨.set 3 30, .flag false⟩,
      ⟨.get 1, .value (some 10)⟩, ⟨.set 2 20, .flag false⟩, ⟨.set 1 10, .flag false⟩] := by
    rw [History.ofRun_of_trace hmade htrace]
    rfl
  rw [hhistory] at hfirst hsecond hvalue
  have hheld : (created.cache.final outcomes).contains 1 = true := hfirst.mpr (by decide)
  have hgone : (created.cache.final outcomes).contains 2 = false :=
    Bool.eq_false_iff.mpr fun h => absurd (hsecond.mp h) (by decide)
  obtain ⟨value, c, hget, hput⟩ := hvalue hheld
  cases hput
  exact ⟨created, outcomes, hmade, htrace, by rw [hhistory]; rfl, by rw [hhistory]; rfl, hheld,
    hgone, c, hget⟩

end RespCache.Cache
