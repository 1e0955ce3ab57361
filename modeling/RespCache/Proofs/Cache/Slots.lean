import RespCache.Proofs.Cache.Run
import RespCache.Proofs.Chain.Slots

/-!
The chain of a cache as a run of its own. An operation of a cache carries out a few operations of its
chain (`Cache.chainOps`), and between these the chain is never longer than the capacity, for a full
cache drops an entry before it adds one (`Keeps.lengths_chainOps_le`). So the chain of a cache has no
more slots than the capacity (`size_slots_of_runs`).
-/

namespace RespCache.Cache

universe u v w

variable {κ : Type u} {ν : Type v} [BEq κ] [Hashable κ]

/-- The operations of its chain that an operation of a cache carries out. -/
def chainOps (c : Cache κ ν) : Op κ ν → List (Chain.Op (Entry κ ν))
  | .set key value =>
    match c.index[key]? with
    | some h => [.moveToFront h, .modify h fun entry => { entry with value }]
    | none =>
      if c.capacity ≤ c.order.length then [.popBack, .pushFront ⟨key, value⟩]
      else [.pushFront ⟨key, value⟩]
  | .get key =>
    match c.index[key]? with
    | some h => [.moveToFront h]
    | none => []
  | .clear => [.clear]
  | .contains _ | .size | .isEmpty => []

/-- The chain came about by operations that never left more nodes in it than the capacity. -/
def Fitted (c : Cache κ ν) : Prop :=
  ∃ ops, c.order = Chain.empty.after ops ∧ ∀ n ∈ Chain.empty.lengths ops, n ≤ c.capacity

/-! ### What an operation does to the chain -/

section Order

variable {c c' : Cache κ ν} {key : κ} {value : ν}

theorem order_evict (h : c.evict = .ok c') : c'.order = (c.order.step .popBack).2 := by
  obtain ⟨index, order, capacity⟩ := c
  unfold evict at h
  cases hpop : order.popBack with
  | none => simp [hpop] at h
  | some p =>
      simp only [hpop] at h
      split at h
      · cases h
        simp only [Chain.step, hpop]
      · cases h

theorem order_insertNew (c : Cache κ ν) (key : κ) (value : ν) :
    (c.insertNew key value).order = (c.order.step (.pushFront ⟨key, value⟩)).2 := by
  obtain ⟨index, order, capacity⟩ := c
  rfl

theorem order_set {o : Outcome κ ν Bool} (h : c.set key value = .ok o) :
    o.cache.order = c.order.after (c.chainOps (.set key value)) := by
  unfold set at h
  split at h
  case h_1 g hindex =>
    obtain ⟨index, order, capacity⟩ := c
    cases hmove : order.moveToFront g with
    | none => simp [hmove] at h
    | some moved =>
        simp only [hmove] at h
        split at h
        case h_1 => cases h
        case h_2 changed hmodify =>
          cases h
          simp only at hindex
          simp only [chainOps, hindex, Chain.after, Chain.step, hmove, hmodify]
  case h_2 hindex =>
    simp only [chainOps, hindex]
    split_ifs at h ⊢ with hfull
    · cases hevict : c.evict with
      | error fault => simp [hevict] at h
      | ok evicted =>
          simp only [hevict] at h
          cases h
          simp only [order_insertNew, order_evict hevict, Chain.after]
    · cases h
      simp only [order_insertNew, Chain.after]

theorem order_get {found : Option ν × Cache κ ν} (h : c.get key = .ok found) :
    found.2.order = c.order.after (c.chainOps (.get key)) := by
  obtain ⟨index, order, capacity⟩ := c
  cases hindex : index[key]? with
  | none =>
      simp only [get, hindex] at h
      cases h
      simp only [chainOps, hindex, Chain.after]
  | some g =>
      cases hmove : order.moveToFront g with
      | none => simp [get, hindex, hmove] at h
      | some moved =>
          simp only [get, hindex, hmove] at h
          split at h
          case h_1 => cases h
          case h_2 =>
            cases h
            simp only [chainOps, hindex, Chain.after, Chain.step, hmove]

theorem order_step {op : Op κ ν} {o : Outcome κ ν (Answer ν)} (h : c.step op = .ok o) :
    o.cache.order = c.order.after (c.chainOps op) := by
  cases op with
  | set key value =>
      obtain ⟨p, hset, rfl⟩ := of_step_set h
      exact order_set hset
  | get key =>
      obtain ⟨found, hget, rfl⟩ := of_step_get h
      exact order_get hget
  | clear =>
      cases h
      obtain ⟨index, order, capacity⟩ := c
      rfl
  | contains | size | isEmpty =>
      cases h
      rfl

end Order

/-! ### Lengths and slots -/

namespace Keeps

variable {c : Cache κ ν} {s : Segment (Entry κ ν)}

theorem lengths_chainOps_le (hc : c.Keeps s) (hpos : 0 < c.capacity) (op : Op κ ν) :
    ∀ n ∈ c.order.lengths (c.chainOps op), n ≤ c.capacity := by
  have hlength : c.order.length ≤ c.capacity := by
    rw [hc.order.length]
    exact hc.length_le
  cases op with
  | set key value =>
      simp only [chainOps]
      split
      case h_1 h hindex =>
        obtain ⟨t, hmoved⟩ := hc.order.exists_step (.moveToFront h)
        simp only [Chain.lengths_cons, Chain.lengths_nil, hmoved.length_step_modify,
          hc.order.length_step_moveToFront]
        simpa using hlength
      case h_2 hindex =>
        split_ifs with hfull
        · obtain ⟨t, hpopped⟩ := hc.order.exists_step .popBack
          simp only [Chain.lengths_cons, Chain.lengths_nil, hpopped.length_step_pushFront,
            hc.order.length_step_popBack]
          have hdropped : c.order.length - 1 ≤ c.capacity := Nat.le_trans (Nat.sub_le _ 1) hlength
          have hadded : c.order.length - 1 + 1 ≤ c.capacity := by omega
          simp [hlength, hdropped, hadded]
        · simp only [Chain.lengths_cons, Chain.lengths_nil, hc.order.length_step_pushFront]
          simpa using ⟨hlength, Nat.lt_of_not_le hfull⟩
  | get key =>
      simp only [chainOps]
      split
      · simp only [Chain.lengths_cons, Chain.lengths_nil, hc.order.length_step_moveToFront]
        simpa using hlength
      · simpa [Chain.lengths_nil] using hlength
  | clear =>
      have hcleared : (c.order.step .clear).2.length = 0 := (Chain.holds_clear c.order).length
      simp only [chainOps, Chain.lengths_cons, Chain.lengths_nil, hcleared]
      simpa using hlength
  | contains | size | isEmpty => simpa [chainOps, Chain.lengths_nil] using hlength

end Keeps

theorem Fitted.size_slots_le {c : Cache κ ν} (hc : c.Fitted) :
    c.order.arena.slots.size ≤ c.capacity := by
  obtain ⟨ops, horder, hlengths⟩ := hc
  rw [horder]
  exact hlengths _ (List.max?_mem (Chain.max?_lengths_empty ops))

variable [EquivBEq κ] [LawfulHashable κ]

theorem Fitted.step {c : Cache κ ν} (hc : c.Fitted) (hsound : c.Sound) {op : Op κ ν}
    {o : Outcome κ ν (Answer ν)} (h : c.step op = .ok o) : o.cache.Fitted := by
  obtain ⟨ops, horder, hlengths⟩ := hc
  refine ⟨ops ++ c.chainOps op, ?_, fun n hn => ?_⟩
  · rw [Chain.after_append, ← horder, order_step h]
  · rw [(hsound.of_step h).2]
    obtain ⟨hpos, s, hs⟩ := hsound
    rcases Chain.mem_lengths_append hn with hn | hn
    · exact hlengths n hn
    · exact hs.lengths_chainOps_le hpos op n (horder ▸ hn)

theorem Reachable.fitted {c : Cache κ ν} (hc : c.Reachable) : c.Fitted := by
  induction hc with
  | made hmade =>
      obtain ⟨-, rfl⟩ := created_eq hmade
      exact ⟨[], rfl, by simp [Chain.lengths_nil, Chain.empty]⟩
  | step hreachable hstep ih => exact ih.step hreachable.sound hstep

/-- A chain has as many slots as it was long at most since it was empty, and the chain of a cache that
operations lead to has no more slots than the capacity. -/
theorem size_slots_of_runs {α : Type w} (ops : List (Chain.Op α)) :
    ((Chain.empty : Chain α).lengths ops).max? =
        some ((Chain.empty : Chain α).after ops).arena.slots.size ∧
      ∀ c : Cache κ ν, c.Reachable → c.order.arena.slots.size ≤ c.capacity :=
  ⟨Chain.max?_lengths_empty ops, fun _ hc => hc.fitted.size_slots_le⟩

/-- Slots that are used again after `popBack` and after `clear`, and the one slot of a cache in which
an entry made room for another one. -/
theorem size_slots_of_runs_one :
    ((Chain.empty : Chain Char).after
        [.pushFront 'a', .pushBack 'b', .popBack, .clear, .pushFront 'c']).arena.slots.size = 2 ∧
      ∃ c : Cache Nat Nat, c.Reachable ∧ c.plain = ⟨1, [(2, 20)]⟩ ∧
        c.order.arena.slots.size ≤ 1 := by
  let ops : List (Chain.Op Char) := [.pushFront 'a', .pushBack 'b', .popBack, .clear, .pushFront 'c']
  obtain ⟨hgreatest, hslots⟩ := @size_slots_of_runs Nat Nat _ _ _ _ Char ops
  have hlengths : (Chain.empty : Chain Char).lengths ops = [0, 1, 2, 1, 0, 1] := by decide +kernel
  have hmade : ofCapacity (κ := Nat) (ν := Nat) 1 = .ok ⟨(), ⟨∅, .empty, 1⟩, [.created 1]⟩ := rfl
  have hempty : (⟨∅, .empty, 1⟩ : Cache Nat Nat).Reachable := .made hmade
  obtain ⟨first, hfirst, hsound, hplain⟩ := hempty.sound.step_plain (.set 1 10)
  obtain ⟨second, hsecond, -, hplain'⟩ := hsound.step_plain (.set 2 20)
  rw [plain_empty] at hplain
  have hfirstPlain : first.cache.plain = ⟨1, [(1, 10)]⟩ := (congrArg Prod.snd hplain).symm
  have hreachable : second.cache.Reachable := (hempty.step hfirst).step hsecond
  have hsecondPlain : second.cache.plain = ⟨1, [(2, 20)]⟩ := by
    rw [hfirstPlain] at hplain'
    exact (congrArg Prod.snd hplain').symm
  refine ⟨?_, second.cache, hreachable, hsecondPlain, ?_⟩
  · rw [hlengths] at hgreatest
    exact (Option.some.inj hgreatest).symm
  · have hcapacity : second.cache.capacity = 1 := congrArg PlainCache.capacity hsecondPlain
    exact hcapacity ▸ hslots second.cache hreachable

end RespCache.Cache
