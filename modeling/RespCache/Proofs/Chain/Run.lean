import RespCache.Proofs.Chain.Reading

/-!
Runs of a chain from the empty one on. Whatever the operations are, and whatever handles they are
given, the chain answers as the list of its nodes does and shows this list after each of them
(`forall₂_trace_empty`). A step keeps `Holds` and gives the list's answer (`Holds.step`); runs follow
by induction.
-/

namespace RespCache.Chain

open Segment

universe u

variable {α : Type u}

/-- Carries out an operation. A change of a payload answers the payload as it was. -/
def step (c : Chain α) : Op α → Answer α × Chain α
  | .pushFront x => (.handle (c.pushFront x).1, (c.pushFront x).2)
  | .pushBack x => (.handle (c.pushBack x).1, (c.pushBack x).2)
  | .remove h =>
    match c.remove h with
    | some (x, c') => (.payload (some x), c')
    | none => (.payload none, c)
  | .popBack =>
    match c.popBack with
    | some (x, c') => (.payload (some x), c')
    | none => (.payload none, c)
  | .moveToFront h =>
    match c.moveToFront h with
    | some c' => (.flag true, c')
    | none => (.flag false, c)
  | .modify h f =>
    match c.modify? h f with
    | some c' => (.payload (c.get? h), c')
    | none => (.payload none, c)
  | .clear => (.done, c.clear)

/-- Carries out operations one after the other: the answer of each and the chain after it. -/
def trace (c : Chain α) : List (Op α) → List (Answer α × Chain α)
  | [] => []
  | op :: ops => c.step op :: (c.step op).2.trace ops

def after (c : Chain α) : List (Op α) → Chain α
  | [] => c
  | op :: ops => (c.step op).2.after ops

namespace Holds

variable {c : Chain α} {s t : Segment α} {h : Handle} {x : α}

theorem not_mem_handles_after (hc : c.Holds (s ++ (h, x) :: t) []) : h ∉ handles t := by
  have hnodup := hc.nodup_handles
  rw [handles_append, handles_cons] at hnodup
  exact (List.nodup_cons.mp hnodup.of_append_right).1

/-- An operation that is given the handle of no node does nothing. -/
theorem step_of_not_mem (hc : c.Holds s []) {op : Op α} (htarget : op.target? = some h)
    (hmem : h ∉ handles s) : c.step op = (op.miss, c) := by
  cases op with
  | remove g =>
      cases htarget
      rw [Chain.step, hc.remove_of_not_mem hmem]
      rfl
  | moveToFront g =>
      cases htarget
      rw [Chain.step, hc.moveToFront_of_not_mem hmem]
      rfl
  | modify g f =>
      cases htarget
      rw [Chain.step, hc.modify?_of_not_mem hmem]
      rfl
  | pushFront | pushBack | popBack | clear => cases htarget

/-- An operation that is given the handle of a node does to it what the list does to its pair. -/
theorem step_node (hc : c.Holds (s ++ (h, x) :: t) []) {op : Op α} (htarget : op.target? = some h)
    (name : Handle) :
    (c.step op).1 = (Segment.step (s ++ (h, x) :: t) name op).1 ∧
      (c.step op).2.Holds (Segment.step (s ++ (h, x) :: t) name op).2 [] := by
  have hs := hc.not_mem_handles_before
  have ht := hc.not_mem_handles_after
  cases op with
  | remove g =>
      cases htarget
      obtain ⟨c', hremove, hheld⟩ := hc.remove
      simp only [Chain.step, hremove, Segment.step, lookup_node hs, delete_node hs ht]
      exact ⟨trivial, hheld⟩
  | moveToFront g =>
      cases htarget
      obtain ⟨c', hmove, hheld⟩ := hc.moveToFront
      simp only [Chain.step, hmove, Segment.step, lookup_node hs, delete_node hs ht]
      exact ⟨trivial, hheld⟩
  | modify g f =>
      cases htarget
      obtain ⟨c', hmodify, hheld⟩ := hc.modify? f
      have hpayload : c.get? h = some x := hc.get?_eq_some_iff.mpr (by simp)
      simp only [Chain.step, hmodify, hpayload, Segment.step, lookup_node hs, overwrite_node hs ht]
      exact ⟨trivial, hheld⟩
  | pushFront | pushBack | popBack | clear => cases htarget

/-- The chain answers what the list of its nodes answers, and then holds what becomes of the list.
-/
theorem step (hc : c.Holds s []) (op : Op α) :
    ∃ name, (c.step op).1 = (s.step name op).1 ∧ (c.step op).2.Holds (s.step name op).2 [] := by
  cases htarget : op.target? with
  | some h =>
      refine ⟨h, ?_⟩
      by_cases hmem : h ∈ handles s
      · obtain ⟨t, x, u, rfl⟩ := exists_append_of_mem_handles hmem
        exact hc.step_node htarget h
      · rw [hc.step_of_not_mem htarget hmem, Segment.step_of_not_mem htarget hmem]
        exact ⟨rfl, hc⟩
  | none =>
      cases op with
      | pushFront x => exact ⟨(c.pushFront x).1, rfl, hc.pushFront x⟩
      | pushBack x => exact ⟨(c.pushBack x).1, rfl, hc.pushBack x⟩
      | clear => exact ⟨⟨0, 0⟩, rfl, holds_clear c⟩
      | popBack =>
          refine ⟨⟨0, 0⟩, ?_⟩
          rcases List.eq_nil_or_concat s with rfl | ⟨t, ⟨h, x⟩, rfl⟩
          · rw [Chain.step, hc.popBack_nil]
            exact ⟨rfl, hc⟩
          · rw [List.concat_eq_append] at hc ⊢
            obtain ⟨c', hpop, hheld⟩ := hc.popBack
            simp only [Chain.step, hpop, Segment.step, List.getLast?_concat, List.dropLast_concat]
            exact ⟨rfl, hheld⟩
      | remove | moveToFront | modify => cases htarget

theorem trace (hc : c.Holds s []) (ops : List (Op α)) :
    ∃ names : List Handle, names.length = ops.length ∧
      List.Forall₂ (fun o p => o.1 = p.1 ∧ o.2.Holds p.2 []) (c.trace ops)
        (s.trace (names.zip ops)) := by
  induction ops generalizing c s with
  | nil => exact ⟨[], rfl, .nil⟩
  | cons op ops ih =>
      obtain ⟨name, hstep⟩ := hc.step op
      obtain ⟨names, hlength, htrace⟩ := ih hstep.2
      exact ⟨name :: names, by simp [hlength], .cons hstep htrace⟩

theorem exists_step (hc : c.Holds s []) (op : Op α) : ∃ s', (c.step op).2.Holds s' [] := by
  obtain ⟨name, -, hstep⟩ := hc.step op
  exact ⟨_, hstep⟩

theorem exists_after (hc : c.Holds s []) (ops : List (Op α)) :
    ∃ s', (c.after ops).Holds s' [] := by
  induction ops generalizing c s with
  | nil => exact ⟨s, hc⟩
  | cons op ops ih =>
      obtain ⟨s', hstep⟩ := hc.exists_step op
      exact ih hstep

end Holds

/-- From outside the chain is the list `s`, and an operation on a handle that does not stand in it
does nothing. -/
structure Agrees (c : Chain α) (s : Segment α) : Prop where
  shows : c.Shows s
  stray : ∀ op h, op.target? = some h → h ∉ handles s → c.step op = (op.miss, c)

theorem Holds.agrees {c : Chain α} {s : Segment α} (hc : c.Holds s []) : c.Agrees s :=
  ⟨hc.shows, fun _ _ htarget hmem => hc.step_of_not_mem htarget hmem⟩

/-- In a run from the empty chain on, for some choice of the handles that are given out, every
answer is that of the plain list, and after every operation the chain agrees with this list. -/
theorem forall₂_trace_empty (ops : List (Op α)) :
    (empty : Chain α).Agrees [] ∧
      ∃ names : List Handle, names.length = ops.length ∧
        List.Forall₂ (fun o p => o.1 = p.1 ∧ o.2.Agrees p.2) ((empty : Chain α).trace ops)
          (Segment.trace [] (names.zip ops)) := by
  obtain ⟨names, hlength, htrace⟩ := holds_empty.trace ops
  refine ⟨holds_empty.agrees, names, hlength, htrace.imp ?_⟩
  rintro o p ⟨hanswer, hheld⟩
  exact ⟨hanswer, hheld.agrees⟩

/-- A slot that is used again gives out another handle, and the old one is refused. -/
example :
    ((empty : Chain Char).trace
      [.pushFront 'a', .remove ⟨0, 0⟩, .pushBack 'b', .moveToFront ⟨0, 0⟩, .popBack]).map Prod.fst =
      [.handle ⟨0, 0⟩, .payload (some 'a'), .handle ⟨0, 1⟩, .flag false, .payload (some 'b')] := rfl

end RespCache.Chain
