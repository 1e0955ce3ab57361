import RespCache.Proofs.Resp.Intake
import RespCache.Proofs.Resp.Places

/-!
A framer whose buffer is changed behind its back. The place it remembers may lie behind the end of
the buffer or inside bytes it has never seen, and the items it is owed may belong to arrays that are
gone. Taking a frame with every check made (`Framer.nextAt`) still never fails. The one thing that a
framer keeps whatever becomes of its buffer is `Within`: what it is owed comes from headers that it
has passed itself.
-/

namespace RespCache.Resp

/-- No more arrays are open than may be, and each is owed an item. -/
structure Within (owed : List Nat) : Prop where
  few : owed.length ≤ 32
  due : ∀ n ∈ owed, 0 < n

namespace Within

instance (owed : List Nat) : Decidable (Within owed) :=
  decidable_of_iff (owed.length ≤ 32 ∧ ∀ n ∈ owed, 0 < n)
    ⟨fun h => ⟨h.1, h.2⟩, fun h => ⟨h.few, h.due⟩⟩

theorem nil : Within [] := ⟨Nat.zero_le _, nofun⟩

theorem tail {n : Nat} {outer : List Nat} (h : Within (n :: outer)) : Within outer :=
  ⟨Nat.le_of_succ_le h.few, fun m hm => h.due m (List.mem_cons_of_mem n hm)⟩

theorem cons {n : Nat} {outer : List Nat} (hfew : outer.length < maxDepth) (hn : 0 < n)
    (h : Within outer) : Within (n :: outer) := by
  refine ⟨hfew, fun m hm => ?_⟩
  rcases List.mem_cons.mp hm with rfl | hm
  · exact hn
  · exact h.due m hm

theorem settle {owed owed' : List Nat} (h : Within owed) (hsettle : settle owed = some owed') :
    Within owed' := by
  fun_induction Resp.settle owed with
  | case1 => cases hsettle
  | case2 n outer hn =>
      cases hsettle
      exact cons h.few (by omega) h.tail
  | case3 n outer hn ih => exact ih h.tail hsettle

end Within

theorem map_whole_ne_opens {α : Type} (r : Reading α) {n : Nat} {rest : Bytes} :
    (r.map fun _ => Token.whole) ≠ .complete (.opens n) rest := by
  intro h
  cases r <;> cases h

theorem pos_of_openArray {n : Nat} {bs rest : Bytes}
    (h : openArray bs = .complete (.opens n) rest) : 0 < n := by
  unfold openArray at h
  cases hlength : readLength .array bs with
  | complete length rest' =>
      rw [hlength] at h
      cases length with
      | none => cases h
      | some length =>
          cases length with
          | zero => cases h
          | succ length =>
              cases h
              exact Nat.succ_pos length
  | incomplete =>
      rw [hlength] at h
      cases h
  | malformed e =>
      rw [hlength] at h
      cases h

/-- An array opens inside fewer arrays than may be open, and announces an item. -/
theorem of_readToken_opens {depth n : Nat} {bs rest : Bytes}
    (h : readToken depth bs = .complete (.opens n) rest) : depth < maxDepth ∧ 0 < n := by
  unfold readToken at h
  split at h
  case h_1 => cases h
  case h_2 b bs =>
    split at h
    · cases h
    · exact absurd h (map_whole_ne_opens _)
    · exact absurd h (map_whole_ne_opens _)
    · exact absurd h (map_whole_ne_opens _)
    · rw [skipBulk_eq] at h
      exact absurd h (map_whole_ne_opens _)
    · split at h
      case isTrue => cases h
      case isFalse hdepth => exact ⟨Nat.lt_of_not_le hdepth, pos_of_openArray h⟩

/-! ### Scanning by places -/

/-- `settle` with its difference checked. -/
def settleAt : List Nat → Except Fault (Option (List Nat))
  | [] => .ok none
  | n :: outer =>
    if 1 < n then do
      let left ← difference n 1
      .ok (some (left :: outer))
    else settleAt outer

theorem settleAt_eq (owed : List Nat) : settleAt owed = .ok (settle owed) := by
  fun_induction settle owed with
  | case1 => rfl
  | case2 n outer hn =>
      rw [settleAt, if_pos hn, difference_eq (Nat.le_of_lt hn)]
      rfl
  | case3 n outer hn ih => rw [settleAt, if_neg hn, ih]

inductive Stop where
  | frame
  | short (owed : List Nat) (place : Nat)
  | malformed (error : ProtocolError)

/-- Passes over tokens from a place on. What is owed is checked before each of them, and where each
of them ends behind it. -/
def scanAt (bs : Bytes) (owed : List Nat) (place : Nat) : Except Fault Stop :=
  if Within owed then
    match tokenAt bs owed.length place with
    | .error fault => .error fault
    | .ok .incomplete => .ok (.short owed place)
    | .ok (.malformed e) => .ok (.malformed e)
    | .ok (.complete token place') =>
      if _h : place < place' ∧ place' ≤ bs.length then
        match token with
        | .opens n => scanAt bs (n :: owed) place'
        | .whole =>
          match settleAt owed with
          | .error fault => .error fault
          | .ok none => .ok .frame
          | .ok (some owed) => scanAt bs owed place'
      else .error .token
  else .error .owed
termination_by bs.length - place
decreasing_by
  all_goals omega

/-- A scan by places that began at `place` stops as the scan of the rest does. It has not gone
back, and it has left the place where it began only for one in the buffer. -/
def Scan.StopsAt (bs : Bytes) (place : Nat) (r : Except Fault Stop) : Scan → Prop
  | .frame => r = .ok .frame
  | .short owed rest =>
    ∃ place', r = .ok (.short owed place') ∧ rest = bs.drop place' ∧ Within owed ∧
      place ≤ place' ∧ (place' = place ∨ place' ≤ bs.length)
  | .malformed e => r = .ok (.malformed e)

theorem Scan.StopsAt.of_lt {bs : Bytes} {place place' : Nat} {r : Except Fault Stop} {s : Scan}
    (h : s.StopsAt bs place' r) (hlt : place < place') (hle : place' ≤ bs.length) :
    s.StopsAt bs place r := by
  cases s with
  | frame => exact h
  | malformed e => exact h
  | short owed rest =>
      obtain ⟨stop, hr, hrest, hwithin, hstop, hplace⟩ := h
      exact ⟨stop, hr, hrest, hwithin, by omega, .inr (by omega)⟩

theorem scanAt_stopsAt (bs : Bytes) {owed : List Nat} (hwithin : Within owed) (place : Nat) :
    (scan owed (bs.drop place)).StopsAt bs place (scanAt bs owed place) := by
  have htoken := tokenAt_agrees bs owed.length place
  rw [scan_eq, scanAt, if_pos hwithin]
  cases hread : readToken owed.length (bs.drop place) with
  | incomplete =>
      rw [hread] at htoken
      have hfound : tokenAt bs owed.length place = .ok .incomplete := htoken
      simp only [hfound]
      exact ⟨place, rfl, rfl, hwithin, Nat.le_refl _, .inl rfl⟩
  | malformed e =>
      rw [hread] at htoken
      have hfound : tokenAt bs owed.length place = .ok (.malformed e) := htoken
      simp only [hfound]
      rfl
  | complete token rest =>
      have hagrees := htoken
      rw [hread] at hagrees
      obtain ⟨place', hfound, -, rfl⟩ := hagrees
      have hplace : place < place' ∧ place' ≤ bs.length :=
        htoken.lt_of_shortens (readToken_shortens owed.length _) hfound
      simp only [hfound, dif_pos hplace]
      cases token with
      | opens n =>
          obtain ⟨hfew, hn⟩ := of_readToken_opens hread
          have hopen : Within (n :: owed) := .cons hfew hn hwithin
          exact (scanAt_stopsAt bs hopen place').of_lt hplace.1 hplace.2
      | whole =>
          simp only [scanOn, settleAt_eq]
          cases hsettle : settle owed with
          | none => rfl
          | some owed' =>
              have hsettled : Within owed' := hwithin.settle hsettle
              exact (scanAt_stopsAt bs hsettled place').of_lt hplace.1 hplace.2
termination_by bs.length - place
decreasing_by
  all_goals omega

/-! ### Taking frames -/

/-- What a framer answers: a frame, or none so far, or what is wrong. -/
def Reading.answer : Reading Value → Except ProtocolError (Option Value)
  | .complete value _ => .ok (some value)
  | .incomplete => .ok none
  | .malformed e => .error e

namespace Framer

/-- What there is after a framer was asked for the next frame. -/
structure Taken where
  framer : Framer
  answer : Except ProtocolError (Option Value)
  buffer : Bytes

def taken (f : Framer) (buffer : Bytes) : Taken :=
  ⟨(f.next buffer).1, (f.next buffer).2.answer, (f.next buffer).2.left buffer⟩

/-- Takes the next frame with every check made. Once the scan has come to the end of a frame, the
frame is read from the front of the buffer, even if the scan did not begin there. -/
def nextAt (f : Framer) (buffer : Bytes) : Except Fault Taken := do
  match ← scanAt buffer f.owed f.scanned with
  | .frame =>
    let (answer, left) ← parseAt buffer
    .ok ⟨{}, answer, left⟩
  | .short owed place => .ok ⟨{ scanned := place, owed }, .ok none, buffer⟩
  | .malformed e => .ok ⟨{}, .error e, buffer⟩

/-- The place a framer remembers does not matter, only what it is owed. -/
theorem nextAt_eq_taken {f : Framer} (hwithin : Within f.owed) (buffer : Bytes) :
    f.nextAt buffer = .ok (f.taken buffer) := by
  have hscan := scanAt_stopsAt buffer hwithin f.scanned
  unfold nextAt taken Framer.next
  dsimp only
  cases hstop : scan f.owed (buffer.drop f.scanned) with
  | malformed e =>
      rw [hstop] at hscan
      have hfound : scanAt buffer f.owed f.scanned = .ok (.malformed e) := hscan
      rw [hfound]
      rfl
  | short owed rest =>
      rw [hstop] at hscan
      obtain ⟨place, hfound, rfl, -, hle, hplace⟩ := hscan
      have hpassed :
          f.scanned + ((buffer.drop f.scanned).length - (buffer.drop place).length) = place := by
        rw [List.length_drop, List.length_drop]
        omega
      simp only [hpassed]
      rw [hfound]
      rfl
  | frame =>
      rw [hstop] at hscan
      have hfound : scanAt buffer f.owed f.scanned = .ok .frame := hscan
      rw [hfound]
      simp only [bind, Except.bind, parseAt_eq]
      cases parse buffer <;> rfl

theorem within_next {f : Framer} (hwithin : Within f.owed) (buffer : Bytes) :
    Within (f.next buffer).1.owed := by
  have hscan := scanAt_stopsAt buffer hwithin f.scanned
  unfold Framer.next
  dsimp only
  cases hstop : scan f.owed (buffer.drop f.scanned) with
  | frame => exact .nil
  | malformed e => exact .nil
  | short owed rest =>
      rw [hstop] at hscan
      obtain ⟨_, _, _, hshort, _⟩ := hscan
      exact hshort

/-- The framers and buffers that come about when the buffer may become any other at any time. -/
inductive Disturbed : Framer → Bytes → Prop where
  | start (buffer : Bytes) : Disturbed {} buffer
  | change {f : Framer} {buffer : Bytes} (buffer' : Bytes) :
      Disturbed f buffer → Disturbed f buffer'
  | next {f : Framer} {buffer : Bytes} :
      Disturbed f buffer → Disturbed (f.next buffer).1 ((f.next buffer).2.left buffer)

theorem Disturbed.within {f : Framer} {buffer : Bytes} (h : Disturbed f buffer) :
    Within f.owed := by
  induction h with
  | start buffer => exact .nil
  | change buffer' _ ih => exact ih
  | next _ ih => exact within_next ih _

/-- Only a frame takes something off the buffer. -/
theorem taken_buffer_of_no_frame {f : Framer} {buffer : Bytes}
    (h : ∀ value, (f.taken buffer).answer ≠ .ok (some value)) :
    (f.taken buffer).buffer = buffer := by
  unfold taken at h ⊢
  dsimp only at h ⊢
  cases hnext : (f.next buffer).2 with
  | complete value rest =>
      rw [hnext] at h
      exact absurd rfl (h value)
  | incomplete => rfl
  | malformed e => rfl

/-- Whatever has become of the buffer, taking the next frame fails none of the checks. At most 32
arrays are owed items, each of them at least one, before it and after it, and a buffer from which no
frame is taken stays as it is. -/
theorem nextAt_of_disturbed {f : Framer} {buffer : Bytes} (h : Disturbed f buffer) :
    f.nextAt buffer = .ok (f.taken buffer) ∧
      (f.owed.length ≤ 32 ∧ ∀ n ∈ f.owed, 1 ≤ n) ∧
      ((f.taken buffer).framer.owed.length ≤ 32 ∧ ∀ n ∈ (f.taken buffer).framer.owed, 1 ≤ n) ∧
      ((∀ value, (f.taken buffer).answer ≠ .ok (some value)) →
        (f.taken buffer).buffer = buffer) := by
  have hbefore : Within f.owed := h.within
  have hafter : Within (f.taken buffer).framer.owed := within_next hbefore buffer
  exact ⟨nextAt_eq_taken hbefore buffer, ⟨hbefore.few, hbefore.due⟩, ⟨hafter.few, hafter.due⟩,
    taken_buffer_of_no_frame⟩

/-- After the header of an array with two items, other bytes stand in the buffer. From the place
remembered two integers can be passed, but what is at the front is no frame. -/
theorem nextAt_of_disturbed_header :
    let buffer : Bytes := [1, 1, 1, 1, 58, 49, 13, 10, 58, 50, 13, 10]
    let f : Framer := { scanned := 4, owed := [2] }
    Disturbed f buffer ∧ f.nextAt buffer = .ok ⟨{}, .error (.unknownType 1), buffer⟩ := by
  intro buffer f
  have hheader : scan [] [42, 50, 13, 10] = .short [2] [] := by
    calc scan [] [42, 50, 13, 10] = scan [2] [] := scan_eq [] _
      _ = .short [2] [] := scan_eq [2] []
  have hnext : ({} : Framer).next [42, 50, 13, 10] = (f, .incomplete) := by
    unfold Framer.next
    dsimp only
    rw [List.drop_zero, hheader]
    rfl
  have hdisturbed : Disturbed f buffer := by
    have hleft := Disturbed.next (.start [42, 50, 13, 10])
    rw [hnext] at hleft
    exact hleft.change buffer
  have hpassed : scan [2] (buffer.drop 4) = .frame := by
    calc scan [2] (buffer.drop 4) = scan [1] [58, 50, 13, 10] := scan_eq [2] _
      _ = .frame := scan_eq [1] _
  have htaken : f.taken buffer = ⟨{}, .error (.unknownType 1), buffer⟩ := by
    unfold taken Framer.next
    dsimp only
    rw [hpassed]
    rfl
  obtain ⟨hok, -⟩ := nextAt_of_disturbed hdisturbed
  exact ⟨hdisturbed, hok.trans (congrArg Except.ok htaken)⟩

end Framer

end RespCache.Resp
