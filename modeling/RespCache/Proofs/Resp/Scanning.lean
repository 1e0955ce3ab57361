import RespCache.Proofs.Resp.Finality

/-!
What a scan finds agrees with what reading finds. Where a value is due, a scan passes over the bytes
that the value is read from, and stops for want of bytes or at an error exactly where the reading
does (`scan_follows_readValue`); the items owed to the open arrays are the recursion's unfinished
loops. A scan that stops for want of bytes can be taken up again from the place it has reached
(`scan_resumes`).
-/

namespace RespCache.Resp

universe u v

variable {α : Type u} {β : Type v}

/-- The scan after one more value is there. -/
def scanOn (owed : List Nat) (rest : Bytes) : Scan :=
  match settle owed with
  | none => .frame
  | some owed => scan owed rest

theorem scan_eq (owed : List Nat) (bs : Bytes) :
    scan owed bs =
      match readToken owed.length bs with
      | .incomplete => .short owed bs
      | .malformed e => .malformed e
      | .complete (.opens n) rest => scan (n :: owed) rest
      | .complete .whole rest => scanOn owed rest := by
  rw [scan]
  split
  case h_1 h => rw [h]
  case h_2 e h => rw [h]
  case h_3 n rest h => rw [h]
  case h_4 rest h => rw [h]; rfl

/-- The scan goes on after a complete reading, and stops where an incomplete or wrong one does. -/
def Scan.Follows (s : Scan) (r : Reading α) (next : Bytes → Scan) : Prop :=
  match r with
  | .complete _ rest => s = next rest
  | .incomplete => ∃ owed rest, s = .short owed rest
  | .malformed e => s = .malformed e

theorem Scan.Follows.andThen {s : Scan} {r : Reading α} {mid next : Bytes → Scan}
    {f : α → Bytes → Reading β} (hr : s.Follows r mid)
    (hf : ∀ a rest, (mid rest).Follows (f a rest) next) : s.Follows (r.andThen f) next := by
  cases r with
  | complete a rest =>
      have hs : s = mid rest := hr
      rw [hs]
      exact hf a rest
  | incomplete => exact hr
  | malformed e => exact hr

theorem Scan.Follows.map {s : Scan} {r : Reading α} {next : Bytes → Scan}
    (hr : s.Follows r next) (f : α → β) : s.Follows (r.map f) next :=
  hr.andThen fun _ _ => rfl

/-- A token that is a whole value is passed over as the value is read. -/
theorem scan_follows_of_whole {owed : List Nat} {bs : Bytes} {r : Reading α}
    (htoken : readToken owed.length bs = r.map fun _ => .whole) :
    (scan owed bs).Follows r (scanOn owed) := by
  rw [scan_eq, htoken]
  cases r with
  | complete a rest => rfl
  | incomplete => exact ⟨_, _, rfl⟩
  | malformed e => rfl

/-- The items of an array are passed over as they are read. -/
theorem scan_follows_readItems {readItem : Bytes → Reading Value} {owed : List Nat}
    (hItem : ∀ n bs, (scan (n :: owed) bs).Follows (readItem bs) (scanOn (n :: owed))) (n : Nat)
    (items : List Value) (bs : Bytes) :
    (scan ((n + 1) :: owed) bs).Follows (readItems readItem (n + 1) items bs) (scanOn owed) := by
  induction n generalizing items bs with
  | zero => exact (hItem 1 bs).andThen fun item rest => rfl
  | succ n ih => exact (hItem (n + 2) bs).andThen fun item rest => ih (item :: items) rest

theorem skipBulk_eq (bs : Bytes) : skipBulk bs = (readBulk bs).map fun _ => .whole := by
  unfold skipBulk readBulk
  cases readLength .bulk bs with
  | complete length rest =>
      cases length with
      | none => rfl
      | some length =>
          simp only [Reading.andThen]
          cases readPayload length rest <;> rfl
  | incomplete => rfl
  | malformed e => rfl

/-- The header of an array opens it or is a whole value, as the array is read. -/
theorem scan_follows_readArray {readItem : Bytes → Reading Value} {owed : List Nat} {b : UInt8}
    {bs : Bytes} (htoken : readToken owed.length (b :: bs) = openArray bs)
    (hItem : ∀ n bs, (scan (n :: owed) bs).Follows (readItem bs) (scanOn (n :: owed))) :
    (scan owed (b :: bs)).Follows (readArray readItem bs) (scanOn owed) := by
  rw [scan_eq, htoken, openArray, readArray]
  cases readLength .array bs with
  | complete length rest =>
      cases length with
      | none => rfl
      | some length =>
          cases length with
          | zero => rfl
          | succ n => exact (scan_follows_readItems hItem n [] rest).map _
  | incomplete => exact ⟨_, _, rfl⟩
  | malformed e => rfl

/-- Where `room` more arrays may open, a scan passes over a value as it is read. -/
theorem scan_follows_readValue {room : Nat} {owed : List Nat}
    (hroom : owed.length + room = maxDepth) (bs : Bytes) :
    (scan owed bs).Follows (readValue room bs) (scanOn owed) := by
  induction room using Nat.strongRecOn generalizing owed bs with
  | ind room ih =>
      cases bs with
      | nil =>
          have hread : readValue room [] = .incomplete := by simp [readValue]
          rw [hread]
          exact ⟨_, _, scan_eq owed []⟩
      | cons b bs =>
          unfold readValue
          cases hb : Marker.ofByte? b with
          | none =>
              rw [scan_eq, readToken, hb]
              rfl
          | some m =>
              cases m with
              | simple =>
                  refine (scan_follows_of_whole ?_).map _
                  rw [readToken, hb]
              | error =>
                  refine (scan_follows_of_whole ?_).map _
                  rw [readToken, hb]
              | integer =>
                  refine (scan_follows_of_whole ?_).map _
                  rw [readToken, hb]
              | bulk =>
                  refine scan_follows_of_whole ?_
                  rw [readToken, hb]
                  exact skipBulk_eq bs
              | array =>
                  cases room with
                  | zero =>
                      rw [scan_eq, readToken, hb]
                      simp only
                      rw [if_pos (by omega)]
                      rfl
                  | succ room =>
                      refine scan_follows_readArray ?_ fun n bs =>
                        ih room (Nat.lt_succ_self room) ?_ bs
                      · rw [readToken, hb]
                        exact if_neg (by omega)
                      · rw [List.length_cons]
                        omega

theorem scan_follows_parse (bs : Bytes) : (scan [] bs).Follows (parse bs) fun _ => .frame :=
  @scan_follows_readValue maxDepth [] (Nat.zero_add _) bs

/-- A scan that lacks bytes has passed over some; with more bytes it goes on behind them. -/
theorem scan_resumes {owed owed' : List Nat} {bs rest : Bytes}
    (h : scan owed bs = .short owed' rest) :
    ∃ passed, bs = passed ++ rest ∧ ∀ more, scan owed (passed ++ more) = scan owed' more := by
  fun_induction scan owed bs with
  | case1 owed bs =>
      cases h
      exact ⟨[], rfl, fun _ => rfl⟩
  | case2 => cases h
  | case3 owed bs n mid htoken ih =>
      obtain ⟨w, rfl, hw⟩ := (readToken_final _).complete htoken
      obtain ⟨passed, rfl, hpassed⟩ := ih h
      refine ⟨w ++ passed, by simp, fun more => ?_⟩
      rw [List.append_assoc, scan_eq, hw (passed ++ more)]
      exact hpassed more
  | case4 => cases h
  | case5 owed bs mid htoken owed'' hsettle ih =>
      obtain ⟨w, rfl, hw⟩ := (readToken_final _).complete htoken
      obtain ⟨passed, rfl, hpassed⟩ := ih h
      refine ⟨w ++ passed, by simp, fun more => ?_⟩
      rw [List.append_assoc, scan_eq, hw (passed ++ more)]
      simp only [scanOn, hsettle]
      exact hpassed more

end RespCache.Resp
