import Mathlib.Computability.Language
import RespCache.Proofs.Resp.Disturbed
import RespCache.Proofs.Resp.Grammar

/-!
What a framer that lacks bytes is waiting for. The items owed to the open arrays say which frames
have to come: as many as the innermost array is owed, and then, for each array around it, one fewer
than that one is owed, for the array inside it is one of its items (`awaited`). A token at the front
of what is awaited leaves what is awaited behind it, whether it opens an array or ends any number of
them (`append_mem_awaited_iff`); so do the tokens that a scan passes over (`scan_awaited`), and so
does every call of a framer whose buffer only grows (`Framer.Awaits`). Sets of byte strings are
languages: a product is one after the other, a power so many one after the other.
-/

namespace RespCache.Resp

/-! ### What is owed, as frames -/

/-- The frames inside so many arrays. -/
def frames (depth : Nat) : Language UInt8 := {w | ∃ v, Frame depth w v}

/-- What completes the arrays around an item that has come: each is owed one item fewer then. -/
def completion : List Nat → Language UInt8
  | [] => 1
  | n :: outer => frames (outer.length + 1) ^ (n - 1) * completion outer

/-- What has to come where so many items are owed, the innermost array in front: a frame, or the
items of the innermost array and what completes those around it. -/
def awaited : List Nat → Language UInt8
  | [] => frames 0
  | n :: outer => frames (outer.length + 1) ^ n * completion outer

theorem mem_frames_pow_iff {depth n : Nat} {w : Bytes} :
    w ∈ frames depth ^ n ↔ ∃ vs : List Value, vs.length = n ∧ Frames depth w vs := by
  induction n generalizing w with
  | zero =>
      rw [pow_zero, Language.mem_one]
      constructor
      · rintro rfl
        exact ⟨[], rfl, .nil⟩
      · rintro ⟨vs, hlength, hframes⟩
        cases hframes with
        | nil => rfl
        | cons hv hvs => cases hlength
  | succ n ih =>
      simp only [pow_succ', Language.mem_mul, ih]
      constructor
      · rintro ⟨w, ⟨v, hv⟩, ws, ⟨vs, rfl, hvs⟩, rfl⟩
        exact ⟨v :: vs, rfl, .cons hv hvs⟩
      · rintro ⟨vs, hlength, hframes⟩
        cases hframes with
        | nil => cases hlength
        | @cons _ w ws v vs hv hvs => exact ⟨w, ⟨v, hv⟩, ws, ⟨vs, Nat.succ.inj hlength, hvs⟩, rfl⟩

/-- At any place one item has to come first, and then what completes the arrays around it. -/
theorem awaited_eq_mul {owed : List Nat} (hdue : ∀ n ∈ owed, 0 < n) :
    awaited owed = frames owed.length * completion owed := by
  cases owed with
  | nil => exact (mul_one _).symm
  | cons n outer =>
      obtain ⟨n, rfl⟩ := Nat.exists_eq_succ_of_ne_zero (Nat.ne_of_gt (hdue n List.mem_cons_self))
      rw [awaited, completion, pow_succ', mul_assoc]
      rfl

/-- Once the item has come, settling says what is awaited. -/
theorem completion_eq_settle (owed : List Nat) :
    completion owed =
      match settle owed with
      | none => 1
      | some owed => awaited owed := by
  fun_induction settle owed with
  | case1 => rfl
  | case2 n outer hn => rfl
  | case3 n outer hn ih =>
      have hlast : n - 1 = 0 := by omega
      rw [completion, hlast, pow_zero, one_mul, ih]

/-! ### What is owed, as it is read -/

section Read

variable {depth room : Nat} (hroom : depth + room = maxDepth) {after : Language UInt8} {s : Bytes}

include hroom

theorem mem_frames_mul_iff :
    s ∈ frames depth * after ↔
      ∃ rest, (∃ v, readValue room s = .complete v rest) ∧ rest ∈ after := by
  rw [Language.mem_mul]
  constructor
  · rintro ⟨w, ⟨v, hv⟩, rest, hrest, rfl⟩
    exact ⟨rest, ⟨v, hv.reads hroom rest⟩, hrest⟩
  · rintro ⟨rest, ⟨v, hread⟩, hrest⟩
    obtain ⟨w, rfl, hv⟩ := frame_of_readValue hroom hread
    exact ⟨w, ⟨v, hv⟩, rest, hrest, rfl⟩

theorem mem_frames_pow_mul_iff {n : Nat} :
    s ∈ frames depth ^ n * after ↔
      ∃ rest, (∃ items, readItems (readValue room) n [] s = .complete items rest) ∧
        rest ∈ after := by
  rw [Language.mem_mul]
  constructor
  · rintro ⟨w, hw, rest, hrest, rfl⟩
    obtain ⟨vs, rfl, hvs⟩ := mem_frames_pow_iff.mp hw
    exact ⟨rest, ⟨_, hvs.readItems hroom [] rest⟩, hrest⟩
  · rintro ⟨rest, ⟨items, hread⟩, hrest⟩
    obtain ⟨w, vs, -, hlength, rfl, hvs⟩ := frames_of_readItems (frame_of_readValue hroom) hread
    exact ⟨w, mem_frames_pow_iff.mpr ⟨vs, hlength, hvs⟩, rest, hrest, rfl⟩

end Read

/-! ### One token -/

/-- What is left to read of a value behind its first token: nothing, or the items of an array. -/
def Token.Begins (room : Nat) (rest : Bytes) (r : Reading Value) : Token → Prop
  | .whole => ∃ v, r = .complete v rest
  | .opens n =>
    ∃ inner, room = inner + 1 ∧ r = (readItems (readValue inner) n [] rest).map .array

theorem begins_of_map {α : Type} {r : Reading α} {f : α → Value} {room : Nat} {token : Token}
    {rest : Bytes} (h : (r.map fun _ => Token.whole) = .complete token rest) :
    token.Begins room rest (r.map f) := by
  obtain ⟨a, hr, rfl⟩ := Reading.map_eq_complete_iff.mp h
  exact ⟨f a, Reading.map_eq_complete_iff.mpr ⟨a, hr, rfl⟩⟩

theorem begins_of_openArray {room : Nat} {token : Token} {bs rest : Bytes}
    (h : openArray bs = .complete token rest) :
    token.Begins (room + 1) rest (readArray (readValue room) bs) := by
  obtain ⟨length, hlength, htoken⟩ := Reading.map_eq_complete_iff.mp h
  rw [readArray, hlength]
  cases length with
  | none =>
      cases htoken
      exact ⟨.nullArray, rfl⟩
  | some n =>
      cases n with
      | zero =>
          cases htoken
          exact ⟨.array [], rfl⟩
      | succ n =>
          cases htoken
          exact ⟨room, rfl, rfl⟩

theorem begins_of_readToken {depth room : Nat} (hroom : depth + room = maxDepth) {token : Token}
    {bs rest : Bytes} (h : readToken depth bs = .complete token rest) :
    token.Begins room rest (readValue room bs) := by
  cases bs with
  | nil => cases h
  | cons b bs =>
      rw [readToken] at h
      unfold readValue
      cases hb : Marker.ofByte? b with
      | none =>
          rw [hb] at h
          cases h
      | some m =>
          simp only [hb] at h
          cases m with
          | simple => exact begins_of_map h
          | error => exact begins_of_map h
          | integer => exact begins_of_map h
          | bulk =>
              rw [skipBulk_eq] at h
              obtain ⟨v, hread, rfl⟩ := Reading.map_eq_complete_iff.mp h
              exact ⟨v, hread⟩
          | array =>
              simp only at h
              split_ifs at h with hdepth
              obtain ⟨room, rfl⟩ : ∃ inner, room = inner + 1 := ⟨room - 1, by omega⟩
              exact begins_of_openArray h

/-- What is awaited behind a token: a whole value is the item that had to come, and the items of an
array come first of all. -/
def Token.leaves (owed : List Nat) : Token → Language UInt8
  | .whole => completion owed
  | .opens n => awaited (n :: owed)

/-- Where a token is at the front of what is awaited, the rest is what is awaited behind it. -/
theorem append_mem_awaited_iff {owed : List Nat} (hwithin : Within owed) {w : Bytes} {token : Token}
    (htoken : Reads (readToken owed.length) w token) (s : Bytes) :
    w ++ s ∈ awaited owed ↔ s ∈ token.leaves owed := by
  have hroom : owed.length + (maxDepth - owed.length) = maxDepth :=
    Nat.add_sub_cancel' hwithin.few
  have hbegins := begins_of_readToken hroom (htoken s)
  rw [awaited_eq_mul hwithin.due, mem_frames_mul_iff hroom]
  cases token with
  | whole =>
      obtain ⟨v, hread⟩ := hbegins
      simp [hread, Token.leaves]
  | opens n =>
      obtain ⟨inner, hinner, hread⟩ := hbegins
      have hinside : owed.length + 1 + inner = maxDepth := by omega
      rw [Token.leaves, awaited, mem_frames_pow_mul_iff hinside, hread]
      simp [Reading.map_eq_complete_iff]

/-! ### A scan and a framer -/

/-- A scan that lacks bytes has passed over the front of what was awaited, and awaits the rest. -/
theorem scan_awaited {owed owed' : List Nat} {bs rest : Bytes} (hwithin : Within owed)
    (h : scan owed bs = .short owed' rest) :
    ∃ passed, bs = passed ++ rest ∧ Within owed' ∧
      ∀ s, passed ++ s ∈ awaited owed ↔ s ∈ awaited owed' := by
  -- one token after the other; the bounds on what is owed give each of them room to be read
  fun_induction scan owed bs with
  | case1 owed bs =>
      cases h
      exact ⟨[], rfl, hwithin, fun _ => Iff.rfl⟩
  | case2 => cases h
  | case3 owed bs n mid htoken ih =>
      obtain ⟨hfew, hn⟩ := of_readToken_opens htoken
      obtain ⟨passed, rfl, hwithin', hpassed⟩ := ih (.cons hfew hn hwithin) h
      obtain ⟨w, rfl, hw⟩ := (readToken_final _).complete htoken
      refine ⟨w ++ passed, (List.append_assoc _ _ _).symm, hwithin', fun s => ?_⟩
      rw [List.append_assoc, append_mem_awaited_iff hwithin hw]
      exact hpassed s
  | case4 => cases h
  | case5 owed bs mid htoken owed'' hsettle ih =>
      obtain ⟨passed, rfl, hwithin', hpassed⟩ := ih (hwithin.settle hsettle) h
      obtain ⟨w, rfl, hw⟩ := (readToken_final _).complete htoken
      refine ⟨w ++ passed, (List.append_assoc _ _ _).symm, hwithin', fun s => ?_⟩
      rw [List.append_assoc, append_mem_awaited_iff hwithin hw, Token.leaves,
        completion_eq_settle, hsettle]
      exact hpassed s

namespace Framer

/-- The framer has passed bytes at the front of the buffer that begin a frame, and what it is owed
says how that frame goes on. -/
structure Awaits (f : Framer) (buffer : Bytes) : Prop where
  scanned_le : f.scanned ≤ buffer.length
  within : Within f.owed
  goesOn : ∀ s, buffer.take f.scanned ++ s ∈ awaited [] ↔ s ∈ awaited f.owed

theorem awaits_start (buffer : Bytes) : Awaits {} buffer :=
  ⟨Nat.zero_le _, .nil, fun _ => Iff.rfl⟩

theorem Awaits.append {f : Framer} {buffer : Bytes} (hf : f.Awaits buffer) (data : Bytes) :
    f.Awaits (buffer ++ data) where
  scanned_le := by
    rw [List.length_append]
    exact Nat.le_add_right_of_le hf.scanned_le
  within := hf.within
  goesOn := by
    rw [List.take_append_of_le_length hf.scanned_le]
    exact hf.goesOn

theorem Awaits.next {f : Framer} {buffer : Bytes} (hf : f.Awaits buffer) :
    (f.next buffer).1.Awaits ((f.next buffer).2.left buffer) := by
  unfold Framer.next
  dsimp only
  cases hscan : scan f.owed (buffer.drop f.scanned) with
  | frame => exact awaits_start _
  | malformed e => exact awaits_start _
  | short owed rest =>
      obtain ⟨passed, hpassed, hwithin, hgoesOn⟩ := scan_awaited hf.within hscan
      have hlength : buffer.length - f.scanned = passed.length + rest.length := by
        rw [← List.length_drop, hpassed, List.length_append]
      have hadvance : (buffer.drop f.scanned).length - rest.length = passed.length := by
        rw [hpassed, List.length_append, Nat.add_sub_cancel]
      have hle := hf.scanned_le
      simp only [hadvance, Reading.left]
      constructor
      case scanned_le =>
        show f.scanned + passed.length ≤ buffer.length
        omega
      case within => exact hwithin
      case goesOn =>
        intro s
        rw [List.take_add, hpassed, List.take_left, List.append_assoc, hf.goesOn, hgoesOn]

theorem Reaches.awaits {f : Framer} {buffer : Bytes} (h : Reaches f buffer) : f.Awaits buffer := by
  induction h with
  | start => exact awaits_start []
  | append data _ ih => exact ih.append data
  | next _ ih => exact ih.next
  | drop _ herror _ =>
      rw [next_of_malformed herror]
      exact awaits_start []

/-- Where no frame is taken for want of bytes, the framer does not go back. -/
theorem At.scanned_le_next {f : Framer} {buffer : Bytes} (hf : f.At buffer)
    (hnone : (f.next buffer).2 = .incomplete) : f.scanned ≤ (f.next buffer).1.scanned := by
  have hfollows := scan_follows_parse buffer
  rw [← hf.next_eq_parse, hnone, ← hf.scan_drop] at hfollows
  obtain ⟨owed, rest, hscan⟩ := hfollows
  unfold Framer.next
  dsimp only
  rw [hscan]
  exact Nat.le_add_right _ _

/-- A framer that asks for more bytes, at a buffer that only grew, has not gone back nor past the
end. It is owed items by at most 32 arrays, by each of them at least one, and what it has passed is
completed to exactly one frame by the bytes that are awaited there and by no others. -/
theorem awaits_next_of_reaches {f f' : Framer} {buffer : Bytes} (h : Reaches f buffer)
    (hnext : f.next buffer = (f', .incomplete)) :
    f'.scanned ≤ buffer.length ∧ f'.owed.length ≤ 32 ∧ (∀ n ∈ f'.owed, 1 ≤ n) ∧
      f.scanned ≤ f'.scanned ∧
      ∀ s, (∃ v, parse (buffer.take f'.scanned ++ s) = .complete v []) ↔ s ∈ awaited f'.owed := by
  have hmonotone := h.at.scanned_le_next (by rw [hnext])
  have hawaits : f'.Awaits buffer := by
    have hleft := h.awaits.next
    rwa [hnext] at hleft
  rw [hnext] at hmonotone
  refine ⟨hawaits.scanned_le, hawaits.within.few, hawaits.within.due, hmonotone, fun s => ?_⟩
  rw [← hawaits.goesOn, awaited, ← mul_one (frames 0), mem_frames_mul_iff (Nat.zero_add maxDepth)]
  simp [parse]

/-- An array in an array: the outer one is owed two items, the one that is open and one more. The
inner one was owed three, and has a number and an empty array by now. -/
theorem awaits_next_of_reaches_nested :
    let begun : Bytes := [42, 50, 13, 10, 42, 51]
    let ahead : Bytes := [42, 51, 13, 10, 58, 49, 13, 10, 42, 48, 13, 10, 58, 50]
    let buffer : Bytes := begun ++ ahead.drop 2
    let f : Framer := { scanned := 4, owed := [2] }
    let f' : Framer := { scanned := 16, owed := [1, 2] }
    Reaches f buffer ∧ f.next buffer = (f', .incomplete) ∧
      f'.scanned ≤ buffer.length ∧ f'.owed.length ≤ 32 ∧ (∀ n ∈ f'.owed, 1 ≤ n) ∧
      f.scanned ≤ f'.scanned ∧
      ∀ s, (∃ v, parse (buffer.take f'.scanned ++ s) = .complete v []) ↔ s ∈ awaited f'.owed := by
  intro begun ahead buffer f f'
  have hbegun : scan [] begun = .short [2] [42, 51] := by
    calc scan [] begun = scan [2] [42, 51] := scan_eq [] begun
      _ = .short [2] [42, 51] := scan_eq [2] _
  have hahead : scan [2] ahead = .short [1, 2] [58, 50] := by
    calc scan [2] ahead = scan [3, 2] (ahead.drop 4) := scan_eq [2] ahead
      _ = scan [2, 2] (ahead.drop 8) := scan_eq [3, 2] _
      _ = scan [1, 2] [58, 50] := scan_eq [2, 2] _
      _ = .short [1, 2] [58, 50] := scan_eq [1, 2] _
  have hfirst : ({} : Framer).next begun = (f, .incomplete) := by
    unfold Framer.next
    dsimp only
    rw [List.drop_zero, hbegun]
    rfl
  have hcut : Reaches f begun := by
    have hleft := Reaches.next (.append begun .start)
    rwa [List.nil_append, hfirst] at hleft
  have hreaches : Reaches f buffer := hcut.append _
  have hnext : f.next buffer = (f', .incomplete) := by
    have hdrop : buffer.drop f.scanned = ahead := rfl
    unfold Framer.next
    dsimp only
    rw [hdrop, hahead]
    rfl
  exact ⟨hreaches, hnext, awaits_next_of_reaches hreaches hnext⟩

end Framer

end RespCache.Resp
