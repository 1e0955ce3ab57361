import Mathlib.Tactic.SplitIfs
import RespCache.Proofs.Bytes
import RespCache.Resp.Framer

/-!
Readings are final: bytes that arrive later change neither a complete reading nor an error. A reader
is `Final` if the bytes it has used up give the same value whatever follows them (`Reads`), and if
its errors stay. The property composes (`Final.andThen`), so that each reader of the format has it
because its parts do.
-/

namespace RespCache.Resp

universe u v

variable {α : Type u} {β : Type v}

theorem Reading.andThen_eq_complete_iff {r : Reading α} {f : α → Bytes → Reading β} {b : β}
    {rest : Bytes} :
    r.andThen f = .complete b rest ↔ ∃ a mid, r = .complete a mid ∧ f a mid = .complete b rest := by
  constructor
  · intro h
    cases r with
    | complete a mid => exact ⟨a, mid, rfl, h⟩
    | incomplete => cases h
    | malformed e => cases h
  · rintro ⟨a, mid, rfl, h⟩
    exact h

theorem Reading.map_eq_complete_iff {r : Reading α} {f : α → β} {b : β} {rest : Bytes} :
    r.map f = .complete b rest ↔ ∃ a, r = .complete a rest ∧ f a = b := by
  rw [Reading.map, Reading.andThen_eq_complete_iff]
  constructor
  · rintro ⟨a, mid, rfl, h⟩
    cases h
    exact ⟨a, rfl, rfl⟩
  · rintro ⟨a, rfl, rfl⟩
    exact ⟨a, rest, rfl, rfl⟩

/-- The bytes `w` are read as `a`, whatever follows them. -/
def Reads (read : Bytes → Reading α) (w : Bytes) (a : α) : Prop :=
  ∀ more, read (w ++ more) = .complete a more

/-- Complete readings and errors do not depend on the bytes that are still to come. -/
structure Final (read : Bytes → Reading α) : Prop where
  complete : ∀ {bs a rest}, read bs = .complete a rest → ∃ w, bs = w ++ rest ∧ Reads read w a
  malformed : ∀ {bs e}, read bs = .malformed e → ∀ more, read (bs ++ more) = .malformed e

namespace Final

theorem const_complete (a : α) : Final fun bs => .complete a bs where
  complete := by
    rintro bs _ _ ⟨⟩
    exact ⟨[], rfl, fun _ => rfl⟩
  malformed := nofun

theorem const_malformed (e : ProtocolError) : Final fun _ => (.malformed e : Reading α) where
  complete := nofun
  malformed := by
    rintro bs _ ⟨⟩ more
    rfl

theorem andThen {read : Bytes → Reading α} {f : α → Bytes → Reading β} (hread : Final read)
    (hf : ∀ a, Final (f a)) : Final fun bs => (read bs).andThen f where
  complete := by
    intro bs b rest h
    obtain ⟨a, mid, hr, hmid⟩ := Reading.andThen_eq_complete_iff.mp h
    obtain ⟨w, rfl, hw⟩ := hread.complete hr
    obtain ⟨w', rfl, hw'⟩ := (hf a).complete hmid
    refine ⟨w ++ w', by simp, fun more => ?_⟩
    rw [List.append_assoc]
    exact Reading.andThen_eq_complete_iff.mpr ⟨a, w' ++ more, hw (w' ++ more), hw' more⟩
  malformed := by
    intro bs e h more
    cases hr : read bs with
    | complete a mid =>
        simp only [hr, Reading.andThen] at h
        obtain ⟨w, rfl, hw⟩ := hread.complete hr
        show (read (w ++ mid ++ more)).andThen f = .malformed e
        rw [List.append_assoc, hw (mid ++ more), Reading.andThen, (hf a).malformed h]
    | incomplete => simp [hr, Reading.andThen] at h
    | malformed e' =>
        simp only [hr, Reading.andThen] at h
        rw [hread.malformed hr, Reading.andThen, ← h]

theorem map {read : Bytes → Reading α} (f : α → β) (hread : Final read) :
    Final fun bs => (read bs).map f :=
  hread.andThen fun a => const_complete (f a)

/-- A reader that needs a first byte is final if it is so after each of them. -/
theorem of_cons {read : Bytes → Reading α} (hnil : read [] = .incomplete)
    (hcons : ∀ b, Final fun bs => read (b :: bs)) : Final read where
  complete := by
    intro bs a rest h
    cases bs with
    | nil => simp [hnil] at h
    | cons b bs =>
        obtain ⟨w, rfl, hw⟩ := (hcons b).complete h
        exact ⟨b :: w, rfl, hw⟩
  malformed := by
    intro bs e h more
    cases bs with
    | nil => simp [hnil] at h
    | cons b bs => exact (hcons b).malformed h more

end Final

/-! ### Lines -/

theorem readLine_eq_complete_iff {bs line rest : Bytes} :
    readLine bs = .complete line rest ↔ line.Unbroken ∧ bs = line ++ (Bytes.crlf ++ rest) := by
  rw [← Bytes.splitLine_eq_some_iff, readLine]
  cases bs.splitLine <;> simp [Prod.ext_iff]

theorem readLine_final : Final readLine where
  complete := by
    intro bs line rest h
    obtain ⟨hline, rfl⟩ := readLine_eq_complete_iff.mp h
    refine ⟨line ++ Bytes.crlf, by simp, fun more => ?_⟩
    exact readLine_eq_complete_iff.mpr ⟨hline, by simp⟩
  malformed := by
    intro bs e h
    unfold readLine at h
    split at h <;> cases h

theorem readText_final : Final readText := by
  refine readLine_final.andThen fun line => ?_
  cases Utf8.decode? line with
  | some text => exact .const_complete text
  | none => exact .const_malformed _

theorem readInteger_final : Final readInteger := by
  refine readLine_final.andThen fun line => ?_
  cases Decimal.int64? line with
  | some n => exact .const_complete n
  | none => exact .const_malformed _

theorem readLength_final (kind : Sized) : Final (readLength kind) := by
  refine readInteger_final.andThen fun n => ?_
  split_ifs
  · exact .const_complete none
  · exact .const_malformed _
  · exact .const_malformed _
  · exact .const_complete _

/-! ### Payloads -/

theorem readPayload_eq_complete_iff {length : Nat} {bs data rest : Bytes} :
    readPayload length bs = .complete data rest ↔
      data.length = length ∧ bs = data ++ (Bytes.crlf ++ rest) := by
  constructor
  · intro h
    unfold readPayload at h
    split at h
    case h_1 rest' hdrop =>
      cases h
      have hlength := congrArg List.length hdrop
      rw [List.length_drop, List.length_cons, List.length_cons] at hlength
      refine ⟨by rw [List.length_take]; omega, ?_⟩
      exact (List.take_append_drop length bs).symm.trans (by rw [hdrop]; rfl)
    case h_2 => cases h
    case h_3 => cases h
  · rintro ⟨rfl, rfl⟩
    simp [readPayload, Bytes.crlf]

theorem readPayload_final (length : Nat) : Final (readPayload length) where
  complete := by
    intro bs data rest h
    obtain ⟨hlength, rfl⟩ := readPayload_eq_complete_iff.mp h
    refine ⟨data ++ Bytes.crlf, by simp, fun more => ?_⟩
    exact readPayload_eq_complete_iff.mpr ⟨hlength, by simp⟩
  malformed := by
    intro bs e h more
    unfold readPayload at h
    split at h
    case h_1 => cases h
    case h_2 a b rest hne hdrop =>
      have hlength := congrArg List.length hdrop
      rw [List.length_drop, List.length_cons, List.length_cons] at hlength
      have hmore : (bs ++ more).drop length = a :: b :: (rest ++ more) := by
        rw [List.drop_append_of_le_length (by omega), hdrop]
        rfl
      rw [readPayload, hmore]
      split
      case h_1 heq =>
        cases heq
        exact (hne rfl rfl).elim
      case h_2 => exact h
      case h_3 hfew => exact (hfew a b (rest ++ more) rfl).elim
    case h_3 => cases h

/-! ### Values -/

theorem readBulk_final : Final readBulk := by
  refine (readLength_final .bulk).andThen fun length => ?_
  cases length with
  | none => exact .const_complete _
  | some length => exact (readPayload_final length).map _

theorem readItems_final {readItem : Bytes → Reading Value} (hItem : Final readItem) (n : Nat)
    (items : List Value) : Final (readItems readItem n items) := by
  induction n generalizing items with
  | zero => exact .const_complete _
  | succ n ih => exact hItem.andThen fun item => ih (item :: items)

theorem readArray_final {readItem : Bytes → Reading Value} (hItem : Final readItem) :
    Final (readArray readItem) := by
  refine (readLength_final .array).andThen fun length => ?_
  cases length with
  | none => exact .const_complete _
  | some length => exact (readItems_final hItem length []).map _

theorem readValue_final (room : Nat) : Final (readValue room) := by
  induction room using Nat.strongRecOn with
  | ind room ih =>
      refine .of_cons (by simp [readValue]) fun b => ?_
      unfold readValue
      cases Marker.ofByte? b with
      | none => exact .const_malformed _
      | some m =>
          cases m with
          | simple => exact readText_final.map _
          | error => exact readText_final.map _
          | integer => exact readInteger_final.map _
          | bulk => exact readBulk_final
          | array =>
              cases room with
              | zero => exact .const_malformed _
              | succ room => exact readArray_final (ih room (Nat.lt_succ_self room))

theorem parse_final : Final parse := readValue_final maxDepth

/-! ### Tokens -/

theorem skipBulk_final : Final skipBulk := by
  refine (readLength_final .bulk).andThen fun length => ?_
  cases length with
  | none => exact .const_complete _
  | some length => exact (readPayload_final length).map _

theorem readToken_final (depth : Nat) : Final (readToken depth) := by
  refine .of_cons rfl fun b => ?_
  simp only [readToken]
  cases Marker.ofByte? b with
  | none => exact .const_malformed _
  | some m =>
      cases m with
      | simple => exact readText_final.map _
      | error => exact readText_final.map _
      | integer => exact readInteger_final.map _
      | bulk => exact skipBulk_final
      | array =>
          simp only
          split_ifs
          · exact .const_malformed _
          · exact (readLength_final .array).map _

end RespCache.Resp
