import RespCache.Resp.Reading
import RespCache.Resp.Value

/-!
Reading one value off the front of a byte string. The bytes are given up only by a complete reading,
which takes at least one of them (`readValue_shortens`).
-/

namespace RespCache.Resp

/-- Reads `n` more items; `items` are those read so far, last first. -/
def readItems (readItem : Bytes → Reading Value) : Nat → List Value → Bytes → Reading (List Value)
  | 0, items, bs => .complete items.reverse bs
  | n + 1, items, bs =>
    (readItem bs).andThen fun item rest => readItems readItem n (item :: items) rest

def readBulk (bs : Bytes) : Reading Value :=
  (readLength .bulk bs).andThen fun length rest =>
    match length with
    | none => .complete .nullBulk rest
    | some length => (readPayload length rest).map .bulk

def readArray (readItem : Bytes → Reading Value) (bs : Bytes) : Reading Value :=
  (readLength .array bs).andThen fun length rest =>
    match length with
    | none => .complete .nullArray rest
    | some length => (readItems readItem length [] rest).map .array

/-- Reads a value inside which at most `room` arrays may lie within each other. -/
def readValue (room : Nat) : Bytes → Reading Value
  | [] => .incomplete
  | b :: bs =>
    match Marker.ofByte? b with
    | none => .malformed (.unknownType b)
    | some .simple => (readText bs).map .simple
    | some .error => (readText bs).map .error
    | some .integer => (readInteger bs).map .integer
    | some .bulk => readBulk bs
    | some .array =>
      match room with
      | 0 => .malformed .tooDeep
      | room + 1 => readArray (readValue room) bs

def parse (buffer : Bytes) : Reading Value := readValue maxDepth buffer

theorem readBulk_shortens (bs : Bytes) : (readBulk bs).Shortens bs.length := by
  refine (readLength_shortens .bulk bs).andThen fun length rest h => ?_
  split
  · exact Reading.shortens_complete h
  · exact ((readPayload_shortens _ rest).mono (Nat.le_of_lt h)).map _

theorem readItems_shortens {readItem : Bytes → Reading Value}
    (hItem : ∀ bs, (readItem bs).Shortens bs.length) (n : Nat) (items : List Value) (bs : Bytes) :
    (readItems readItem n items bs).Shortens (bs.length + 1) := by
  induction n generalizing items bs with
  | zero => exact Reading.shortens_complete (Nat.lt_succ_self _)
  | succ n ih =>
    refine ((hItem bs).mono (Nat.le_succ _)).andThen fun item rest h => ?_
    exact (ih _ rest).mono (by omega)

theorem readArray_shortens {readItem : Bytes → Reading Value}
    (hItem : ∀ bs, (readItem bs).Shortens bs.length) (bs : Bytes) :
    (readArray readItem bs).Shortens bs.length := by
  refine (readLength_shortens .array bs).andThen fun length rest h => ?_
  split
  · exact Reading.shortens_complete h
  · exact ((readItems_shortens hItem _ [] rest).mono h).map _

theorem readValue_shortens (room : Nat) (bs : Bytes) : (readValue room bs).Shortens bs.length := by
  induction room using Nat.strongRecOn generalizing bs with
  | ind room ih =>
    unfold readValue
    split
    case h_1 => exact Reading.shortens_incomplete _
    case h_2 b bs =>
      have hlt : bs.length ≤ (b :: bs).length := Nat.le_succ _
      split
      · exact Reading.shortens_malformed _ _
      · exact ((readText_shortens bs).mono hlt).map _
      · exact ((readText_shortens bs).mono hlt).map _
      · exact ((readInteger_shortens bs).mono hlt).map _
      · exact (readBulk_shortens bs).mono hlt
      · split
        · exact Reading.shortens_malformed _ _
        · exact (readArray_shortens (ih _ (Nat.lt_succ_self _)) bs).mono hlt

end RespCache.Resp
