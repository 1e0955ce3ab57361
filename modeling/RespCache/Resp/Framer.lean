import RespCache.Resp.Parse

/-!
Taking frames off a buffer that fills a few bytes at a time. A framer remembers how far it has
looked, so that bytes are looked at once however they arrive, and how many items the arrays begun
there are still owed. A value is built only when its whole frame is in the buffer.
-/

namespace RespCache.Resp

/-- A piece of a frame: a value that stands by itself, or the header of an array with items. -/
inductive Token where
  | whole
  | opens (items : Nat)

/-- Reads a bulk string after its marker and builds nothing. -/
def skipBulk (bs : Bytes) : Reading Token :=
  (readLength .bulk bs).andThen fun length rest =>
    match length with
    | none => .complete .whole rest
    | some length => (readPayload length rest).map fun _ => .whole

/-- Reads the header of an array after its marker. An array without items is a whole value. -/
def openArray (bs : Bytes) : Reading Token :=
  (readLength .array bs).map fun length =>
    match length with
    | none | some 0 => .whole
    | some n => .opens n

def readToken (depth : Nat) : Bytes → Reading Token
  | [] => .incomplete
  | b :: bs =>
    match Marker.ofByte? b with
    | none => .malformed (.unknownType b)
    | some .simple | some .error => (readText bs).map fun _ => .whole
    | some .integer => (readInteger bs).map fun _ => .whole
    | some .bulk => skipBulk bs
    | some .array => if maxDepth ≤ depth then .malformed .tooDeep else openArray bs

theorem skipBulk_shortens (bs : Bytes) : (skipBulk bs).Shortens bs.length := by
  refine (readLength_shortens .bulk bs).andThen fun length rest h => ?_
  split
  · exact Reading.shortens_complete h
  · exact ((readPayload_shortens _ rest).mono (Nat.le_of_lt h)).map _

theorem readToken_shortens (depth : Nat) (bs : Bytes) :
    (readToken depth bs).Shortens bs.length := by
  unfold readToken
  split
  case h_1 => exact Reading.shortens_incomplete _
  case h_2 b bs =>
    have hlt : bs.length ≤ (b :: bs).length := Nat.le_succ _
    split
    · exact Reading.shortens_malformed _ _
    · exact ((readText_shortens bs).mono hlt).map _
    · exact ((readText_shortens bs).mono hlt).map _
    · exact ((readInteger_shortens bs).mono hlt).map _
    · exact (skipBulk_shortens bs).mono hlt
    · split
      · exact Reading.shortens_malformed _ _
      · exact ((readLength_shortens .array bs).mono hlt).map _

/-- The items still owed to the open arrays once one more value is there, the innermost array in
front. An array owed nothing more is itself a value of the one around it; nothing is left if the
outermost array is there. -/
def settle : List Nat → Option (List Nat)
  | [] => none
  | n :: outer => if 1 < n then some ((n - 1) :: outer) else settle outer

inductive Scan where
  | frame
  | short (owed : List Nat) (rest : Bytes)
  | malformed (error : ProtocolError)

/-- Passes over tokens until a frame ends, or the bytes do, or they are wrong. -/
def scan (owed : List Nat) (bs : Bytes) : Scan :=
  match _h : readToken owed.length bs with
  | .incomplete => .short owed bs
  | .malformed e => .malformed e
  | .complete (.opens n) rest => scan (n :: owed) rest
  | .complete .whole rest =>
    match settle owed with
    | none => .frame
    | some owed => scan owed rest
termination_by bs.length
decreasing_by
  all_goals exact readToken_shortens _ _ _ _ _h

/-- How many bytes at the front of the buffer have been passed, and the items owed to the arrays
open there, the innermost array in front. -/
structure Framer where
  scanned : Nat := 0
  owed : List Nat := []
  deriving DecidableEq

/-- Takes the next frame off the front of a buffer. After a frame or an error the framer starts
over; until then it does not go back in front of the place it has reached. -/
def Framer.next (f : Framer) (buffer : Bytes) : Framer × Reading Value :=
  let ahead := buffer.drop f.scanned
  match scan f.owed ahead with
  | .frame => ({}, parse buffer)
  | .short owed rest => ({ scanned := f.scanned + (ahead.length - rest.length), owed }, .incomplete)
  | .malformed e => ({}, .malformed e)

/-- A frame that is taken off leaves fewer bytes. -/
theorem Framer.next_shortens (f : Framer) (buffer : Bytes) :
    (f.next buffer).2.Shortens buffer.length := by
  unfold Framer.next
  dsimp only
  split
  · exact readValue_shortens maxDepth buffer
  · exact Reading.shortens_incomplete _
  · exact Reading.shortens_malformed _ _

/-- What is taken off a buffer until no whole frame is left in it. -/
structure Batch where
  /-- the values taken off, in order -/
  commands : List Value
  framer : Framer
  /-- what stays in the buffer -/
  buffer : Bytes
  /-- what was wrong with the bytes that stay -/
  error : Option ProtocolError

/-- Takes frames off; `commands` are those taken off so far, last first. -/
def Framer.drainFrom (commands : List Value) (f : Framer) (buffer : Bytes) : Batch :=
  match _h : f.next buffer with
  | (f', .complete command rest) => Framer.drainFrom (command :: commands) f' rest
  | (f', .incomplete) => ⟨commands.reverse, f', buffer, none⟩
  | (f', .malformed e) => ⟨commands.reverse, f', buffer, some e⟩
termination_by buffer.length
decreasing_by
  exact f.next_shortens buffer command rest (by rw [_h])

def Framer.drain (f : Framer) (buffer : Bytes) : Batch := f.drainFrom [] buffer

end RespCache.Resp
