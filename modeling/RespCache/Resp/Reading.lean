import RespCache.Resp.ProtocolError
import RespCache.Text.Decimal
import RespCache.Text.Utf8

/-!
Reading from the front of a byte string that may still grow. A reading is complete, or it needs more
bytes, or the bytes are wrong whatever comes after them. The pieces of frames are read here: lines
of text, integers and lengths, and the payload of a bulk string. Each takes something off the front
when it is complete (`Reading.Shortens`).
-/

namespace RespCache.Resp

universe u v

inductive Reading (α : Type u) where
  | complete (value : α) (rest : Bytes)
  | incomplete
  | malformed (error : ProtocolError)

namespace Reading

variable {α : Type u} {β : Type v}

@[inline] def andThen (r : Reading α) (f : α → Bytes → Reading β) : Reading β :=
  match r with
  | complete value rest => f value rest
  | incomplete => incomplete
  | malformed e => malformed e

@[inline] def map (f : α → β) (r : Reading α) : Reading β :=
  r.andThen fun value rest => complete (f value) rest

/-- A complete reading leaves fewer bytes than `n`. -/
def Shortens (n : Nat) (r : Reading α) : Prop :=
  ∀ value rest, r = complete value rest → rest.length < n

theorem shortens_incomplete (n : Nat) : Shortens n (incomplete : Reading α) := nofun

theorem shortens_malformed (n : Nat) (e : ProtocolError) : Shortens n (malformed e : Reading α) :=
  nofun

theorem shortens_complete {n : Nat} {value : α} {rest : Bytes} (h : rest.length < n) :
    Shortens n (complete value rest) := by
  rintro _ _ ⟨⟩
  exact h

/-- What is read after a complete reading only has to leave no more than that did. -/
theorem Shortens.andThen {n : Nat} {r : Reading α} {f : α → Bytes → Reading β} (hr : r.Shortens n)
    (hf : ∀ value rest, rest.length < n → (f value rest).Shortens n) :
    (r.andThen f).Shortens n := by
  cases r with
  | complete value rest => exact hf value rest (hr value rest rfl)
  | incomplete => exact shortens_incomplete n
  | malformed e => exact shortens_malformed n e

theorem Shortens.map {n : Nat} {r : Reading α} (f : α → β) (hr : r.Shortens n) :
    (r.map f).Shortens n :=
  hr.andThen fun _ _ h => shortens_complete h

theorem Shortens.mono {m n : Nat} {r : Reading α} (hr : r.Shortens m) (h : m ≤ n) : r.Shortens n :=
  fun value rest e => Nat.lt_of_lt_of_le (hr value rest e) h

end Reading

def readLine (bs : Bytes) : Reading Bytes :=
  match bs.splitLine with
  | some (line, rest) => .complete line rest
  | none => .incomplete

def readText (bs : Bytes) : Reading String :=
  (readLine bs).andThen fun line rest =>
    match Utf8.decode? line with
    | some text => .complete text rest
    | none => .malformed .invalidUtf8

def readInteger (bs : Bytes) : Reading Int64 :=
  (readLine bs).andThen fun line rest =>
    match Decimal.int64? line with
    | some n => .complete n rest
    | none => .malformed .invalidInteger

/-- A line with a length; the length -1 announces a null. -/
def readLength (kind : Sized) (bs : Bytes) : Reading (Option Nat) :=
  (readInteger bs).andThen fun n rest =>
    if n = -1 then .complete none rest
    else if n < -1 then .malformed (.invalidLength n)
    else if kind.limit < n.toInt.toNat then .malformed (.tooLarge kind n.toInt.toNat)
    else .complete (some n.toInt.toNat) rest

/-- The payload of a bulk string, with its CR LF. Whether that is there is looked at only when two
bytes follow the payload. -/
def readPayload (length : Nat) (bs : Bytes) : Reading Bytes :=
  match bs.drop length with
  | 13 :: 10 :: rest => .complete (bs.take length) rest
  | _ :: _ :: _ => .malformed .missingTerminator
  | _ => .incomplete

theorem readLine_shortens (bs : Bytes) : (readLine bs).Shortens bs.length := by
  unfold readLine
  split
  case h_1 line rest h => exact Reading.shortens_complete (Bytes.length_lt_of_splitLine h)
  case h_2 => exact Reading.shortens_incomplete _

theorem readText_shortens (bs : Bytes) : (readText bs).Shortens bs.length := by
  refine (readLine_shortens bs).andThen fun line rest h => ?_
  split
  · exact Reading.shortens_complete h
  · exact Reading.shortens_malformed _ _

theorem readInteger_shortens (bs : Bytes) : (readInteger bs).Shortens bs.length := by
  refine (readLine_shortens bs).andThen fun line rest h => ?_
  split
  · exact Reading.shortens_complete h
  · exact Reading.shortens_malformed _ _

theorem readLength_shortens (kind : Sized) (bs : Bytes) :
    (readLength kind bs).Shortens bs.length := by
  refine (readInteger_shortens bs).andThen fun n rest h => ?_
  split
  · exact Reading.shortens_complete h
  split
  · exact Reading.shortens_malformed _ _
  split
  · exact Reading.shortens_malformed _ _
  · exact Reading.shortens_complete h

theorem readPayload_shortens (length : Nat) (bs : Bytes) :
    (readPayload length bs).Shortens bs.length := by
  unfold readPayload
  split
  case h_1 rest h =>
    refine Reading.shortens_complete ?_
    have : (bs.drop length).length = rest.length + 2 := by simp [h]
    rw [List.length_drop] at this
    omega
  case h_2 => exact Reading.shortens_malformed _ _
  case h_3 => exact Reading.shortens_incomplete _

end RespCache.Resp
