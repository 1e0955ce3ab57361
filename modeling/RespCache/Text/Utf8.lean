import RespCache.Bytes

/-!
Text as bytes. `decode?` accepts exactly the well-formed encodings; `decodeLossy` accepts everything
and puts U+FFFD in the place of each maximal piece that begins like a character and is not one.
-/

namespace RespCache.Utf8

def encode (s : String) : Bytes := s.toByteArray.data.toList

/-- The text whose bytes these are, if they are well formed. -/
def decode? (bs : Bytes) : Option String := String.fromUTF8? bs.toByteArray

/-- A character of which the first bytes have been read. -/
structure Open where
  /-- the bits read so far -/
  bits : Nat
  /-- the least byte that may come next -/
  low : UInt8
  /-- the greatest byte that may come next -/
  high : UInt8
  /-- how many bytes follow that one -/
  after : Nat

/-- What a first byte of two, three or four begins. The narrow ranges of the second byte keep out
overlong forms, surrogates and what lies above U+10FFFF. -/
def Open.ofLead? (b : UInt8) : Option Open :=
  if 0xC2 ≤ b ∧ b ≤ 0xDF then some ⟨b.toNat - 0xC0, 0x80, 0xBF, 0⟩
  else if b = 0xE0 then some ⟨0, 0xA0, 0xBF, 1⟩
  else if b = 0xED then some ⟨13, 0x80, 0x9F, 1⟩
  else if 0xE1 ≤ b ∧ b ≤ 0xEF then some ⟨b.toNat - 0xE0, 0x80, 0xBF, 1⟩
  else if b = 0xF0 then some ⟨0, 0x90, 0xBF, 2⟩
  else if 0xF1 ≤ b ∧ b ≤ 0xF3 then some ⟨b.toNat - 0xF0, 0x80, 0xBF, 2⟩
  else if b = 0xF4 then some ⟨4, 0x80, 0x8F, 2⟩
  else none

def replacement : Char := '\uFFFD'

/-- A byte where a character may begin: the characters it settles, last first, and what it opens. -/
def start (b : UInt8) : List Char × Option Open :=
  if b < 0x80 then ([Char.ofNat b.toNat], none)
  else match Open.ofLead? b with
    | some o => ([], some o)
    | none => ([replacement], none)

/-- A byte inside a character. One that does not fit ends the piece before it and is looked at anew.
-/
def Open.push (o : Open) (b : UInt8) : List Char × Option Open :=
  if o.low ≤ b ∧ b ≤ o.high then
    let bits := 64 * o.bits + (b.toNat - 0x80)
    match o.after with
    | 0 => ([Char.ofNat bits], none)
    | after + 1 => ([], some ⟨bits, 0x80, 0xBF, after⟩)
  else
    let (cs, o') := start b
    (cs ++ [replacement], o')

/-- Decodes on; `done` holds the characters so far, last first. -/
def decodeFrom (done : List Char) : Option Open → Bytes → List Char
  | none, [] => done.reverse
  | some _, [] => (replacement :: done).reverse
  | none, b :: bs =>
    let (cs, o) := start b
    decodeFrom (cs ++ done) o bs
  | some o, b :: bs =>
    let (cs, o') := o.push b
    decodeFrom (cs ++ done) o' bs

def decodeLossy (bs : Bytes) : String := String.ofList (decodeFrom [] none bs)

end RespCache.Utf8
