import RespCache.Text.Decimal
import RespCache.Text.Utf8

/-!
RESP values and the bytes that stand for them. A value is one frame: a marker byte, a line, and for
bulk strings and arrays what the line announces. `Value.inductionOn` proves a property of all values
from its items upwards, and equality of values is decidable.
-/

namespace RespCache.Resp

/-- A value on the wire. Bulk strings and arrays also exist as nulls. -/
inductive Value where
  | simple (text : String)
  | error (text : String)
  | integer (n : Int64)
  | bulk (data : Bytes)
  | nullBulk
  | array (items : List Value)
  | nullArray

inductive Marker where
  | simple
  | error
  | integer
  | bulk
  | array
  deriving DecidableEq

namespace Marker

def byte : Marker → UInt8
  | simple => 43
  | error => 45
  | integer => 58
  | bulk => 36
  | array => 42

def ofByte? (b : UInt8) : Option Marker :=
  if b = 43 then some simple
  else if b = 45 then some error
  else if b = 58 then some integer
  else if b = 36 then some bulk
  else if b = 42 then some array
  else none

theorem ofByte?_byte (m : Marker) : ofByte? m.byte = some m := by
  cases m <;> rfl

theorem ofByte?_eq_some_iff {b : UInt8} {m : Marker} : ofByte? b = some m ↔ b = m.byte := by
  constructor
  · intro h
    unfold ofByte? at h
    split at h
    · cases h; assumption
    split at h
    · cases h; assumption
    split at h
    · cases h; assumption
    split at h
    · cases h; assumption
    split at h
    · cases h; assumption
    cases h
  · rintro rfl
    exact ofByte?_byte m

end Marker

/-- A marker, the body of its line, and the CR LF. -/
def headerLine (m : Marker) (body : Bytes) : Bytes := m.byte :: (body ++ Bytes.crlf)

mutual

def Value.encode : Value → Bytes
  | .simple text => headerLine .simple (Utf8.encode text)
  | .error text => headerLine .error (Utf8.encode text)
  | .integer n => headerLine .integer (Decimal.signed n.toInt)
  | .bulk data => headerLine .bulk (Decimal.digits data.length) ++ (data ++ Bytes.crlf)
  | .nullBulk => headerLine .bulk (Decimal.signed (-1))
  | .array items => headerLine .array (Decimal.digits items.length) ++ encodeAll items
  | .nullArray => headerLine .array (Decimal.signed (-1))

def encodeAll : List Value → Bytes
  | [] => []
  | v :: vs => v.encode ++ encodeAll vs

end

@[simp] theorem encodeAll_nil : encodeAll [] = [] := rfl

@[simp] theorem encodeAll_cons (v : Value) (vs : List Value) :
    encodeAll (v :: vs) = v.encode ++ encodeAll vs := rfl

theorem encodeAll_append (vs ws : List Value) :
    encodeAll (vs ++ ws) = encodeAll vs ++ encodeAll ws := by
  induction vs with
  | nil => rfl
  | cons v vs ih => simp [ih]

/-- The reply of a command that has nothing to tell. -/
def Value.ok : Value := .simple "OK"

/-- What holds of an array as soon as it holds of its items holds of every value. -/
theorem Value.inductionOn {motive : Value → Prop}
    (simple : ∀ text, motive (.simple text)) (error : ∀ text, motive (.error text))
    (integer : ∀ n, motive (.integer n)) (bulk : ∀ data, motive (.bulk data))
    (nullBulk : motive .nullBulk) (array : ∀ items, (∀ v ∈ items, motive v) → motive (.array items))
    (nullArray : motive .nullArray) : ∀ v, motive v
  | .simple text => simple text
  | .error text => error text
  | .integer n => integer n
  | .bulk data => bulk data
  | .nullBulk => nullBulk
  | .array items => array items fun v _ =>
      Value.inductionOn simple error integer bulk nullBulk array nullArray v
  | .nullArray => nullArray

mutual

def Value.same : Value → Value → Bool
  | .simple s, .simple t => s == t
  | .error s, .error t => s == t
  | .integer m, .integer n => m == n
  | .bulk c, .bulk d => c == d
  | .nullBulk, .nullBulk => true
  | .array vs, .array ws => sameAll vs ws
  | .nullArray, .nullArray => true
  | _, _ => false

def sameAll : List Value → List Value → Bool
  | [], [] => true
  | v :: vs, w :: ws => v.same w && sameAll vs ws
  | _, _ => false

end

theorem sameAll_eq_true_iff {vs ws : List Value}
    (h : ∀ v ∈ vs, ∀ w, v.same w = true ↔ v = w) : sameAll vs ws = true ↔ vs = ws := by
  induction vs generalizing ws with
  | nil => cases ws <;> simp [sameAll]
  | cons v vs ih =>
    cases ws with
    | nil => simp [sameAll]
    | cons w ws =>
      have hv := h v (by simp) w
      have hvs : sameAll vs ws = true ↔ vs = ws := ih fun x hx => h x (by simp [hx])
      simp [sameAll, hv, hvs]

theorem Value.same_eq_true_iff (v w : Value) : v.same w = true ↔ v = w := by
  induction v using Value.inductionOn generalizing w with
  | array items ih =>
    cases w <;> simp [Value.same]
    exact sameAll_eq_true_iff ih
  | simple => cases w <;> simp [Value.same]
  | error => cases w <;> simp [Value.same]
  | integer => cases w <;> simp [Value.same]
  | bulk => cases w <;> simp [Value.same]
  | nullBulk => cases w <;> simp [Value.same]
  | nullArray => cases w <;> simp [Value.same]

instance : DecidableEq Value := fun v w => decidable_of_iff _ (v.same_eq_true_iff w)

end RespCache.Resp
