import Mathlib.Data.Quot
import RespCache.Proofs.Cache.Plain

/-!
Keys that count as equal. A cache asks of its keys that equality is an equivalence, and that keys
that count as equal have one hash; such keys need not be the same. Its rule can then be told with
names in place of the keys, as long as the names tell apart what counts as different (`Faithful`).
Where equal keys are the same, a key may be its own name; otherwise the class of a key is one
(`KeyClass`).
-/

namespace RespCache

universe u v w

variable {κ : Type u} {κ' : Type w} {ν : Type v}

/-- The same operation with other names for the keys. -/
def Cache.Op.rename (f : κ → κ') : Cache.Op κ ν → Cache.Op κ' ν
  | .set key value => .set (f key) value
  | .get key => .get (f key)
  | .contains key => .contains (f key)
  | .size => .size
  | .isEmpty => .isEmpty
  | .clear => .clear

theorem Cache.Op.rename_id (op : Cache.Op κ ν) : op.rename id = op := by
  cases op <;> rfl

variable [BEq κ]

/-- Keys count as equal if their names do, and not otherwise. -/
def Faithful [BEq κ'] (f : κ → κ') : Prop := ∀ a b, (f a == f b) = (a == b)

theorem faithful_id : Faithful (id : κ → κ) := fun _ _ => rfl

theorem Faithful.eq_iff [BEq κ'] [LawfulBEq κ'] {f : κ → κ'} (hf : Faithful f) {a b : κ} :
    f a = f b ↔ (a == b) = true := by
  rw [← hf a b, beq_iff_eq]

def keySetoid (κ : Type u) [BEq κ] [EquivBEq κ] : Setoid κ where
  r a b := (a == b) = true
  iseqv := ⟨fun _ => BEq.rfl, BEq.symm, BEq.trans⟩

/-- Keys, with those that count as equal taken for one. -/
def KeyClass (κ : Type u) [BEq κ] [EquivBEq κ] : Type u := Quotient (keySetoid κ)

namespace KeyClass

variable [EquivBEq κ]

def of (key : κ) : KeyClass κ := Quotient.mk _ key

instance : BEq (KeyClass κ) where
  beq := Quotient.lift₂ (· == ·) fun _ _ _ _ ha hb =>
    (BEq.congr_left ha).trans (BEq.congr_right hb)

theorem faithful_of : Faithful (of : κ → KeyClass κ) := fun _ _ => rfl

instance : LawfulBEq (KeyClass κ) where
  rfl {a} := by
    induction a using Quotient.ind with
    | _ key => exact (BEq.rfl : (key == key) = true)
  eq_of_beq {a b} h := by
    induction a, b using Quotient.ind₂ with
    | _ key key' => exact Quotient.sound h

end KeyClass

end RespCache
