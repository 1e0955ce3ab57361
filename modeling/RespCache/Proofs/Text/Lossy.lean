import Mathlib.Tactic.SplitIfs
import RespCache.Proofs.Text.Utf8

/-!
Any bytes as text. Where nothing is replaced, the text has the bytes that were read
(`encode_decodeLossy`). The invariant carried through the bytes is `Awaits`: those read since the
last character begin one, and whatever is admitted next goes on with it or completes it.
-/

namespace RespCache.Utf8

/-- With each byte from `low` to `high` that follows, and `after` more behind it, the bytes read
become those of a character. -/
def Completes (low high : UInt8) (bits : Nat) (read : Bytes) : Nat → Prop
  | 0 => ∀ b, low ≤ b → b ≤ high →
      String.utf8EncodeChar (Char.ofNat (64 * bits + (b.toNat - 0x80))) = read ++ [b]
  | after + 1 => ∀ b, low ≤ b → b ≤ high →
      Completes 0x80 0xBF (64 * bits + (b.toNat - 0x80)) (read ++ [b]) after

/-- The bytes read since the last character. -/
def Awaits (read : Bytes) : Option Open → Prop
  | none => read = []
  | some o => Completes o.low o.high o.bits read o.after

/-! ### Characters of several bytes -/

theorem ofNat_eq_of_toNat {n : Nat} {b : UInt8} (h : n = b.toNat) : UInt8.ofNat n = b := by
  rw [h, UInt8.ofNat_toNat]

theorem completes_two {a : UInt8} {bits : Nat} (ha : bits + 0xC0 = a.toNat) (hlow : 2 ≤ bits)
    (hhigh : bits < 32) : Completes 0x80 0xBF bits [a] 0 := by
  intro b hb hb'
  have hb : 0x80 ≤ b.toNat := hb
  have hb' : b.toNat ≤ 0xBF := hb'
  rw [String.utf8EncodeChar, toNat_ofNat_of_valid (by omega), if_neg (by omega),
    if_pos (by omega), ofNat_eq_of_toNat (b := a) (by omega), ofNat_eq_of_toNat (b := b) (by omega)]
  rfl

/-- The second byte keeps out overlong forms and surrogates. -/
theorem completes_three {a low high : UInt8} {bits : Nat} (ha : bits + 0xE0 = a.toNat)
    (hbits : bits < 16) (hlow : 0x80 ≤ low.toNat) (hhigh : high.toNat ≤ 0xBF)
    (hlong : 0xA0 ≤ low.toNat ∨ 0 < bits) (hsurrogate : high.toNat ≤ 0x9F ∨ bits ≠ 13) :
    Completes low high bits [a] 1 := by
  intro b hb hb' c hc hc'
  have hb : low.toNat ≤ b.toNat := hb
  have hb' : b.toNat ≤ high.toNat := hb'
  have hc : 0x80 ≤ c.toNat := hc
  have hc' : c.toNat ≤ 0xBF := hc'
  rw [String.utf8EncodeChar, toNat_ofNat_of_valid (by omega), if_neg (by omega),
    if_neg (by omega), if_pos (by omega), ofNat_eq_of_toNat (b := a) (by omega),
    ofNat_eq_of_toNat (b := b) (by omega), ofNat_eq_of_toNat (b := c) (by omega)]
  rfl

/-- The second byte keeps out overlong forms and what lies above all characters. -/
theorem completes_four {a low high : UInt8} {bits : Nat} (ha : bits + 0xF0 = a.toNat)
    (hbits : bits ≤ 4) (hlow : 0x80 ≤ low.toNat) (hhigh : high.toNat ≤ 0xBF)
    (hlong : 0x90 ≤ low.toNat ∨ 0 < bits) (habove : high.toNat ≤ 0x8F ∨ bits < 4) :
    Completes low high bits [a] 2 := by
  intro b hb hb' c hc hc' d hd hd'
  have hb : low.toNat ≤ b.toNat := hb
  have hb' : b.toNat ≤ high.toNat := hb'
  have hc : 0x80 ≤ c.toNat := hc
  have hc' : c.toNat ≤ 0xBF := hc'
  have hd : 0x80 ≤ d.toNat := hd
  have hd' : d.toNat ≤ 0xBF := hd'
  rw [String.utf8EncodeChar, toNat_ofNat_of_valid (by omega), if_neg (by omega),
    if_neg (by omega), if_neg (by omega), ofNat_eq_of_toNat (b := a) (by omega),
    ofNat_eq_of_toNat (b := b) (by omega), ofNat_eq_of_toNat (b := c) (by omega),
    ofNat_eq_of_toNat (b := d) (by omega)]
  rfl

theorem completes_of_ofLead {b : UInt8} {o : Open} (h : Open.ofLead? b = some o) :
    Completes o.low o.high o.bits [b] o.after := by
  have hle : ∀ m n : UInt8, m ≤ n ↔ m.toNat ≤ n.toNat := fun m n => UInt8.le_iff_toNat_le
  have heq : ∀ n : UInt8, b = n ↔ b.toNat = n.toNat := fun n => UInt8.toNat_inj.symm
  unfold Open.ofLead? at h
  simp only [hle, heq, UInt8.reduceToNat] at h
  split_ifs at h with htwo hE0 hED hthree hF0 hfour hF4
  · obtain rfl := Option.some.inj h
    exact completes_two (Nat.sub_add_cancel (by omega)) (Nat.le_sub_of_add_le htwo.1)
      (Nat.sub_lt_left_of_lt_add (by omega) (by omega))
  · obtain rfl := Option.some.inj h
    exact completes_three hE0.symm (by decide) (by decide) (by decide) (by decide) (by decide)
  · obtain rfl := Option.some.inj h
    exact completes_three hED.symm (by decide) (by decide) (by decide) (by decide) (by decide)
  · obtain rfl := Option.some.inj h
    exact completes_three (Nat.sub_add_cancel (by omega)) (by dsimp only; omega)
      (Nat.le_refl 0x80) (Nat.le_refl 0xBF) (.inr (by dsimp only; omega))
      (.inr (by dsimp only; omega))
  · obtain rfl := Option.some.inj h
    exact completes_four hF0.symm (by decide) (by decide) (by decide) (by decide) (by decide)
  · obtain rfl := Option.some.inj h
    exact completes_four (Nat.sub_add_cancel (by omega)) (by dsimp only; omega)
      (Nat.le_refl 0x80) (Nat.le_refl 0xBF) (.inr (by dsimp only; omega))
      (.inr (by dsimp only; omega))
  · obtain rfl := Option.some.inj h
    exact completes_four hF4.symm (by decide) (by decide) (by decide) (by decide) (by decide)

/-! ### What is read and what is awaited -/

/-- Where a character may begin, a byte that is not replaced is settled or awaits more. -/
theorem start_awaits {b : UInt8} (h : replacement ∉ (start b).1) :
    ∃ read, Awaits read (start b).2 ∧
      (start b).1.reverse.flatMap String.utf8EncodeChar ++ read = [b] := by
  unfold start at h ⊢
  split_ifs at h ⊢ with hone
  · have hone : b.toNat < 0x80 := hone
    refine ⟨[], rfl, ?_⟩
    rw [List.reverse_singleton, List.flatMap_singleton, List.append_nil, String.utf8EncodeChar,
      toNat_ofNat_of_valid (by omega), if_pos (by omega), UInt8.ofNat_toNat]
  · cases hlead : Open.ofLead? b with
    | none =>
        rw [hlead] at h
        exact absurd (List.mem_singleton_self _) h
    | some o => exact ⟨[b], completes_of_ofLead hlead, rfl⟩

theorem push_awaits {o : Open} {read : Bytes} (hread : Awaits read (some o)) {b : UInt8}
    (h : replacement ∉ (o.push b).1) :
    ∃ read', Awaits read' (o.push b).2 ∧
      (o.push b).1.reverse.flatMap String.utf8EncodeChar ++ read' = read ++ [b] := by
  obtain ⟨bits, low, high, after⟩ := o
  have hcompletes : Completes low high bits read after := hread
  unfold Open.push at h ⊢
  split_ifs at h ⊢ with hb
  · cases after with
    | zero =>
        refine ⟨[], rfl, ?_⟩
        rw [List.append_nil]
        dsimp only
        rw [List.reverse_singleton, List.flatMap_singleton]
        exact hcompletes b hb.1 hb.2
    | succ after => exact ⟨read ++ [b], hcompletes b hb.1 hb.2, rfl⟩
  · exact absurd (List.mem_append_right _ (List.mem_singleton_self _)) h

theorem decodeFrom_none_cons (done : List Char) (b : UInt8) (bs : Bytes) :
    decodeFrom done none (b :: bs) = decodeFrom ((start b).1 ++ done) (start b).2 bs := rfl

theorem decodeFrom_some_cons (done : List Char) (o : Open) (b : UInt8) (bs : Bytes) :
    decodeFrom done (some o) (b :: bs) = decodeFrom ((o.push b).1 ++ done) (o.push b).2 bs := rfl

theorem mem_decodeFrom {done : List Char} {c : Char} (hc : c ∈ done) (o : Option Open)
    (bs : Bytes) : c ∈ decodeFrom done o bs := by
  induction bs generalizing done o with
  | nil =>
      cases o with
      | none => exact List.mem_reverse.mpr hc
      | some o => exact List.mem_reverse.mpr (List.mem_cons_of_mem _ hc)
  | cons b bs ih =>
      cases o with
      | none => exact ih (List.mem_append_right _ hc) _
      | some o => exact ih (List.mem_append_right _ hc) _

/-- A byte that settles the characters `cs`, last first, leaves the others to be read on. -/
theorem flatMap_settled {done cs : List Char} {read read' : Bytes} {b : UInt8} (bs : Bytes)
    (h : cs.reverse.flatMap String.utf8EncodeChar ++ read' = read ++ [b]) :
    (cs ++ done).reverse.flatMap String.utf8EncodeChar ++ (read' ++ bs) =
      done.reverse.flatMap String.utf8EncodeChar ++ (read ++ b :: bs) := by
  calc (cs ++ done).reverse.flatMap String.utf8EncodeChar ++ (read' ++ bs)
      = done.reverse.flatMap String.utf8EncodeChar ++
          ((cs.reverse.flatMap String.utf8EncodeChar ++ read') ++ bs) := by simp
    _ = done.reverse.flatMap String.utf8EncodeChar ++ (read ++ b :: bs) := by
        rw [h, List.append_assoc, List.singleton_append]

theorem flatMap_decodeFrom {done : List Char} {o : Option Open} {read bs : Bytes}
    (hread : Awaits read o) (h : replacement ∉ decodeFrom done o bs) :
    (decodeFrom done o bs).flatMap String.utf8EncodeChar =
      done.reverse.flatMap String.utf8EncodeChar ++ (read ++ bs) := by
  induction bs generalizing done o read with
  | nil =>
      cases o with
      | none =>
          have hnone : read = [] := hread
          rw [decodeFrom, hnone, List.append_nil, List.append_nil]
      | some o => exact absurd (List.mem_reverse.mpr (List.mem_cons_self)) h
  | cons b bs ih =>
      cases o with
      | none =>
          rw [decodeFrom_none_cons] at h ⊢
          have hnone : read = [] := hread
          have hkept : replacement ∉ (start b).1 := fun hmem =>
            h (mem_decodeFrom (List.mem_append_left _ hmem) _ _)
          obtain ⟨read', hread', hbytes⟩ := start_awaits hkept
          rw [ih hread' h, hnone]
          exact flatMap_settled bs hbytes
      | some o =>
          rw [decodeFrom_some_cons] at h ⊢
          have hkept : replacement ∉ (o.push b).1 := fun hmem =>
            h (mem_decodeFrom (List.mem_append_left _ hmem) _ _)
          obtain ⟨read', hread', hbytes⟩ := push_awaits hread hkept
          rw [ih hread' h]
          exact flatMap_settled bs hbytes

/-- If nothing is replaced, the text has the bytes that were read. -/
theorem encode_decodeLossy {bs : Bytes} (h : replacement ∉ (decodeLossy bs).toList) :
    encode (decodeLossy bs) = bs := by
  have hstart : Awaits [] none := rfl
  rw [decodeLossy, String.toList_ofList] at h
  rw [encode_eq_flatMap, decodeLossy, String.toList_ofList, flatMap_decodeFrom hstart h]
  rfl

end RespCache.Utf8
