import RespCache.Bytes

/-!
Which bodies can stand in a line. `Bytes.splitLine` cuts at the first CR LF, so the bodies it gives
are the byte strings without one, and each of them is given back whatever follows
(`splitLine_eq_some_iff`). A body may end in a lone CR. Of two ways to write the same thing one can be
the other one or shorter than it (`SameOrShorter`), piece by piece.
-/

namespace RespCache.Bytes

/-- There is no CR LF in these bytes. -/
def Unbroken (bs : Bytes) : Prop := ¬crlf <:+: bs

theorem unbroken_nil : Unbroken [] := by
  simp [Unbroken, crlf]

theorem unbroken_cons_iff {b : UInt8} {bs : Bytes} :
    Unbroken (b :: bs) ↔ ¬(b = 13 ∧ ∃ rest, bs = 10 :: rest) ∧ Unbroken bs := by
  have hhead : crlf <+: b :: bs ↔ b = 13 ∧ ∃ rest, bs = 10 :: rest := by
    cases bs with
    | nil => simp [crlf]
    | cons c bs => simp [crlf, eq_comm]
  rw [Unbroken, Unbroken, List.infix_cons_iff, hhead, not_or]

theorem splitLineFrom_eq_some_iff {seen bs line rest : Bytes} :
    splitLineFrom seen bs = some (line, rest) ↔
      ∃ body, line = seen.reverse ++ body ∧ Unbroken body ∧ bs = body ++ (crlf ++ rest) := by
  fun_induction splitLineFrom seen bs with
  | case1 seen => simp [crlf]
  | case2 seen rest' =>
      constructor
      · intro h
        cases h
        exact ⟨[], by simp, unbroken_nil, rfl⟩
      · rintro ⟨body, rfl, hbody, hbs⟩
        cases body with
        | nil =>
            cases hbs
            simp
        | cons b body =>
            -- a body that begins with CR goes on with the LF of this line
            obtain ⟨hb, htail⟩ := List.cons.inj hbs
            cases body with
            | nil => simp [crlf] at htail
            | cons c body =>
                obtain ⟨hc, -⟩ := List.cons.inj htail
                exact absurd ⟨hb.symm, body, by rw [← hc]⟩ (unbroken_cons_iff.mp hbody).1
  | case3 seen b bs hne ih =>
      rw [ih]
      constructor
      · rintro ⟨body, rfl, hbody, rfl⟩
        refine ⟨b :: body, by simp, unbroken_cons_iff.mpr ⟨?_, hbody⟩, rfl⟩
        rintro ⟨hb, tail, rfl⟩
        exact hne _ hb rfl
      · rintro ⟨body, rfl, hbody, hbs⟩
        cases body with
        | nil =>
            obtain ⟨hb, htail⟩ := List.cons.inj hbs
            exact absurd htail (hne _ hb)
        | cons c body =>
            obtain ⟨hc, htail⟩ := List.cons.inj hbs
            rw [hc]
            exact ⟨body, by simp, (unbroken_cons_iff.mp hbody).2, htail⟩

theorem splitLine_eq_some_iff {bs line rest : Bytes} :
    splitLine bs = some (line, rest) ↔ Unbroken line ∧ bs = line ++ (crlf ++ rest) := by
  rw [splitLine, splitLineFrom_eq_some_iff]
  simp

/-! ### Shorter byte strings -/

/-- The same bytes, or fewer. -/
def SameOrShorter (bs cs : Bytes) : Prop := bs = cs ∨ bs.length < cs.length

namespace SameOrShorter

variable {bs cs bs' cs' : Bytes}

theorem refl (bs : Bytes) : bs.SameOrShorter bs := Or.inl rfl

theorem length_le (h : bs.SameOrShorter cs) : bs.length ≤ cs.length := by
  rcases h with rfl | hlt
  · exact Nat.le_refl _
  · exact Nat.le_of_lt hlt

theorem length_eq_iff (h : bs.SameOrShorter cs) : bs.length = cs.length ↔ bs = cs := by
  rcases h with rfl | hlt
  · simp
  · exact ⟨fun heq => absurd heq (Nat.ne_of_lt hlt), congrArg List.length⟩

theorem append (h : bs.SameOrShorter cs) (h' : bs'.SameOrShorter cs') :
    SameOrShorter (bs ++ bs') (cs ++ cs') := by
  have hle := h.length_le
  have hle' := h'.length_le
  rcases h with rfl | hlt
  · rcases h' with rfl | hlt'
    · exact .refl _
    · right
      simpa using hlt'
  · right
    simp only [List.length_append]
    omega

theorem cons (b : UInt8) (h : bs.SameOrShorter cs) : SameOrShorter (b :: bs) (b :: cs) :=
  (refl [b]).append h

end SameOrShorter

end RespCache.Bytes
