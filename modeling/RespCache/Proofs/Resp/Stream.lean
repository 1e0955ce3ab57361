import RespCache.Proofs.Resp.Intake
import RespCache.Proofs.Resp.Places
import RespCache.Proofs.Resp.RoundTrip

/-!
All values at the front of a byte string. What is read stays as it is when more bytes come
(`parse_append`), so the values can be read off piece by piece: what a front part holds stays, and
the reading goes on where that part was left (`parseAll_append_of_idle`, `parseAll_append_of_error`).
A framer that stands at a buffer takes off these values (`Framer.At.drain_eq`). Values that are
written one after the other are the values that the bytes hold, as far as they are well formed
(`parseAll_encodeAll_eq_iff`).
-/

namespace RespCache.Resp

/-- What a byte string holds: the values at its front, the bytes behind the last whole one, and what
is wrong with those. -/
structure Parsed where
  values : List Value
  rest : Bytes
  error : Option ProtocolError

/-- Reads values off the front until none is whole. -/
def parseAll (bs : Bytes) : Parsed :=
  match _h : parse bs with
  | .complete v rest =>
    let after := parseAll rest
    ⟨v :: after.values, after.rest, after.error⟩
  | .incomplete => ⟨[], bs, none⟩
  | .malformed e => ⟨[], bs, some e⟩
termination_by bs.length
decreasing_by exact readValue_shortens maxDepth bs v rest _h

theorem parseAll_of_complete {bs : Bytes} {v : Value} {rest : Bytes}
    (h : parse bs = .complete v rest) :
    parseAll bs = ⟨v :: (parseAll rest).values, (parseAll rest).rest, (parseAll rest).error⟩ := by
  rw [parseAll]
  split
  case h_1 v' rest' h' =>
    cases h.symm.trans h'
    rfl
  case h_2 h' => cases h.symm.trans h'
  case h_3 h' => cases h.symm.trans h'

theorem parseAll_of_incomplete {bs : Bytes} (h : parse bs = .incomplete) :
    parseAll bs = ⟨[], bs, none⟩ := by
  rw [parseAll]
  split
  case h_1 h' => cases h.symm.trans h'
  case h_2 => rfl
  case h_3 h' => cases h.symm.trans h'

theorem parseAll_of_malformed {bs : Bytes} {e : ProtocolError} (h : parse bs = .malformed e) :
    parseAll bs = ⟨[], bs, some e⟩ := by
  rw [parseAll]
  split
  case h_1 h' => cases h.symm.trans h'
  case h_2 h' => cases h.symm.trans h'
  case h_3 e' h' =>
    cases h.symm.trans h'
    rfl

theorem parse_append_of_complete {bs : Bytes} {v : Value} {rest : Bytes}
    (h : parse bs = .complete v rest) (more : Bytes) :
    parse (bs ++ more) = .complete v (rest ++ more) := by
  obtain ⟨w, rfl, hw⟩ := parse_final.complete h
  rw [List.append_assoc, hw]

/-- More bytes change neither a value that was read nor an error. Taking a value off a buffer gives
up what was read; a buffer that gives no value stays as it is. So every part in front of a whole
frame, but the frame itself, asks for more. -/
theorem parse_append (p q : Bytes) :
    (∀ v rest, parse p = .complete v rest →
        parseAt p = .ok (.ok (some v), rest) ∧ parse (p ++ q) = .complete v (rest ++ q)) ∧
      (∀ e, parse p = .malformed e →
        parseAt p = .ok (.error e, p) ∧ parse (p ++ q) = .malformed e) ∧
      (parse p = .incomplete → parseAt p = .ok (.ok none, p)) ∧
      ∀ v, parse (p ++ q) = .complete v [] → q ≠ [] → parse p = .incomplete := by
  have hstep := parseAt_eq p
  refine ⟨fun v rest h => ?_, fun e h => ?_, fun h => ?_, ?_⟩
  · rw [h] at hstep
    exact ⟨hstep, parse_append_of_complete h q⟩
  · rw [h] at hstep
    exact ⟨hstep, parse_final.malformed h q⟩
  · rw [h] at hstep
    exact hstep
  · intro v hwhole hq
    cases hparse : parse p with
    | incomplete => rfl
    | complete u rest =>
        -- the bytes in `q` would be left over
        have hread := (parse_append_of_complete hparse q).symm.trans hwhole
        rw [Reading.complete.injEq, List.append_eq_nil_iff] at hread
        exact absurd hread.2.2 hq
    | malformed e => cases hwhole.symm.trans (parse_final.malformed hparse q)

/-- An array of two numbers that is cut inside the second one, a text with the beginning of a number
behind it, and a wrong length. -/
theorem parse_append_of_cut :
    (parse ([42, 50, 13, 10, 58, 55, 13, 10, 58, 56] ++ [13, 10]) =
        .complete (.array [.integer 7, .integer 8]) [] ∧
      parse [42, 50, 13, 10, 58, 55, 13, 10, 58, 56] = .incomplete) ∧
    (parseAt [43, 79, 75, 13, 10, 58] = .ok (.ok (some (.simple "OK")), [58]) ∧
      parse ([43, 79, 75, 13, 10, 58] ++ [55, 13, 10]) =
        .complete (.simple "OK") ([58] ++ [55, 13, 10])) ∧
    parseAt [42, 120, 13, 10] = .ok (.error .invalidInteger, [42, 120, 13, 10]) ∧
      parse ([42, 120, 13, 10] ++ [58, 55, 13, 10]) = .malformed .invalidInteger := by
  have hwhole : parse ([42, 50, 13, 10, 58, 55, 13, 10, 58, 56] ++ [13, 10]) =
      .complete (.array [.integer 7, .integer 8]) [] := rfl
  have hread : parse [43, 79, 75, 13, 10, 58] = .complete (.simple "OK") [58] := rfl
  have hwrong : parse [42, 120, 13, 10] = .malformed .invalidInteger := rfl
  obtain ⟨-, -, -, hcut⟩ := parse_append [42, 50, 13, 10, 58, 55, 13, 10, 58, 56] [13, 10]
  obtain ⟨htext, -⟩ := parse_append [43, 79, 75, 13, 10, 58] [55, 13, 10]
  obtain ⟨-, herror, -⟩ := parse_append [42, 120, 13, 10] [58, 55, 13, 10]
  exact ⟨⟨hwhole, hcut _ hwhole (by simp)⟩, htext _ _ hread, herror _ hwrong⟩

/-- Nothing more can be read from the bytes that are left. -/
theorem parse_rest_of_idle {bs : Bytes} (h : (parseAll bs).error = none) :
    parse (parseAll bs).rest = .incomplete := by
  fun_induction parseAll bs with
  | case1 bs v rest hread after ih => exact ih h
  | case2 bs hread => exact hread
  | case3 bs e hread => cases h

/-- With more bytes the reading goes on behind the values that are there. -/
theorem parseAll_append_of_idle {bs : Bytes} (h : (parseAll bs).error = none) (more : Bytes) :
    parseAll (bs ++ more) =
      ⟨(parseAll bs).values ++ (parseAll ((parseAll bs).rest ++ more)).values,
        (parseAll ((parseAll bs).rest ++ more)).rest,
        (parseAll ((parseAll bs).rest ++ more)).error⟩ := by
  fun_induction parseAll bs with
  | case1 bs v rest hread after ih =>
      rw [parseAll_of_complete (parse_append_of_complete hread more), ih h]
      rfl
  | case2 bs hread => rfl
  | case3 bs e hread => cases h

/-- An error stays where it is. -/
theorem parseAll_append_of_error {bs : Bytes} {e : ProtocolError}
    (h : (parseAll bs).error = some e) (more : Bytes) :
    parseAll (bs ++ more) = ⟨(parseAll bs).values, (parseAll bs).rest ++ more, some e⟩ := by
  fun_induction parseAll bs with
  | case1 bs v rest hread after ih =>
      rw [parseAll_of_complete (parse_append_of_complete hread more), ih h]
  | case2 bs hread => cases h
  | case3 bs e' hread =>
      cases h
      exact parseAll_of_malformed (parse_final.malformed hread more)

namespace Framer

theorem At.drainFrom_eq {f : Framer} {buffer : Bytes} (hf : f.At buffer) (commands : List Value) :
    ∃ framer, f.drainFrom commands buffer = ⟨commands.reverse ++ (parseAll buffer).values, framer,
      (parseAll buffer).rest, (parseAll buffer).error⟩ ∧ framer.At (parseAll buffer).rest := by
  have hparse := hf.next_eq_parse
  have hleft := hf.next
  fun_induction Framer.drainFrom commands f buffer with
  | case1 commands f buffer f' command rest hnext ih =>
      simp only [hnext] at hparse hleft
      obtain ⟨framer, hdrain, hrest⟩ := ih hleft hleft.next_eq_parse hleft.next
      rw [parseAll_of_complete hparse.symm]
      exact ⟨framer, by simp [hdrain], hrest⟩
  | case2 commands f buffer f' hnext =>
      simp only [hnext] at hparse hleft
      rw [parseAll_of_incomplete hparse.symm]
      exact ⟨f', by simp, hleft⟩
  | case3 commands f buffer f' e hnext =>
      simp only [hnext] at hparse hleft
      rw [parseAll_of_malformed hparse.symm]
      exact ⟨f', by simp, hleft⟩

theorem At.drain_eq {f : Framer} {buffer : Bytes} (hf : f.At buffer) :
    ∃ framer, f.drain buffer = ⟨(parseAll buffer).values, framer, (parseAll buffer).rest,
      (parseAll buffer).error⟩ ∧ framer.At (parseAll buffer).rest :=
  hf.drainFrom_eq []

section Drain

variable {f f' : Framer} {buffer : Bytes}

theorem drainFrom_of_complete {command : Value} {rest : Bytes}
    (h : f.next buffer = (f', .complete command rest)) (commands : List Value) :
    f.drainFrom commands buffer = f'.drainFrom (command :: commands) rest := by
  rw [drainFrom]
  split
  case h_1 h' =>
    cases h.symm.trans h'
    rfl
  case h_2 h' => cases h.symm.trans h'
  case h_3 h' => cases h.symm.trans h'

theorem drainFrom_of_incomplete (h : f.next buffer = (f', .incomplete)) (commands : List Value) :
    f.drainFrom commands buffer = ⟨commands.reverse, f', buffer, none⟩ := by
  rw [drainFrom]
  split
  case h_1 h' => cases h.symm.trans h'
  case h_2 h' =>
    cases h.symm.trans h'
    rfl
  case h_3 h' => cases h.symm.trans h'

theorem drainFrom_of_malformed {e : ProtocolError} (h : f.next buffer = (f', .malformed e))
    (commands : List Value) :
    f.drainFrom commands buffer = ⟨commands.reverse, f', buffer, some e⟩ := by
  rw [drainFrom]
  split
  case h_1 h' => cases h.symm.trans h'
  case h_2 h' => cases h.symm.trans h'
  case h_3 h' =>
    cases h.symm.trans h'
    rfl

theorem drainFrom_append (front commands : List Value) (f : Framer) (buffer : Bytes) :
    f.drainFrom (front ++ commands) buffer =
      { f.drainFrom front buffer with
        commands := commands.reverse ++ (f.drainFrom front buffer).commands } := by
  fun_induction Framer.drainFrom front f buffer with
  | case1 front f buffer f' command rest hnext ih =>
      rw [drainFrom_of_complete hnext]
      exact ih
  | case2 front f buffer f' hnext =>
      rw [drainFrom_of_incomplete hnext]
      simp
  | case3 front f buffer f' e hnext =>
      rw [drainFrom_of_malformed hnext]
      simp

/-- A frame that is taken off is the first command. -/
theorem drain_of_complete {command : Value} {rest : Bytes}
    (h : f.next buffer = (f', .complete command rest)) :
    f.drain buffer = { f'.drain rest with commands := command :: (f'.drain rest).commands } := by
  rw [drain, drainFrom_of_complete h]
  exact drainFrom_append [] [command] f' rest

end Drain

/-- After an error the framer is a new one. -/
theorem framer_drainFrom_of_error {f : Framer} {commands : List Value} {buffer : Bytes}
    {e : ProtocolError} (h : (f.drainFrom commands buffer).error = some e) :
    (f.drainFrom commands buffer).framer = {} := by
  fun_induction Framer.drainFrom commands f buffer with
  | case1 commands f buffer f' command rest hnext ih => exact ih h
  | case2 => cases h
  | case3 commands f buffer f' e' hnext =>
      have herror : (f.next buffer).2 = .malformed e' := by rw [hnext]
      have hnew := next_of_malformed herror
      rwa [hnext] at hnew

end Framer

/-! ### Values written one after the other -/

theorem wellFormed_of_mem_values {bs : Bytes} {v : Value} (hv : v ∈ (parseAll bs).values) :
    v.WellFormed := by
  fun_induction parseAll bs with
  | case1 bs u rest hread after ih =>
      rcases List.mem_cons.mp hv with rfl | hv
      · exact Value.wellFormedAt_zero_iff.mp (wellFormedAt_of_readValue (Nat.zero_add _) hread)
      · exact ih hv
  | case2 => cases hv
  | case3 => cases hv

/-- Written one after the other, values are read back as they are if each of them is well formed, and
not otherwise. -/
theorem parseAll_encodeAll_eq_iff {vs : List Value} :
    parseAll (encodeAll vs) = ⟨vs, [], none⟩ ↔ ∀ v ∈ vs, v.WellFormed := by
  constructor
  · intro h v hv
    have hread : v ∈ (parseAll (encodeAll vs)).values := by
      rwa [h]
    exact wellFormed_of_mem_values hread
  · intro hvs
    induction vs with
    | nil => exact parseAll_of_incomplete rfl
    | cons v vs ih =>
        rw [List.forall_mem_cons] at hvs
        have hread : parse (encodeAll (v :: vs)) = .complete v (encodeAll vs) :=
          reads_encode (Nat.zero_add _) (Value.wellFormedAt_zero_iff.mpr hvs.1) (encodeAll vs)
        rw [parseAll_of_complete hread, ih hvs.2]

end RespCache.Resp
